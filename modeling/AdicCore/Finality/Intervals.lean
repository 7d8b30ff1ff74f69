import AdicCore.Finality.ReductionRun
import AdicCore.Library.Barcode

open AdicModel.Finality Submodule Elimination Homology Barcode

namespace AdicProof.Finality

section

variable {ι : Type} [DecidableEq ι]

def leadOf (cells : List ι) (matrix : BoundaryMatrix) (s : ι) : Option ι :=
  (matrix.lowestFace (cells.idxOf s)).bind fun pivot => cells[pivot]?

noncomputable def reducedOf (cells : List ι) (matrix : BoundaryMatrix) (s : ι) : ι →₀ ZMod 2 :=
  (matrix.columns[cells.idxOf s]?).elim 0 (chain cells)

def gradeAt (cells : List ι) (grade : ι → ℕ) (i : Nat) : Nat := (cells[i]?).elim 0 grade

structure Represents (cells : List ι) (boundary : (ι →₀ ZMod 2) →ₗ[ZMod 2] ι →₀ ZMod 2)
    (columns : List Column) : Prop where
  nodup : cells.Nodup
  size : columns.length = cells.length
  boundaries : ∀ (col : Nat) cell original, cells[col]? = some cell → columns[col]? = some original →
    chain cells original = column boundary cell

theorem getElem?_idxOf {cells : List ι} {s : ι} (member : s ∈ cells) : cells[cells.idxOf s]? = some s := by
  rw [List.getElem?_eq_getElem (List.idxOf_lt_length_of_mem member), List.getElem_idxOf]

theorem idxOf_eq {cells : List ι} (nodup : cells.Nodup) {i : Nat} {s : ι} (found : cells[i]? = some s) :
    cells.idxOf s = i := by
  obtain ⟨bound, value⟩ := List.getElem?_eq_some_iff.mp found
  subst value
  exact nodup.idxOf_getElem i bound

section

variable {cells : List ι} {grade : ι → ℕ} {boundary : (ι →₀ ZMod 2) →ₗ[ZMod 2] ι →₀ ZMod 2}
  {initial : List Column} {matrix : BoundaryMatrix}

omit [DecidableEq ι] in
theorem gradeAt_eq {i : Nat} {s : ι} (found : cells[i]? = some s) : gradeAt cells grade i = grade s := by
  rw [gradeAt, found]
  rfl

theorem leadOf_eq_some {s x : ι} :
    leadOf cells matrix s = some x ↔
      ∃ pivot, matrix.lowestFace (cells.idxOf s) = some pivot ∧ cells[pivot]? = some x :=
  Option.bind_eq_some_iff

theorem Reducing.reduction (represents : Represents cells boundary initial)
    (complex : ChainComplex cells.toFinset grade boundary)
    (reducing : Reducing cells (gradeAt cells grade) initial initial.length matrix) :
    Reduction cells.toFinset cells.idxOf grade (column boundary) (reducedOf cells matrix)
      (leadOf cells matrix) := by
  have atCell : ∀ s ∈ cells, ∃ found original, matrix.columns[cells.idxOf s]? = some found ∧
      initial[cells.idxOf s]? = some original ∧ chain cells original = column boundary s := by
    intro s member
    have below : cells.idxOf s < cells.length := List.idxOf_lt_length_of_mem member
    have inMatrix : cells.idxOf s < matrix.columns.length := by
      rw [reducing.size, represents.size]
      exact below
    have inInitial : cells.idxOf s < initial.length := by
      rw [represents.size]
      exact below
    refine ⟨_, _, List.getElem?_eq_getElem inMatrix, List.getElem?_eq_getElem inInitial, ?_⟩
    exact represents.boundaries _ s _ (getElem?_idxOf member) (List.getElem?_eq_getElem inInitial)
  refine ⟨complex.inside, ?_, ?_, ?_, ?_, ?_⟩
  · intro s inside
    have member := List.mem_toFinset.mp inside
    obtain ⟨found, original, inMatrix, inInitial, value⟩ := atCell s member
    have change := reducing.combined _ found original inMatrix inInitial
    rw [reducedOf, inMatrix, ← value]
    apply span_mono ?_ change
    rintro _ ⟨k, other, below, sameGrade, otherFound, rfl⟩
    have kBound : k < cells.length := below.trans (List.idxOf_lt_length_of_mem member)
    have kCell : cells[k]? = some cells[k] := List.getElem?_eq_getElem kBound
    refine ⟨cells[k], ⟨List.mem_toFinset.mpr (List.getElem_mem kBound), ?_, ?_⟩, ?_⟩
    · rw [idxOf_eq represents.nodup kCell]
      exact below
    · have kGrade : gradeAt cells grade k = grade cells[k] := gradeAt_eq kCell
      rw [← kGrade, sameGrade, gradeAt_eq (getElem?_idxOf member)]
    · exact (represents.boundaries k _ other kCell otherFound).symm
  · intro s inside none
    have member := List.mem_toFinset.mp inside
    obtain ⟨found, original, inMatrix, _, _⟩ := atCell s member
    rw [reducedOf, inMatrix]
    cases last : found.getLast? with
    | none =>
      rw [List.getLast?_eq_none_iff.mp last]
      rfl
    | some pivot =>
      have bound : pivot < cells.length := by
        rw [← represents.size]
        exact reducing.bounded _ found inMatrix pivot (List.mem_of_getLast? last)
      have lead : leadOf cells matrix s = some cells[pivot] :=
        leadOf_eq_some.mpr ⟨pivot, lowestFace_eq_some.mpr ⟨found, inMatrix, last⟩, List.getElem?_eq_getElem bound⟩
      rw [none] at lead
      cases lead
  · intro s x lead
    obtain ⟨pivot, lowest, _⟩ := leadOf_eq_some.mp lead
    obtain ⟨found, inMatrix, _⟩ := lowestFace_eq_some.mp lowest
    have bound := (List.getElem?_eq_some_iff.mp inMatrix).1
    rw [reducing.size, represents.size] at bound
    exact List.mem_toFinset.mpr (List.idxOf_lt_length_iff.mp bound)
  · intro s x lead
    obtain ⟨pivot, lowest, xFound⟩ := leadOf_eq_some.mp lead
    obtain ⟨found, inMatrix, last⟩ := lowestFace_eq_some.mp lowest
    have ascending := reducing.ascending _ found inMatrix
    rw [reducedOf, inMatrix]
    refine ⟨?_, ?_⟩
    · change chain cells found x ≠ 0
      rw [chain_apply represents.nodup ascending x, if_pos ⟨pivot, List.mem_of_getLast? last, xFound⟩]
      exact one_ne_zero
    · intro y occurs different
      change chain cells found y ≠ 0 at occurs
      rw [chain_apply represents.nodup ascending y] at occurs
      obtain ⟨i, member, yFound⟩ := ite_ne_right_iff.mp occurs |>.1
      have below := le_getLast ascending last member
      rw [idxOf_eq represents.nodup yFound, idxOf_eq represents.nodup xFound]
      have apart : i ≠ pivot := by
        intro same
        rw [same, xFound] at yFound
        cases yFound
        exact different rfl
      omega
  · intro s t x sLead tLead
    obtain ⟨pivot, sLowest, sFound⟩ := leadOf_eq_some.mp sLead
    obtain ⟨other, tLowest, tFound⟩ := leadOf_eq_some.mp tLead
    have samePivot : other = pivot := by
      rw [← idxOf_eq represents.nodup tFound, ← idxOf_eq represents.nodup sFound]
    subst samePivot
    obtain ⟨_, sInMatrix, _⟩ := lowestFace_eq_some.mp sLowest
    obtain ⟨_, tInMatrix, _⟩ := lowestFace_eq_some.mp tLowest
    have sBound := (List.getElem?_eq_some_iff.mp sInMatrix).1
    have tBound := (List.getElem?_eq_some_iff.mp tInMatrix).1
    rw [reducing.size] at sBound tBound
    have sPivot := (reducing.pivots other (cells.idxOf s)).mpr ⟨sBound, sLowest⟩
    have tPivot := (reducing.pivots other (cells.idxOf t)).mpr ⟨tBound, tLowest⟩
    rw [sPivot] at tPivot
    have sameIndex : cells.idxOf s = cells.idxOf t := Option.some.inj tPivot
    rw [represents.size] at sBound
    exact (List.idxOf_inj (List.idxOf_lt_length_iff.mp sBound)).mp sameIndex

end

end

theorem intervals_new (k : Nat) : PersistenceData.new.intervals k = 0 := rfl

theorem intervals_record (data : PersistenceData) (interval : PersistenceInterval) (k : Nat) :
    (data.record interval).intervals k =
      data.intervals k + ↑([interval].filter fun other => other.dimension = k) := by
  have lookup : (data.record interval).getDiagram k =
      if k = interval.dimension then
        some (((data.diagrams.lookup interval.dimension).getD
          (PersistenceDiagram.new interval.dimension)).addInterval interval)
      else data.diagrams.lookup k :=
    HashMap.lookup_insert_eq ..
  rw [PersistenceData.intervals, lookup, PersistenceData.intervals, PersistenceData.getDiagram]
  by_cases same : interval.dimension = k
  · subst same
    cases data.diagrams.lookup interval.dimension with
    | none => simp [PersistenceDiagram.new, PersistenceDiagram.addInterval]
    | some diagram =>
      simp only [if_true, Option.map_some, Option.getD_some, PersistenceDiagram.addInterval,
        List.filter_cons, decide_true, List.filter_nil, Multiset.coe_add]
  · have different : ¬k = interval.dimension := fun equal => same equal.symm
    simp [same, different]

theorem intervals_foldl_record (recorded : List PersistenceInterval) (data : PersistenceData) (k : Nat) :
    (recorded.foldl PersistenceData.record data).intervals k =
      data.intervals k + ↑(recorded.filter fun other => other.dimension = k) := by
  induction recorded generalizing data with
  | nil => simp
  | cons interval rest ih =>
    have split : (interval :: rest).filter (fun other => other.dimension = k) =
        [interval].filter (fun other => other.dimension = k) ++ rest.filter (fun other => other.dimension = k) := by
      rw [← List.filter_append, List.singleton_append]
    rw [List.foldl_cons, ih, intervals_record, split, ← Multiset.coe_add, add_assoc]

theorem mapM_eq_some {α β : Type} {f : α → Option β} {items : List α} (defined : ∀ item ∈ items, (f item).isSome) :
    items.mapM f = some (items.filterMap f) := by
  induction items with
  | nil => rfl
  | cons item rest ih =>
    obtain ⟨value, found⟩ := Option.isSome_iff_exists.mp (defined item List.mem_cons_self)
    rw [List.mapM_cons, found, ih fun other member => defined other (List.mem_cons_of_mem item member),
      List.filterMap_cons_some found]
    rfl

theorem filterMap_range {α : Type} (items : List α) :
    (List.range items.length).filterMap (fun i => items[i]?) = items := by
  induction items with
  | nil => rfl
  | cons first rest ih =>
    simp only [List.length_cons, List.range_succ_eq_map, List.filterMap_cons, List.getElem?_cons_zero,
      List.filterMap_map]
    exact congrArg (List.cons first) ih

theorem filterMap_eq_range {α β : Type} (f : α → Option β) (items : List α) :
    items.filterMap f = (List.range items.length).filterMap fun i => (items[i]?).bind f := by
  conv_lhs => rw [← filterMap_range items]
  exact List.filterMap_filterMap

section

variable {ι : Type} {cells : List ι} {grade : Nat → Nat} {initial : List Column} {reduced : BoundaryMatrix}

theorem PivotsRecorded.deaths_nodup {done : Nat} (recorded : PivotsRecorded done reduced) :
    (((HashMap.pairs reduced.pivotMap).map Prod.swap).map Prod.fst).Nodup := by
  have keys := HashMap.pairs_keys_nodup reduced.pivotMap
  rw [List.map_map]
  apply (List.Nodup.of_map Prod.fst keys).map_on
  rintro ⟨pivot, col⟩ member ⟨pivot', col'⟩ member' same
  change col = col' at same
  subst same
  obtain ⟨_, lowest⟩ := (recorded pivot col).mp (HashMap.mem_pairs.mp member)
  obtain ⟨_, lowest'⟩ := (recorded pivot' col).mp (HashMap.mem_pairs.mp member')
  rw [lowest] at lowest'
  cases lowest'
  rfl

theorem PivotsRecorded.lookup_pairs {done : Nat} (recorded : PivotsRecorded done reduced) {n col pivot : Nat} :
    (extractPairing reduced n).pairs.lookup col = some pivot ↔ col < done ∧ reduced.lowestFace col = some pivot := by
  change (HashMap.ofPairs ((HashMap.pairs reduced.pivotMap).map Prod.swap)).lookup col = some pivot ↔ _
  rw [HashMap.lookup_ofPairs recorded.deaths_nodup, ← recorded pivot col, BoundaryMatrix.findColumnWithPivot,
    ← HashMap.mem_pairs, List.mem_map]
  constructor
  · rintro ⟨⟨p, c⟩, member, same⟩
    cases same
    exact member
  · intro member
    exact ⟨(pivot, col), member, rfl⟩

theorem mem_pairs (reducing : Reducing cells grade initial initial.length reduced) {n col pivot : Nat} :
    (col, pivot) ∈ HashMap.pairs (extractPairing reduced n).pairs ↔ reduced.findColumnWithPivot pivot = some col := by
  have recorded : PivotsRecorded initial.length reduced := reducing.pivots
  rw [HashMap.mem_pairs, recorded.lookup_pairs, recorded pivot col]

theorem mem_unpaired_of_pairs {n col : Nat} :
    col ∈ (extractPairing reduced n).unpaired ↔ col < n ∧
      col ∉ (HashMap.pairs (extractPairing reduced n).pairs).map Prod.fst ∧
      col ∉ (HashMap.pairs (extractPairing reduced n).pairs).map Prod.snd := by
  change col ∈ (List.range n).filter _ ↔ _
  rw [List.mem_filter, List.mem_range, decide_eq_true_iff]
  rfl

theorem mem_unpaired (reducing : Reducing cells grade initial initial.length reduced) {n col : Nat} :
    col ∈ (extractPairing reduced n).unpaired ↔ col < n ∧
      (∀ pivot, reduced.findColumnWithPivot pivot ≠ some col) ∧ reduced.findColumnWithPivot col = none := by
  have asDeath : col ∉ (HashMap.pairs (extractPairing reduced n).pairs).map Prod.fst ↔
      ∀ pivot, reduced.findColumnWithPivot pivot ≠ some col := by
    simp only [List.mem_map, Prod.exists, mem_pairs reducing]
    constructor
    · intro absent pivot found
      exact absent ⟨col, pivot, found, rfl⟩
    · rintro absent ⟨c, pivot, found, rfl⟩
      exact absent pivot found
  have asBirth : col ∉ (HashMap.pairs (extractPairing reduced n).pairs).map Prod.snd ↔
      reduced.findColumnWithPivot col = none := by
    simp only [List.mem_map, Prod.exists, mem_pairs reducing]
    constructor
    · intro absent
      by_contra present
      obtain ⟨c, found⟩ := Option.ne_none_iff_exists'.mp present
      exact absent ⟨c, col, found, rfl⟩
    · rintro none ⟨c, pivot, found, rfl⟩
      rw [none] at found
      cases found
  rw [mem_unpaired_of_pairs]
  exact and_congr_right fun _ => and_congr asDeath asBirth

end

structure Labelled {ι : Type} (cells : List ι) (grade : ι → ℕ) (weight : ι → Weight)
    (complex : SimplicialComplex) : Prop where
  size : complex.simplices.length = cells.length
  values : ∀ (i : Nat) simplex cell, complex.simplices[i]? = some simplex → cells[i]? = some cell →
    simplex.dimension = grade cell ∧ simplex.weight = weight cell

section

variable {ι : Type} {cells : List ι} {grade : ι → ℕ} {weight : ι → Weight} {complex : SimplicialComplex}

theorem Labelled.getSimplex (labelled : Labelled cells grade weight complex) {i : Nat} {cell : ι}
    (found : cells[i]? = some cell) :
    ∃ simplex, complex.getSimplex i = some simplex ∧ simplex.dimension = grade cell ∧
      simplex.weight = weight cell := by
  have bound := (List.getElem?_eq_some_iff.mp found).1
  rw [← labelled.size] at bound
  have simplexFound : complex.simplices[i]? = some complex.simplices[i] := List.getElem?_eq_getElem bound
  exact ⟨_, simplexFound, labelled.values i _ cell simplexFound found⟩

theorem Labelled.pairInterval (labelled : Labelled cells grade weight complex) {col pivot : Nat} {s x : ι}
    (death : cells[col]? = some s) (birth : cells[pivot]? = some x) :
    pairInterval complex (col, pivot) = some (.finite (weight x) (weight s) (grade x)) := by
  obtain ⟨deathSimplex, deathFound, _, deathWeight⟩ := labelled.getSimplex death
  obtain ⟨birthSimplex, birthFound, birthGrade, birthWeight⟩ := labelled.getSimplex birth
  rw [AdicModel.Finality.pairInterval, deathFound, birthFound, ← birthGrade, ← birthWeight, ← deathWeight]
  rfl

theorem Labelled.unpairedInterval (labelled : Labelled cells grade weight complex) {col : Nat} {s : ι}
    (found : cells[col]? = some s) :
    unpairedInterval complex col = some (.infinite (weight s) (grade s)) := by
  obtain ⟨simplex, simplexFound, sameGrade, sameWeight⟩ := labelled.getSimplex found
  rw [AdicModel.Finality.unpairedInterval, simplexFound, ← sameGrade, ← sameWeight]
  rfl

end

structure Reads {ι : Type} (cells : List ι) (reduced : BoundaryMatrix) (free : ι → Prop)
    (result : ReductionResult) : Prop where
  pairs : ∀ col pivot, result.pairs.lookup col = some pivot ↔ reduced.lowestFace col = some pivot
  ascending : result.unpaired.Pairwise (· < ·)
  unpaired : ∀ col, col ∈ result.unpaired ↔ ∃ s, cells[col]? = some s ∧ free s

theorem pairs_perm {reduced : BoundaryMatrix} {pairs : HashMap.Table Nat Nat}
    (reads : ∀ col pivot, pairs.lookup col = some pivot ↔ reduced.lowestFace col = some pivot) :
    (HashMap.pairs pairs).Perm ((List.range reduced.columns.length).filterMap fun col =>
      (reduced.lowestFace col).map fun pivot => (col, pivot)) := by
  have nodup : (HashMap.pairs pairs).Nodup := List.Nodup.of_map Prod.fst (HashMap.pairs_keys_nodup pairs)
  have nodup' : ((List.range reduced.columns.length).filterMap fun col =>
      (reduced.lowestFace col).map fun pivot => (col, pivot)).Nodup := by
    apply List.Nodup.filterMap ?_ List.nodup_range
    intro c c' pair cFound c'Found
    obtain ⟨_, _, rfl⟩ := Option.map_eq_some_iff.mp cFound
    obtain ⟨_, _, same⟩ := Option.map_eq_some_iff.mp c'Found
    exact (congrArg Prod.fst same).symm
  rw [List.perm_ext_iff_of_nodup nodup nodup']
  rintro ⟨col, pivot⟩
  rw [HashMap.mem_pairs, reads, List.mem_filterMap]
  constructor
  · intro lowest
    obtain ⟨_, found, _⟩ := lowestFace_eq_some.mp lowest
    exact ⟨col, List.mem_range.mpr (List.getElem?_eq_some_iff.mp found).1, by rw [lowest]; rfl⟩
  · rintro ⟨c, _, found⟩
    obtain ⟨p, lowest, same⟩ := Option.map_eq_some_iff.mp found
    cases same
    exact lowest

section

variable {ι : Type} [DecidableEq ι] {cells : List ι} {grade : ι → ℕ} {weight : ι → Weight}
  {boundary : (ι →₀ ZMod 2) →ₗ[ZMod 2] ι →₀ ZMod 2} {initial : List Column} {reduced : BoundaryMatrix}

section

variable (represents : Represents cells boundary initial)
  (reducing : Reducing cells (gradeAt cells grade) initial initial.length reduced) {col : Nat} {s : ι}
  (found : cells[col]? = some s)

include represents reducing found

theorem leadOf_at (pivot : Nat) :
    reduced.lowestFace col = some pivot ↔ ∃ x, cells[pivot]? = some x ∧ leadOf cells reduced s = some x := by
  have index := idxOf_eq represents.nodup found
  constructor
  · intro lowest
    obtain ⟨column, columnFound, last⟩ := lowestFace_eq_some.mp lowest
    have bound := reducing.bounded col column columnFound pivot (List.mem_of_getLast? last)
    rw [represents.size] at bound
    have pivotFound : cells[pivot]? = some cells[pivot] := List.getElem?_eq_getElem bound
    exact ⟨_, pivotFound, leadOf_eq_some.mpr ⟨pivot, by rw [index]; exact lowest, pivotFound⟩⟩
  · rintro ⟨x, pivotFound, lead⟩
    obtain ⟨other, lowest, otherFound⟩ := leadOf_eq_some.mp lead
    have same : other = pivot := by
      rw [← idxOf_eq represents.nodup otherFound, ← idxOf_eq represents.nodup pivotFound]
    rw [← same, ← index]
    exact lowest

theorem mem_unpaired_iff : col ∈ (extractPairing reduced initial.length).unpaired ↔
      leadOf cells reduced s = none ∧ ∀ t ∈ cells.toFinset, leadOf cells reduced t ≠ some s := by
  have bound : col < initial.length := by
    rw [represents.size]
    exact (List.getElem?_eq_some_iff.mp found).1
  rw [mem_unpaired reducing]
  constructor
  · rintro ⟨_, noDeath, noBirth⟩
    constructor
    · by_contra present
      obtain ⟨x, lead⟩ := Option.ne_none_iff_exists'.mp present
      obtain ⟨pivot, _, pivotFound⟩ := leadOf_eq_some.mp lead
      have lowest := (leadOf_at represents reducing found pivot).mpr ⟨x, pivotFound, lead⟩
      exact noDeath pivot ((reducing.pivots pivot col).mpr ⟨bound, lowest⟩)
    · intro t member lead
      have tFound := getElem?_idxOf (List.mem_toFinset.mp member)
      have lowest := (leadOf_at represents reducing tFound col).mpr ⟨s, found, lead⟩
      have tBound : cells.idxOf t < initial.length := by
        rw [represents.size]
        exact (List.getElem?_eq_some_iff.mp tFound).1
      have born := (reducing.pivots col (cells.idxOf t)).mpr ⟨tBound, lowest⟩
      rw [noBirth] at born
      cases born
  · rintro ⟨alive, unborn⟩
    refine ⟨bound, ?_, ?_⟩
    · intro pivot dies
      obtain ⟨_, lowest⟩ := (reducing.pivots pivot col).mp dies
      obtain ⟨x, _, lead⟩ := (leadOf_at represents reducing found pivot).mp lowest
      rw [alive] at lead
      cases lead
    · by_contra present
      obtain ⟨other, born⟩ := Option.ne_none_iff_exists'.mp present
      obtain ⟨otherBound, lowest⟩ := (reducing.pivots col other).mp born
      rw [represents.size] at otherBound
      have otherFound : cells[other]? = some cells[other] := List.getElem?_eq_getElem otherBound
      obtain ⟨x, colFound, lead⟩ := (leadOf_at represents reducing otherFound col).mp lowest
      rw [found] at colFound
      cases colFound
      exact unborn _ (List.mem_toFinset.mpr (List.getElem_mem otherBound)) lead

end

theorem indices_perm (represents : Represents cells boundary initial)
    (chainComplex : ChainComplex cells.toFinset grade boundary)
    (reducing : Reducing cells (gradeAt cells grade) initial initial.length reduced) :
    ((HashMap.pairs (extractPairing reduced initial.length).pairs).map Prod.fst ++
      (HashMap.pairs (extractPairing reduced initial.length).pairs).map Prod.snd ++
      (extractPairing reduced initial.length).unpaired).Perm (List.range initial.length) := by
  have reduction := reducing.reduction represents chainComplex
  have cellAt : ∀ {col : Nat}, col < initial.length → ∃ s, cells[col]? = some s := by
    intro col bound
    rw [represents.size] at bound
    exact ⟨_, List.getElem?_eq_getElem bound⟩
  have leads : ∀ {col pivot : Nat}, (col, pivot) ∈ HashMap.pairs (extractPairing reduced initial.length).pairs →
      ∃ s x, cells[col]? = some s ∧ cells[pivot]? = some x ∧ leadOf cells reduced s = some x := by
    intro col pivot member
    obtain ⟨bound, lowest⟩ := (reducing.pivots pivot col).mp ((mem_pairs reducing).mp member)
    obtain ⟨s, found⟩ := cellAt bound
    obtain ⟨x, pivotFound, lead⟩ := (leadOf_at represents reducing found pivot).mp lowest
    exact ⟨s, x, found, pivotFound, lead⟩
  have deathsNodup : ((HashMap.pairs (extractPairing reduced initial.length).pairs).map Prod.fst).Nodup :=
    HashMap.pairs_keys_nodup _
  have birthsNodup : ((HashMap.pairs (extractPairing reduced initial.length).pairs).map Prod.snd).Nodup := by
    apply (List.Nodup.of_map Prod.fst deathsNodup).map_on
    rintro ⟨col, pivot⟩ member ⟨col', pivot'⟩ member' same
    change pivot = pivot' at same
    subst same
    have first := (mem_pairs reducing).mp member
    have second := (mem_pairs reducing).mp member'
    rw [first] at second
    cases second
    rfl
  have apart : ∀ i ∈ (HashMap.pairs (extractPairing reduced initial.length).pairs).map Prod.fst,
      i ∉ (HashMap.pairs (extractPairing reduced initial.length).pairs).map Prod.snd := by
    intro i death birth
    obtain ⟨⟨_, pivot⟩, member, rfl⟩ := List.mem_map.mp death
    obtain ⟨⟨col, _⟩, member', same⟩ := List.mem_map.mp birth
    cases same
    obtain ⟨s, x, found, _, lead⟩ := leads member
    obtain ⟨s', x', _, found', lead'⟩ := leads member'
    rw [found] at found'
    cases found'
    rw [lead_lead_eq_none chainComplex reduction lead'] at lead
    cases lead
  have free : ∀ i ∈ (extractPairing reduced initial.length).unpaired,
      i ∉ (HashMap.pairs (extractPairing reduced initial.length).pairs).map Prod.fst ∧
        i ∉ (HashMap.pairs (extractPairing reduced initial.length).pairs).map Prod.snd := by
    intro i member
    exact (mem_unpaired_of_pairs.mp member).2
  have inRange : ∀ {col pivot : Nat}, (col, pivot) ∈ HashMap.pairs (extractPairing reduced initial.length).pairs →
      col < initial.length ∧ pivot < initial.length := by
    intro col pivot member
    obtain ⟨_, _, found, pivotFound, _⟩ := leads member
    rw [represents.size]
    exact ⟨(List.getElem?_eq_some_iff.mp found).1, (List.getElem?_eq_some_iff.mp pivotFound).1⟩
  rw [List.perm_ext_iff_of_nodup]
  · intro i
    rw [List.mem_append, List.mem_append, List.mem_range]
    constructor
    · rintro ((death | birth) | unpaired)
      · obtain ⟨_, member, rfl⟩ := List.mem_map.mp death
        exact (inRange member).1
      · obtain ⟨_, member, rfl⟩ := List.mem_map.mp birth
        exact (inRange member).2
      · exact (mem_unpaired_of_pairs.mp unpaired).1
    · intro bound
      by_cases death : i ∈ (HashMap.pairs (extractPairing reduced initial.length).pairs).map Prod.fst
      · exact .inl (.inl death)
      · by_cases birth : i ∈ (HashMap.pairs (extractPairing reduced initial.length).pairs).map Prod.snd
        · exact .inl (.inr birth)
        · exact .inr (mem_unpaired_of_pairs.mpr ⟨bound, death, birth⟩)
  · refine List.nodup_append'.mpr ⟨List.nodup_append'.mpr ⟨deathsNodup, birthsNodup, ?_⟩, ?_, ?_⟩
    · exact fun i death birth => apart i death birth
    · exact List.nodup_range.filter _
    · intro i paired unpaired
      rcases List.mem_append.mp paired with death | birth
      · exact (free i unpaired).1 death
      · exact (free i unpaired).2 birth
  · exact List.nodup_range

theorem toFinset_val (nodup : cells.Nodup) : cells.toFinset.val = ↑cells := by
  rw [List.toFinset_val, nodup.dedup]

theorem extractPairing_reads (represents : Represents cells boundary initial)
    (reducing : Reducing cells (gradeAt cells grade) initial initial.length reduced) :
    Reads cells reduced (fun s => leadOf cells reduced s = none ∧ ∀ t ∈ cells.toFinset, leadOf cells reduced t ≠ some s)
      (extractPairing reduced initial.length) := by
  refine ⟨?_, List.pairwise_lt_range.sublist List.filter_sublist, ?_⟩
  · intro col pivot
    rw [← HashMap.mem_pairs, mem_pairs reducing, reducing.pivots]
    constructor
    · exact fun both => both.2
    · intro lowest
      obtain ⟨_, found, _⟩ := lowestFace_eq_some.mp lowest
      exact ⟨by rw [← reducing.size]; exact (List.getElem?_eq_some_iff.mp found).1, lowest⟩
  · intro col
    constructor
    · intro member
      have bound := (mem_unpaired_of_pairs.mp member).1
      rw [represents.size] at bound
      have found : cells[col]? = some cells[col] := List.getElem?_eq_getElem bound
      exact ⟨_, found, (mem_unpaired_iff represents reducing found).mp member⟩
    · rintro ⟨s, found, free⟩
      exact (mem_unpaired_iff represents reducing found).mpr free

section

variable {result : ReductionResult} {free : ι → Prop} {complex : SimplicialComplex}

theorem pair_intervals (represents : Represents cells boundary initial)
    (chainComplex : ChainComplex cells.toFinset grade boundary)
    (reducing : Reducing cells (gradeAt cells grade) initial initial.length reduced)
    (reads : Reads cells reduced free result) (labelled : Labelled cells grade weight complex) (k : Nat) :
    (↑(((HashMap.pairs result.pairs).filterMap (pairInterval complex)).filter fun interval =>
        interval.dimension = k) : Multiset PersistenceInterval) =
      (bars cells.toFinset grade (leadOf cells reduced) weight k).map fun bar => .finite bar.1 bar.2 k := by
  have reordered := ((pairs_perm reads.pairs).filterMap (pairInterval complex)).filter
    fun interval => decide (interval.dimension = k)
  have reduction := reducing.reduction represents chainComplex
  rw [Multiset.coe_eq_coe.mpr reordered, bars, deaths, Finset.filter_val, toFinset_val represents.nodup]
  rw [Multiset.filter_coe, Multiset.filterMap_coe, Multiset.map_coe]
  congr 1
  rw [List.filter_filterMap, List.filterMap_filterMap, List.map_filterMap, List.filterMap_filter,
    filterMap_eq_range _ cells, reducing.size, represents.size]
  apply List.filterMap_congr
  intro col below
  obtain ⟨s, found⟩ : ∃ s, cells[col]? = some s := ⟨_, List.getElem?_eq_getElem (List.mem_range.mp below)⟩
  rw [found]
  cases lowest : reduced.lowestFace col with
  | none =>
    have alive : leadOf cells reduced s = none := by
      rw [leadOf, idxOf_eq represents.nodup found, lowest]
      rfl
    simp [alive]
  | some pivot =>
    obtain ⟨x, pivotFound, lead⟩ := (leadOf_at represents reducing found pivot).mp lowest
    have raised := lead_grade chainComplex reduction lead
    have same : grade x = k ↔ grade s = k + 1 := by omega
    simp only [Option.map_some, Option.bind_some, labelled.pairInterval found pivotFound, lead,
      PersistenceInterval.finite, Option.isSome_some, and_true, decide_eq_true_eq]
    by_cases level : grade x = k
    · rw [if_pos (same.mp level), level]
      simp [Option.filter]
    · rw [if_neg (fun up => level (same.mpr up))]
      simp [Option.filter, level]

variable [DecidablePred free]

theorem unpaired_intervals (nodup : cells.Nodup) (reads : Reads cells reduced free result)
    (labelled : Labelled cells grade weight complex) (k : Nat) :
    (↑((result.unpaired.filterMap (unpairedInterval complex)).filter fun interval => interval.dimension = k) :
        Multiset PersistenceInterval) =
      ((cells.toFinset.filter fun s => grade s = k ∧ free s).val.map weight).map fun birth => .infinite birth k := by
  have kept : result.unpaired = (List.range cells.length).filter fun col => decide (col ∈ result.unpaired) := by
    apply reads.ascending.eq_of_mem_iff (List.pairwise_lt_range.sublist List.filter_sublist)
    intro col
    rw [List.mem_filter, decide_eq_true_iff, List.mem_range]
    constructor
    · intro member
      obtain ⟨s, found, _⟩ := (reads.unpaired col).mp member
      exact ⟨(List.getElem?_eq_some_iff.mp found).1, member⟩
    · exact fun both => both.2
  rw [kept, Finset.filter_val, toFinset_val nodup, Multiset.filter_coe, Multiset.map_coe, Multiset.map_coe]
  congr 1
  rw [List.filterMap_filter, List.filter_filterMap, List.map_map, ← List.filterMap_eq_map, List.filterMap_filter,
    filterMap_eq_range _ cells]
  apply List.filterMap_congr
  intro col below
  obtain ⟨s, found⟩ : ∃ s, cells[col]? = some s := ⟨_, List.getElem?_eq_getElem (List.mem_range.mp below)⟩
  have isFree : col ∈ result.unpaired ↔ free s := by
    rw [reads.unpaired, found]
    simp
  rw [found, labelled.unpairedInterval found]
  simp only [decide_eq_true_eq, Option.bind_some, Function.comp_apply]
  by_cases level : grade s = k
  · by_cases freed : free s
    · rw [if_pos (isFree.mpr freed), if_pos ⟨level, freed⟩, level]
      simp [Option.filter, PersistenceInterval.infinite]
    · rw [if_neg (fun member => freed (isFree.mp member)), if_neg fun both => freed both.2]
      rfl
  · simp only [level, false_and, if_false]
    split <;> simp [Option.filter, PersistenceInterval.infinite, level]

theorem fromReduction_intervals (represents : Represents cells boundary initial)
    (chainComplex : ChainComplex cells.toFinset grade boundary)
    (reducing : Reducing cells (gradeAt cells grade) initial initial.length reduced)
    (reads : Reads cells reduced free result) (labelled : Labelled cells grade weight complex)
    (order : HashMap.Order) :
    ∃ data, PersistenceData.fromReduction order result complex = some data ∧ ∀ k, data.intervals k =
      ((bars cells.toFinset grade (leadOf cells reduced) weight k).map fun bar => .finite bar.1 bar.2 k) +
        ((cells.toFinset.filter fun s => grade s = k ∧ free s).val.map weight).map fun birth => .infinite birth k := by
  have pairsDefined : ∀ pair ∈ order.iterate (HashMap.pairs result.pairs), (pairInterval complex pair).isSome := by
    rintro ⟨col, pivot⟩ member
    have lowest := (reads.pairs col pivot).mp (HashMap.mem_pairs.mp (HashMap.Order.mem_iterate.mp member))
    obtain ⟨_, inMatrix, _⟩ := lowestFace_eq_some.mp lowest
    have bound := (List.getElem?_eq_some_iff.mp inMatrix).1
    rw [reducing.size, represents.size] at bound
    have found : cells[col]? = some cells[col] := List.getElem?_eq_getElem bound
    obtain ⟨x, pivotFound, _⟩ := (leadOf_at represents reducing found pivot).mp lowest
    rw [labelled.pairInterval found pivotFound]
    rfl
  have unpairedDefined : ∀ col ∈ result.unpaired, (unpairedInterval complex col).isSome := by
    intro col member
    obtain ⟨s, found, _⟩ := (reads.unpaired col).mp member
    rw [labelled.unpairedInterval found]
    rfl
  refine ⟨((order.iterate (HashMap.pairs result.pairs)).filterMap (pairInterval complex) ++
    result.unpaired.filterMap (unpairedInterval complex)).foldl PersistenceData.record PersistenceData.new, ?_, ?_⟩
  · rw [PersistenceData.fromReduction, mapM_eq_some pairsDefined, mapM_eq_some unpairedDefined]
    rfl
  · intro k
    have reordered := ((order.perm (HashMap.pairs result.pairs)).filterMap (pairInterval complex)).filter
      fun interval => decide (interval.dimension = k)
    rw [intervals_foldl_record, intervals_new, zero_add, List.filter_append, ← Multiset.coe_add,
      Multiset.coe_eq_coe.mpr reordered, pair_intervals represents chainComplex reducing reads labelled k,
      unpaired_intervals represents.nodup reads labelled k]

end

end

end AdicProof.Finality
