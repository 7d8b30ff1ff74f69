import AdicCore.Finality.ColumnReduction

open AdicModel.Finality Submodule Elimination Homology

namespace AdicProof.Finality

variable {ι : Type}

noncomputable def earlierSpan (cells : List ι) (grade : Nat → Nat) (initial : List Column) (col : Nat) :
    Submodule (ZMod 2) (ι →₀ ZMod 2) :=
  span (ZMod 2) {v | ∃ k original, k < col ∧ grade k = grade col ∧ initial[k]? = some original ∧
    v = chain cells original}

structure Reducing (cells : List ι) (grade : Nat → Nat) (initial : List Column) (done : Nat)
    (matrix : BoundaryMatrix) : Prop where
  size : matrix.columns.length = initial.length
  ascending : ∀ (col : Nat) column, matrix.columns[col]? = some column → Ascending column
  bounded : ∀ (col : Nat) column, matrix.columns[col]? = some column → ∀ i ∈ column, i < initial.length
  graded : ∀ (first second : Nat) column column', matrix.columns[first]? = some column →
    matrix.columns[second]? = some column' → ∀ i ∈ column, i ∈ column' → grade first = grade second
  combined : ∀ (col : Nat) column original, matrix.columns[col]? = some column → initial[col]? = some original →
    chain cells column - chain cells original ∈ earlierSpan cells grade initial col
  pivots : ∀ pivot col, matrix.findColumnWithPivot pivot = some col ↔
    col < done ∧ matrix.lowestFace col = some pivot

theorem lowestFace_eq_some {matrix : BoundaryMatrix} {col pivot : Nat} :
    matrix.lowestFace col = some pivot ↔
      ∃ column, matrix.columns[col]? = some column ∧ column.getLast? = some pivot := by
  rw [BoundaryMatrix.lowestFace, Option.bind_eq_some_iff]

def PivotsRecorded (done : Nat) (matrix : BoundaryMatrix) : Prop :=
  ∀ pivot col, matrix.findColumnWithPivot pivot = some col ↔ col < done ∧ matrix.lowestFace col = some pivot

theorem PivotsRecorded.emptyColumn {done : Nat} {matrix : BoundaryMatrix} (recorded : PivotsRecorded done matrix)
    (lowest : matrix.lowestFace done = none) : PivotsRecorded (done + 1) matrix := by
  intro pivot col
  rw [recorded pivot col]
  constructor
  · rintro ⟨below, lowestCol⟩
    exact ⟨below.trans (Nat.lt_succ_self done), lowestCol⟩
  · rintro ⟨below, lowestCol⟩
    refine ⟨?_, lowestCol⟩
    have different : col ≠ done := by
      intro same
      rw [same, lowest] at lowestCol
      cases lowestCol
    omega

theorem PivotsRecorded.updatePivot {done pivot : Nat} {matrix : BoundaryMatrix} (recorded : PivotsRecorded done matrix)
    (lowest : matrix.lowestFace done = some pivot) (fresh : matrix.findColumnWithPivot pivot = none) :
    PivotsRecorded (done + 1) (matrix.updatePivot done) := by
  have result : matrix.updatePivot done = { matrix with pivotMap := matrix.pivotMap.insert pivot done } := by
    rw [BoundaryMatrix.updatePivot, lowest]
  intro p col
  have lookup : (matrix.updatePivot done).findColumnWithPivot p =
      if p = pivot then some done else matrix.findColumnWithPivot p := by
    rw [result]
    exact HashMap.lookup_insert_eq matrix.pivotMap pivot p done
  have lowestKept : (matrix.updatePivot done).lowestFace col = matrix.lowestFace col := by
    rw [result]
    rfl
  rw [lookup, lowestKept]
  constructor
  · split
    · next same =>
      intro isDone
      cases isDone
      rw [same]
      exact ⟨Nat.lt_succ_self done, lowest⟩
    · next different =>
      intro earlier
      obtain ⟨below, lowestCol⟩ := (recorded p col).mp earlier
      exact ⟨below.trans (Nat.lt_succ_self done), lowestCol⟩
  · rintro ⟨below, lowestCol⟩
    by_cases isDone : col = done
    · rw [isDone, lowest] at lowestCol
      cases lowestCol
      rw [if_pos rfl, isDone]
    · have earlier := (recorded p col).mpr ⟨by omega, lowestCol⟩
      have different : p ≠ pivot := by
        intro same
        rw [same, fresh] at earlier
        cases earlier
      rw [if_neg different]
      exact earlier

variable {cells : List ι} {grade : Nat → Nat}

theorem earlierSpan_le {initial : List Column} {col other : Nat}
    (before : other < col) (same : grade other = grade col) :
    earlierSpan cells grade initial other ≤ earlierSpan cells grade initial col := by
  apply span_mono
  rintro _ ⟨k, original, below, sameGrade, found, rfl⟩
  exact ⟨k, original, below.trans before, sameGrade.trans same, found, rfl⟩

section

variable {cells : List ι} {grade : Nat → Nat} {initial : List Column} {done : Nat} {matrix : BoundaryMatrix}

theorem Reducing.xorColumns (reducing : Reducing cells grade initial done matrix) {pivot other : Nat}
    (lowest : matrix.lowestFace done = some pivot) (found : matrix.findColumnWithPivot pivot = some other) :
    Reducing cells grade initial done (matrix.xorColumns done other) ∧
      ∀ next, (matrix.xorColumns done other).lowestFace done = some next → next < pivot := by
  obtain ⟨target, targetFound, targetLast⟩ := lowestFace_eq_some.mp lowest
  obtain ⟨otherDone, otherLowest⟩ := (reducing.pivots pivot other).mp found
  obtain ⟨source, sourceFound, sourceLast⟩ := lowestFace_eq_some.mp otherLowest
  have inBounds : done < matrix.columns.length := (List.getElem?_eq_some_iff.mp targetFound).1
  have otherBounds : other < matrix.columns.length := (List.getElem?_eq_some_iff.mp sourceFound).1
  have ascendingT := reducing.ascending done target targetFound
  have ascendingS := reducing.ascending other source sourceFound
  have sameGrade : grade other = grade done :=
    reducing.graded other done source target sourceFound targetFound pivot (List.mem_of_getLast? sourceLast)
      (List.mem_of_getLast? targetLast)
  have result : matrix.xorColumns done other =
      { matrix with columns := matrix.columns.set done (xorSorted target source) } := by
    rw [BoundaryMatrix.xorColumns, targetFound, sourceFound]
  have atDone : (matrix.xorColumns done other).columns[done]? = some (xorSorted target source) := by
    rw [result]
    exact List.getElem?_set_self inBounds
  have elsewhere : ∀ col, col ≠ done → (matrix.xorColumns done other).columns[col]? = matrix.columns[col]? := by
    intro col different
    rw [result]
    exact List.getElem?_set_ne (Ne.symm different)
  have inside : ∀ x ∈ xorSorted target source, x ∈ target ∨ x ∈ source := by
    intro x member
    rcases (mem_xorSorted ascendingT ascendingS x).mp member with ⟨present, _⟩ | ⟨present, _⟩
    · exact .inl present
    · exact .inr present
  have origin : ∀ (col : Nat) column, (matrix.xorColumns done other).columns[col]? = some column → ∀ x ∈ column,
      ∃ old oldColumn, matrix.columns[old]? = some oldColumn ∧ x ∈ oldColumn ∧ grade old = grade col := by
    intro col column columnFound x member
    by_cases same : col = done
    · subst same
      rw [atDone] at columnFound
      cases columnFound
      rcases inside x member with present | present
      · exact ⟨col, target, targetFound, present, rfl⟩
      · exact ⟨other, source, sourceFound, present, sameGrade⟩
    · rw [elsewhere col same] at columnFound
      exact ⟨col, column, columnFound, member, rfl⟩
  refine ⟨⟨?_, ?_, ?_, ?_, ?_, ?_⟩, ?_⟩
  · rw [result]
    exact (List.length_set ..).trans reducing.size
  · intro col column columnFound
    by_cases same : col = done
    · subst same
      rw [atDone] at columnFound
      cases columnFound
      exact ascending_xorSorted ascendingT ascendingS
    · rw [elsewhere col same] at columnFound
      exact reducing.ascending col column columnFound
  · intro col column columnFound x member
    obtain ⟨old, oldColumn, oldFound, oldMember, _⟩ := origin col column columnFound x member
    exact reducing.bounded old oldColumn oldFound x oldMember
  · intro first second column column' found found' x member member'
    obtain ⟨old, oldColumn, oldFound, oldMember, oldGrade⟩ := origin first column found x member
    obtain ⟨old', oldColumn', oldFound', oldMember', oldGrade'⟩ := origin second column' found' x member'
    rw [← oldGrade, ← oldGrade']
    exact reducing.graded old old' oldColumn oldColumn' oldFound oldFound' x oldMember oldMember'
  · intro col column original columnFound originalFound
    by_cases same : col = done
    · subst same
      rw [atDone] at columnFound
      cases columnFound
      have otherInitial : other < initial.length := by
        rw [← reducing.size]
        exact otherBounds
      have sourceOriginal : initial[other]? = some initial[other] := List.getElem?_eq_getElem otherInitial
      have targetChange := reducing.combined col target original targetFound originalFound
      have sourceChange := earlierSpan_le otherDone sameGrade
        (reducing.combined other source initial[other] sourceFound sourceOriginal)
      have sourceMember : chain cells initial[other] ∈ earlierSpan cells grade initial col :=
        subset_span ⟨other, initial[other], otherDone, sameGrade, sourceOriginal, rfl⟩
      have split : chain cells (xorSorted target source) - chain cells original =
          (chain cells target - chain cells original) +
            ((chain cells source - chain cells initial[other]) + chain cells initial[other]) := by
        rw [chain_xorSorted]
        abel
      rw [split]
      exact add_mem targetChange (add_mem sourceChange sourceMember)
    · rw [elsewhere col same] at columnFound
      exact reducing.combined col column original columnFound originalFound
  · intro p col
    have mapKept : (matrix.xorColumns done other).findColumnWithPivot p = matrix.findColumnWithPivot p := by
      rw [result]
      rfl
    rw [mapKept, reducing.pivots p col]
    apply and_congr_right
    intro below
    rw [BoundaryMatrix.lowestFace, BoundaryMatrix.lowestFace, elsewhere col (Nat.ne_of_lt below)]
  · intro next nextLowest
    obtain ⟨column, columnFound, columnLast⟩ := lowestFace_eq_some.mp nextLowest
    rw [atDone] at columnFound
    cases columnFound
    exact xorSorted_below ascendingT ascendingS targetLast sourceLast next (List.mem_of_getLast? columnLast)

theorem Reducing.updatePivot (reducing : Reducing cells grade initial done matrix) {pivot : Nat}
    (lowest : matrix.lowestFace done = some pivot) (fresh : matrix.findColumnWithPivot pivot = none) :
    Reducing cells grade initial (done + 1) (matrix.updatePivot done) := by
  have result : matrix.updatePivot done = { matrix with pivotMap := matrix.pivotMap.insert pivot done } := by
    rw [BoundaryMatrix.updatePivot, lowest]
  refine ⟨?_, ?_, ?_, ?_, ?_, ?_⟩
  · rw [result]
    exact reducing.size
  · rw [result]
    exact reducing.ascending
  · rw [result]
    exact reducing.bounded
  · rw [result]
    exact reducing.graded
  · rw [result]
    exact reducing.combined
  · have recorded : PivotsRecorded done matrix := reducing.pivots
    exact recorded.updatePivot lowest fresh

theorem Reducing.emptyColumn (reducing : Reducing cells grade initial done matrix)
    (lowest : matrix.lowestFace done = none) : Reducing cells grade initial (done + 1) matrix := by
  have recorded : PivotsRecorded done matrix := reducing.pivots
  exact ⟨reducing.size, reducing.ascending, reducing.bounded, reducing.graded, reducing.combined,
    recorded.emptyColumn lowest⟩

theorem Reducing.reduceColumn {fuel : Nat} (reducing : Reducing cells grade initial done matrix)
    (positive : 0 < fuel) (enough : ∀ pivot, matrix.lowestFace done = some pivot → pivot + 1 < fuel) :
    ∃ reduced, AdicModel.Finality.reduceColumn fuel matrix done = some reduced ∧
      Reducing cells grade initial (done + 1) reduced := by
  induction fuel generalizing matrix with
  | zero => exact absurd positive (Nat.lt_irrefl 0)
  | succ fuel ih =>
    cases lowest : matrix.lowestFace done with
    | none =>
      refine ⟨matrix, ?_, reducing.emptyColumn lowest⟩
      rw [AdicModel.Finality.reduceColumn, lowest]
    | some pivot =>
      have room := enough pivot lowest
      cases found : matrix.findColumnWithPivot pivot with
      | none =>
        refine ⟨matrix.updatePivot done, ?_, reducing.updatePivot lowest found⟩
        simp only [AdicModel.Finality.reduceColumn, lowest, found]
      | some other =>
        obtain ⟨kept, lowered⟩ := reducing.xorColumns lowest found
        obtain ⟨reduced, run, finished⟩ := ih kept (by omega) fun next nextLowest => by
          have below := lowered next nextLowest
          omega
        refine ⟨reduced, ?_, finished⟩
        simp only [AdicModel.Finality.reduceColumn, lowest, found, run]

end

theorem foldlM_range' {σ : Type} (round : σ → Nat → Option σ) (kept : Nat → σ → Prop) (start count : Nat) {state : σ}
    (initially : kept start state)
    (step : ∀ i current, start ≤ i → i < start + count → kept i current →
      ∃ next, round current i = some next ∧ kept (i + 1) next) :
    ∃ final, (List.range' start count).foldlM round state = some final ∧ kept (start + count) final := by
  induction count with
  | zero => exact ⟨state, rfl, initially⟩
  | succ count ih =>
    obtain ⟨middle, run, holds⟩ := ih fun i current above below => step i current above (by omega)
    obtain ⟨final, last, done⟩ := step (start + count) middle (by omega) (by omega) holds
    refine ⟨final, ?_, done⟩
    rw [List.range'_1_concat, List.foldlM_append, run]
    simpa using last

theorem foldlM_mono {σ : Type} {round round' : σ → Nat → Option σ}
    (kept : ∀ current i next, round current i = some next → round' current i = some next) {indices : List Nat}
    {state final : σ} (run : indices.foldlM round state = some final) : indices.foldlM round' state = some final := by
  induction indices generalizing state with
  | nil => exact run
  | cons i indices ih =>
    rw [List.foldlM_cons] at run ⊢
    obtain ⟨next, first, rest⟩ := Option.bind_eq_some_iff.mp run
    rw [kept state i next first]
    exact ih rest

variable {matrix reduced : BoundaryMatrix} {col : Nat}

theorem reduceColumn_frame {fuel : Nat}
    (run : reduceColumn fuel matrix col = some reduced) {other : Nat} (different : other ≠ col) :
    reduced.columns[other]? = matrix.columns[other]? := by
  induction fuel generalizing matrix with
  | zero => cases run
  | succ fuel ih =>
    rw [reduceColumn] at run
    split at run
    · cases run
      rfl
    · split at run
      · next source _ =>
        rw [ih run, BoundaryMatrix.xorColumns]
        split
        · exact List.getElem?_set_ne (Ne.symm different)
        · rfl
      · cases run
        rw [BoundaryMatrix.updatePivot]
        split <;> rfl

structure Reducible (grade : Nat → Nat) (initial : List Column) : Prop where
  ascending : ∀ (col : Nat) column, initial[col]? = some column → Ascending column
  bounded : ∀ (col : Nat) column, initial[col]? = some column → ∀ i ∈ column, i < initial.length
  graded : ∀ (first second : Nat) column column', initial[first]? = some column →
    initial[second]? = some column' → ∀ i ∈ column, i ∈ column' → grade first = grade second

theorem Reducible.start {matrix : BoundaryMatrix}
    (reducible : Reducible grade matrix.columns) :
    Reducing cells grade matrix.columns 0 matrix.clearPivots := by
  refine ⟨rfl, reducible.ascending, reducible.bounded, reducible.graded, ?_, ?_⟩
  · intro col column original columnFound originalFound
    rw [show matrix.clearPivots.columns = matrix.columns from rfl, originalFound] at columnFound
    cases columnFound
    rw [sub_self]
    exact zero_mem _
  · intro pivot col
    constructor
    · intro found
      cases found
    · rintro ⟨below, _⟩
      exact absurd below (Nat.not_lt_zero col)

theorem reduceBoundaryMatrix_reducing {matrix : BoundaryMatrix}
    (reducible : Reducible grade matrix.columns) {fuel : Nat} (enough : matrix.numColumns < fuel) :
    ∃ reduced, reduceBoundaryMatrix fuel matrix = some (extractPairing reduced matrix.numColumns) ∧
      Reducing cells grade matrix.columns matrix.numColumns reduced := by
  obtain ⟨reduced, run, finished⟩ := foldlM_range' (reduceColumn fuel) (Reducing cells grade matrix.columns)
    0 matrix.numColumns reducible.start fun i state _ _ holds => holds.reduceColumn (by omega) fun pivot lowest => by
        obtain ⟨column, found, last⟩ := lowestFace_eq_some.mp lowest
        have below := holds.bounded i column found pivot (List.mem_of_getLast? last)
        rw [BoundaryMatrix.numColumns] at enough
        omega
  rw [Nat.zero_add] at finished
  rw [← List.range_eq_range'] at run
  refine ⟨reduced, ?_, finished⟩
  rw [reduceBoundaryMatrix]
  simp only [run]
  rfl

theorem reduceColumn_mono {fuel more : Nat} (enough : fuel ≤ more)
    (run : reduceColumn fuel matrix col = some reduced) : reduceColumn more matrix col = some reduced := by
  induction fuel generalizing more matrix with
  | zero => cases run
  | succ fuel ih =>
    obtain ⟨more, rfl⟩ : ∃ rest, more = rest + 1 := ⟨more - 1, by omega⟩
    rw [reduceColumn] at run ⊢
    cases lowest : matrix.lowestFace col with
    | none =>
      simp only [lowest] at run ⊢
      exact run
    | some pivot =>
      cases found : matrix.findColumnWithPivot pivot with
      | none =>
        simp only [lowest, found] at run ⊢
        exact run
      | some other =>
        simp only [lowest, found] at run ⊢
        exact ih (Nat.le_of_succ_le_succ enough) run

theorem reduceBoundaryMatrix_mono {fuel more : Nat} (enough : fuel ≤ more) {matrix : BoundaryMatrix}
    {result : ReductionResult} (run : reduceBoundaryMatrix fuel matrix = some result) :
    reduceBoundaryMatrix more matrix = some result := by
  obtain ⟨reduced, finished, extracted⟩ := Option.bind_eq_some_iff.mp run
  rw [reduceBoundaryMatrix, foldlM_mono (fun _ _ _ => reduceColumn_mono enough) finished]
  exact extracted

structure SoundlyReduced (matrix reduced : BoundaryMatrix) : Prop where
  size : reduced.numColumns = matrix.numColumns
  increasing : ∀ (col : Nat) column, reduced.columns[col]? = some column → Ascending column
  recorded : ∀ pivot col, reduced.findColumnWithPivot pivot = some col ↔ reduced.lowestFace col = some pivot
  distinct : ∀ first second pivot, reduced.lowestFace first = some pivot → reduced.lowestFace second = some pivot →
    first = second
  sums : ∀ (col : Nat) column original, reduced.columns[col]? = some column → matrix.columns[col]? = some original →
    ∃ earlier : Finset Nat, (∀ k ∈ earlier, k < col) ∧ ∀ row, (column.count row : ZMod 2) =
      original.count row + ∑ k ∈ earlier, ((matrix.columns.getD k []).count row : ZMod 2)

theorem chain_range {n row : Nat} (inside : row < n) (column : Column) :
    chain (List.range n) column row = column.count row := by
  induction column with
  | nil => simp [chain_nil]
  | cons i column ih =>
    rw [chain_cons, Finsupp.add_apply, ih, List.count_cons, Nat.cast_add, add_comm, cellChain]
    by_cases below : i < n
    · simp [List.getElem?_range below, Finsupp.single_apply]
    · have different : i ≠ row := by omega
      simp [List.getElem?_eq_none (List.length_range.trans_le (Nat.le_of_not_lt below)), different]

theorem exists_sum_of_mem_earlierSpan {initial : List Column} {v : ι →₀ ZMod 2}
    (member : v ∈ earlierSpan cells (fun _ => 0) initial col) :
    ∃ earlier : Finset Nat, (∀ k ∈ earlier, k < col) ∧ v = ∑ k ∈ earlier, chain cells (initial.getD k []) := by
  have inside : v ∈ span (ZMod 2) ((fun k => chain cells (initial.getD k [])) '' {k | k < col}) := by
    refine span_mono ?_ member
    rintro _ ⟨k, original, below, -, found, rfl⟩
    refine ⟨k, below, congrArg (chain cells) ?_⟩
    rw [List.getD_eq_getElem?_getD, found, Option.getD_some]
  obtain ⟨weights, supported, rfl⟩ := (Finsupp.mem_span_image_iff_linearCombination _).mp inside
  refine ⟨weights.support, fun k listed => supported listed, Finset.sum_congr rfl fun k listed => ?_⟩
  have one : weights k = 1 := Fin.eq_one_of_ne_zero _ (Finsupp.mem_support_iff.mp listed)
  rw [one]
  exact one_smul _ _

theorem Reducing.sums {cols : Nat} (reducible : Reducible (fun _ => 0) matrix.columns)
    (reducing : Reducing (List.range matrix.numColumns) (fun _ => 0) matrix.columns cols reduced)
    {column original : Column} (found : reduced.columns[col]? = some column)
    (originally : matrix.columns[col]? = some original) :
    ∃ earlier : Finset Nat, (∀ k ∈ earlier, k < col) ∧ ∀ row, (column.count row : ZMod 2) =
      original.count row + ∑ k ∈ earlier, ((matrix.columns.getD k []).count row : ZMod 2) := by
  obtain ⟨earlier, below, sum⟩ := exists_sum_of_mem_earlierSpan (reducing.combined col column original found originally)
  refine ⟨earlier, below, fun row => ?_⟩
  by_cases inside : row < matrix.numColumns
  · rw [sub_eq_iff_eq_add'] at sum
    have entry := DFunLike.congr_fun sum row
    rw [Finsupp.add_apply, Finsupp.finsetSum_apply, chain_range inside, chain_range inside] at entry
    rw [entry]
    exact congrArg _ (Finset.sum_congr rfl fun k _ => chain_range inside _)
  · have outside {column : Column} (bounded : ∀ i ∈ column, i < matrix.numColumns) : column.count row = 0 :=
      List.count_eq_zero.mpr fun listed => inside (bounded row listed)
    have absent (k : Nat) : (matrix.columns.getD k []).count row = 0 := by
      rw [List.getD_eq_getElem?_getD]
      cases held : matrix.columns[k]? with
      | none => rfl
      | some other => exact outside (reducible.bounded k other held)
    rw [outside (reducing.bounded col column found), outside (reducible.bounded col original originally),
      Finset.sum_congr rfl fun k _ => congrArg Nat.cast (absent k)]
    simp

/-- The reduction ends, whatever the bound on its rounds above the number of columns. -/
theorem column_reduction_sound (matrix : BoundaryMatrix) (increasing : ∀ (col : Nat) column,
    matrix.columns[col]? = some column → Ascending column ∧ ∀ i ∈ column, i < col) :
    ∃ result, (∀ fuel, matrix.numColumns < fuel → reduceBoundaryMatrix fuel matrix = some result) ∧
      SoundlyReduced matrix result.matrix := by
  have reducible : Reducible (fun _ => 0) matrix.columns := by
    refine ⟨fun col column found => (increasing col column found).1, fun col column found i listed => ?_, by simp⟩
    exact ((increasing col column found).2 i listed).trans (List.getElem?_eq_some_iff.mp found).1
  obtain ⟨reduced, run, reducing⟩ :=
    @reduceBoundaryMatrix_reducing _ (List.range matrix.numColumns) _ _ reducible _ (Nat.lt_succ_self matrix.numColumns)
  have within {col pivot : Nat} (lowest : reduced.lowestFace col = some pivot) : col < matrix.numColumns := by
    obtain ⟨column, found, -⟩ := lowestFace_eq_some.mp lowest
    rw [BoundaryMatrix.numColumns, ← reducing.size]
    exact (List.getElem?_eq_some_iff.mp found).1
  have recorded (pivot col : Nat) :
      reduced.findColumnWithPivot pivot = some col ↔ reduced.lowestFace col = some pivot :=
    (reducing.pivots pivot col).trans (and_iff_right_of_imp within)
  refine ⟨_, fun fuel enough => reduceBoundaryMatrix_mono enough run, reducing.size, reducing.ascending, recorded, ?_,
    fun col column original => reducing.sums reducible⟩
  intro first second pivot lowest lowest'
  exact Option.some.inj (((recorded pivot first).mpr lowest).symm.trans ((recorded pivot second).mpr lowest'))

def hollowBoundary : BoundaryMatrix := ⟨[[], [], [], [0, 1], [0, 2], [1, 2]], ∅⟩

theorem column_reduction_sound_hollow : (∀ (col : Nat) column, hollowBoundary.columns[col]? = some column →
    Ascending column ∧ ∀ i ∈ column, i < col) ∧ ∃ result,
      (∀ fuel, 6 < fuel → reduceBoundaryMatrix fuel hollowBoundary = some result) ∧
        SoundlyReduced hollowBoundary result.matrix := by
  have increasing : ∀ (col : Nat) column, hollowBoundary.columns[col]? = some column →
      Ascending column ∧ ∀ i ∈ column, i < col := by
    have listed : ∀ entry ∈ hollowBoundary.columns.zipIdx, Ascending entry.1 ∧ ∀ i ∈ entry.1, i < entry.2 := by
      decide
    exact fun col column found => listed (column, col) (List.mem_zipIdx_iff_getElem?.mpr found)
  exact ⟨increasing, column_reduction_sound hollowBoundary increasing⟩

end AdicProof.Finality
