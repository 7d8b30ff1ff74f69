import AdicCore.Finality.BoundaryColumns

namespace AdicModel.Finality

/-- The entries in other rows. `none` is the panic on a row outside the matrix. -/
def unclearedRows (clearedRows : List Bool) : Column → Option Column
  | [] => some []
  | row :: column => do
    let cleared ← clearedRows[row]?
    let filtered ← unclearedRows clearedRows column
    return if cleared then filtered else row :: filtered

def BoundaryMatrix.clearColumn (matrix : BoundaryMatrix) (clearedRows : List Bool) (col : Nat) :
    Option BoundaryMatrix :=
  match matrix.columns[col]? with
  | none => some matrix
  | some columnData => do
    let filtered ← unclearedRows clearedRows columnData
    if filtered.length ≠ columnData.length then return { matrix with columns := matrix.columns.set col filtered }
    return matrix

/-- The loop for one column, which clears the row of a new pivot. `none` if `fuel` runs out, or on a row outside the
    matrix. -/
def clearingReduceColumn : Nat → BoundaryMatrix → List Bool → Nat → Option (BoundaryMatrix × List Bool)
  | 0, _, _, _ => none
  | fuel + 1, matrix, clearedRows, col =>
    match matrix.lowestFace col with
    | none => some (matrix, clearedRows)
    | some pivot =>
      match matrix.findColumnWithPivot pivot with
      | some otherCol => clearingReduceColumn fuel (matrix.xorColumns col otherCol) clearedRows col
      | none =>
        if pivot < clearedRows.length then some (matrix.updatePivot col, clearedRows.set pivot true) else none

def clearingRound (fuel : Nat) (state : BoundaryMatrix × List Bool) (col : Nat) :
    Option (BoundaryMatrix × List Bool) := do
  let matrix ← state.1.clearColumn state.2 col
  clearingReduceColumn fuel matrix state.2 col

def reduceWithClearing (fuel : Nat) (matrix : BoundaryMatrix) (_complex : SimplicialComplex) :
    Option ReductionResult := do
  let n := matrix.numColumns
  let (reduced, _) ← (List.range n).foldlM (clearingRound fuel) (matrix.clearPivots, List.replicate n false)
  return extractPairing reduced n

end AdicModel.Finality

open AdicModel.Finality Submodule Elimination

namespace AdicProof.Finality

variable {column : Column}

theorem unclearedRows_eq {clearedRows : List Bool}
    (inside : ∀ row ∈ column, row < clearedRows.length) :
    unclearedRows clearedRows column = some (column.filter fun row => clearedRows[row]? ≠ some true) := by
  induction column with
  | nil => rfl
  | cons row column ih =>
    have bound := inside row List.mem_cons_self
    rw [unclearedRows, ih fun other member => inside other (List.mem_cons_of_mem row member),
      List.getElem?_eq_getElem bound]
    cases value : clearedRows[row] with
    | true => simp [value, List.getElem?_eq_getElem bound]
    | false => simp [value, List.getElem?_eq_getElem bound]

structure Clearing (initial : List Column) (done : Nat) (state : BoundaryMatrix × List Bool) : Prop where
  size : state.2.length = initial.length
  pending : ∀ col, done ≤ col → state.1.columns[col]? = initial[col]?
  greedy : ∀ (col : Nat) column, col < done → initial[col]? = some column →
    state.1.lowestFace col = (column.filter fun row => ∀ other < col, state.1.lowestFace other ≠ some row).getLast?
  recorded : PivotsRecorded done state.1
  cleared : ∀ row, state.2[row]? = some true ↔ ∃ col < done, state.1.lowestFace col = some row

variable {fuel : Nat}

section

variable {initial : List Column} {done : Nat} {state : BoundaryMatrix × List Bool}

theorem clearColumn_filters {matrix : BoundaryMatrix} {clearedRows : List Bool} {original : Column}
    (found : matrix.columns[done]? = some original) (inside : ∀ row ∈ original, row < clearedRows.length) :
    ∃ next, matrix.clearColumn clearedRows done = some next ∧ next.pivotMap = matrix.pivotMap ∧
      next.columns[done]? = some (original.filter fun row => clearedRows[row]? ≠ some true) ∧
      ∀ col, col ≠ done → next.columns[col]? = matrix.columns[col]? := by
  unfold BoundaryMatrix.clearColumn
  rw [found]
  dsimp only
  rw [unclearedRows_eq inside]
  simp only [Option.bind_eq_bind, Option.bind_some, Option.pure_def]
  split
  · refine ⟨_, rfl, rfl, ?_, ?_⟩
    · exact List.getElem?_set_self (List.getElem?_eq_some_iff.mp found).1
    · intro col different
      exact List.getElem?_set_ne (Ne.symm different)
  · next same =>
    refine ⟨_, rfl, rfl, ?_, fun _ _ => rfl⟩
    rw [found, List.filter_eq_self.mpr (List.length_filter_eq_length_iff.mp (not_not.mp same))]

theorem lowestFace_congr {matrix next : BoundaryMatrix} {col : Nat} (same : next.columns[col]? = matrix.columns[col]?) :
    next.lowestFace col = matrix.lowestFace col := by
  rw [BoundaryMatrix.lowestFace, BoundaryMatrix.lowestFace, same]

structure Cleared (initial : List Column) (done : Nat) (original : Column) (matrix : BoundaryMatrix)
    (clearedRows : List Bool) : Prop where
  size : clearedRows.length = initial.length
  pending : ∀ col, done + 1 ≤ col → matrix.columns[col]? = initial[col]?
  greedy : ∀ (col : Nat) column, col < done + 1 → initial[col]? = some column → matrix.lowestFace col =
    (column.filter fun row => ∀ other < col, matrix.lowestFace other ≠ some row).getLast?
  recorded : PivotsRecorded done matrix
  rows : ∀ row, clearedRows[row]? = some true ↔ ∃ col < done, matrix.lowestFace col = some row
  lowest : matrix.lowestFace done =
    (original.filter fun row => ∀ other < done, matrix.lowestFace other ≠ some row).getLast?

theorem Clearing.clearColumn (clearing : Clearing initial done state) {original : Column}
    (found : initial[done]? = some original) (inside : ∀ row ∈ original, row < initial.length) :
    ∃ cleared, state.1.clearColumn state.2 done = some cleared ∧ Cleared initial done original cleared state.2 := by
  have here : state.1.columns[done]? = some original := (clearing.pending done le_rfl).trans found
  obtain ⟨cleared, run, map, own, others⟩ :=
    @clearColumn_filters done state.1 state.2 original here fun row member => clearing.size ▸ inside row member
  have lows : ∀ col, col ≠ done → cleared.lowestFace col = state.1.lowestFace col :=
    fun col different => lowestFace_congr (others col different)
  have filtered : original.filter (fun row => decide (state.2[row]? ≠ some true)) =
      original.filter fun row => decide (∀ other < done, cleared.lowestFace other ≠ some row) := by
    apply List.filter_congr
    intro row _
    apply decide_eq_decide.mpr
    rw [Ne, clearing.cleared row]
    push Not
    exact forall₂_congr fun other below => by rw [lows other (Nat.ne_of_lt below)]
  rw [filtered] at own
  have lowest : cleared.lowestFace done =
      (original.filter fun row => decide (∀ other < done, cleared.lowestFace other ≠ some row)).getLast? := by
    rw [BoundaryMatrix.lowestFace, own, Option.bind_some]
  refine ⟨cleared, run, clearing.size, ?_, ?_, ?_, ?_, lowest⟩
  · intro col above
    rw [others col (by omega)]
    exact clearing.pending col (by omega)
  · intro col column below atCol
    rcases Nat.lt_succ_iff_lt_or_eq.mp below with before | rfl
    · rw [lows col (Nat.ne_of_lt before), clearing.greedy col column before atCol]
      congr 1
      apply List.filter_congr
      intro row _
      apply decide_eq_decide.mpr
      exact forall₂_congr fun other earlier => by rw [lows other (Nat.ne_of_lt (earlier.trans before))]
    · rw [found] at atCol
      cases atCol
      exact lowest
  · intro pivot col
    rw [BoundaryMatrix.findColumnWithPivot, map]
    refine (clearing.recorded pivot col).trans (and_congr_right fun below => ?_)
    rw [lows col (Nat.ne_of_lt below)]
  · intro row
    rw [clearing.cleared row]
    exact exists_congr fun col => and_congr_right fun below => by rw [lows col (Nat.ne_of_lt below)]

section

variable {original : Column} {matrix : BoundaryMatrix} {clearedRows : List Bool}
  (cleared : Cleared initial done original matrix clearedRows)

include cleared

theorem Cleared.emptyColumn (last : matrix.lowestFace done = none) :
    Clearing initial (done + 1) (matrix, clearedRows) := by
  refine ⟨cleared.size, cleared.pending, cleared.greedy, cleared.recorded.emptyColumn last, ?_⟩
  intro row
  rw [cleared.rows row, Nat.exists_lt_succ_right, last]
  simp

theorem Cleared.fresh {pivot : Nat} (last : matrix.lowestFace done = some pivot) :
    matrix.findColumnWithPivot pivot = none := by
  by_contra present
  obtain ⟨col, known⟩ := Option.ne_none_iff_exists'.mp present
  obtain ⟨below, same⟩ := (cleared.recorded pivot col).mp known
  have kept := List.mem_of_getLast? (cleared.lowest.symm.trans last)
  exact decide_eq_true_iff.mp (List.mem_filter.mp kept).2 col below same

theorem Cleared.newPivot {pivot : Nat} (last : matrix.lowestFace done = some pivot)
    (bound : pivot < clearedRows.length) :
    Clearing initial (done + 1) (matrix.updatePivot done, clearedRows.set pivot true) := by
  have columns : ∀ col : Nat, (matrix.updatePivot done).columns[col]? = matrix.columns[col]? := by
    intro col
    rw [BoundaryMatrix.updatePivot, last]
  refine ⟨?_, ?_, ?_, cleared.recorded.updatePivot last (cleared.fresh last), ?_⟩
  · rw [List.length_set]
    exact cleared.size
  · intro col above
    rw [columns col]
    exact cleared.pending col above
  · intro col column below atCol
    simp only [fun col : Nat => lowestFace_congr (columns col)]
    exact cleared.greedy col column below atCol
  · intro row
    simp only [fun col : Nat => lowestFace_congr (columns col)]
    rw [Nat.exists_lt_succ_right, last]
    by_cases same : row = pivot
    · rw [same, List.getElem?_set_self bound]
      exact iff_of_true rfl (.inr rfl)
    · rw [List.getElem?_set_ne (Ne.symm same), cleared.rows row, Option.some_inj]
      exact (or_iff_left (Ne.symm same)).symm

end

theorem Clearing.round (clearing : Clearing initial done state) {original : Column}
    (found : initial[done]? = some original) (inside : ∀ row ∈ original, row < initial.length)
    (positive : 0 < fuel) : ∃ next, clearingRound fuel state done = some next ∧ Clearing initial (done + 1) next := by
  obtain ⟨matrix, run, cleared⟩ := clearing.clearColumn found inside
  obtain ⟨fuel, rfl⟩ : ∃ rest, fuel = rest + 1 := ⟨fuel - 1, by omega⟩
  unfold clearingRound
  rw [run]
  simp only [Option.bind_eq_bind, Option.bind_some]
  unfold clearingReduceColumn
  cases last : matrix.lowestFace done with
  | none => exact ⟨_, rfl, cleared.emptyColumn last⟩
  | some pivot =>
    have kept := List.mem_of_getLast? (cleared.lowest.symm.trans last)
    have bound : pivot < state.2.length := clearing.size ▸ inside pivot (List.mem_filter.mp kept).1
    simp only [cleared.fresh last, if_pos bound]
    exact ⟨_, rfl, cleared.newPivot last bound⟩

theorem reduceWithClearing_clearing {matrix : BoundaryMatrix} (complex : SimplicialComplex)
    (bounded : ∀ (col : Nat) column, matrix.columns[col]? = some column → ∀ row ∈ column, row < matrix.columns.length)
    (positive : 0 < fuel) :
    ∃ reduced, reduceWithClearing fuel matrix complex = some (extractPairing reduced.1 matrix.numColumns) ∧
      Clearing matrix.columns matrix.numColumns reduced := by
  have start : Clearing matrix.columns 0 (matrix.clearPivots, List.replicate matrix.numColumns false) := by
    refine ⟨List.length_replicate, fun _ _ => rfl, fun _ _ below => absurd below (Nat.not_lt_zero _), ?_, ?_⟩
    · intro pivot col
      constructor
      · intro found
        cases found
      · rintro ⟨below, _⟩
        exact absurd below (Nat.not_lt_zero col)
    · intro row
      constructor
      · intro cleared
        obtain ⟨_, value⟩ := List.getElem?_eq_some_iff.mp cleared
        rw [List.getElem_replicate] at value
        cases value
      · rintro ⟨_, below, _⟩
        exact absurd below (Nat.not_lt_zero _)
  obtain ⟨reduced, run, finished⟩ := foldlM_range' (clearingRound fuel) (Clearing matrix.columns) 0 matrix.numColumns
    start fun col state _ below clearing => by
      rw [Nat.zero_add] at below
      have found := List.getElem?_eq_getElem below
      exact clearing.round found (bounded col _ found) positive
  rw [Nat.zero_add] at finished
  rw [← List.range_eq_range'] at run
  refine ⟨reduced, ?_, finished⟩
  rw [reduceWithClearing]
  simp only [run]
  rfl

end

section

variable {initial : List Column}

noncomputable def columnChain (columns : List Column) (col : Nat) : Nat →₀ ZMod 2 :=
  (columns[col]?).elim 0 (chain (List.range columns.length))

noncomputable abbrev earlierChains (columns : List Column) (col : Nat) : Submodule (ZMod 2) (Nat →₀ ZMod 2) :=
  span (ZMod 2) (columnChain columns '' Set.Iio col)

variable {columns : List Column}

theorem columnChain_apply {col : Nat} (found : columns[col]? = some column)
    (ascending : Ascending column) (bounded : ∀ row ∈ column, row < columns.length) (row : Nat) :
    columnChain columns col row = if row ∈ column then 1 else 0 := by
  rw [columnChain, found, Option.elim_some, chain_apply List.nodup_range ascending]
  congr 1
  apply propext
  constructor
  · rintro ⟨index, member, same⟩
    rw [List.getElem?_range (bounded index member)] at same
    cases same
    exact member
  · intro member
    exact ⟨row, member, List.getElem?_range (bounded row member)⟩

theorem columnChain_ne_zero {col : Nat} (found : columns[col]? = some column)
    (ascending : Ascending column) (bounded : ∀ row ∈ column, row < columns.length) (row : Nat) :
    columnChain columns col row ≠ 0 ↔ row ∈ column := by
  rw [columnChain_apply found ascending bounded]
  split <;> simp [*]

theorem leads_columnChain {col pivot : Nat}
    (found : columns[col]? = some column) (ascending : Ascending column)
    (bounded : ∀ row ∈ column, row < columns.length) (last : column.getLast? = some pivot) :
    Leads id (columnChain columns col) pivot := by
  constructor
  · exact (columnChain_ne_zero found ascending bounded pivot).mpr (List.mem_of_getLast? last)
  · intro row occurs different
    have member := (columnChain_ne_zero found ascending bounded row).mp occurs
    exact lt_of_le_of_ne (le_getLast ascending last member) different

theorem Reducing.columnReduction {matrix : BoundaryMatrix} (reducible : Reducible (fun _ => 0) initial)
    (reducing : Reducing (List.range initial.length) (fun _ => 0) initial initial.length matrix) :
    Reduction (Finset.range initial.length) id (fun _ => 0) (columnChain initial) (columnChain matrix.columns)
      matrix.lowestFace := by
  have atColumn : ∀ {col : Nat}, col < initial.length → ∃ column original, matrix.columns[col]? = some column ∧
      initial[col]? = some original := by
    intro col below
    exact ⟨_, _, List.getElem?_eq_getElem (reducing.size ▸ below), List.getElem?_eq_getElem below⟩
  have bounded : ∀ {col : Nat} {column : Column}, matrix.columns[col]? = some column →
      ∀ row ∈ column, row < matrix.columns.length := by
    intro col column found row member
    rw [reducing.size]
    exact reducing.bounded col column found row member
  refine ⟨?_, ?_, ?_, ?_, ?_, ?_⟩
  · intro col inside row occurs
    obtain ⟨_, original, _, found⟩ := atColumn (Finset.mem_range.mp inside)
    have member := (columnChain_ne_zero found (reducible.ascending col original found)
      (reducible.bounded col original found) row).mp occurs
    exact Finset.mem_range.mpr (reducible.bounded col original found row member)
  · intro col inside
    obtain ⟨column, original, found, found'⟩ := atColumn (Finset.mem_range.mp inside)
    have change := reducing.combined col column original found found'
    rw [columnChain, columnChain, found, found', reducing.size]
    refine span_mono ?_ change
    rintro _ ⟨other, original', before, _, atOther, rfl⟩
    refine ⟨other, ⟨Finset.mem_range.mpr (List.getElem?_eq_some_iff.mp atOther).1, before, rfl⟩, ?_⟩
    rw [columnChain, atOther, Option.elim_some]
  · intro col inside none
    obtain ⟨column, _, found, _⟩ := atColumn (Finset.mem_range.mp inside)
    rw [BoundaryMatrix.lowestFace, found, Option.bind_some, List.getLast?_eq_none_iff] at none
    rw [columnChain, found, none, Option.elim_some, chain_nil]
  · intro col pivot lowest
    obtain ⟨column, found, _⟩ := lowestFace_eq_some.mp lowest
    exact Finset.mem_range.mpr (reducing.size ▸ (List.getElem?_eq_some_iff.mp found).1)
  · intro col pivot lowest
    obtain ⟨column, found, last⟩ := lowestFace_eq_some.mp lowest
    exact leads_columnChain found (reducing.ascending col column found) (bounded found) last
  · intro first second pivot lowest lowest'
    have inside : ∀ {col : Nat}, matrix.lowestFace col = some pivot → col < initial.length := by
      intro col lowest
      obtain ⟨column, found, _⟩ := lowestFace_eq_some.mp lowest
      exact reducing.size ▸ (List.getElem?_eq_some_iff.mp found).1
    have one := (reducing.pivots pivot first).mpr ⟨inside lowest, lowest⟩
    rw [(reducing.pivots pivot second).mpr ⟨inside lowest', lowest'⟩] at one
    exact (Option.some.inj one).symm

def Killed (columns : List Column) (col row : Nat) : Prop := ∃ v ∈ earlierChains columns col, Leads id v row

/-- From the largest kept entry on, a sum of earlier columns has exactly the entries that are cleared. -/
def ClearsSafely (columns : List Column) (col : Nat) (column : Column) : Prop :=
  ∃ v ∈ earlierChains columns col, ∀ row, (∀ kept ∈ column, ¬ Killed columns col kept → kept ≤ row) →
    (v row ≠ 0 ↔ row ∈ column ∧ Killed columns col row)

theorem earlier_range {count col : Nat} (below : col < count) :
    earlier (Finset.range count) id (fun _ => 0) col = Set.Iio col := by
  ext other
  constructor
  · intro member
    exact member.2.1
  · intro before
    exact ⟨Finset.mem_range.mpr (before.trans below), before, rfl⟩

section

variable {matrix : BoundaryMatrix} (reducible : Reducible (fun _ => 0) initial)
  (reducing : Reducing (List.range initial.length) (fun _ => 0) initial initial.length matrix)
  {col : Nat} {column : Column} (found : initial[col]? = some column)

include reducible reducing found

theorem killed_iff (row : Nat) : Killed initial col row ↔ ∃ other < col, matrix.lowestFace other = some row := by
  have reduction := reducing.columnReduction reducible
  have below : col < initial.length := (List.getElem?_eq_some_iff.mp found).1
  have closed := @closed_earlier _ (Finset.range initial.length) id (fun _ => 0) col
  rw [earlier_range below] at closed
  constructor
  · rintro ⟨v, member, leads⟩
    exact reduction.lead_of_mem_span closed member leads
  · rintro ⟨other, before, lowest⟩
    exact ⟨_, reduction.reduced_mem_span closed before, reduction.leads other row lowest⟩

theorem mem_uncleared_iff (row : Nat) :
    row ∈ column.filter (fun row => ∀ other < col, matrix.lowestFace other ≠ some row) ↔
      row ∈ column ∧ ¬ Killed initial col row := by
  rw [List.mem_filter, decide_eq_true_iff, killed_iff reducible reducing found row]
  push Not
  rfl

theorem le_of_last_uncleared {pivot row : Nat}
    (last : (column.filter fun row => ∀ other < col, matrix.lowestFace other ≠ some row).getLast? = some pivot)
    (present : row ∈ column) (alive : ¬ Killed initial col row) : row ≤ pivot :=
  le_getLast ((reducible.ascending col column found).filter _) last
    ((mem_uncleared_iff reducible reducing found row).mpr ⟨present, alive⟩)

theorem killed_of_no_uncleared
    (last : (column.filter fun row => ∀ other < col, matrix.lowestFace other ≠ some row).getLast? = none) {row : Nat}
    (present : row ∈ column) : Killed initial col row := by
  by_contra alive
  have kept := (mem_uncleared_iff reducible reducing found row).mpr ⟨present, alive⟩
  rw [List.getLast?_eq_none_iff.mp last] at kept
  cases kept

theorem clearsSafely_of_lowestFace (lowest : matrix.lowestFace col =
    (column.filter fun row => ∀ other < col, matrix.lowestFace other ≠ some row).getLast?) :
    ClearsSafely initial col column := by
  have reduction := reducing.columnReduction reducible
  have below : col < initial.length := (List.getElem?_eq_some_iff.mp found).1
  have inside : col ∈ Finset.range initial.length := Finset.mem_range.mpr below
  have ascending := reducible.ascending col column found
  have entries := columnChain_ne_zero found ascending (reducible.bounded col column found)
  have one := columnChain_apply found ascending (reducible.bounded col column found)
  have change := reduction.combined col inside
  rw [show {t | t ∈ Finset.range initial.length ∧ id t < id col ∧ (0 : Nat) = 0} = Set.Iio col from
    earlier_range below] at change
  refine ⟨_, change, ?_⟩
  intro row above
  rw [Finsupp.sub_apply]
  cases last : matrix.lowestFace col with
  | none =>
    rw [reduction.finished col inside last, Finsupp.zero_apply, zero_sub, neg_ne_zero, entries row]
    have dead := @killed_of_no_uncleared _ _ reducible reducing _ _ found (lowest.symm.trans last) row
    exact ⟨fun member => ⟨member, dead member⟩, And.left⟩
  | some pivot =>
    have kept := lowest.symm.trans last
    obtain ⟨member, alive⟩ := (mem_uncleared_iff reducible reducing found pivot).mp (List.mem_of_getLast? kept)
    have leads := reduction.leads col pivot last
    rcases Nat.lt_or_eq_of_le (above pivot member alive) with higher | rfl
    · have zero : columnChain matrix.columns col row = 0 := by
        by_contra occurs
        exact absurd (leads.top row occurs higher.ne') (not_lt.mpr higher.le)
      rw [zero, zero_sub, neg_ne_zero, entries row]
      refine ⟨fun present => ⟨present, ?_⟩, And.left⟩
      by_contra alive'
      exact absurd (le_of_last_uncleared reducible reducing found kept present alive') (not_le.mpr higher)
    · have both : columnChain matrix.columns col pivot = 1 := Fin.eq_one_of_ne_zero _ leads.occurs
      rw [both, one pivot, if_pos member, sub_self]
      exact iff_of_false (fun contra => contra rfl) fun contra => alive contra.2

theorem lowestFace_none_of_safe {v : Nat →₀ ZMod 2} (member : v ∈ earlierChains initial col)
    (agrees : ∀ row, (∀ kept ∈ column, ¬ Killed initial col kept → kept ≤ row) →
      (v row ≠ 0 ↔ row ∈ column ∧ Killed initial col row))
    (dead : ∀ row ∈ column, Killed initial col row) : matrix.lowestFace col = none := by
  have reduction := reducing.columnReduction reducible
  have below : col < initial.length := (List.getElem?_eq_some_iff.mp found).1
  have ascending := reducible.ascending col column found
  have one := columnChain_apply found ascending (reducible.bounded col column found)
  have same : v = columnChain initial col := by
    ext row
    have here := agrees row fun other present alive => absurd (dead other present) alive
    rw [one row]
    split
    · next present => exact Fin.eq_one_of_ne_zero _ (here.mpr ⟨present, dead row present⟩)
    · next absent =>
      by_contra occurs
      exact absent (here.mp occurs).1
  have spanned : columnChain initial col ∈ span (ZMod 2)
      (columnChain initial '' earlier (Finset.range initial.length) id (fun _ => 0) col) := by
    rw [earlier_range below, ← same]
    exact member
  exact reduction.lead_none (Finset.mem_range.mpr below) spanned

theorem leads_of_safe {v : Nat →₀ ZMod 2} {pivot : Nat}
    (agrees : ∀ row, (∀ kept ∈ column, ¬ Killed initial col kept → kept ≤ row) →
      (v row ≠ 0 ↔ row ∈ column ∧ Killed initial col row))
    (last : (column.filter fun row => ∀ other < col, matrix.lowestFace other ≠ some row).getLast? = some pivot) :
    Leads id (columnChain initial col + v) pivot := by
  have ascending := reducible.ascending col column found
  have entries := columnChain_ne_zero found ascending (reducible.bounded col column found)
  have one := columnChain_apply found ascending (reducible.bounded col column found)
  obtain ⟨present, alive⟩ := (mem_uncleared_iff reducible reducing found pivot).mp (List.mem_of_getLast? last)
  have upper : ∀ row ∈ column, ¬ Killed initial col row → row ≤ pivot := fun row =>
    le_of_last_uncleared reducible reducing found last
  refine ⟨?_, ?_⟩
  · have zero : v pivot = 0 := by
      by_contra occurs
      exact alive ((agrees pivot upper).mp occurs).2
    rw [Finsupp.add_apply, zero, add_zero, entries pivot]
    exact present
  · intro row occurs different
    by_contra notBelow
    have higher : pivot < row := lt_of_le_of_ne (not_lt.mp notBelow) (Ne.symm different)
    have here := agrees row fun other present alive => (upper other present alive).trans higher.le
    apply occurs
    rw [Finsupp.add_apply, one row]
    split
    · next inColumn =>
      have dead : Killed initial col row := by
        by_contra alive'
        exact absurd (upper row inColumn alive') (not_le.mpr higher)
      rw [Fin.eq_one_of_ne_zero _ (here.mpr ⟨inColumn, dead⟩)]
      rfl
    · next absent =>
      have zero : v row = 0 := by
        by_contra occurs
        exact absent (here.mp occurs).1
      rw [zero, add_zero]

theorem lowestFace_eq_kept_iff : matrix.lowestFace col =
    (column.filter fun row => ∀ other < col, matrix.lowestFace other ≠ some row).getLast? ↔
      ClearsSafely initial col column := by
  have below : col < initial.length := (List.getElem?_eq_some_iff.mp found).1
  constructor
  · exact clearsSafely_of_lowestFace reducible reducing found
  · rintro ⟨v, member, agrees⟩
    cases last : (column.filter fun row => ∀ other < col, matrix.lowestFace other ≠ some row).getLast? with
    | none =>
      exact lowestFace_none_of_safe reducible reducing found member agrees fun row =>
        killed_of_no_uncleared reducible reducing found last
    | some pivot =>
      obtain ⟨_, alive⟩ := (mem_uncleared_iff reducible reducing found pivot).mp (List.mem_of_getLast? last)
      have reduction := reducing.columnReduction reducible
      refine reduction.lead_some Function.injective_id (Finset.mem_range.mpr below) (v := columnChain initial col + v) ?_
        (leads_of_safe reducible reducing found agrees last) ?_
      · rw [add_sub_cancel_left, earlier_range below]
        exact member
      · intro other before lowest
        rw [earlier_range below] at before
        exact alive ((killed_iff reducible reducing found pivot).mpr ⟨other, before, lowest⟩)

end

structure SamePairing (first second : ReductionResult) : Prop where
  pairs : ∀ col, first.pairs.lookup col = second.pairs.lookup col
  unpaired : first.unpaired = second.unpaired

theorem samePairing_iff {count : Nat} {first second : BoundaryMatrix} (recorded : PivotsRecorded count first)
    (recorded' : PivotsRecorded count second) :
    SamePairing (extractPairing first count) (extractPairing second count) ↔
      ∀ col < count, first.lowestFace col = second.lowestFace col := by
  constructor
  · intro same col below
    apply Option.ext
    intro pivot
    have one := @PivotsRecorded.lookup_pairs _ _ recorded count col pivot
    rw [same.pairs col, recorded'.lookup_pairs] at one
    exact ⟨fun lowest => (one.mpr ⟨below, lowest⟩).2, fun lowest => (one.mp ⟨below, lowest⟩).2⟩
  · intro same
    have pairs : ∀ col, (extractPairing first count).pairs.lookup col =
        (extractPairing second count).pairs.lookup col := by
      intro col
      apply Option.ext
      intro pivot
      rw [recorded.lookup_pairs, recorded'.lookup_pairs]
      exact and_congr_right fun below => by rw [same col below]
    refine ⟨pairs, ?_⟩
    have members : ∀ entry, entry ∈ HashMap.pairs (extractPairing first count).pairs ↔
        entry ∈ HashMap.pairs (extractPairing second count).pairs := by
      rintro ⟨col, pivot⟩
      rw [HashMap.mem_pairs, HashMap.mem_pairs, pairs col]
    show (List.range count).filter _ = (List.range count).filter _
    apply List.filter_congr
    intro col _
    apply decide_eq_decide.mpr
    simp only [List.mem_map]
    exact and_congr (not_congr (exists_congr fun entry => and_congr_left' (members entry)))
      (not_congr (exists_congr fun entry => and_congr_left' (members entry)))

theorem clearing_eq_full_iff {matrix : BoundaryMatrix} (complex : SimplicialComplex)
    (reducible : Reducible (fun _ => 0) matrix.columns) (enough : matrix.numColumns < fuel) :
    ∃ cleared full, reduceWithClearing fuel matrix complex = some cleared ∧
      reduceBoundaryMatrix fuel matrix = some full ∧
      (SamePairing cleared full ↔ ∀ (col : Nat) column, matrix.columns[col]? = some column →
        ClearsSafely matrix.columns col column) := by
  obtain ⟨reduced, run, clearing⟩ := reduceWithClearing_clearing complex reducible.bounded (Nat.zero_lt_of_lt enough)
  obtain ⟨full, run', reducing⟩ :=
    @reduceBoundaryMatrix_reducing _ (List.range matrix.columns.length) _ matrix reducible fuel enough
  refine ⟨_, _, run, run', ?_⟩
  rw [samePairing_iff clearing.recorded reducing.pivots]
  constructor
  · intro same col column found
    have below : col < matrix.columns.length := (List.getElem?_eq_some_iff.mp found).1
    refine (lowestFace_eq_kept_iff reducible reducing found).mp ?_
    rw [← same col below, clearing.greedy col column below found]
    congr 1
    apply List.filter_congr
    intro row _
    exact decide_eq_decide.mpr (forall₂_congr fun other before => by rw [same other (before.trans below)])
  · intro safe col
    induction col using Nat.strong_induction_on with
    | _ col ih =>
      intro below
      have found := List.getElem?_eq_getElem below
      rw [clearing.greedy col _ below found, (lowestFace_eq_kept_iff reducible reducing found).mpr (safe col _ found)]
      congr 1
      apply List.filter_congr
      intro row _
      exact decide_eq_decide.mpr (forall₂_congr fun other before => by rw [ih other before (before.trans below)])

end

/-- Clearing changes neither pairs nor unpaired simplices exactly if it is safe at every simplex. -/
theorem clearing_changes_nothing_iff {complex : SimplicialComplex} (wellFormed : WellFormed complex)
    (facesPresent : FacesPresent complex) (enough : complex.numSimplices < fuel) :
    ∃ cleared full, reduceWithClearing fuel (.fromComplex complex) complex = some cleared ∧
      reduceBoundaryMatrix fuel (.fromComplex complex) = some full ∧
      (SamePairing cleared full ↔ ∀ (col : Nat) column,
        (BoundaryMatrix.fromComplex complex).columns[col]? = some column →
          ClearsSafely (BoundaryMatrix.fromComplex complex).columns col column) := by
  have labels : Labels (fun v : Nat => v) complex := fun _ _ _ _ _ _ _ _ same => same
  obtain ⟨ascending, bounded, _⟩ := reducible_fromComplex labels wellFormed facesPresent
  have reducible : Reducible (fun _ => 0) (BoundaryMatrix.fromComplex complex).columns :=
    ⟨ascending, bounded, fun _ _ _ _ _ _ _ _ _ => rfl⟩
  apply clearing_eq_full_iff complex reducible
  rw [BoundaryMatrix.numColumns, BoundaryMatrix.fromComplex, List.length_map]
  exact enough

def complexOf (simplices : List (List Nat × Weight)) : SimplicialComplex :=
  (simplices.foldl (fun complex entry => (complex.addSimplex entry.1 entry.2).1) SimplicialComplex.new).sortByFiltration

theorem complexOf_wellFormed {simplices : List (List Nat × Weight)}
    (valid : ∀ entry ∈ simplices, entry.1.Nodup ∧ entry.1 ≠ []) : WellFormed (complexOf simplices) := by
  have added : ∀ complex, WellFormed complex →
      WellFormed (simplices.foldl (fun complex entry => (complex.addSimplex entry.1 entry.2).1) complex) := by
    induction simplices with
    | nil => exact fun _ wellFormed => wellFormed
    | cons entry simplices ih =>
      intro complex wellFormed
      obtain ⟨nodup, inhabited⟩ := valid entry List.mem_cons_self
      have kept := wellFormed.addSimplex entry.2 nodup inhabited
      exact ih (fun other member => valid other (List.mem_cons_of_mem _ member)) _ kept
  exact (sortByFiltration_spec (added _ new_wellFormed)).1

def edgeComplex : SimplicialComplex := complexOf [([0], 0), ([1], 0), ([0, 1], 1)]

theorem clearing_changes_nothing_edge :
    ∃ cleared full, reduceWithClearing 4 (.fromComplex edgeComplex) edgeComplex = some cleared ∧
      reduceBoundaryMatrix 4 (.fromComplex edgeComplex) = some full ∧
      (SamePairing cleared full ↔ ∀ (col : Nat) column,
        (BoundaryMatrix.fromComplex edgeComplex).columns[col]? = some column →
          ClearsSafely (BoundaryMatrix.fromComplex edgeComplex).columns col column) := by
  refine clearing_changes_nothing_iff (complexOf_wellFormed (by decide)) ?_ (by decide +kernel)
  unfold FacesPresent
  decide +kernel

def hollowTriangle : SimplicialComplex :=
  complexOf [([0], 0), ([1], 0), ([2], 0), ([0, 1], 1), ([1, 2], 2), ([0, 2], 3)]

/-- The last edge of a hollow triangle pairs with the oldest vertex instead. -/
theorem clearing_pairs_oldest_vertex : ¬ ∀ complex : SimplicialComplex, WellFormed complex → FacesPresent complex →
    ∀ fuel cleared full, reduceWithClearing fuel (.fromComplex complex) complex = some cleared →
      reduceBoundaryMatrix fuel (.fromComplex complex) = some full → SamePairing cleared full := by
  intro claim
  have closed : FacesPresent hollowTriangle := by
    unfold FacesPresent
    decide +kernel
  have cleared : (reduceWithClearing 10 (.fromComplex hollowTriangle) hollowTriangle).map ReductionResult.unpaired =
      some [] := by
    decide +kernel
  have full : (reduceBoundaryMatrix 10 (.fromComplex hollowTriangle)).map ReductionResult.unpaired = some [0, 5] := by
    decide +kernel
  obtain ⟨first, run, none⟩ := Option.map_eq_some_iff.mp cleared
  obtain ⟨second, run', two⟩ := Option.map_eq_some_iff.mp full
  have same := (claim hollowTriangle (complexOf_wellFormed (by decide)) closed 10 first second run run').unpaired
  rw [none, two] at same
  cases same

end AdicProof.Finality
