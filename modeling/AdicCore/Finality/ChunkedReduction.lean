import AdicCore.Finality.ClearingReduction
import AdicCore.Finality.StreamingRun

namespace AdicModel.Finality

/-- The columns of a chunk are appended and reduced. -/
def StreamingPersistence.feedChunk (fuel : Nat) (streaming : StreamingPersistence) (newColumns : List Column) :
    Option StreamingPersistence :=
  let newColumnsStart := streaming.matrix.numColumns
  { streaming with matrix := streaming.matrix.appendColumns newColumns }.incrementalReduce fuel newColumnsStart

def StreamingPersistence.feedChunks (fuel : Nat) (streaming : StreamingPersistence) (chunks : List (List Column)) :
    Option StreamingPersistence := chunks.foldlM (feedChunk fuel) streaming

end AdicModel.Finality

open AdicModel AdicModel.Finality Elimination Homology

namespace AdicProof.Finality

structure Filtered (columns : List Column) : Prop where
  ascending : ∀ (col : Nat) column, columns[col]? = some column → Ascending column
  below : ∀ (col : Nat) column, columns[col]? = some column → ∀ row ∈ column, row < col

section

variable {matrix reduced : BoundaryMatrix} {more : List Column} {col : Nat}

theorem getElem?_appendColumns (below : col < matrix.numColumns) :
    (matrix.appendColumns more).columns[col]? = matrix.columns[col]? := List.getElem?_append_left below

theorem lowestFace_appendColumns (below : col < matrix.numColumns) :
    (matrix.appendColumns more).lowestFace col = matrix.lowestFace col :=
  lowestFace_congr (getElem?_appendColumns below)

theorem xorColumns_appendColumns {other : Nat} (below : col < matrix.numColumns)
    (below' : other < matrix.numColumns) :
    (matrix.appendColumns more).xorColumns col other = (matrix.xorColumns col other).appendColumns more := by
  have found := List.getElem?_eq_getElem below
  have found' := List.getElem?_eq_getElem below'
  unfold BoundaryMatrix.xorColumns
  rw [getElem?_appendColumns below, getElem?_appendColumns below', found, found']
  simp only [BoundaryMatrix.appendColumns]
  rw [List.set_append_left _ _ below]

theorem reduceColumn_appendColumns {fuel : Nat} (below : col < matrix.numColumns)
    (known : ∀ pivot other, matrix.findColumnWithPivot pivot = some other → other < matrix.numColumns)
    (run : reduceColumn fuel matrix col = some reduced) :
    reduceColumn fuel (matrix.appendColumns more) col = some (reduced.appendColumns more) := by
  induction fuel generalizing matrix with
  | zero => cases run
  | succ fuel ih =>
    rw [reduceColumn] at run ⊢
    rw [lowestFace_appendColumns below]
    cases lowest : matrix.lowestFace col with
    | none =>
      simp only [lowest, Option.some.injEq] at run ⊢
      rw [run]
    | some pivot =>
      have sameMap : (matrix.appendColumns more).findColumnWithPivot pivot = matrix.findColumnWithPivot pivot := rfl
      cases found : matrix.findColumnWithPivot pivot with
      | none =>
        simp only [lowest, sameMap, found, Option.some.injEq] at run ⊢
        rw [← run, BoundaryMatrix.updatePivot, BoundaryMatrix.updatePivot, lowestFace_appendColumns below, lowest]
        rfl
      | some other =>
        simp only [lowest, sameMap, found] at run ⊢
        rw [xorColumns_appendColumns below (known pivot other found)]
        have size : (matrix.xorColumns col other).numColumns = matrix.numColumns := by
          unfold BoundaryMatrix.xorColumns BoundaryMatrix.numColumns
          split
          · exact List.length_set ..
          · rfl
        have map : (matrix.xorColumns col other).pivotMap = matrix.pivotMap := by
          unfold BoundaryMatrix.xorColumns
          split <;> rfl
        refine ih (size ▸ below) (fun pivot other found => ?_) run
        rw [BoundaryMatrix.findColumnWithPivot, map] at found
        rw [size]
        exact known pivot other found

end

structure Fed (fuel : Nat) (initial rest : List Column) (done : Nat) (streaming : StreamingPersistence) : Prop where
  reduced : IncrementallyReduced [] initial done streaming
  full : (List.range done).foldlM (reduceColumn fuel) ⟨initial ++ rest, ∅⟩ = some (streaming.matrix.appendColumns rest)

section

variable {fuel done : Nat} {initial rest chunk : List Column} {streaming : StreamingPersistence}

theorem Fed.round (fed : Fed fuel initial rest done streaming) (below : done < initial.length)
    (enough : initial.length < fuel) :
    ∃ next, incrementalRound fuel streaming done = some next ∧ Fed fuel initial rest (done + 1) next := by
  obtain ⟨next, run, _, reduced⟩ := fed.reduced.round enough
  have column : reduceColumn fuel streaming.matrix done = some next.matrix := by
    rw [incrementalRound, incrementalReduceColumn_eq] at run
    cases reduction : reduceColumn fuel streaming.matrix done with
    | none =>
      rw [reduction] at run
      cases run
    | some matrix =>
      rw [reduction] at run
      cases run
      rfl
  have size : streaming.matrix.numColumns = initial.length := fed.reduced.reducing.size
  refine ⟨next, run, reduced, ?_⟩
  rw [List.range_succ, List.foldlM_append, fed.full]
  have later := @reduceColumn_appendColumns _ _ rest _ _ (size ▸ below)
    (fun pivot other found => size ▸ ((fed.reduced.reducing.pivots pivot other).mp found).1.trans below) column
  simpa using later

theorem chain_nil_cells (column : Column) : chain ([] : List (Finset MessageId)) column = 0 := by
  induction column with
  | nil => rfl
  | cons row column ih =>
    rw [chain_cons, ih]
    rfl

theorem Fed.append (fed : Fed fuel initial (chunk ++ rest) initial.length streaming)
    (filtered : Filtered (initial ++ chunk)) : Fed fuel (initial ++ chunk) rest initial.length
      { streaming with matrix := streaming.matrix.appendColumns chunk } := by
  obtain ⟨⟨old, pairs, unpaired⟩, full⟩ := fed
  have size : streaming.matrix.numColumns = initial.length := old.size
  have lows : ∀ col < initial.length,
      (streaming.matrix.appendColumns chunk).lowestFace col = streaming.matrix.lowestFace col :=
    fun col below => lowestFace_appendColumns (size ▸ below)
  have columns : ∀ (col : Nat) column, (streaming.matrix.appendColumns chunk).columns[col]? = some column →
      streaming.matrix.columns[col]? = some column ∨ (initial ++ chunk)[col]? = some column := by
    intro col column found
    rcases Nat.lt_or_ge col initial.length with below | above
    · rw [getElem?_appendColumns (size ▸ below)] at found
      exact .inl found
    · rw [BoundaryMatrix.appendColumns, List.getElem?_append_right (old.size ▸ above), old.size] at found
      rw [List.getElem?_append_right above]
      exact .inr found
  refine ⟨⟨⟨?_, ?_, ?_, ?_, ?_, ?_⟩, ?_, ?_⟩, ?_⟩
  · show (streaming.matrix.columns ++ chunk).length = _
    rw [List.length_append, List.length_append, old.size]
  · intro col column found
    rcases columns col column found with here | there
    · exact old.ascending col column here
    · exact filtered.ascending col column there
  · intro col column found row member
    rw [List.length_append]
    rcases columns col column found with here | there
    · exact Nat.lt_add_right _ (old.bounded col column here row member)
    · rw [← List.length_append]
      exact (filtered.below col column there row member).trans (List.getElem?_eq_some_iff.mp there).1
  · exact fun _ _ _ _ _ _ _ _ _ => rfl
  · intro col column original _ _
    rw [chain_nil_cells, chain_nil_cells, sub_zero]
    exact zero_mem _
  · intro pivot col
    refine (old.pivots pivot col).trans (and_congr_right fun below => ?_)
    rw [lows col below]
  · intro col pivot
    refine (pairs col pivot).trans (and_congr_right fun below => ?_)
    rw [lows col below]
  · refine unpaired.trans (List.filter_congr fun col member => ?_)
    rw [lows col (List.mem_range.mp member)]
  · rw [List.append_assoc, full, BoundaryMatrix.appendColumns, BoundaryMatrix.appendColumns,
      BoundaryMatrix.appendColumns, List.append_assoc]

theorem Fed.feedChunk (fed : Fed fuel initial (chunk ++ rest) initial.length streaming)
    (filtered : Filtered (initial ++ chunk)) (enough : (initial ++ chunk).length < fuel) :
    ∃ next, streaming.feedChunk fuel chunk = some next ∧
      Fed fuel (initial ++ chunk) rest (initial ++ chunk).length next := by
  have appended := fed.append filtered
  have size : (streaming.matrix.appendColumns chunk).numColumns = (initial ++ chunk).length :=
    appended.reduced.reducing.size
  have start : streaming.matrix.numColumns = initial.length := fed.reduced.reducing.size
  unfold StreamingPersistence.feedChunk StreamingPersistence.incrementalReduce
  dsimp only
  rw [size, start]
  split
  · next none =>
    have same : initial.length = (initial ++ chunk).length := by
      rw [List.length_append] at none ⊢
      omega
    exact ⟨_, rfl, same ▸ appended⟩
  · next some =>
    obtain ⟨final, run, finished⟩ := foldlM_range' (incrementalRound fuel) (Fed fuel (initial ++ chunk) rest)
      initial.length ((initial ++ chunk).length - initial.length) appended fun col current _ below holds =>
        holds.round (by omega) enough
    rw [run]
    rw [Nat.add_sub_cancel' (by omega)] at finished
    obtain ⟨⟨reducing, pairs, unpaired⟩, full⟩ := finished
    exact ⟨_, rfl, ⟨reducing, pairs, unpaired⟩, full⟩

theorem Filtered.of_append (filtered : Filtered (initial ++ rest)) : Filtered initial := by
  have found : ∀ {col : Nat} {column : Column}, initial[col]? = some column →
      (initial ++ rest)[col]? = some column := by
    intro col column atCol
    rw [List.getElem?_append_left (List.getElem?_eq_some_iff.mp atCol).1]
    exact atCol
  exact ⟨fun col column atCol => filtered.ascending col column (found atCol),
    fun col column atCol => filtered.below col column (found atCol)⟩

theorem Fed.feedChunks {chunks : List (List Column)} (fed : Fed fuel initial chunks.flatten initial.length streaming)
    (filtered : Filtered (initial ++ chunks.flatten)) (enough : (initial ++ chunks.flatten).length < fuel) :
    ∃ final, streaming.feedChunks fuel chunks = some final ∧
      Fed fuel (initial ++ chunks.flatten) [] (initial ++ chunks.flatten).length final := by
  induction chunks generalizing initial streaming with
  | nil =>
    rw [List.flatten_nil, List.append_nil]
    exact ⟨streaming, rfl, fed⟩
  | cons chunk chunks ih =>
    rw [List.flatten_cons] at fed filtered enough ⊢
    rw [← List.append_assoc] at filtered enough ⊢
    obtain ⟨next, run, fed⟩ := fed.feedChunk filtered.of_append (by
      rw [List.length_append] at enough
      omega)
    obtain ⟨final, run', finished⟩ := ih fed filtered enough
    refine ⟨final, ?_, finished⟩
    unfold StreamingPersistence.feedChunks at run' ⊢
    rw [List.foldlM_cons, run]
    exact run'

end

structure SameColumns (first second : ReductionResult) : Prop where
  pairs : ∀ col, first.pairs.lookup col = second.pairs.lookup col
  unpaired : ∀ col, col ∈ first.unpaired ↔ col ∈ second.unpaired

section

variable {fuel : Nat} {chunks : List (List Column)}

theorem Filtered.reducible {columns : List Column} (filtered : Filtered columns) : Reducible (fun _ => 0) columns :=
  ⟨filtered.ascending, fun col column found row member =>
    (filtered.below col column found row member).trans (List.getElem?_eq_some_iff.mp found).1,
    fun _ _ _ _ _ _ _ _ _ => rfl⟩

theorem columnChain_nil {columns : List Column} {col : Nat} (found : columns[col]? = some []) :
    columnChain columns col = 0 := by
  rw [columnChain, found]
  rfl

section

variable {columns : List Column} {matrix : BoundaryMatrix} (filtered : Filtered columns)
  (reducing : Reducing (List.range columns.length) (fun _ => 0) columns columns.length matrix)

include filtered reducing

theorem lowestFace_of_nil {col : Nat} (found : columns[col]? = some []) : matrix.lowestFace col = none := by
  have inside := Finset.mem_range.mpr (List.getElem?_eq_some_iff.mp found).1
  refine (reducing.columnReduction filtered.reducible).lead_none inside ?_
  rw [columnChain_nil found]
  exact zero_mem _

theorem exists_first_edge (edges : ∃ column ∈ columns, column ≠ []) :
    ∃ col < columns.length, ∃ pivot < col, matrix.lowestFace col = some pivot ∧ matrix.lowestFace pivot = none := by
  have reduction := reducing.columnReduction filtered.reducible
  have occurs : ∃ (col : Nat) (column : Column), columns[col]? = some column ∧ column ≠ [] := by
    obtain ⟨column, member, nonempty⟩ := edges
    obtain ⟨col, found⟩ := List.mem_iff_getElem?.mp member
    exact ⟨col, column, found, nonempty⟩
  classical
  obtain ⟨first, found, nonempty⟩ := Nat.find_spec occurs
  have inside : Nat.find occurs < columns.length := (List.getElem?_eq_some_iff.mp found).1
  have earlier : ∀ col < Nat.find occurs, matrix.lowestFace col = none := by
    intro col before
    have atCol := List.getElem?_eq_getElem (before.trans inside)
    have none := Nat.find_min occurs before
    push Not at none
    rw [none _ atCol] at atCol
    exact lowestFace_of_nil filtered reducing atCol
  obtain ⟨pivot, last⟩ : ∃ pivot, first.getLast? = some pivot :=
    Option.ne_none_iff_exists'.mp (mt List.getLast?_eq_none_iff.mp nonempty)
  have lowest : matrix.lowestFace (Nat.find occurs) = some pivot := by
    refine reduction.lead_some Function.injective_id (Finset.mem_range.mpr inside)
      (v := columnChain columns (Nat.find occurs)) ?_
      (leads_columnChain found (filtered.ascending _ _ found) (filtered.reducible.bounded _ _ found) last) ?_
    · rw [sub_self]
      exact zero_mem _
    · intro col before
      rw [earlier col before.2.1]
      exact Option.some_ne_none _ |>.symm
  have before := filtered.below _ _ found pivot (List.mem_of_getLast? last)
  exact ⟨Nat.find occurs, inside, pivot, before, lowest, earlier pivot before⟩

theorem findColumnWithPivot_of_empty (empty : ∀ column ∈ columns, column = []) (pivot : Nat) :
    matrix.findColumnWithPivot pivot = none := by
  have recorded : PivotsRecorded columns.length matrix := reducing.pivots
  by_contra present
  obtain ⟨col, known⟩ := Option.ne_none_iff_exists'.mp present
  obtain ⟨below, lowest⟩ := (recorded pivot col).mp known
  have found := List.getElem?_eq_getElem below
  rw [empty _ (List.getElem_mem below)] at found
  rw [lowestFace_of_nil filtered reducing found] at lowest
  cases lowest

end

theorem feedChunks_reduced (filtered : Filtered chunks.flatten) (enough : chunks.flatten.length < fuel)
    (dimension radius : Nat) (axis : UInt32) :
    ∃ final, (StreamingPersistence.new dimension radius axis).feedChunks fuel chunks = some final ∧
      reduceBoundaryMatrix fuel ⟨chunks.flatten, ∅⟩ = some (extractPairing final.matrix chunks.flatten.length) ∧
      Reducing (List.range chunks.flatten.length) (fun _ => 0) chunks.flatten chunks.flatten.length final.matrix ∧
      (∀ col pivot, final.reduction.pairs.lookup col = some pivot ↔
        col < chunks.flatten.length ∧ final.matrix.lowestFace col = some pivot) ∧
      final.reduction.unpaired =
        (List.range chunks.flatten.length).filter fun col => final.matrix.lowestFace col = none := by
  have start : Fed fuel [] chunks.flatten 0 (StreamingPersistence.new dimension radius axis) := by
    refine ⟨⟨⟨rfl, ?_, ?_, ?_, ?_, ?_⟩, ?_, rfl⟩, rfl⟩
    · intro col column found
      cases found
    · intro col column found
      cases found
    · intro first second column column' found
      cases found
    · intro col column original found
      cases found
    · intro pivot col
      exact ⟨fun found => (by cases found), fun found => absurd found.1 (Nat.not_lt_zero _)⟩
    · intro col pivot
      exact ⟨fun found => (by cases found), fun found => absurd found.1 (Nat.not_lt_zero _)⟩
  obtain ⟨final, run, fed⟩ := start.feedChunks filtered enough
  rw [List.nil_append] at fed
  have matrix : final.matrix.appendColumns [] = final.matrix := by
    rw [BoundaryMatrix.appendColumns, List.append_nil]
  have full : reduceBoundaryMatrix fuel ⟨chunks.flatten, ∅⟩ =
      some (extractPairing final.matrix chunks.flatten.length) := by
    have all := fed.full
    rw [matrix, List.append_nil] at all
    rw [reduceBoundaryMatrix]
    exact Option.bind_eq_some_iff.mpr ⟨_, all, rfl⟩
  obtain ⟨reduced, run', reducing⟩ := @reduceBoundaryMatrix_reducing _ (List.range chunks.flatten.length) _
    ⟨chunks.flatten, ∅⟩ filtered.reducible fuel enough
  rw [full] at run'
  have same : final.matrix = reduced := congrArg ReductionResult.matrix (Option.some.inj run')
  refine ⟨final, run, full, ?_, fed.reduced.pairs, fed.reduced.unpaired⟩
  rw [same]
  exact reducing

/-- Chunks give the pairs of the full reduction, and its unpaired columns exactly if all are empty. -/
theorem incremental_eq_full_iff (filtered : Filtered chunks.flatten) (enough : chunks.flatten.length < fuel)
    (dimension radius : Nat) (axis : UInt32) :
    ∃ streaming full, (StreamingPersistence.new dimension radius axis).feedChunks fuel chunks = some streaming ∧
      reduceBoundaryMatrix fuel ⟨chunks.flatten, ∅⟩ = some full ∧
      (∀ col, streaming.reduction.pairs.lookup col = full.pairs.lookup col) ∧
      (SameColumns streaming.reduction full ↔ ∀ column ∈ chunks.flatten, column = []) := by
  obtain ⟨final, run, full, reducing, pairs, unpaired⟩ := feedChunks_reduced filtered enough dimension radius axis
  have recorded : PivotsRecorded chunks.flatten.length final.matrix := reducing.pivots
  have samePairs : ∀ col, final.reduction.pairs.lookup col =
      (extractPairing final.matrix chunks.flatten.length).pairs.lookup col := by
    intro col
    apply Option.ext
    intro pivot
    rw [pairs, recorded.lookup_pairs]
  refine ⟨final, _, run, full, samePairs, ?_⟩
  constructor
  · intro same
    by_contra some
    push Not at some
    obtain ⟨col, inside, pivot, before, lowest, free⟩ := exists_first_edge filtered reducing some
    have recordedUnpaired : pivot ∈ final.reduction.unpaired := by
      rw [unpaired, List.mem_filter, List.mem_range, decide_eq_true_iff]
      exact ⟨before.trans inside, free⟩
    have born := ((mem_unpaired reducing).mp ((same.unpaired pivot).mp recordedUnpaired)).2.2
    rw [(recorded pivot _).mpr ⟨inside, lowest⟩] at born
    cases born
  · intro empty
    have unborn := findColumnWithPivot_of_empty filtered reducing empty
    refine ⟨samePairs, fun col => ?_⟩
    rw [unpaired, List.mem_filter, List.mem_range, decide_eq_true_iff, mem_unpaired reducing]
    refine and_congr_right fun below => ?_
    have found := List.getElem?_eq_getElem below
    rw [empty _ (List.getElem_mem below)] at found
    refine iff_of_true (lowestFace_of_nil filtered reducing found) ⟨fun pivot => ?_, unborn col⟩
    rw [unborn pivot]
    exact Option.some_ne_none _ |>.symm

end

def edgeChunks : List (List Column) := [[[], []], [[0, 1]]]

theorem filtered_edge : Filtered edgeChunks.flatten := by
  have inside : ∀ (col : Nat) column, edgeChunks.flatten[col]? = some column →
      column = [] ∨ col = 2 ∧ column = [0, 1] := by
    intro col column found
    rcases col with _ | _ | _ | col
    · exact .inl (Option.some.inj found).symm
    · exact .inl (Option.some.inj found).symm
    · exact .inr ⟨rfl, (Option.some.inj found).symm⟩
    · cases found
  constructor
  · intro col column found
    rcases inside col column found with rfl | ⟨rfl, rfl⟩
    · exact List.Pairwise.nil
    · unfold Ascending
      decide
  · intro col column found
    rcases inside col column found with rfl | ⟨rfl, rfl⟩
    · intro row member
      cases member
    · decide

theorem incremental_eq_full_edge :
    ∃ streaming full, (StreamingPersistence.new 1 5 0).feedChunks 4 edgeChunks = some streaming ∧
      reduceBoundaryMatrix 4 ⟨edgeChunks.flatten, ∅⟩ = some full ∧
      (∀ col, streaming.reduction.pairs.lookup col = full.pairs.lookup col) ∧
      (SameColumns streaming.reduction full ↔ ∀ column ∈ edgeChunks.flatten, column = []) :=
  incremental_eq_full_iff filtered_edge (by decide) 1 5 0

/-- The second vertex of an edge stays unpaired for the engine, though the edge kills it. -/
theorem killed_vertex_stays_unpaired : ¬ ∀ chunks : List (List Column), Filtered chunks.flatten →
    ∀ fuel streaming full, (StreamingPersistence.new 1 5 0).feedChunks fuel chunks = some streaming →
      reduceBoundaryMatrix fuel ⟨chunks.flatten, ∅⟩ = some full → SameColumns streaming.reduction full := by
  intro claim
  have fed : ((StreamingPersistence.new 1 5 0).feedChunks 4 edgeChunks).map (·.reduction.unpaired) = some [0, 1] := by
    decide +kernel
  have full : (reduceBoundaryMatrix 4 ⟨edgeChunks.flatten, ∅⟩).map ReductionResult.unpaired = some [0] := by
    decide +kernel
  obtain ⟨first, run, two⟩ := Option.map_eq_some_iff.mp fed
  obtain ⟨second, run', one⟩ := Option.map_eq_some_iff.mp full
  have same := (claim edgeChunks filtered_edge 4 first second run run').unpaired 1
  rw [two, one] at same
  exact absurd (same.mp (by decide)) (by decide)

end AdicProof.Finality
