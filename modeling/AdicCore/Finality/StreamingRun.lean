import AdicCore.Finality.Batch

namespace AdicModel.Finality

structure PersistenceSnapshot where
  round : UInt64
  persistence : PersistenceData
  numSimplices : Nat
  timestamp : Int

structure StreamingPersistence where
  complex : SimplicialComplex
  matrix : BoundaryMatrix
  reduction : ReductionResult
  persistence : PersistenceData
  lastReducedIndex : Nat
  snapshots : List PersistenceSnapshot
  maxSnapshots : Nat
  dimension : Nat
  radius : Nat
  axis : UInt32

def StreamingPersistence.new (dimension radius : Nat) (axis : UInt32) : StreamingPersistence :=
  let empty := BoundaryMatrix.fromComplex SimplicialComplex.new
  ⟨SimplicialComplex.new, empty, ⟨empty, ∅, []⟩, PersistenceData.new, 0, [], 10, dimension, radius, axis⟩

def StreamingPersistence.extendBoundaryMatrix (streaming : StreamingPersistence) (startIndex : Nat) :
    StreamingPersistence :=
  let newColumns := (streaming.complex.simplices.drop startIndex).map (faceColumn streaming.complex)
  { streaming with matrix := streaming.matrix.appendColumns newColumns }

def incrementalReduceColumn : Nat → BoundaryMatrix → HashMap.Table Nat Nat → Nat →
    Option (BoundaryMatrix × HashMap.Table Nat Nat)
  | 0, _, _, _ => none
  | fuel + 1, matrix, pairs, col =>
    match matrix.lowestFace col with
    | none => some (matrix, pairs)
    | some pivot =>
      match matrix.findColumnWithPivot pivot with
      | some otherCol => incrementalReduceColumn fuel (matrix.xorColumns col otherCol) pairs col
      | none => some (matrix.updatePivot col, pairs.insert col pivot)

/-- One column of the incremental reduction. One that became empty is unpaired. -/
def incrementalRound (fuel : Nat) (streaming : StreamingPersistence) (col : Nat) : Option StreamingPersistence := do
  let (matrix, pairs) ← incrementalReduceColumn fuel streaming.matrix streaming.reduction.pairs col
  let unpaired :=
    if matrix.isEmptyColumn col && (pairs.lookup col).isNone then streaming.reduction.unpaired ++ [col]
    else streaming.reduction.unpaired
  return { streaming with
    matrix := matrix
    reduction := { streaming.reduction with pairs := pairs, unpaired := unpaired } }

def StreamingPersistence.incrementalReduce (fuel : Nat) (streaming : StreamingPersistence) (startCol : Nat) :
    Option StreamingPersistence :=
  let numColumns := streaming.matrix.numColumns
  if startCol ≥ numColumns then some streaming
  else do
    let reduced ← (List.range' startCol (numColumns - startCol)).foldlM (incrementalRound fuel) streaming
    return { reduced with lastReducedIndex := numColumns }

def StreamingPersistence.updatePersistence (order : HashMap.Order) (streaming : StreamingPersistence) :
    Option StreamingPersistence := do
  let persistence ← PersistenceData.fromReduction order streaming.reduction streaming.complex
  return { streaming with persistence := persistence }

def StreamingPersistence.takeSnapshot (streaming : StreamingPersistence) (round : UInt64) (now : Int) :
    StreamingPersistence :=
  let snapshot := ⟨round, streaming.persistence, streaming.complex.numSimplices, now⟩
  let snapshots := streaming.snapshots ++ [snapshot]
  { streaming with snapshots := snapshots.drop (snapshots.length - streaming.maxSnapshots) }

/-- What a call of `add_messages` receives, the orders of the maps and the clock. -/
structure StreamingCall where
  messages : List AdicMessage
  round : UInt64
  ballOrder : HashMap.Order
  pairOrder : HashMap.Order
  now : Int

/-- The new state and the result. `none` if `fuel` rounds do not finish a loop. -/
def StreamingPersistence.addMessages (fuel : Nat) (streaming : StreamingPersistence) (call : StreamingCall) :
    Option (StreamingPersistence × Except MonotonicityViolated Nat) :=
  if call.messages.isEmpty then some (streaming, .ok 0)
  else do
    let initialSimplices := streaming.complex.numSimplices
    let built ← AdicComplexBuilder.new.buildFromMessages call.ballOrder fuel call.messages streaming.axis
      streaming.radius streaming.dimension
    let newSimplicesCount := built.complex.numSimplices
    if newSimplicesCount = 0 then return (streaming, .ok 0)
    match streaming.complex.appendSimplices built.complex with
    | .error violated => return (streaming, .error violated)
    | .ok complex =>
      let extended := { streaming with complex := complex }.extendBoundaryMatrix initialSimplices
      let reduced ← extended.incrementalReduce fuel initialSimplices
      let updated ← reduced.updatePersistence call.pairOrder
      return (updated.takeSnapshot call.round call.now, .ok newSimplicesCount)

end AdicModel.Finality

open AdicModel AdicModel.Finality Elimination Homology Barcode Simplicial

namespace AdicProof.Finality

structure Numbered (complex : SimplicialComplex) : Prop where
  next : complex.nextId = complex.simplices.length
  ids : ∀ (i : Nat) simplex, complex.simplices[i]? = some simplex → simplex.id = i

theorem foldl_appendSimplex_numbered (added : List Simplex) (nodup : (added.map Simplex.vertices).Nodup)
    {complex : SimplicialComplex} (numbered : Numbered complex) :
    Numbered (added.foldl appendSimplex complex) ∧
      (added.foldl appendSimplex complex).simplices.map unindexed =
        complex.simplices.map unindexed ++ added.map unindexed ∧
      ∀ (i : Nat) simplex, added[i]? = some simplex →
        (added.foldl appendSimplex complex).getSimplexId simplex.vertices = some (complex.simplices.length + i) := by
  induction added using List.reverseRecOn with
  | nil => exact ⟨numbered, by simp, by simp⟩
  | append_singleton added last ih =>
    rw [List.map_append, List.map_singleton, List.nodup_append'] at nodup
    obtain ⟨earlierNodup, _, apart⟩ := nodup
    obtain ⟨kept, contents, lookups⟩ := ih earlierNodup
    have size : (added.foldl appendSimplex complex).simplices.length = complex.simplices.length + added.length := by
      have lengths := congrArg List.length contents
      simpa using lengths
    have lookup : ∀ vertices, (appendSimplex (added.foldl appendSimplex complex) last).getSimplexId vertices =
        if vertices = last.vertices then some (added.foldl appendSimplex complex).nextId
        else (added.foldl appendSimplex complex).getSimplexId vertices := fun _ => HashMap.lookup_insert_eq ..
    rw [List.foldl_append, List.foldl_cons, List.foldl_nil]
    refine ⟨⟨?_, ?_⟩, ?_, ?_⟩
    · change (added.foldl appendSimplex complex).nextId + 1 = (_ ++ [_]).length
      rw [List.length_append, kept.next]
      rfl
    · intro i simplex found
      change ((added.foldl appendSimplex complex).simplices ++ [_])[i]? = _ at found
      rw [List.getElem?_append] at found
      split at found
      · exact kept.ids i simplex found
      · next beyond =>
        rw [List.getElem?_singleton] at found
        split at found
        · next first =>
          cases found
          change (added.foldl appendSimplex complex).nextId = i
          rw [kept.next]
          omega
        · cases found
    · simp [appendSimplex, contents, unindexed]
    · intro i simplex found
      rw [lookup]
      rw [List.getElem?_append] at found
      split at found
      · next below =>
        rw [if_neg]
        · exact lookups i simplex found
        · intro same
          apply apart (List.mem_map_of_mem (List.mem_of_getElem? found))
          rw [same]
          exact List.mem_singleton_self _
      · next beyond =>
        rw [List.getElem?_singleton] at found
        split at found
        · next first =>
          cases found
          rw [if_pos rfl, kept.next, size]
          congr 1
          omega
        · cases found

variable {column : Column}

section

variable {cells : List (Finset MessageId)} {label : Nat → MessageId} {complex newComplex : SimplicialComplex}

structure Appended (cells : List (Finset MessageId)) (label : Nat → MessageId)
    (complex newComplex after : SimplicialComplex) : Prop where
  numbered : Numbered after
  contents : after.simplices.map unindexed = complex.simplices.map unindexed ++ newComplex.simplices.map unindexed
  lookups : ∀ (i : Nat) simplex, newComplex.simplices[i]? = some simplex →
    after.getSimplexId simplex.vertices = some (cells.length + i)
  size : complex.simplices.length = cells.length

variable {after : SimplicialComplex}

theorem appended_of_ok (numbered : Numbered complex) (size : complex.simplices.length = cells.length)
    (wellFormed : WellFormed newComplex)
    (appended : complex.appendSimplices newComplex = .ok after) : Appended cells label complex newComplex after := by
  have result : after = newComplex.simplices.foldl appendSimplex complex := by
    rw [SimplicialComplex.appendSimplices] at appended
    split at appended
    · split at appended
      · cases appended
      · cases appended
        rfl
    · cases appended
      rfl
  obtain ⟨kept, contents, lookups⟩ :=
    foldl_appendSimplex_numbered newComplex.simplices wellFormed.indexed.vertices_nodup numbered
  rw [← result] at kept contents lookups
  rw [size] at lookups
  exact ⟨kept, contents, lookups, size⟩

theorem Appended.getElem?_new (appended : Appended cells label complex newComplex after)
    (i : Nat) : (after.simplices[cells.length + i]?).map unindexed = (newComplex.simplices[i]?).map unindexed := by
  rw [← List.getElem?_map, appended.contents, List.getElem?_append_right (by simp [appended.size]),
    List.length_map, appended.size, Nat.add_sub_cancel_left, List.getElem?_map]

theorem Appended.length (appended : Appended cells label complex newComplex after) :
    after.simplices.length = cells.length + newComplex.simplices.length := by
  have lengths := congrArg List.length appended.contents
  simpa [appended.size] using lengths

theorem Appended.facesFound (appended : Appended cells label complex newComplex after)
    (labels : Labels label newComplex) (wellFormed : WellFormed newComplex) (facesPresent : FacesPresent newComplex)
    {simplex : Simplex} (member : simplex ∈ newComplex.simplices) :
    FacesFound label (cells ++ cellsOf label newComplex) after.getSimplexId simplex := by
  refine ⟨wellFormed.simplices simplex member, labels simplex member simplex member, ?_⟩
  intro face faceMember
  obtain ⟨other, otherMember, vertices⟩ := facesPresent simplex member face faceMember
  obtain ⟨i, atI⟩ := List.mem_iff_getElem?.mp otherMember
  refine ⟨cells.length + i, ?_, ?_⟩
  · rw [← vertices]
    exact appended.lookups i other atI
  · rw [List.getElem?_append_right (Nat.le_add_right _ _), Nat.add_sub_cancel_left, getElem?_cellsOf atI, cellOf,
      vertices]

def newColumns (after : SimplicialComplex) (start : Nat) : List Column :=
  (after.simplices.drop start).map (faceColumn after)

theorem Appended.getElem?_newColumns
    (appended : Appended cells label complex newComplex after) {i : Nat}
    (found : (newColumns after cells.length)[i]? = some column) :
    ∃ simplex, newComplex.simplices[i]? = some simplex ∧
      column = sortIndices (simplex.faces.filterMap after.getSimplexId) := by
  rw [newColumns, List.getElem?_map, List.getElem?_drop] at found
  obtain ⟨renumbered, atI, rfl⟩ := Option.map_eq_some_iff.mp found
  have same := appended.getElem?_new i
  rw [atI, Option.map_some] at same
  obtain ⟨simplex, simplexFound, unindexed_eq⟩ := Option.map_eq_some_iff.mp same.symm
  refine ⟨simplex, simplexFound, ?_⟩
  have faces : renumbered.faces = simplex.faces := by
    obtain ⟨_, vertices, dimension, _⟩ := Simplex.mk.inj unindexed_eq
    rw [Simplex.faces, Simplex.faces, vertices, dimension]
  rw [faceColumn, appended.numbered.ids _ renumbered atI, SimplicialComplex.getFaceIds, SimplicialComplex.getSimplex,
    atI]
  change sortIndices (renumbered.faces.filterMap after.getSimplexId) = _
  rw [faces]

theorem Appended.length_newColumns
    (appended : Appended cells label complex newComplex after) :
    (newColumns after cells.length).length = newComplex.simplices.length := by
  rw [newColumns, List.length_map, List.length_drop, appended.length, Nat.add_sub_cancel_left]

end

theorem incrementalReduceColumn_eq (fuel : Nat) (matrix : BoundaryMatrix) (pairs : HashMap.Table Nat Nat) (col : Nat) :
    incrementalReduceColumn fuel matrix pairs col = (reduceColumn fuel matrix col).map fun reduced =>
      (reduced, (reduced.lowestFace col).elim pairs fun pivot => pairs.insert col pivot) := by
  induction fuel generalizing matrix with
  | zero => rfl
  | succ fuel ih =>
    rw [incrementalReduceColumn, reduceColumn]
    cases lowest : matrix.lowestFace col with
    | none => simp only [Option.map_some, lowest, Option.elim]
    | some pivot =>
      cases found : matrix.findColumnWithPivot pivot with
      | some other =>
        simp only [found]
        exact ih (matrix.xorColumns col other)
      | none =>
        have kept : (matrix.updatePivot col).lowestFace col = some pivot := by
          rw [BoundaryMatrix.updatePivot, lowest]
          exact lowest
        simp only [found, Option.map_some, kept, Option.elim]

theorem reduceColumn_lowestFace {fuel : Nat} {matrix reduced : BoundaryMatrix} {col : Nat}
    (run : reduceColumn fuel matrix col = some reduced) {other : Nat} (different : other ≠ col) :
    reduced.lowestFace other = matrix.lowestFace other := by
  rw [BoundaryMatrix.lowestFace, BoundaryMatrix.lowestFace, reduceColumn_frame run different]

structure IncrementallyReduced (cells : List (Finset MessageId)) (initial : List Column) (done : Nat)
    (streaming : StreamingPersistence) : Prop where
  reducing : Reducing cells (gradeAt cells dimension) initial done streaming.matrix
  pairs : ∀ col pivot, streaming.reduction.pairs.lookup col = some pivot ↔
    col < done ∧ streaming.matrix.lowestFace col = some pivot
  unpaired : streaming.reduction.unpaired =
    (List.range done).filter fun col => streaming.matrix.lowestFace col = none

theorem isEmptyColumn_iff {matrix : BoundaryMatrix} {col : Nat} :
    matrix.isEmptyColumn col = true ↔ matrix.lowestFace col = none := by
  rw [BoundaryMatrix.isEmptyColumn, BoundaryMatrix.lowestFace]
  cases matrix.columns[col]? with
  | none => simp
  | some column => simp

theorem IncrementallyReduced.round {cells : List (Finset MessageId)} {initial : List Column}
    {streaming : StreamingPersistence} {done fuel : Nat}
    (state : IncrementallyReduced cells initial done streaming) (enough : initial.length < fuel) :
    ∃ next, incrementalRound fuel streaming done = some next ∧
      next = { streaming with matrix := next.matrix, reduction := next.reduction } ∧
      IncrementallyReduced cells initial (done + 1) next := by
  obtain ⟨reduced, reduction, finished⟩ := @Reducing.reduceColumn _ _ _ _ _ _ fuel state.reducing (by omega)
    (fun pivot lowest => by
      obtain ⟨column, found, last⟩ := lowestFace_eq_some.mp lowest
      have below := state.reducing.bounded done column found pivot (List.mem_of_getLast? last)
      omega)
  rw [incrementalRound, incrementalReduceColumn_eq, reduction]
  simp only [Option.map_some, Option.bind_eq_bind, Option.bind_some]
  refine ⟨_, rfl, rfl, ?_⟩
  have fresh : streaming.reduction.pairs.lookup done = none := by
    by_contra present
    obtain ⟨pivot, found⟩ := Option.ne_none_iff_exists'.mp present
    exact Nat.lt_irrefl done ((state.pairs done pivot).mp found).1
  refine ⟨finished, ?_, ?_⟩
  · intro col pivot
    change (((reduced.lowestFace done).elim streaming.reduction.pairs fun pivot =>
      streaming.reduction.pairs.insert done pivot).lookup col = some pivot) ↔ _ ∧ reduced.lowestFace col = some pivot
    by_cases same : col = done
    · subst same
      cases lowest : reduced.lowestFace col with
      | none => simp [fresh]
      | some last => simp
    · rw [reduceColumn_lowestFace reduction same]
      have old : ((reduced.lowestFace done).elim streaming.reduction.pairs fun pivot =>
          streaming.reduction.pairs.insert done pivot).lookup col = streaming.reduction.pairs.lookup col := by
        cases reduced.lowestFace done with
        | none => rfl
        | some last =>
          change (streaming.reduction.pairs.insert done last).lookup col = _
          rw [HashMap.lookup_insert_eq, if_neg same]
      rw [old, state.pairs]
      constructor
      · rintro ⟨below, lowest⟩
        exact ⟨by omega, lowest⟩
      · rintro ⟨below, lowest⟩
        exact ⟨by omega, lowest⟩
  · have earlier : (List.range done).filter (fun col => decide (reduced.lowestFace col = none)) =
        streaming.reduction.unpaired := by
      rw [state.unpaired]
      apply List.filter_congr
      intro col below
      rw [reduceColumn_lowestFace reduction (Nat.ne_of_lt (List.mem_range.mp below))]
    rw [List.range_succ, List.filter_append, earlier]
    cases lowest : reduced.lowestFace done with
    | none => simp [isEmptyColumn_iff.mpr lowest, fresh, lowest]
    | some pivot =>
      have nonempty : reduced.isEmptyColumn done = false := by
        rw [Bool.eq_false_iff]
        intro empty
        rw [isEmptyColumn_iff, lowest] at empty
        cases empty
      simp [nonempty, lowest]

theorem incrementalRound_mono {fuel more : Nat} (enough : fuel ≤ more) {streaming next : StreamingPersistence}
    {col : Nat} (run : incrementalRound fuel streaming col = some next) :
    incrementalRound more streaming col = some next := by
  rw [incrementalRound, incrementalReduceColumn_eq] at run ⊢
  cases reduction : reduceColumn fuel streaming.matrix col with
  | none =>
    rw [reduction] at run
    cases run
  | some reduced =>
    rw [reduction] at run
    rw [reduceColumn_mono enough reduction]
    exact run

theorem chain_append {ι : Type} (cells more : List ι) (bounded : ∀ i ∈ column, i < cells.length) :
    chain (cells ++ more) column = chain cells column := by
  induction column with
  | nil => rfl
  | cons i column ih =>
    rw [chain_cons, chain_cons, ih fun j member => bounded j (List.mem_cons_of_mem i member), cellChain, cellChain,
      List.getElem?_append_left (bounded i List.mem_cons_self)]

theorem gradeAt_append {ι : Type} (cells more : List ι) (grade : ι → ℕ) {i : Nat} (bound : i < cells.length) :
    gradeAt (cells ++ more) grade i = gradeAt cells grade i := by
  rw [gradeAt, gradeAt, List.getElem?_append_left bound]

section

variable {cells : List (Finset MessageId)} {label : Nat → MessageId} {complex newComplex after : SimplicialComplex}
  {initial : List Column} {matrix : BoundaryMatrix}

theorem Appended.represents (appended : Appended cells label complex newComplex after)
    (labels : Labels label newComplex) (wellFormed : WellFormed newComplex) (facesPresent : FacesPresent newComplex)
    (nodup : (cells ++ cellsOf label newComplex).Nodup) (old : Represents cells boundary initial)
    (bounded : ∀ (col : Nat) column, initial[col]? = some column → ∀ i ∈ column, i < cells.length) :
    Represents (cells ++ cellsOf label newComplex) boundary (initial ++ newColumns after cells.length) := by
  refine ⟨nodup, ?_, ?_⟩
  · rw [List.length_append, List.length_append, old.size, appended.length_newColumns, cellsOf, List.length_map]
  · intro col cell column cellFound columnFound
    by_cases below : col < cells.length
    · rw [List.getElem?_append_left below] at cellFound
      rw [List.getElem?_append_left (by rw [old.size]; exact below)] at columnFound
      rw [chain_append cells _ (bounded col column columnFound)]
      exact old.boundaries col cell column cellFound columnFound
    · obtain ⟨i, rfl⟩ := Nat.exists_eq_add_of_le (Nat.le_of_not_lt below)
      rw [List.getElem?_append_right (Nat.le_add_right _ _), Nat.add_sub_cancel_left] at cellFound
      rw [← old.size, List.getElem?_append_right (Nat.le_add_right _ _), Nat.add_sub_cancel_left,
        old.size] at columnFound
      obtain ⟨simplex, atI, rfl⟩ := appended.getElem?_newColumns columnFound
      rw [getElem?_cellsOf atI] at cellFound
      cases cellFound
      rw [column_boundary]
      exact (appended.facesFound labels wellFormed facesPresent (List.mem_of_getElem? atI)).chain_eq

theorem Appended.mem_newColumns (appended : Appended cells label complex newComplex after)
    (labels : Labels label newComplex) (wellFormed : WellFormed newComplex) (facesPresent : FacesPresent newComplex)
    {i : Nat} (found : (newColumns after cells.length)[i]? = some column) {j : Nat}
    (member : j ∈ column) : cells.length ≤ j ∧ j < cells.length + newComplex.simplices.length ∧
      gradeAt (cells ++ cellsOf label newComplex) dimension j + 1 =
        gradeAt (cells ++ cellsOf label newComplex) dimension (cells.length + i) := by
  obtain ⟨simplex, atI, rfl⟩ := appended.getElem?_newColumns found
  have simplexMember := List.mem_of_getElem? atI
  rw [sortIndices, List.mem_insertionSort, List.mem_filterMap] at member
  obtain ⟨face, faceMember, faceFound⟩ := member
  obtain ⟨other, otherMember, vertices⟩ := facesPresent simplex simplexMember face faceMember
  obtain ⟨k, atK⟩ := List.mem_iff_getElem?.mp otherMember
  have index := appended.lookups k other atK
  rw [vertices, faceFound] at index
  cases index
  have bound := (List.getElem?_eq_some_iff.mp atK).1
  have cellK : (cells ++ cellsOf label newComplex)[cells.length + k]? = some (cellOf label other) := by
    rw [List.getElem?_append_right (Nat.le_add_right _ _), Nat.add_sub_cancel_left, getElem?_cellsOf atK]
  have cellI : (cells ++ cellsOf label newComplex)[cells.length + i]? = some (cellOf label simplex) := by
    rw [List.getElem?_append_right (Nat.le_add_right _ _), Nat.add_sub_cancel_left, getElem?_cellsOf atI]
  have faceOf := faceOf_mem (wellFormed.simplices simplex simplexMember).indexed faceMember
  have positive := List.length_pos_iff.mpr faceOf.inhabited
  refine ⟨Nat.le_add_right _ _, by omega, ?_⟩
  rw [gradeAt_eq cellK, gradeAt_eq cellI, labels.dimension_cellOf wellFormed otherMember,
    labels.dimension_cellOf wellFormed simplexMember, (wellFormed.simplices other otherMember).dimension,
    (wellFormed.simplices simplex simplexMember).dimension, vertices, ← faceOf.shorter]
  omega

theorem Appended.reducing (appended : Appended cells label complex newComplex after)
    (labels : Labels label newComplex) (wellFormed : WellFormed newComplex) (facesPresent : FacesPresent newComplex)
    (size : initial.length = cells.length)
    (old : Reducing cells (gradeAt cells dimension) initial initial.length matrix)
    (bounded : ∀ (col : Nat) column, initial[col]? = some column → ∀ i ∈ column, i < cells.length) :
    Reducing (cells ++ cellsOf label newComplex) (gradeAt (cells ++ cellsOf label newComplex) dimension)
      (initial ++ newColumns after cells.length) cells.length
      (matrix.appendColumns (newColumns after cells.length)) := by
  have oldSize : matrix.columns.length = cells.length := old.size.trans size
  have lookup : ∀ (col : Nat) column, (matrix.columns ++ newColumns after cells.length)[col]? = some column →
      (col < cells.length ∧ matrix.columns[col]? = some column) ∨
        ∃ i, col = cells.length + i ∧ (newColumns after cells.length)[i]? = some column := by
    intro col column found
    by_cases below : col < cells.length
    · rw [List.getElem?_append_left (by rw [oldSize]; exact below)] at found
      exact .inl ⟨below, found⟩
    · obtain ⟨i, rfl⟩ := Nat.exists_eq_add_of_le (Nat.le_of_not_lt below)
      rw [← oldSize, List.getElem?_append_right (Nat.le_add_right _ _), Nat.add_sub_cancel_left, oldSize] at found
      exact .inr ⟨i, rfl, found⟩
  refine ⟨?_, ?_, ?_, ?_, ?_, ?_⟩
  · change (matrix.columns ++ _).length = _
    rw [List.length_append, List.length_append, old.size]
  · intro col column found
    rcases lookup col column found with ⟨_, oldFound⟩ | ⟨i, _, newFound⟩
    · exact old.ascending col column oldFound
    · obtain ⟨simplex, atI, rfl⟩ := appended.getElem?_newColumns newFound
      exact (appended.facesFound labels wellFormed facesPresent (List.mem_of_getElem? atI)).ascending
  · intro col column found j member
    rw [List.length_append, appended.length_newColumns, size]
    rcases lookup col column found with ⟨_, oldFound⟩ | ⟨i, _, newFound⟩
    · have below := old.bounded col column oldFound j member
      omega
    · exact (appended.mem_newColumns labels wellFormed facesPresent newFound member).2.1
  · intro first second column column' found found' j member member'
    rcases lookup first column found with ⟨firstBelow, oldFound⟩ | ⟨i, rfl, newFound⟩
    · have jBelow := old.bounded first column oldFound j member
      rcases lookup second column' found' with ⟨secondBelow, oldFound'⟩ | ⟨i', rfl, newFound'⟩
      · rw [gradeAt_append _ _ _ firstBelow, gradeAt_append _ _ _ secondBelow]
        exact old.graded first second column column' oldFound oldFound' j member member'
      · have above := (appended.mem_newColumns labels wellFormed facesPresent newFound' member').1
        omega
    · have raised := (appended.mem_newColumns labels wellFormed facesPresent newFound member).2.2
      rcases lookup second column' found' with ⟨secondBelow, oldFound'⟩ | ⟨i', rfl, newFound'⟩
      · have above := (appended.mem_newColumns labels wellFormed facesPresent newFound member).1
        have jBelow := old.bounded second column' oldFound' j member'
        omega
      · have raised' := (appended.mem_newColumns labels wellFormed facesPresent newFound' member').2.2
        omega
  · intro col column original found originalFound
    rcases lookup col column found with ⟨below, oldFound⟩ | ⟨i, rfl, newFound⟩
    · rw [List.getElem?_append_left (by rw [size]; exact below)] at originalFound
      have columnBounded : ∀ j ∈ column, j < cells.length := by
        intro j member
        rw [← size]
        exact old.bounded col column oldFound j member
      rw [chain_append cells _ columnBounded, chain_append cells _ (bounded col original originalFound)]
      apply Submodule.span_mono ?_ (old.combined col column original oldFound originalFound)
      rintro _ ⟨k, other, before, sameGrade, otherFound, rfl⟩
      refine ⟨k, other, before, ?_, ?_, ?_⟩
      · rw [gradeAt_append _ _ _ below, gradeAt_append _ _ _ (before.trans below), sameGrade]
      · rw [List.getElem?_append_left (List.getElem?_eq_some_iff.mp otherFound).1, otherFound]
      · rw [chain_append cells _ (bounded k other otherFound)]
    · rw [← size, List.getElem?_append_right (Nat.le_add_right _ _), Nat.add_sub_cancel_left, size,
        newFound] at originalFound
      cases originalFound
      rw [sub_self]
      exact zero_mem _
  · intro pivot col
    have sameMap : (matrix.appendColumns (newColumns after cells.length)).findColumnWithPivot pivot =
        matrix.findColumnWithPivot pivot := rfl
    rw [sameMap, old.pivots, size]
    apply and_congr_right
    intro below
    have sameColumn : (matrix.columns ++ newColumns after cells.length)[col]? = matrix.columns[col]? :=
      List.getElem?_append_left (by rw [oldSize]; exact below)
    rw [BoundaryMatrix.lowestFace, BoundaryMatrix.lowestFace, BoundaryMatrix.appendColumns, sameColumn]

end

end AdicProof.Finality
