import AdicCore.Finality.StreamingRun

open AdicModel AdicModel.Finality Elimination Homology Barcode Simplicial

namespace AdicProof.Finality

/-- The engine holds the reduced boundary matrix of its cells. Its infinite intervals are those of the cells without
    a lead. -/
structure StreamingState (cells : List (Finset MessageId)) (weight : Finset MessageId → Weight)
    (streaming : StreamingPersistence) : Prop where
  numbered : Numbered streaming.complex
  labelled : Labelled cells dimension weight streaming.complex
  faceClosed : FaceClosed cells.toFinset
  reduced : ∃ initial, Represents cells boundary initial ∧
    (∀ (col : Nat) column, initial[col]? = some column → ∀ i ∈ column, i < cells.length) ∧
    IncrementallyReduced cells initial cells.length streaming
  intervals : ∀ k, streaming.persistence.intervals k =
    ((bars cells.toFinset dimension (leadOf cells streaming.matrix) weight k).map fun bar => .finite bar.1 bar.2 k) +
      ((cells.toFinset.filter fun s => dimension s = k ∧ leadOf cells streaming.matrix s = none).val.map
        weight).map fun birth => .infinite birth k

theorem newStreaming_state (weight : Finset MessageId → Weight) (dimension radius : Nat) (axis : UInt32) :
    StreamingState [] weight (StreamingPersistence.new dimension radius axis) := by
  refine ⟨⟨rfl, ?_⟩, ⟨rfl, ?_⟩, ⟨?_, ?_⟩, ⟨[], ⟨List.nodup_nil, rfl, ?_⟩, ?_, ?_, ?_, rfl⟩, fun k => rfl⟩
  · intro i simplex found
    cases found
  · intro i simplex cell found
    cases found
  · intro s inside
    cases inside
  · intro s inside
    cases inside
  · intro col cell column found
    cases found
  · intro col column found
    cases found
  · refine ⟨rfl, ?_, ?_, ?_, ?_, ?_⟩
    · intro col column found
      cases found
    · intro col column found
      cases found
    · intro first second column column' found
      cases found
    · intro col column original found
      cases found
    · intro pivot col
      constructor
      · intro found
        cases found
      · rintro ⟨below, _⟩
        exact absurd below (Nat.not_lt_zero col)
  · intro col pivot
    constructor
    · intro found
      cases found
    · rintro ⟨below, _⟩
      exact absurd below (Nat.not_lt_zero col)

variable {initial : List Column} {cells : List (Finset MessageId)}

theorem leadOf_eq_none {matrix : BoundaryMatrix}
    (represents : Represents cells boundary initial)
    (reducing : Reducing cells (gradeAt cells dimension) initial initial.length matrix) {col : Nat}
    {s : Finset MessageId} (found : cells[col]? = some s) :
    matrix.lowestFace col = none ↔ leadOf cells matrix s = none := by
  constructor
  · intro empty
    rw [leadOf, idxOf_eq represents.nodup found, empty]
    rfl
  · intro alive
    by_contra present
    obtain ⟨pivot, lowest⟩ := Option.ne_none_iff_exists'.mp present
    obtain ⟨x, _, lead⟩ := (leadOf_at represents reducing found pivot).mp lowest
    rw [alive] at lead
    cases lead

theorem IncrementallyReduced.reads
    {streaming : StreamingPersistence} (represents : Represents cells boundary initial)
    (reduced : IncrementallyReduced cells initial cells.length streaming) :
    Reads cells streaming.matrix (fun s => leadOf cells streaming.matrix s = none) streaming.reduction := by
  have reducing := reduced.reducing
  rw [← represents.size] at reducing
  refine ⟨?_, ?_, ?_⟩
  · intro col pivot
    rw [reduced.pairs]
    constructor
    · exact fun both => both.2
    · intro lowest
      obtain ⟨_, found, _⟩ := lowestFace_eq_some.mp lowest
      have bound := (List.getElem?_eq_some_iff.mp found).1
      rw [reducing.size, represents.size] at bound
      exact ⟨bound, lowest⟩
  · rw [reduced.unpaired]
    exact List.pairwise_lt_range.sublist List.filter_sublist
  · intro col
    rw [reduced.unpaired, List.mem_filter, List.mem_range, decide_eq_true_iff]
    constructor
    · rintro ⟨bound, empty⟩
      have found : cells[col]? = some cells[col] := List.getElem?_eq_getElem bound
      exact ⟨_, found, (leadOf_eq_none represents reducing found).mp empty⟩
    · rintro ⟨s, found, alive⟩
      exact ⟨(List.getElem?_eq_some_iff.mp found).1, (leadOf_eq_none represents reducing found).mpr alive⟩

section

variable {cells : List (Finset MessageId)} {label : Nat → MessageId} {newComplex after : SimplicialComplex}
  {weight : Finset MessageId → Weight} {streaming : StreamingPersistence}

theorem Appended.labelled {complex : SimplicialComplex} (appended : Appended cells label complex newComplex after)
    (old : Labelled cells dimension weight complex)
    (new : Labelled (cellsOf label newComplex) dimension weight newComplex) :
    Labelled (cells ++ cellsOf label newComplex) dimension weight after := by
  refine ⟨?_, ?_⟩
  · rw [appended.length, List.length_append, new.size]
  · intro i simplex cell found cellFound
    have same : (after.simplices[i]?).map unindexed =
        (complex.simplices.map unindexed ++ newComplex.simplices.map unindexed)[i]? := by
      rw [← List.getElem?_map, appended.contents]
    rw [found, Option.map_some] at same
    by_cases below : i < cells.length
    · rw [List.getElem?_append_left below] at cellFound
      rw [List.getElem?_append_left (by simpa [appended.size] using below), List.getElem?_map] at same
      obtain ⟨other, otherFound, values⟩ := Option.map_eq_some_iff.mp same.symm
      obtain ⟨_, _, sameDimension, sameWeight⟩ := Simplex.mk.inj values
      obtain ⟨grade, weighs⟩ := old.values i other cell otherFound cellFound
      exact ⟨sameDimension.symm.trans grade, sameWeight.symm.trans weighs⟩
    · obtain ⟨j, rfl⟩ := Nat.exists_eq_add_of_le (Nat.le_of_not_lt below)
      rw [List.getElem?_append_right (Nat.le_add_right _ _), Nat.add_sub_cancel_left] at cellFound
      rw [List.getElem?_append_right (by simp [appended.size]), List.length_map, appended.size,
        Nat.add_sub_cancel_left, List.getElem?_map] at same
      obtain ⟨other, otherFound, values⟩ := Option.map_eq_some_iff.mp same.symm
      obtain ⟨_, _, sameDimension, sameWeight⟩ := Simplex.mk.inj values
      obtain ⟨grade, weighs⟩ := new.values j other cell otherFound cellFound
      exact ⟨sameDimension.symm.trans grade, sameWeight.symm.trans weighs⟩

theorem appendColumns_lowestFace {matrix : BoundaryMatrix} {more : List Column} {col : Nat}
    (bound : col < matrix.columns.length) : (matrix.appendColumns more).lowestFace col = matrix.lowestFace col := by
  rw [BoundaryMatrix.lowestFace, BoundaryMatrix.lowestFace, BoundaryMatrix.appendColumns,
    List.getElem?_append_left bound]

theorem Appended.incrementallyReduced
    (appended : Appended cells label streaming.complex newComplex after) (labels : Labels label newComplex)
    (wellFormed : WellFormed newComplex) (facesPresent : FacesPresent newComplex)
    (represents : Represents cells boundary initial)
    (bounded : ∀ (col : Nat) column, initial[col]? = some column → ∀ i ∈ column, i < cells.length)
    (reduced : IncrementallyReduced cells initial cells.length streaming) :
    IncrementallyReduced (cells ++ cellsOf label newComplex) (initial ++ newColumns after cells.length) cells.length
      ({ streaming with complex := after }.extendBoundaryMatrix cells.length) := by
  have reducing := reduced.reducing
  rw [← represents.size] at reducing
  have size : streaming.matrix.columns.length = cells.length := reducing.size.trans represents.size
  have matrix : ({ streaming with complex := after }.extendBoundaryMatrix cells.length).matrix =
      streaming.matrix.appendColumns (newColumns after cells.length) := rfl
  refine ⟨?_, ?_, ?_⟩
  · exact appended.reducing labels wellFormed facesPresent represents.size reducing bounded
  · intro col pivot
    rw [matrix]
    change streaming.reduction.pairs.lookup col = some pivot ↔ _
    rw [reduced.pairs]
    apply and_congr_right
    intro below
    rw [appendColumns_lowestFace (by rw [size]; exact below)]
  · rw [matrix]
    change streaming.reduction.unpaired = _
    rw [reduced.unpaired]
    apply List.filter_congr
    intro col below
    rw [appendColumns_lowestFace (by rw [size]; exact List.mem_range.mp below)]

theorem incrementalReduce_mono {start fuel more : Nat} (enough : fuel ≤ more) {final : StreamingPersistence}
    (run : streaming.incrementalReduce fuel start = some final) : streaming.incrementalReduce more start = some final := by
  rw [StreamingPersistence.incrementalReduce] at run ⊢
  split
  · next finished =>
    rw [if_pos finished] at run
    exact run
  · next unfinished =>
    rw [if_neg unfinished] at run
    obtain ⟨reduced, looped, returned⟩ := Option.bind_eq_some_iff.mp run
    rw [foldlM_mono (fun _ _ _ => incrementalRound_mono enough) looped]
    exact returned

theorem IncrementallyReduced.incrementalReduce {start : Nat}
    (reduced : IncrementallyReduced cells initial start streaming) (fewer : start < initial.length) :
    ∃ final, (∀ fuel, initial.length < fuel → streaming.incrementalReduce fuel start = some final) ∧
      final = { streaming with
        matrix := final.matrix
        reduction := final.reduction
        lastReducedIndex := initial.length } ∧
      IncrementallyReduced cells initial initial.length final := by
  have columns : streaming.matrix.numColumns = initial.length := reduced.reducing.size
  obtain ⟨final, run, finished, frame⟩ := foldlM_range' (incrementalRound (initial.length + 1))
    (fun i current => IncrementallyReduced cells initial i current ∧
      current = { streaming with matrix := current.matrix, reduction := current.reduction })
    start (initial.length - start) ⟨reduced, rfl⟩ (by
      rintro i current _ _ ⟨holds, frame⟩
      obtain ⟨next, run, changed, finished⟩ := holds.round (Nat.lt_succ_self _)
      refine ⟨next, run, finished, ?_⟩
      rw [frame] at changed
      exact changed)
  rw [Nat.add_sub_cancel' (Nat.le_of_lt fewer)] at finished
  refine ⟨{ final with lastReducedIndex := initial.length }, ?_, ?_,
    ⟨finished.reducing, finished.pairs, finished.unpaired⟩⟩
  · intro fuel enough
    apply incrementalReduce_mono (Nat.succ_le_of_lt enough)
    rw [StreamingPersistence.incrementalReduce, columns, if_neg (Nat.not_le.mpr fewer)]
    simp only [run]
    rfl
  · rw [frame]

end

variable {cell : Finset MessageId}

theorem not_isCell_nil {axis : UInt32} {radius dimension : Nat} :
    ¬ IsCell [] axis radius dimension cell := by
  rintro ⟨_, _, ball, large, _⟩
  exact absurd large (by simp [ballMembers])

theorem StreamingState.addMessages {weight : Finset MessageId → Weight}
    {streaming : StreamingPersistence} (state : StreamingState cells weight streaming) (call : StreamingCall)
    (distinct : (call.messages.map AdicMessage.id).Nodup)
    (apart : ∀ cell ∈ cells, ¬ IsCell call.messages streaming.axis streaming.radius streaming.dimension cell)
    (weights : ∀ cell, IsCell call.messages streaming.axis streaming.radius streaming.dimension cell →
      weight cell = cellWeight call.messages streaming.dimension cell) :
    ∃ next result bound, (∀ fuel ≥ bound, streaming.addMessages fuel call = some (next, result)) ∧
      (next.axis = streaming.axis ∧ next.radius = streaming.radius ∧ next.dimension = streaming.dimension) ∧
      (∀ violated, result = .error violated → next = streaming) ∧
      ∀ count, result = .ok count → ∃ more, StreamingState (cells ++ more) weight next ∧
        ∀ cell, cell ∈ more ↔ IsCell call.messages streaming.axis streaming.radius streaming.dimension cell := by
  by_cases empty : call.messages = []
  · refine ⟨streaming, .ok 0, 0, ?_, ⟨rfl, rfl, rfl⟩, fun _ failed => (by cases failed), ?_⟩
    · intro fuel _
      simp [StreamingPersistence.addMessages, empty]
    · intro count _
      refine ⟨[], by rwa [List.append_nil], ?_⟩
      intro cell
      rw [empty]
      exact ⟨fun member => (by cases member), fun isCell => absurd isCell not_isCell_nil⟩
  have nonempty : call.messages.isEmpty = false := by simpa using empty
  obtain ⟨built, building, batch⟩ := buildFromMessages_spec call.ballOrder distinct streaming.axis streaming.radius
    streaming.dimension
  have newCells : ∀ cell, cell ∈ cellsOf (labelOf built.builder) built.complex ↔
      IsCell call.messages streaming.axis streaming.radius streaming.dimension cell := batch.cells
  by_cases nothing : built.complex.numSimplices = 0
  · refine ⟨streaming, .ok 0, call.messages.length.choose (streaming.dimension + 1), ?_, ⟨rfl, rfl, rfl⟩,
      fun _ failed => (by cases failed), ?_⟩
    · intro fuel enough
      simp [StreamingPersistence.addMessages, nonempty, building fuel enough, nothing]
    · intro count _
      have noCells : cellsOf (labelOf built.builder) built.complex = [] := by
        rw [cellsOf, List.map_eq_nil_iff]
        exact List.length_eq_zero_iff.mp nothing
      refine ⟨[], by rwa [List.append_nil], ?_⟩
      rw [← noCells]
      exact newCells
  cases appending : streaming.complex.appendSimplices built.complex with
  | error violated =>
    refine ⟨streaming, .error violated, call.messages.length.choose (streaming.dimension + 1), ?_, ⟨rfl, rfl, rfl⟩,
      fun _ _ => rfl, fun _ succeeded => (by cases succeeded)⟩
    intro fuel enough
    simp [StreamingPersistence.addMessages, nonempty, building fuel enough, nothing, appending]
  | ok after =>
    have appended : Appended cells (labelOf built.builder) streaming.complex built.complex after :=
      appended_of_ok state.numbered state.labelled.size batch.wellFormed appending
    obtain ⟨initial, represents, bounded, reduced⟩ := state.reduced
    have nodup : (cells ++ cellsOf (labelOf built.builder) built.complex).Nodup := by
      rw [List.nodup_append']
      refine ⟨represents.nodup, batch.labels.cells_nodup batch.wellFormed, ?_⟩
      intro cell old new
      exact apart cell old ((newCells cell).mp new)
    have represents' := appended.represents batch.labels batch.wellFormed batch.facesPresent nodup represents bounded
    have started := appended.incrementallyReduced batch.labels batch.wellFormed batch.facesPresent represents bounded
      reduced
    have total : (initial ++ newColumns after cells.length).length = cells.length + built.complex.numSimplices := by
      rw [List.length_append, represents.size, appended.length_newColumns]
      rfl
    have fewer : cells.length < (initial ++ newColumns after cells.length).length := by
      rw [total]
      omega
    obtain ⟨final, run, frame, finished⟩ := started.incrementalReduce fewer
    have labelled : Labelled (cells ++ cellsOf (labelOf built.builder) built.complex) dimension weight after := by
      apply appended.labelled state.labelled
      apply labelled_of_weights batch.labels batch.wellFormed
      intro simplex member
      rw [weights _ ((newCells _).mp (List.mem_map_of_mem member)), batch.weights simplex member]
    have faceClosed := state.faceClosed.union (faceClosed_cells batch.labels batch.wellFormed batch.facesPresent)
    rw [← List.toFinset_append] at faceClosed
    have complex : final.complex = after := by rw [frame]; rfl
    rw [represents'.size] at finished
    have reducing := finished.reducing
    rw [← represents'.size] at reducing
    obtain ⟨persistence, computed, intervals⟩ := fromReduction_intervals represents' faceClosed.chainComplex reducing
      (finished.reads represents') labelled call.pairOrder
    refine ⟨{ final with persistence := persistence }.takeSnapshot call.round call.now, .ok built.complex.numSimplices,
      call.messages.length.choose (streaming.dimension + 1) + cells.length + built.complex.numSimplices + 1, ?_, ?_,
      fun _ failed => (by cases failed), ?_⟩
    · intro fuel enough
      have existing : streaming.complex.numSimplices = cells.length := state.labelled.size
      simp only [StreamingPersistence.addMessages, nonempty, building fuel (by omega), existing, nothing, appending,
        run fuel (by omega), StreamingPersistence.updatePersistence, complex, computed, Bool.false_eq_true, if_false,
        Option.bind_eq_bind, Option.bind_some]
      rfl
    · rw [frame]
      exact ⟨rfl, rfl, rfl⟩
    · intro count _
      refine ⟨cellsOf (labelOf built.builder) built.complex, ⟨?_, ?_, faceClosed, ⟨_, represents', ?_, ?_⟩, ?_⟩, newCells⟩
      · change Numbered final.complex
        rw [complex]
        exact appended.numbered
      · change Labelled _ dimension weight final.complex
        rw [complex]
        exact labelled
      · intro col column found i member
        rw [List.length_append, cellsOf, List.length_map]
        by_cases below : col < initial.length
        · rw [List.getElem?_append_left below] at found
          have old := bounded col column found i member
          omega
        · rw [List.getElem?_append_right (Nat.le_of_not_lt below)] at found
          exact (appended.mem_newColumns batch.labels batch.wellFormed batch.facesPresent found member).2.1
      · exact ⟨finished.reducing, finished.pairs, finished.unpaired⟩
      · exact intervals

def addBatches (fuel : Nat) (streaming : StreamingPersistence) (calls : List StreamingCall) :
    Option (Except MonotonicityViolated StreamingPersistence) :=
  match calls with
  | [] => some (.ok streaming)
  | call :: calls =>
    match streaming.addMessages fuel call with
    | none => none
    | some (_, .error violated) => some (.error violated)
    | some (next, .ok _) => addBatches fuel next calls

def messagesOf (calls : List StreamingCall) : List AdicMessage := calls.flatMap StreamingCall.messages

section

variable {axis : UInt32} {radius dimension : Nat}

theorem IsCell.known {messages : List AdicMessage}
    (isCell : IsCell messages axis radius dimension cell) {id : MessageId} (member : id ∈ cell) :
    ∃ message ∈ messages, message.id = id := by
  obtain ⟨_, _, ball, _, inside⟩ := isCell
  obtain ⟨entry, entryMember, rfl⟩ := List.mem_map.mp (inside id member)
  obtain ⟨message, kept, rfl⟩ := List.mem_map.mp entryMember
  exact ⟨message, List.mem_of_mem_filter kept, rfl⟩

theorem isCell_apart {messages more : List AdicMessage}
    (distinct : ((messages ++ more).map AdicMessage.id).Nodup) (isCell : IsCell messages axis radius dimension cell) :
    ¬ IsCell more axis radius dimension cell := by
  intro isCell'
  obtain ⟨id, member⟩ := isCell.1
  obtain ⟨message, inside, rfl⟩ := isCell.known member
  obtain ⟨other, inside', same⟩ := isCell'.known member
  rw [List.map_append, List.nodup_append'] at distinct
  apply distinct.2.2 (List.mem_map_of_mem inside)
  rw [← same]
  exact List.mem_map_of_mem inside'

theorem cellWeight_eq {messages all : List AdicMessage} (distinct : (all.map AdicMessage.id).Nodup)
    (distinct' : (messages.map AdicMessage.id).Nodup) (part : messages ⊆ all)
    (isCell : IsCell messages axis radius dimension cell) :
    cellWeight all dimension cell = cellWeight messages dimension cell := by
  have timestamps : ∀ id ∈ cell, timestampOf all id = timestampOf messages id := by
    intro id member
    obtain ⟨message, inside, rfl⟩ := isCell.known member
    rw [timestampOf_eq distinct (part inside), timestampOf_eq distinct' inside]
  rw [cellWeight, cellWeight, Finset.fold_congr timestamps]

theorem StreamingState.addBatches {weight : Finset MessageId → Weight} (calls : List StreamingCall)
    (distinct : ((messagesOf calls).map AdicMessage.id).Nodup)
    (weights : ∀ call ∈ calls, ∀ cell, IsCell call.messages axis radius dimension cell →
      weight cell = cellWeight call.messages dimension cell) :
    ∀ {cells : List (Finset MessageId)} {streaming : StreamingPersistence}, StreamingState cells weight streaming →
      streaming.axis = axis ∧ streaming.radius = radius ∧ streaming.dimension = dimension →
      (∀ cell ∈ cells, ∀ call ∈ calls, ¬ IsCell call.messages axis radius dimension cell) →
      ∃ outcome bound, (∀ fuel ≥ bound, AdicProof.Finality.addBatches fuel streaming calls = some outcome) ∧
        ∀ final, outcome = .ok final → ∃ more, StreamingState (cells ++ more) weight final ∧
          ∀ cell, cell ∈ more ↔ ∃ call ∈ calls, IsCell call.messages axis radius dimension cell := by
  induction calls with
  | nil =>
    intro cells streaming state settings apart
    refine ⟨.ok streaming, 0, fun _ _ => rfl, ?_⟩
    rintro final same
    cases same
    exact ⟨[], by rwa [List.append_nil], fun cell => ⟨fun member => (by cases member), fun ⟨_, inside, _⟩ => (by cases inside)⟩⟩
  | cons call calls ih =>
    intro cells streaming state settings apart
    obtain ⟨rfl, rfl, rfl⟩ := settings
    have both : ((call.messages ++ messagesOf calls).map AdicMessage.id).Nodup := distinct
    have split := both
    rw [List.map_append, List.nodup_append'] at split
    obtain ⟨callDistinct, restDistinct, _⟩ := split
    obtain ⟨next, result, bound, run, settings, _, extended⟩ := state.addMessages call callDistinct
      (fun cell inside => apart cell inside call List.mem_cons_self)
      (weights call List.mem_cons_self)
    cases result with
    | error violated =>
      refine ⟨.error violated, bound, ?_, fun _ same => (by cases same)⟩
      intro fuel enough
      simp only [AdicProof.Finality.addBatches, run fuel enough]
    | ok count =>
      obtain ⟨more, nextState, moreCells⟩ := extended count rfl
      obtain ⟨outcome, bound', run', final⟩ := ih restDistinct
        (fun later inside => weights later (List.mem_cons_of_mem call inside)) nextState settings (by
          intro cell member later inside isCell
          rcases List.mem_append.mp member with old | new
          · exact apart cell old later (List.mem_cons_of_mem call inside) isCell
          · apply isCell_apart ?_ ((moreCells cell).mp new) isCell
            apply List.Nodup.sublist ?_ both
            apply List.Sublist.map
            apply List.Sublist.append_left
            exact (List.sublist_flatten_of_mem (List.mem_map_of_mem inside)).trans (by rw [messagesOf, List.flatMap]))
      refine ⟨outcome, max bound bound', ?_, ?_⟩
      · intro fuel enough
        simp only [AdicProof.Finality.addBatches, run fuel (by omega)]
        exact run' fuel (by omega)
      · intro last same
        obtain ⟨rest, lastState, restCells⟩ := final last same
        refine ⟨more ++ rest, ?_, ?_⟩
        · rwa [← List.append_assoc]
        · intro cell
          rw [List.mem_append, moreCells, restCells]
          simp only [List.mem_cons, exists_eq_or_imp]

theorem mem_ballMembers_messagesOf {calls : List StreamingCall} {ball : List UInt8} {entry : MessageId × Weight} :
    entry ∈ ballMembers axis radius (messagesOf calls) ball ↔
      ∃ call ∈ calls, entry ∈ ballMembers axis radius call.messages ball := by
  simp only [ballMembers, messagesOf, List.mem_map, List.mem_filter, List.mem_flatMap]
  constructor
  · rintro ⟨message, ⟨⟨call, inside, member⟩, here⟩, rfl⟩
    exact ⟨call, inside, message, ⟨member, here⟩, rfl⟩
  · rintro ⟨call, inside, message, ⟨member, here⟩, rfl⟩
    exact ⟨message, ⟨⟨call, inside, member⟩, here⟩, rfl⟩

theorem isCell_messagesOf (calls : List StreamingCall) (cell : Finset MessageId) :
    IsCell (messagesOf calls) axis radius 0 cell ↔ ∃ call ∈ calls, IsCell call.messages axis radius 0 cell := by
  constructor
  · rintro ⟨nonempty, small, ball, _, inside⟩
    obtain ⟨id, single⟩ := Finset.card_eq_one.mp (Nat.le_antisymm small nonempty.card_pos)
    obtain ⟨entry, entryMember, same⟩ := List.mem_map.mp (inside id (by rw [single]; exact Finset.mem_singleton_self id))
    obtain ⟨call, callInside, entryMember⟩ := mem_ballMembers_messagesOf.mp entryMember
    refine ⟨call, callInside, nonempty, small, ball, List.length_pos_of_mem entryMember, ?_⟩
    intro other member
    rw [single, Finset.mem_singleton] at member
    rw [member, ← same]
    exact List.mem_map_of_mem entryMember
  · rintro ⟨call, callInside, nonempty, small, ball, _, inside⟩
    obtain ⟨id, member⟩ := nonempty
    obtain ⟨entry, entryMember, _⟩ := List.mem_map.mp (inside id member)
    refine ⟨⟨id, member⟩, small, ball,
      List.length_pos_of_mem (mem_ballMembers_messagesOf.mpr ⟨call, callInside, entryMember⟩), ?_⟩
    intro other otherMember
    obtain ⟨found, foundMember, rfl⟩ := List.mem_map.mp (inside other otherMember)
    exact List.mem_map_of_mem (mem_ballMembers_messagesOf.mpr ⟨call, callInside, foundMember⟩)

theorem not_isCell_of_small {calls : List StreamingCall}
    (small : ∀ ball, (ballMembers axis radius (messagesOf calls) ball).length < dimension + 1)
    {call : StreamingCall} (inside : call ∈ calls) :
    ¬ IsCell call.messages axis radius dimension cell := by
  rintro ⟨_, _, ball, large, _⟩
  have part : (ballMembers axis radius call.messages ball).length ≤
      (ballMembers axis radius (messagesOf calls) ball).length := by
    apply List.Sublist.length_le
    apply List.Sublist.map
    apply List.Sublist.filter
    exact (List.sublist_flatten_of_mem (List.mem_map_of_mem inside)).trans (by rw [messagesOf, List.flatMap])
  have all := small ball
  omega

theorem exists_edge {messages : List AdicMessage} (distinct : (messages.map AdicMessage.id).Nodup)
    (positive : dimension ≠ 0) (isCell : IsCell messages axis radius dimension cell)
    (vertex : cell.card = 1) :
    ∃ edge, IsCell messages axis radius dimension edge ∧ Simplicial.dimension edge = 1 ∧ faceSum edge cell ≠ 0 := by
  obtain ⟨id, rfl⟩ := Finset.card_eq_one.mp vertex
  obtain ⟨_, _, ball, large, inside⟩ := isCell
  have member := inside id (Finset.mem_singleton_self id)
  have nodup : ((ballMembers axis radius messages ball).map Prod.fst).Nodup := ballMembers_ids_nodup distinct
  have two : 1 < ((ballMembers axis radius messages ball).map Prod.fst).toFinset.card := by
    rw [List.toFinset_card_of_nodup nodup, List.length_map]
    omega
  obtain ⟨other, otherMember, different⟩ := Finset.exists_mem_ne two id
  rw [List.mem_toFinset] at otherMember
  have pair : ({id, other} : Finset MessageId).card = 2 := Finset.card_pair different.symm
  have erased : ({id, other} : Finset MessageId).erase other = {id} := by
    ext x
    simp only [Finset.mem_erase, Finset.mem_insert, Finset.mem_singleton]
    constructor
    · rintro ⟨notOther, same | same⟩
      · exact same
      · exact absurd same notOther
    · rintro rfl
      exact ⟨different.symm, .inl rfl⟩
  refine ⟨{id, other}, ⟨⟨id, Finset.mem_insert_self id _⟩, ?_, ball, large, ?_⟩, ?_, ?_⟩
  · rw [pair]
    omega
  · intro x xMember
    rw [Finset.mem_insert, Finset.mem_singleton] at xMember
    rcases xMember with rfl | rfl
    · exact member
    · exact otherMember
  · rw [Simplicial.dimension, pair]
  · rw [← erased, faceSum_erase (by rw [pair]; exact Nat.lt_succ_self 1)
      (Finset.mem_insert_of_mem (Finset.mem_singleton_self other))]
    exact one_ne_zero

end

end AdicProof.Finality
