import AdicCore.Finality.BatchHomology
import AdicCore.Finality.StreamingBatches

open AdicModel AdicModel.Finality Elimination Homology Barcode Simplicial

namespace AdicProof.Finality

section

variable {cells : List (Finset MessageId)} {weight : Finset MessageId → Weight} {streaming : StreamingPersistence}
  (state : StreamingState cells weight streaming)

include state

theorem StreamingState.reduction :
    Reduction cells.toFinset cells.idxOf dimension (column boundary) (reducedOf cells streaming.matrix)
      (leadOf cells streaming.matrix) := by
  obtain ⟨initial, represents, _, reduced⟩ := state.reduced
  have reducing := reduced.reducing
  rw [← represents.size] at reducing
  exact reducing.reduction represents state.faceClosed.chainComplex

theorem StreamingState.card_intervals :
    ((streaming.persistence.intervals 0).filter fun interval => interval.isInfinite).card =
        (vertices cells.toFinset).card ∧
      (streaming.persistence.intervals 0).card =
        (births cells.toFinset dimension (leadOf cells streaming.matrix) 0).card + (vertices cells.toFinset).card := by
  have chainComplex := state.faceClosed.chainComplex
  have free : cells.toFinset.filter (fun s => dimension s = 0 ∧ leadOf cells streaming.matrix s = none) =
      vertices cells.toFinset := by
    apply Finset.filter_congr
    intro s _
    exact and_iff_left_of_imp fun vertex => lead_vertex chainComplex state.reduction vertex
  rw [state.intervals, free]
  constructor
  · rw [infinite_intervals, Multiset.card_map, Multiset.card_map, Finset.card_val]
  · rw [Multiset.card_add, Multiset.card_map, card_bars chainComplex state.reduction, Multiset.card_map,
      Multiset.card_map, Finset.card_val]

end

section

variable {label : Nat → MessageId} {complex : SimplicialComplex} {weight : Finset MessageId → Weight}
  {reduced : BoundaryMatrix} {data : PersistenceData}

theorem Reduced.card_intervals (outcome : Reduced label complex weight reduced data)
    (chainComplex : ChainComplex (cellsOf label complex).toFinset dimension (boundary (V := MessageId))) :
    ((data.intervals 0).filter fun interval => interval.isInfinite).card =
        (unpaired (cellsOf label complex).toFinset dimension (leadOf (cellsOf label complex) reduced) 0).card ∧
      (data.intervals 0).card =
        (births (cellsOf label complex).toFinset dimension (leadOf (cellsOf label complex) reduced) 0).card +
          (unpaired (cellsOf label complex).toFinset dimension (leadOf (cellsOf label complex) reduced) 0).card := by
  rw [outcome.intervals, essential]
  constructor
  · rw [infinite_intervals, Multiset.card_map, Multiset.card_map, Finset.card_val]
  · rw [Multiset.card_add, Multiset.card_map, card_bars chainComplex outcome.reduction, Multiset.card_map,
      Multiset.card_map, Finset.card_val]

section

variable {cells : List (Finset MessageId)} {streaming : StreamingPersistence}
  (state : StreamingState cells weight streaming) (outcome : Reduced label complex weight reduced data)
  (chainComplex : ChainComplex (cellsOf label complex).toFinset dimension (boundary (V := MessageId)))

include state outcome chainComplex

theorem intervals_eq_of_vertices (same : cells.toFinset = (cellsOf label complex).toFinset)
    (points : ∀ s ∈ cells.toFinset, dimension s = 0) (k : Nat) :
    streaming.persistence.intervals k = data.intervals k := by
  have streamingLeads : ∀ s, leadOf cells streaming.matrix s = none := by
    intro s
    by_contra present
    obtain ⟨x, found⟩ := Option.ne_none_iff_exists'.mp present
    have vertex := points s (state.reduction.defined s x found)
    rw [lead_vertex state.faceClosed.chainComplex state.reduction vertex] at found
    cases found
  have batchLeads : ∀ s, leadOf (cellsOf label complex) reduced s = none := by
    intro s
    by_contra present
    obtain ⟨x, found⟩ := Option.ne_none_iff_exists'.mp present
    have inside := outcome.reduction.defined s x found
    rw [← same] at inside
    rw [lead_vertex chainComplex outcome.reduction (points s inside)] at found
    cases found
  have sameLeads : leadOf cells streaming.matrix = leadOf (cellsOf label complex) reduced := by
    funext s
    rw [streamingLeads, batchLeads]
  have free : (cellsOf label complex).toFinset.filter
        (fun s => dimension s = k ∧ leadOf (cellsOf label complex) reduced s = none) =
      unpaired (cellsOf label complex).toFinset dimension (leadOf (cellsOf label complex) reduced) k := by
    apply Finset.filter_congr
    intro s _
    rw [batchLeads]
    apply and_congr_right fun _ => (and_iff_left ?_).symm
    intro t _ found
    rw [batchLeads] at found
    cases found
  rw [state.intervals, outcome.intervals, same, sameLeads, essential, free]

theorem intervals_ne_of_edges (inhabited : (vertices (cellsOf label complex).toFinset).Nonempty)
    (covered : ∀ x ∈ vertices (cellsOf label complex).toFinset, ∃ s ∈ (cellsOf label complex).toFinset,
      dimension s = 1 ∧ faceSum s x ≠ 0) :
    streaming.persistence.intervals 0 ≠ data.intervals 0 := by
  intro same
  obtain ⟨streamingInfinite, streamingAll⟩ := state.card_intervals
  obtain ⟨batchInfinite, batchAll⟩ := outcome.card_intervals chainComplex
  rw [same] at streamingInfinite streamingAll
  have batchVertices := card_vertices chainComplex outcome.reduction
  have half := card_vertices_le chainComplex outcome.reduction covered
  have positive := inhabited.card_pos
  by_cases streamed : (vertices cells.toFinset).Nonempty
  · have fewer := card_births_lt_vertices state.faceClosed.chainComplex state.reduction streamed
    omega
  · have none : (vertices cells.toFinset).card = 0 := by
      rw [Finset.not_nonempty_iff_eq_empty.mp streamed, Finset.card_empty]
    have noBirths := Finset.card_le_card
      (@births_subset_vertices _ _ cells.toFinset (leadOf cells streaming.matrix))
    omega

end

end

/-- Streaming and batch agree exactly in dimension zero and where no ball is large enough for a simplex. -/
theorem streaming_eq_batch_iff (dimension radius : Nat) (axis : UInt32) (calls : List StreamingCall)
    (ballOrder pairOrder : HashMap.Order) (distinct : ((messagesOf calls).map AdicMessage.id).Nodup) :
    ∃ outcome data,
      (∃ bound, ∀ fuel ≥ bound,
        addBatches fuel (StreamingPersistence.new dimension radius axis) calls = some outcome ∧
        batchPersistence ballOrder pairOrder fuel (messagesOf calls) axis radius dimension = some data) ∧
      ∀ final, outcome = .ok final →
        ((∀ k, final.persistence.intervals k = data.intervals k) ↔
          dimension = 0 ∨ ∀ ball, (ballMembers axis radius (messagesOf calls) ball).length < dimension + 1) := by
  let weight := cellWeight (messagesOf calls) dimension
  have weights : ∀ call ∈ calls, ∀ cell, IsCell call.messages axis radius dimension cell →
      weight cell = cellWeight call.messages dimension cell := by
    intro call inside cell isCell
    have part : call.messages.Sublist (messagesOf calls) :=
      (List.sublist_flatten_of_mem (List.mem_map_of_mem inside)).trans (by rw [messagesOf, List.flatMap])
    exact cellWeight_eq distinct (distinct.sublist (part.map AdicMessage.id)) part.subset isCell
  obtain ⟨outcome, bound, run, finished⟩ := StreamingState.addBatches calls distinct weights
    (newStreaming_state weight dimension radius axis) ⟨rfl, rfl, rfl⟩ (fun cell member => by cases member)
  obtain ⟨built, building, batch⟩ := buildFromMessages_spec ballOrder distinct axis radius dimension
  obtain ⟨reduced, data, reducing, computed, batchOutcome⟩ :=
    reduceBoundaryMatrix_reduced batch.labels batch.wellFormed batch.facesPresent batch.weights pairOrder
  have chainComplex := (faceClosed_cells batch.labels batch.wellFormed batch.facesPresent).chainComplex
  refine ⟨outcome, data, ⟨bound + (messagesOf calls).length.choose (dimension + 1) + built.complex.numSimplices + 1,
    ?_⟩, ?_⟩
  · intro fuel enough
    refine ⟨run fuel (by omega), ?_⟩
    rw [batchPersistence, building fuel (by omega)]
    simp only [Option.bind_eq_bind, Option.bind_some]
    rw [reducing fuel (by omega)]
    exact computed
  · intro final succeeded
    obtain ⟨cells, state, members⟩ := finished final succeeded
    rw [List.nil_append] at state
    constructor
    · intro agree
      by_contra large
      push Not at large
      obtain ⟨positive, ball, large⟩ := large
      apply intervals_ne_of_edges state batchOutcome chainComplex ?_ ?_ (agree 0)
      · have some : 0 < (ballMembers axis radius (messagesOf calls) ball).length := by omega
        obtain ⟨entry, entryMember⟩ := List.exists_mem_of_length_pos some
        refine ⟨{entry.1}, Finset.mem_filter.mpr ⟨?_, ?_⟩⟩
        · rw [List.mem_toFinset, batch.cells]
          refine ⟨Finset.singleton_nonempty _, ?_, ball, large, ?_⟩
          · rw [Finset.card_singleton]
            omega
          · intro id member
            rw [Finset.mem_singleton.mp member]
            exact List.mem_map_of_mem entryMember
        · rw [Simplicial.dimension, Finset.card_singleton]
      · intro x member
        obtain ⟨inside, vertex⟩ := Finset.mem_filter.mp member
        rw [List.mem_toFinset, batch.cells] at inside
        have size : x.card = 1 := by
          have nonempty := inside.1.card_pos
          rw [Simplicial.dimension] at vertex
          omega
        obtain ⟨edge, edgeCell, edgeDimension, occurs⟩ := exists_edge distinct positive inside size
        exact ⟨edge, List.mem_toFinset.mpr ((batch.cells edge).mpr edgeCell), edgeDimension, occurs⟩
    · intro condition
      have points : cells.toFinset = (cellsOf (labelOf built.builder) built.complex).toFinset ∧
          ∀ s ∈ cells.toFinset, Simplicial.dimension s = 0 := by
        rcases condition with rfl | small
        · refine ⟨?_, ?_⟩
          · ext cell
            rw [List.mem_toFinset, List.mem_toFinset, members, batch.cells, isCell_messagesOf]
          · intro s inside
            rw [List.mem_toFinset, members] at inside
            obtain ⟨_, _, _, small, _⟩ := inside
            rw [Simplicial.dimension]
            omega
        · have streamingEmpty : ∀ cell, cell ∉ cells.toFinset := by
            intro cell inside
            rw [List.mem_toFinset, members] at inside
            obtain ⟨call, callInside, isCell⟩ := inside
            exact not_isCell_of_small small callInside isCell
          have batchEmpty : ∀ cell, cell ∉ (cellsOf (labelOf built.builder) built.complex).toFinset := by
            intro cell inside
            rw [List.mem_toFinset, batch.cells] at inside
            obtain ⟨_, _, ball, large, _⟩ := inside
            have below := small ball
            omega
          refine ⟨?_, fun s inside => absurd inside (streamingEmpty s)⟩
          ext cell
          exact ⟨fun inside => absurd inside (streamingEmpty cell), fun inside => absurd inside (batchEmpty cell)⟩
      exact intervals_eq_of_vertices state batchOutcome chainComplex points.1 points.2

def pairCall : StreamingCall := ⟨[neighbour 1 10, neighbour 2 20], 1, .stored, .stored, 0⟩

theorem streaming_eq_batch_iff_pair :
    ∃ outcome data,
      (∃ bound, ∀ fuel ≥ bound,
        addBatches fuel (StreamingPersistence.new 0 1 0) [pairCall] = some outcome ∧
        batchPersistence .stored .stored fuel (messagesOf [pairCall]) 0 1 0 = some data) ∧
      ∀ final, outcome = .ok final →
        ((∀ k, final.persistence.intervals k = data.intervals k) ↔
          0 = 0 ∨ ∀ ball, (ballMembers 0 1 (messagesOf [pairCall]) ball).length < 0 + 1) :=
  streaming_eq_batch_iff 0 1 0 [pairCall] .stored .stored (by decide)

/-- The older vertex of an edge stays infinite in the streaming engine although the edge pairs it. -/
theorem streaming_ne_batch_pair :
    ((messagesOf [pairCall]).map AdicMessage.id).Nodup ∧
    (∀ message ∈ messagesOf [pairCall], 0 < message.metadata.timestamp.timestamp) ∧
    ∃ final data, addBatches 10 (StreamingPersistence.new 1 1 0) [pairCall] = some (.ok final) ∧
      batchPersistence .stored .stored 10 (messagesOf [pairCall]) 0 1 1 = some data ∧
      final.persistence.intervals 0 ≠ data.intervals 0 := by
  have streamed : ((addBatches 10 (StreamingPersistence.new 1 1 0) [pairCall]).bind fun outcome =>
      outcome.toOption.map fun final => (final.persistence.intervals 0).card) = some 3 := by decide +kernel
  have batched : ((batchPersistence .stored .stored 10 (messagesOf [pairCall]) 0 1 1).map fun data =>
      (data.intervals 0).card) = some 2 := by decide +kernel
  obtain ⟨outcome, run, counted⟩ := Option.bind_eq_some_iff.mp streamed
  obtain ⟨data, computed, counted'⟩ := Option.map_eq_some_iff.mp batched
  cases outcome with
  | error violated => cases counted
  | ok final =>
    refine ⟨by decide, by decide, final, data, run, computed, ?_⟩
    intro same
    have three : (final.persistence.intervals 0).card = 3 := Option.some.inj counted
    rw [same, counted'] at three
    cases three

end AdicProof.Finality
