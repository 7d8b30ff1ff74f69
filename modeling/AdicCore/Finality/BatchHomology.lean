import AdicCore.Finality.Batch

open AdicModel AdicModel.Finality Elimination Homology Barcode

namespace AdicProof.Finality

def simplexSets (complex : SimplicialComplex) : Finset (Finset Nat) :=
  (complex.simplices.map fun simplex => simplex.vertices.toFinset).toFinset

/-- The dimension of the cycles over the field with two elements less the rank of the next boundary. -/
noncomputable def bettiNumber (complex : SimplicialComplex) (k : Nat) : ℤ :=
  betti (simplexSets complex) Simplicial.dimension (Simplicial.boundary (V := Nat)) k

section

variable {V : Type} [DecidableEq V] {label : Nat → V} {complex : SimplicialComplex} {weight : Finset V → Weight}

theorem filtered_cells (labels : Labels label complex) (wellFormed : WellFormed complex)
    (sorted : complex.simplices.Pairwise filtrationOrder)
    (weights : ∀ simplex ∈ complex.simplices, weight (cellOf label simplex) = simplex.weight) :
    Filtered (cellsOf label complex).toFinset (cellsOf label complex).idxOf weight := by
  have nodup := labels.cells_nodup wellFormed
  intro s inside t inside' before
  obtain ⟨simplex, member, rfl⟩ := List.mem_map.mp (List.mem_toFinset.mp inside)
  obtain ⟨other, member', rfl⟩ := List.mem_map.mp (List.mem_toFinset.mp inside')
  obtain ⟨i, iBound, rfl⟩ := List.mem_iff_getElem.mp member
  obtain ⟨j, jBound, rfl⟩ := List.mem_iff_getElem.mp member'
  beta_reduce at before
  rw [idxOf_eq nodup (getElem?_cellsOf (List.getElem?_eq_getElem iBound)),
    idxOf_eq nodup (getElem?_cellsOf (List.getElem?_eq_getElem jBound))] at before
  rw [weights _ member, weights _ member']
  rcases List.pairwise_iff_getElem.mp sorted i j iBound jBound before with below | ⟨same, _⟩
  · exact below.le
  · exact same.le

structure Reduced (label : Nat → V) (complex : SimplicialComplex) (weight : Finset V → Weight)
    (reduced : BoundaryMatrix) (data : PersistenceData) : Prop where
  reducing : Reducing (cellsOf label complex) (gradeAt (cellsOf label complex) Simplicial.dimension)
    (BoundaryMatrix.fromComplex complex).columns (BoundaryMatrix.fromComplex complex).columns.length reduced
  reduction : Reduction (cellsOf label complex).toFinset (cellsOf label complex).idxOf Simplicial.dimension
    (column Simplicial.boundary) (reducedOf (cellsOf label complex) reduced) (leadOf (cellsOf label complex) reduced)
  intervals : ∀ k, data.intervals k =
    ((bars (cellsOf label complex).toFinset Simplicial.dimension (leadOf (cellsOf label complex) reduced)
        weight k).map fun bar => .finite bar.1 bar.2 k) +
      (essential (cellsOf label complex).toFinset Simplicial.dimension (leadOf (cellsOf label complex) reduced)
        weight k).map fun birth => .infinite birth k

theorem reduceBoundaryMatrix_reduced (labels : Labels label complex) (wellFormed : WellFormed complex)
    (facesPresent : FacesPresent complex)
    (weights : ∀ simplex ∈ complex.simplices, weight (cellOf label simplex) = simplex.weight)
    (order : HashMap.Order) :
    ∃ reduced data, (∀ fuel, complex.numSimplices < fuel →
        reduceBoundaryMatrix fuel (BoundaryMatrix.fromComplex complex) =
          some (extractPairing reduced complex.numSimplices)) ∧
      PersistenceData.fromReduction order (extractPairing reduced complex.numSimplices) complex = some data ∧
      Reduced label complex weight reduced data := by
  have represents := represents_fromComplex labels wellFormed facesPresent
  have reducible := reducible_fromComplex labels wellFormed facesPresent
  have chainComplex := (faceClosed_cells labels wellFormed facesPresent).chainComplex
  have labelled := labelled_of_weights labels wellFormed weights
  have size : (BoundaryMatrix.fromComplex complex).columns.length = complex.numSimplices := List.length_map _
  have columns : (BoundaryMatrix.fromComplex complex).numColumns = complex.numSimplices := size
  obtain ⟨reduced, run, reducing⟩ :=
    @reduceBoundaryMatrix_reducing _ (cellsOf label complex) _ _ reducible (complex.numSimplices + 1)
      (by rw [columns]; exact Nat.lt_succ_self _)
  rw [columns] at run
  obtain ⟨data, computed, intervals⟩ := fromReduction_intervals represents chainComplex reducing
    (extractPairing_reads represents reducing) labelled order
  rw [size] at computed
  refine ⟨reduced, data, fun fuel enough => reduceBoundaryMatrix_mono enough run, computed, reducing,
    reducing.reduction represents chainComplex, intervals⟩

theorem Reduced.pair_cells {reduced : BoundaryMatrix} {data : PersistenceData} (labels : Labels label complex)
    (wellFormed : WellFormed complex) (facesPresent : FacesPresent complex)
    (outcome : Reduced label complex weight reduced data) {col pivot : Nat}
    (member : (col, pivot) ∈ HashMap.pairs (extractPairing reduced complex.numSimplices).pairs) :
    ∃ death birth, complex.getSimplex col = some death ∧ complex.getSimplex pivot = some birth ∧
      leadOf (cellsOf label complex) reduced (cellOf label death) = some (cellOf label birth) := by
  have represents := represents_fromComplex labels wellFormed facesPresent
  have columns : (BoundaryMatrix.fromComplex complex).columns.length = complex.simplices.length := List.length_map _
  obtain ⟨bound, lowest⟩ := (outcome.reducing.pivots pivot col).mp ((mem_pairs outcome.reducing).mp member)
  rw [columns] at bound
  have found : complex.simplices[col]? = some complex.simplices[col] := List.getElem?_eq_getElem bound
  obtain ⟨x, pivotFound, lead⟩ :=
    (leadOf_at represents outcome.reducing (getElem?_cellsOf found) pivot).mp lowest
  rw [cellsOf, List.getElem?_map] at pivotFound
  obtain ⟨birth, birthFound, rfl⟩ := Option.map_eq_some_iff.mp pivotFound
  exact ⟨_, birth, found, birthFound, lead⟩

end

theorem numInfinite_eq (data : PersistenceData) (k : Nat) :
    ((data.getDiagram k).map PersistenceDiagram.numInfinite).getD 0 =
      ((data.intervals k).filter fun interval => interval.isInfinite).card := by
  rw [PersistenceData.intervals]
  cases data.getDiagram k with
  | none => rfl
  | some diagram =>
    simp only [Option.map_some, Option.getD_some, Multiset.filter_coe, Multiset.coe_card]
    rw [PersistenceDiagram.numInfinite]
    congr 1
    apply List.filter_congr
    simp

theorem infinite_intervals (bars : Multiset (Weight × Weight)) (births : Multiset Weight) (k : Nat) :
    ((bars.map fun bar => PersistenceInterval.finite bar.1 bar.2 k) +
        births.map fun birth => PersistenceInterval.infinite birth k).filter (fun interval => interval.isInfinite) =
      births.map fun birth => PersistenceInterval.infinite birth k := by
  rw [Multiset.filter_add, Multiset.filter_eq_nil.mpr, Multiset.filter_eq_self.mpr, zero_add]
  · intro interval member
    obtain ⟨birth, _, rfl⟩ := Multiset.mem_map.mp member
    rfl
  · intro interval member
    obtain ⟨bar, _, rfl⟩ := Multiset.mem_map.mp member
    simp [PersistenceInterval.finite, PersistenceInterval.isInfinite]

theorem labels_id (complex : SimplicialComplex) : Labels id complex := fun _ _ _ _ _ _ _ _ same => same

theorem cellsOf_id (complex : SimplicialComplex) : (cellsOf id complex).toFinset = simplexSets complex := by
  rw [simplexSets, cellsOf]
  congr 2
  funext simplex
  exact Finset.image_id

variable {complex : SimplicialComplex}

theorem BatchComplex.face_weight {messages : List AdicMessage} {axis : UInt32} {radius dimension : Nat}
    {label : Nat → MessageId}
    (batch : BatchComplex messages axis radius dimension label complex) {s x : Finset MessageId}
    (inside : s ∈ cellsOf label complex) (occurs : column (Simplicial.boundary (V := MessageId)) s x ≠ 0) :
    cellWeight messages dimension x ≤ cellWeight messages dimension s := by
  rw [Simplicial.column_boundary] at occurs
  obtain ⟨large, v, member, rfl⟩ := Simplicial.faceSum_apply_ne_zero occurs
  obtain ⟨_, small, _⟩ := (batch.cells s).mp inside
  have proper : (s.erase v).card ≠ dimension + 1 := by
    rw [Finset.card_erase_of_mem member]
    omega
  have nonnegative : 0 ≤ cellWeight messages dimension s := by
    rw [cellWeight]
    split
    · exact Finset.le_fold_max 0 |>.mpr (.inl (le_refl 0))
    · exact le_refl 0
  rw [cellWeight, if_neg proper]
  exact nonnegative

def storedWeight (complex : SimplicialComplex) (s : Finset Nat) : Weight := (content complex s).getD 0

theorem storedWeight_eq (wellFormed : WellFormed complex) :
    ∀ simplex ∈ complex.simplices, storedWeight complex (cellOf id simplex) = simplex.weight := by
  intro simplex member
  have vertices : cellOf id simplex = simplex.vertices.toFinset := Finset.image_id
  rw [storedWeight, vertices, wellFormed.indexed.content_eq_some.mpr ⟨simplex, member, rfl, rfl⟩]
  rfl

theorem numInfinite_eq_betti (wellFormed : WellFormed complex)
    (facesPresent : FacesPresent complex) {order : HashMap.Order} {result : ReductionResult} {data : PersistenceData}
    (reducing : ∀ fuel, complex.numSimplices < fuel →
      reduceBoundaryMatrix fuel (BoundaryMatrix.fromComplex complex) = some result)
    (computed : PersistenceData.fromReduction order result complex = some data) (k : Nat) :
    (((data.getDiagram k).map PersistenceDiagram.numInfinite).getD 0 : ℤ) = bettiNumber complex k := by
  have labels := labels_id complex
  obtain ⟨reduced, data', reducing', computed', outcome⟩ :=
    reduceBoundaryMatrix_reduced labels wellFormed facesPresent (storedWeight_eq wellFormed) order
  have sameResult := (reducing _ (Nat.lt_succ_self _)).symm.trans (reducing' _ (Nat.lt_succ_self _))
  rw [Option.some.inj sameResult, computed'] at computed
  cases computed
  have chainComplex := (faceClosed_cells labels wellFormed facesPresent).chainComplex
  rw [numInfinite_eq, outcome.intervals, infinite_intervals, Multiset.card_map, essential, Multiset.card_map,
    Finset.card_val, card_unpaired chainComplex outcome.reduction, cellsOf_id, bettiNumber]

/-- Batch homology is correct, where `dimension + 1` fits a `usize`. -/
theorem batch_homology (ballOrder pairOrder : HashMap.Order) (messages : List AdicMessage)
    (distinct : (messages.map AdicMessage.id).Nodup) (axis : UInt32) (radius dimension : Nat) :
    ∃ built result data,
      (∀ fuel, messages.length.choose (dimension + 1) ≤ fuel →
        AdicComplexBuilder.new.buildFromMessages ballOrder fuel messages axis radius dimension = some built) ∧
      (∀ fuel, built.complex.numSimplices < fuel →
        reduceBoundaryMatrix fuel (BoundaryMatrix.fromComplex built.complex) = some result) ∧
      PersistenceData.fromReduction pairOrder result built.complex = some data ∧
      ((HashMap.pairs result.pairs).map Prod.fst ++ (HashMap.pairs result.pairs).map Prod.snd ++
        result.unpaired).Perm (List.range built.complex.numSimplices) ∧
      (∀ pair ∈ HashMap.pairs result.pairs, ∃ death birth, built.complex.getSimplex pair.1 = some death ∧
        built.complex.getSimplex pair.2 = some birth ∧ death.dimension = birth.dimension + 1 ∧
        birth.weight ≤ death.weight) ∧
      ∀ k, (((data.getDiagram k).map PersistenceDiagram.numInfinite).getD 0 : ℤ) = bettiNumber built.complex k := by
  obtain ⟨built, building, batch⟩ := buildFromMessages_spec ballOrder distinct axis radius dimension
  have columns : (BoundaryMatrix.fromComplex built.complex).columns.length = built.complex.numSimplices :=
    List.length_map _
  -- the pairs are read under the names of the messages, the Betti numbers on the vertices themselves
  obtain ⟨reduced, data, reducing, computed, outcome⟩ :=
    reduceBoundaryMatrix_reduced batch.labels batch.wellFormed batch.facesPresent batch.weights pairOrder
  have represents := represents_fromComplex batch.labels batch.wellFormed batch.facesPresent
  have chainComplex := (faceClosed_cells batch.labels batch.wellFormed batch.facesPresent).chainComplex
  refine ⟨built, _, data, building, reducing, computed, ?_, ?_, ?_⟩
  · have perm := indices_perm represents chainComplex outcome.reducing
    rw [columns] at perm
    exact perm
  · rintro ⟨col, pivot⟩ member
    obtain ⟨death, birth, deathFound, birthFound, lead⟩ :=
      outcome.pair_cells batch.labels batch.wellFormed batch.facesPresent member
    have deathMember : death ∈ built.complex.simplices := List.mem_of_getElem? deathFound
    have birthMember : birth ∈ built.complex.simplices := List.mem_of_getElem? birthFound
    have raised := lead_grade chainComplex outcome.reduction lead
    have lighter := lead_weight outcome.reduction
      (filtered_cells batch.labels batch.wellFormed batch.sorted batch.weights)
      (fun s inside x occurs => batch.face_weight (List.mem_toFinset.mp inside) occurs) lead
    rw [batch.labels.dimension_cellOf batch.wellFormed birthMember,
      batch.labels.dimension_cellOf batch.wellFormed deathMember] at raised
    rw [batch.weights birth birthMember, batch.weights death deathMember] at lighter
    exact ⟨death, birth, deathFound, birthFound, raised.symm, lighter⟩
  · exact numInfinite_eq_betti batch.wellFormed batch.facesPresent reducing computed

theorem batch_homology_pair :
    ∃ built result data,
      (∀ fuel, [neighbour 1 10, neighbour 2 20].length.choose (1 + 1) ≤ fuel →
        AdicComplexBuilder.new.buildFromMessages .stored fuel [neighbour 1 10, neighbour 2 20] 0 1 1 = some built) ∧
      (∀ fuel, built.complex.numSimplices < fuel →
        reduceBoundaryMatrix fuel (BoundaryMatrix.fromComplex built.complex) = some result) ∧
      PersistenceData.fromReduction .stored result built.complex = some data ∧
      ((HashMap.pairs result.pairs).map Prod.fst ++ (HashMap.pairs result.pairs).map Prod.snd ++
        result.unpaired).Perm (List.range built.complex.numSimplices) ∧
      (∀ pair ∈ HashMap.pairs result.pairs, ∃ death birth, built.complex.getSimplex pair.1 = some death ∧
        built.complex.getSimplex pair.2 = some birth ∧ death.dimension = birth.dimension + 1 ∧
        birth.weight ≤ death.weight) ∧
      ∀ k, (((data.getDiagram k).map PersistenceDiagram.numInfinite).getD 0 : ℤ) = bettiNumber built.complex k :=
  batch_homology .stored .stored [neighbour 1 10, neighbour 2 20] (by decide) 0 1 1

section

variable {messages messages' : List AdicMessage} {axis : UInt32} {radius dimension : Nat}

theorem timestampOf_perm (same : messages.Perm messages') (distinct : (messages.map AdicMessage.id).Nodup) :
    timestampOf messages = timestampOf messages' := by
  have distinct' : (messages'.map AdicMessage.id).Nodup := (same.map AdicMessage.id).nodup_iff.mp distinct
  funext id
  by_cases present : ∃ message ∈ messages, message.id = id
  · obtain ⟨message, member, rfl⟩ := present
    rw [timestampOf_eq distinct member, timestampOf_eq distinct' (same.mem_iff.mp member)]
  · have absent : messages.find? (fun message => message.id = id) = none := by
      rw [List.find?_eq_none]
      intro message member found
      exact present ⟨message, member, by simpa using found⟩
    have absent' : messages'.find? (fun message => message.id = id) = none := by
      rw [List.find?_eq_none]
      intro message member found
      exact present ⟨message, same.mem_iff.mpr member, by simpa using found⟩
    rw [timestampOf, timestampOf, absent, absent']

theorem isCell_perm (same : messages.Perm messages') (cell : Finset MessageId) :
    IsCell messages axis radius dimension cell ↔ IsCell messages' axis radius dimension cell := by
  have members (ball : List UInt8) :
      (ballMembers axis radius messages ball).Perm (ballMembers axis radius messages' ball) :=
    (same.filter _).map entryOf
  rw [IsCell, IsCell]
  apply and_congr_right fun _ => and_congr_right fun _ => exists_congr fun ball => ?_
  rw [(members ball).length_eq]
  apply and_congr_right fun _ => forall_congr' fun id => ?_
  rw [((members ball).map Prod.fst).mem_iff]

theorem Reduced.intervals_eq {V : Type} [DecidableEq V] {label label' : Nat → V} {complex complex' : SimplicialComplex}
    {weight : Finset V → Weight} {reduced reduced' : BoundaryMatrix} {data data' : PersistenceData}
    (outcome : Reduced label complex weight reduced data) (outcome' : Reduced label' complex' weight reduced' data')
    (chainComplex : ChainComplex (cellsOf label complex).toFinset Simplicial.dimension (Simplicial.boundary (V := V)))
    (filtered : Filtered (cellsOf label complex).toFinset (cellsOf label complex).idxOf weight)
    (filtered' : Filtered (cellsOf label' complex').toFinset (cellsOf label' complex').idxOf weight)
    (cells : (cellsOf label complex).toFinset = (cellsOf label' complex').toFinset) (k : Nat) :
    data.intervals k = data'.intervals k := by
  have reduction' := outcome'.reduction
  rw [← cells] at reduction' filtered'
  rw [outcome.intervals, outcome'.intervals, ← cells, bars_eq outcome.reduction filtered reduction' filtered',
    essential_eq chainComplex outcome.reduction filtered reduction' filtered']

end

/-- The diagrams do not depend on the order of the messages, of the balls or of the pairs, for such a dimension too. -/
theorem batchPersistence_order (ballOrder ballOrder' pairOrder pairOrder' : HashMap.Order)
    {messages messages' : List AdicMessage} (same : messages.Perm messages')
    (distinct : (messages.map AdicMessage.id).Nodup) (axis : UInt32) (radius dimension : Nat) :
    ∃ bound, ∀ fuel ≥ bound, ∃ data data',
      batchPersistence ballOrder pairOrder fuel messages axis radius dimension = some data ∧
      batchPersistence ballOrder' pairOrder' fuel messages' axis radius dimension = some data' ∧
      ∀ k, data.intervals k = data'.intervals k := by
  have distinct' : (messages'.map AdicMessage.id).Nodup := (same.map AdicMessage.id).nodup_iff.mp distinct
  obtain ⟨built, building, batch⟩ := buildFromMessages_spec ballOrder distinct axis radius dimension
  obtain ⟨built', building', batch'⟩ := buildFromMessages_spec ballOrder' distinct' axis radius dimension
  have weights' : ∀ simplex ∈ built'.complex.simplices,
      cellWeight messages dimension (cellOf (labelOf built'.builder) simplex) = simplex.weight := by
    intro simplex member
    rw [← batch'.weights simplex member, cellWeight, cellWeight, timestampOf_perm same distinct]
  obtain ⟨reduced, data, reducing, computed, outcome⟩ :=
    reduceBoundaryMatrix_reduced batch.labels batch.wellFormed batch.facesPresent batch.weights pairOrder
  obtain ⟨reduced', data', reducing', computed', outcome'⟩ :=
    reduceBoundaryMatrix_reduced batch'.labels batch'.wellFormed batch'.facesPresent weights' pairOrder'
  have cells : (cellsOf (labelOf built.builder) built.complex).toFinset =
      (cellsOf (labelOf built'.builder) built'.complex).toFinset := by
    ext cell
    rw [List.mem_toFinset, List.mem_toFinset, batch.cells, batch'.cells, isCell_perm same]
  refine ⟨messages.length.choose (dimension + 1) + built.complex.numSimplices + built'.complex.numSimplices + 1, ?_⟩
  intro fuel enough
  refine ⟨data, data', ?_, ?_, ?_⟩
  · rw [batchPersistence, building fuel (by omega)]
    simp only [Option.bind_eq_bind, Option.bind_some]
    rw [reducing fuel (by omega)]
    exact computed
  · rw [batchPersistence, building' fuel (by rw [← same.length_eq]; omega)]
    simp only [Option.bind_eq_bind, Option.bind_some]
    rw [reducing' fuel (by omega)]
    exact computed'
  · exact outcome.intervals_eq outcome' (faceClosed_cells batch.labels batch.wellFormed batch.facesPresent).chainComplex
      (filtered_cells batch.labels batch.wellFormed batch.sorted batch.weights)
      (filtered_cells batch'.labels batch'.wellFormed batch'.sorted weights') cells

theorem batchPersistence_order_pair :
    ∃ bound, ∀ fuel ≥ bound, ∃ data data',
      batchPersistence .stored .stored fuel [neighbour 1 10, neighbour 2 20] 0 1 1 = some data ∧
      batchPersistence .reversed .reversed fuel [neighbour 2 20, neighbour 1 10] 0 1 1 = some data' ∧
      ∀ k, data.intervals k = data'.intervals k :=
  batchPersistence_order .stored .reversed .stored .reversed (List.Perm.swap _ _ _) (by decide) 0 1 1

end AdicProof.Finality
