import AdicCore.Finality.Presentation

open AdicModel.Finality Homology Simplicial

namespace AdicProof.Finality

variable {V : Type} [DecidableEq V] {label : Nat → V} {cells : List (Finset V)}

structure FacesFound (label : Nat → V) (cells : List (Finset V)) (lookup : List Nat → Option Nat)
    (simplex : Simplex) : Prop where
  wellFormed : WellFormedSimplex simplex
  injective : ∀ v ∈ simplex.vertices, ∀ w ∈ simplex.vertices, label v = label w → v = w
  found : ∀ face ∈ simplex.faces, ∃ i, lookup face = some i ∧ cells[i]? = some (face.toFinset.image label)

omit [DecidableEq V] in
theorem chain_perm {first second : Column} (reordered : first.Perm second) :
    chain cells first = chain cells second :=
  (reordered.map (cellChain cells)).sum_eq

theorem faces_nodup {simplex : Simplex} (wellFormed : WellFormedSimplex simplex) : simplex.faces.Nodup := by
  rw [Simplex.faces]
  split
  · exact List.nodup_nil
  · apply List.Nodup.map_on ?_ List.nodup_range
    intro i iMember j jMember same
    have iBound := List.mem_range.mp iMember
    have jBound := List.mem_range.mp jMember
    have erased := congrArg List.toFinset same
    rw [toFinset_eraseIdx wellFormed.ascending.nodup iBound,
      toFinset_eraseIdx wellFormed.ascending.nodup jBound] at erased
    by_contra different
    have present : simplex.vertices[i] ∈ simplex.vertices.toFinset.erase simplex.vertices[j] := by
      apply Finset.mem_erase.mpr ⟨?_, List.mem_toFinset.mpr (List.getElem_mem iBound)⟩
      intro equal
      exact different (wellFormed.ascending.nodup.getElem_inj_iff.mp equal)
    rw [← erased] at present
    exact Finset.notMem_erase _ _ present

section

variable {lookup : List Nat → Option Nat} {simplex : Simplex}

theorem FacesFound.face_of_mem (facesFound : FacesFound label cells lookup simplex) {i : Nat}
    (member : i ∈ sortIndices (simplex.faces.filterMap lookup)) :
    ∃ face ∈ simplex.faces, cells[i]? = some (face.toFinset.image label) := by
  rw [sortIndices, List.mem_insertionSort, List.mem_filterMap] at member
  obtain ⟨face, faceMember, found⟩ := member
  obtain ⟨j, found', cell⟩ := facesFound.found face faceMember
  rw [found] at found'
  cases found'
  exact ⟨face, faceMember, cell⟩

theorem FacesFound.ascending (facesFound : FacesFound label cells lookup simplex) :
    Ascending (sortIndices (simplex.faces.filterMap lookup)) := by
  have vertices_of_mem : ∀ face ∈ simplex.faces, ∀ v ∈ face, v ∈ simplex.vertices := by
    intro face member v inside
    obtain ⟨w, _, erased⟩ := (faceOf_mem facesFound.wellFormed.indexed member).erased
    rw [← List.mem_toFinset, erased, Finset.mem_erase, List.mem_toFinset] at inside
    exact inside.2
  have image_injective : ∀ first ∈ simplex.faces, ∀ second ∈ simplex.faces,
      first.toFinset.image label = second.toFinset.image label → first = second := by
    intro first member second member' same
    apply ascending_ext (faceOf_mem facesFound.wellFormed.indexed member).ascending
      (faceOf_mem facesFound.wellFormed.indexed member').ascending
    apply Finset.image_injOn_powerset_of_injOn (s := simplex.vertices.toFinset) (f := label) ?_ ?_ ?_ same
    · intro v inside w inside' sameName
      exact facesFound.injective v (List.mem_toFinset.mp inside) w (List.mem_toFinset.mp inside') sameName
    · exact Finset.mem_coe.mpr (Finset.mem_powerset.mpr fun v inside =>
        List.mem_toFinset.mpr (vertices_of_mem first member v (List.mem_toFinset.mp inside)))
    · exact Finset.mem_coe.mpr (Finset.mem_powerset.mpr fun v inside =>
        List.mem_toFinset.mpr (vertices_of_mem second member' v (List.mem_toFinset.mp inside)))
  apply sortIndices_ascending
  rw [List.Nodup, List.pairwise_filterMap]
  apply (List.pairwise_iff_forall_sublist.mpr ?_)
  intro first second pair i found j found' same
  have member := pair.subset List.mem_cons_self
  have member' := pair.subset (List.mem_cons_of_mem first List.mem_cons_self)
  obtain ⟨_, foundI, cellI⟩ := facesFound.found first member
  obtain ⟨_, foundJ, cellJ⟩ := facesFound.found second member'
  rw [found] at foundI
  rw [found'] at foundJ
  cases foundI
  cases foundJ
  rw [same, cellJ] at cellI
  have equal := image_injective first member second member' (Option.some.inj cellI).symm
  have distinct := (faces_nodup facesFound.wellFormed).sublist pair
  rw [equal] at distinct
  simp at distinct

theorem FacesFound.chain_eq (facesFound : FacesFound label cells lookup simplex) :
    chain cells (sortIndices (simplex.faces.filterMap lookup)) = faceSum (cellOf label simplex) := by
  have card : (cellOf label simplex).card = simplex.vertices.length := by
    rw [cellOf, Finset.card_image_of_injOn, List.toFinset_card_of_nodup facesFound.wellFormed.ascending.nodup]
    intro v inside w inside' same
    exact facesFound.injective v (List.mem_toFinset.mp inside) w (List.mem_toFinset.mp inside') same
  have terms : ∀ faces : List (List Nat), (∀ face ∈ faces, face ∈ simplex.faces) →
      chain cells (faces.filterMap lookup) =
        (faces.map fun face => Finsupp.single (face.toFinset.image label) (1 : ZMod 2)).sum := by
    intro faces
    induction faces with
    | nil => exact fun _ => rfl
    | cons face faces ih =>
      intro inside
      obtain ⟨i, found, cell⟩ := facesFound.found face (inside face List.mem_cons_self)
      rw [List.filterMap_cons_some found, chain_cons, ih fun other member => inside other (List.mem_cons_of_mem _ member),
        List.map_cons, List.sum_cons, cellChain, cell]
      rfl
  rw [sortIndices, chain_perm (List.perm_insertionSort (· ≤ ·) _), terms simplex.faces fun _ member => member, faceSum, card]
  have dimension := facesFound.wellFormed.dimension
  have positive := List.length_pos_iff.mpr facesFound.wellFormed.inhabited
  by_cases small : simplex.vertices.length ≤ 1
  · rw [if_pos small, Simplex.faces, if_pos (by omega)]
    rfl
  · rw [if_neg small, Simplex.faces, if_neg (by omega), List.map_map]
    have byVertex : ((List.range simplex.vertices.length).map
        ((fun face => Finsupp.single (face.toFinset.image label) (1 : ZMod 2)) ∘
          fun i => simplex.vertices.eraseIdx i)) =
        simplex.vertices.map fun v => Finsupp.single ((cellOf label simplex).erase (label v)) 1 := by
      apply List.ext_getElem (by simp)
      intro i iBound iBound'
      have bound : i < simplex.vertices.length := by simpa using iBound
      rw [List.getElem_map, List.getElem_map, List.getElem_range, Function.comp_apply]
      rw [cellOf_face facesFound.injective (List.getElem_mem bound)
        (toFinset_eraseIdx facesFound.wellFormed.ascending.nodup bound)]
    rw [byVertex, ← List.sum_toFinset _ facesFound.wellFormed.ascending.nodup]
    rw [cellOf, Finset.sum_image]
    intro v inside w inside' same
    exact facesFound.injective v (List.mem_toFinset.mp inside) w (List.mem_toFinset.mp inside') same

end

section

variable {complex : SimplicialComplex}

theorem facesFound_of_wellFormed (labels : Labels label complex) (wellFormed : WellFormed complex)
    (facesPresent : FacesPresent complex) {simplex : Simplex} (member : simplex ∈ complex.simplices) :
    FacesFound label (cellsOf label complex) complex.getSimplexId simplex := by
  refine ⟨wellFormed.simplices simplex member, labels simplex member simplex member, ?_⟩
  intro face faceMember
  obtain ⟨other, otherMember, vertices⟩ := facesPresent simplex member face faceMember
  obtain ⟨i, atI⟩ := List.mem_iff_getElem?.mp otherMember
  refine ⟨i, (wellFormed.lookup face i).mpr ⟨other, atI, vertices⟩, ?_⟩
  rw [getElem?_cellsOf atI, cellOf, vertices]

theorem getElem?_fromComplex (wellFormed : WellFormed complex) {i : Nat} {column : Column}
    (found : (BoundaryMatrix.fromComplex complex).columns[i]? = some column) :
    ∃ simplex, complex.simplices[i]? = some simplex ∧
      column = sortIndices (simplex.faces.filterMap complex.getSimplexId) := by
  rw [BoundaryMatrix.fromComplex, List.getElem?_map] at found
  obtain ⟨simplex, atI, rfl⟩ := Option.map_eq_some_iff.mp found
  refine ⟨simplex, atI, ?_⟩
  rw [faceColumn, wellFormed.ids i simplex atI, SimplicialComplex.getFaceIds, SimplicialComplex.getSimplex, atI]

section

variable (labels : Labels label complex) (wellFormed : WellFormed complex)

include labels wellFormed

theorem represents_fromComplex (facesPresent : FacesPresent complex) :
    Represents (cellsOf label complex) boundary (BoundaryMatrix.fromComplex complex).columns := by
  refine ⟨labels.cells_nodup wellFormed, by simp [BoundaryMatrix.fromComplex, cellsOf], ?_⟩
  intro i cell column cellFound columnFound
  obtain ⟨simplex, atI, rfl⟩ := getElem?_fromComplex wellFormed columnFound
  rw [getElem?_cellsOf atI] at cellFound
  cases cellFound
  rw [column_boundary]
  exact (facesFound_of_wellFormed labels wellFormed facesPresent (List.mem_of_getElem? atI)).chain_eq

theorem reducible_fromComplex (facesPresent : FacesPresent complex) :
    Reducible (gradeAt (cellsOf label complex) dimension) (BoundaryMatrix.fromComplex complex).columns := by
  have size : (BoundaryMatrix.fromComplex complex).columns.length = (cellsOf label complex).length := by
    simp [BoundaryMatrix.fromComplex, cellsOf]
  refine ⟨?_, ?_, ?_⟩
  · intro i column found
    obtain ⟨simplex, atI, rfl⟩ := getElem?_fromComplex wellFormed found
    exact (facesFound_of_wellFormed labels wellFormed facesPresent (List.mem_of_getElem? atI)).ascending
  · intro i column found j member
    obtain ⟨simplex, atI, rfl⟩ := getElem?_fromComplex wellFormed found
    obtain ⟨_, _, cell⟩ :=
      (facesFound_of_wellFormed labels wellFormed facesPresent (List.mem_of_getElem? atI)).face_of_mem member
    rw [size]
    exact (List.getElem?_eq_some_iff.mp cell).1
  · have oneBelow : ∀ (i : Nat) column, (BoundaryMatrix.fromComplex complex).columns[i]? = some column → ∀ j ∈ column,
        gradeAt (cellsOf label complex) dimension j + 1 = gradeAt (cellsOf label complex) dimension i := by
      intro i column found j member
      obtain ⟨simplex, atI, rfl⟩ := getElem?_fromComplex wellFormed found
      have simplexMember := List.mem_of_getElem? atI
      have facesFound := facesFound_of_wellFormed labels wellFormed facesPresent simplexMember
      obtain ⟨face, faceMember, cell⟩ := facesFound.face_of_mem member
      have faceOf := faceOf_mem facesFound.wellFormed.indexed faceMember
      obtain ⟨other, otherMember, vertices⟩ := facesPresent simplex simplexMember face faceMember
      have positive := List.length_pos_iff.mpr faceOf.inhabited
      have named : face.toFinset.image label = cellOf label other := by rw [cellOf, vertices]
      rw [gradeAt_eq cell, gradeAt_eq (getElem?_cellsOf atI), named, labels.dimension_cellOf wellFormed otherMember,
        labels.dimension_cellOf wellFormed simplexMember, (wellFormed.simplices other otherMember).dimension,
        facesFound.wellFormed.dimension, vertices, ← faceOf.shorter]
      omega
    intro first second column column' found found' j member member'
    have below := oneBelow first column found j member
    have below' := oneBelow second column' found' j member'
    omega

theorem labelled_of_weights {weight : Finset V → Weight}
    (weights : ∀ simplex ∈ complex.simplices, weight (cellOf label simplex) = simplex.weight) :
    Labelled (cellsOf label complex) dimension weight complex := by
  refine ⟨by simp [cellsOf], ?_⟩
  intro i simplex cell atI cellFound
  rw [getElem?_cellsOf atI] at cellFound
  cases cellFound
  have member := List.mem_of_getElem? atI
  exact ⟨(labels.dimension_cellOf wellFormed member).symm, (weights simplex member).symm⟩

end

end

end AdicProof.Finality
