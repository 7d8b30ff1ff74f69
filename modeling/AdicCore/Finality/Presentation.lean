import AdicCore.Library.Simplicial
import AdicCore.Finality.WellFormed
import AdicCore.Finality.Intervals

open AdicModel.Finality Homology Simplicial

namespace AdicProof.Finality

def unindexed (simplex : Simplex) : Simplex := { simplex with id := 0 }

theorem unindexed_eq {first second : Simplex} (same : unindexed first = unindexed second) :
    first.vertices = second.vertices ∧ first.weight = second.weight := by
  obtain ⟨_, vertices, _, weight⟩ := Simplex.mk.inj same
  exact ⟨vertices, weight⟩

variable {complex : SimplicialComplex}

theorem Indexed.vertices_nodup (indexed : Indexed complex) :
    (complex.simplices.map Simplex.vertices).Nodup := by
  rw [List.nodup_iff_injective_getElem]
  intro i j same
  have iBound : i.1 < complex.simplices.length := by simpa using i.2
  have jBound : j.1 < complex.simplices.length := by simpa using j.2
  apply Fin.ext
  apply indexed.position_unique (List.getElem?_eq_getElem iBound) (List.getElem?_eq_getElem jBound)
  simpa using same

theorem foldl_appendSimplex (added : List Simplex) (indexed : Indexed complex)
    (simplices : ∀ simplex ∈ added, IndexedSimplex simplex) (nodup : (added.map Simplex.vertices).Nodup)
    (fresh : ∀ simplex ∈ added, complex.getSimplexId simplex.vertices = none) :
    Indexed (added.foldl appendSimplex complex) ∧
      (added.foldl appendSimplex complex).simplices.map unindexed =
        complex.simplices.map unindexed ++ added.map unindexed := by
  induction added generalizing complex with
  | nil => exact ⟨indexed, by simp⟩
  | cons simplex added ih =>
    rw [List.map_cons, List.nodup_cons] at nodup
    have kept := indexed.appendSimplex (simplices simplex List.mem_cons_self) (fresh simplex List.mem_cons_self)
    have stillFresh : ∀ other ∈ added, (appendSimplex complex simplex).getSimplexId other.vertices = none := by
      intro other member
      have inserted : (appendSimplex complex simplex).getSimplexId other.vertices =
          if other.vertices = simplex.vertices then some complex.nextId
          else complex.getSimplexId other.vertices := HashMap.lookup_insert_eq ..
      rw [inserted, if_neg]
      · exact fresh other (List.mem_cons_of_mem simplex member)
      · intro same
        apply nodup.1
        rw [← same]
        exact List.mem_map_of_mem member
    obtain ⟨finished, contents⟩ := ih kept
      (fun other member => simplices other (List.mem_cons_of_mem simplex member)) nodup.2 stillFresh
    refine ⟨finished, ?_⟩
    rw [List.foldl_cons, contents]
    simp [appendSimplex, unindexed]

theorem filtrationOrder_total (a b : Simplex) : filtrationOrder a b ∨ filtrationOrder b a := by
  rcases lt_trichotomy a.weight b.weight with below | same | above
  · exact .inl (.inl below)
  · rcases Nat.le_total a.dimension b.dimension with small | large
    · exact .inl (.inr ⟨same, small⟩)
    · exact .inr (.inr ⟨same.symm, large⟩)
  · exact .inr (.inl above)

theorem filtrationOrder_trans {a b c : Simplex} (first : filtrationOrder a b) (second : filtrationOrder b c) :
    filtrationOrder a c := by
  rcases first with below | ⟨same, small⟩
  · rcases second with below' | ⟨same', _⟩
    · exact .inl (below.trans below')
    · exact .inl (same' ▸ below)
  · rcases second with below' | ⟨same', small'⟩
    · exact .inl (same ▸ below')
    · exact .inr ⟨same.trans same', small.trans small'⟩

instance : Std.Total filtrationOrder := ⟨filtrationOrder_total⟩

instance : IsTrans Simplex filtrationOrder := ⟨fun _ _ _ => filtrationOrder_trans⟩

theorem Indexed.sortByFiltration_spec (indexed : Indexed complex) :
    Indexed complex.sortByFiltration ∧ complex.sortByFiltration.simplices.Pairwise filtrationOrder ∧
      ∀ s, content complex.sortByFiltration s = content complex s := by
  have reordered : (complex.simplices.insertionSort filtrationOrder).Perm complex.simplices :=
    List.perm_insertionSort filtrationOrder complex.simplices
  have nodup : ((complex.simplices.insertionSort filtrationOrder).map Simplex.vertices).Nodup :=
    (reordered.map Simplex.vertices).nodup_iff.mpr indexed.vertices_nodup
  obtain ⟨finished, contents⟩ := foldl_appendSimplex (complex.simplices.insertionSort filtrationOrder)
    new_wellFormed.indexed (fun simplex member => indexed.simplices simplex (reordered.mem_iff.mp member)) nodup
    (fun _ _ => rfl)
  change complex.sortByFiltration.simplices.map unindexed = [] ++ _ at contents
  change Indexed complex.sortByFiltration at finished
  rw [List.nil_append] at contents
  refine ⟨finished, ?_, ?_⟩
  · have sorted : ((complex.simplices.insertionSort filtrationOrder).map unindexed).Pairwise filtrationOrder :=
      List.pairwise_map.mpr (List.pairwise_insertionSort filtrationOrder complex.simplices)
    rw [← contents] at sorted
    have unindexedSorted := List.pairwise_map.mp sorted
    exact unindexedSorted
  · intro s
    apply Option.ext
    intro weight
    rw [finished.content_eq_some, indexed.content_eq_some]
    have members : ∀ simplex, simplex ∈ complex.sortByFiltration.simplices.map unindexed ↔
        simplex ∈ complex.simplices.map unindexed := by
      intro simplex
      rw [contents]
      exact (reordered.map unindexed).mem_iff
    constructor
    · rintro ⟨simplex, member, vertices, weight_eq⟩
      obtain ⟨other, otherMember, same⟩ := List.mem_map.mp ((members _).mp (List.mem_map_of_mem member))
      obtain ⟨sameVertices, sameWeight⟩ := unindexed_eq same
      exact ⟨other, otherMember, by rw [sameVertices, vertices], sameWeight.trans weight_eq⟩
    · rintro ⟨simplex, member, vertices, weight_eq⟩
      obtain ⟨other, otherMember, same⟩ := List.mem_map.mp ((members _).mpr (List.mem_map_of_mem member))
      obtain ⟨sameVertices, sameWeight⟩ := unindexed_eq same
      exact ⟨other, otherMember, by rw [sameVertices, vertices], sameWeight.trans weight_eq⟩

theorem sortByFiltration_spec (wellFormed : WellFormed complex) :
    WellFormed complex.sortByFiltration ∧ complex.sortByFiltration.simplices.Pairwise filtrationOrder ∧
      ∀ s, content complex.sortByFiltration s = content complex s := by
  obtain ⟨indexed, sorted, contents⟩ := wellFormed.indexed.sortByFiltration_spec
  refine ⟨indexed.wellFormed ?_, sorted, contents⟩
  rw [contents ∅, wellFormed.content_empty]

section

variable {V : Type} [DecidableEq V]

def cellOf (label : Nat → V) (simplex : Simplex) : Finset V := simplex.vertices.toFinset.image label

def cellsOf (label : Nat → V) (complex : SimplicialComplex) : List (Finset V) := complex.simplices.map (cellOf label)

def Labels (label : Nat → V) (complex : SimplicialComplex) : Prop :=
  ∀ first ∈ complex.simplices, ∀ second ∈ complex.simplices, ∀ v ∈ first.vertices, ∀ w ∈ second.vertices,
    label v = label w → v = w

def FacesPresent (complex : SimplicialComplex) : Prop :=
  ∀ simplex ∈ complex.simplices, ∀ face ∈ simplex.faces, ∃ other ∈ complex.simplices, other.vertices = face

variable {label : Nat → V} {complex : SimplicialComplex} {simplex : Simplex}

theorem getElem?_cellsOf {i : Nat} (found : complex.simplices[i]? = some simplex) :
    (cellsOf label complex)[i]? = some (cellOf label simplex) := by
  rw [cellsOf, List.getElem?_map, found]
  rfl

section

variable (labels : Labels label complex) (wellFormed : WellFormed complex)

include labels wellFormed

theorem Labels.vertices_eq {first second : Simplex} (member : first ∈ complex.simplices)
    (member' : second ∈ complex.simplices) (same : cellOf label first = cellOf label second) :
    first.vertices = second.vertices := by
  apply ascending_ext (wellFormed.simplices first member).ascending (wellFormed.simplices second member').ascending
  ext v
  rw [List.mem_toFinset, List.mem_toFinset]
  constructor
  · intro inside
    have named : label v ∈ cellOf label second := by
      rw [← same]
      exact Finset.mem_image_of_mem label (List.mem_toFinset.mpr inside)
    obtain ⟨w, wMember, wName⟩ := Finset.mem_image.mp named
    rw [List.mem_toFinset] at wMember
    rw [labels first member second member' v inside w wMember wName.symm]
    exact wMember
  · intro inside
    have named : label v ∈ cellOf label first := by
      rw [same]
      exact Finset.mem_image_of_mem label (List.mem_toFinset.mpr inside)
    obtain ⟨w, wMember, wName⟩ := Finset.mem_image.mp named
    rw [List.mem_toFinset] at wMember
    rw [labels second member' first member v inside w wMember wName.symm]
    exact wMember

theorem Labels.cells_nodup : (cellsOf label complex).Nodup := by
  rw [List.nodup_iff_injective_getElem]
  intro i j same
  have iBound : i.1 < complex.simplices.length := by simpa [cellsOf] using i.2
  have jBound : j.1 < complex.simplices.length := by simpa [cellsOf] using j.2
  apply Fin.ext
  apply wellFormed.indexed.position_unique (List.getElem?_eq_getElem iBound) (List.getElem?_eq_getElem jBound)
  apply labels.vertices_eq wellFormed (List.getElem_mem iBound) (List.getElem_mem jBound)
  simpa [cellsOf] using same

theorem Labels.card_cellOf (member : simplex ∈ complex.simplices) :
    (cellOf label simplex).card = simplex.vertices.length := by
  rw [cellOf, Finset.card_image_of_injOn, List.toFinset_card_of_nodup]
  · exact (wellFormed.simplices simplex member).ascending.nodup
  · intro v inside w inside' same
    exact labels simplex member simplex member v (List.mem_toFinset.mp inside) w (List.mem_toFinset.mp inside') same

theorem Labels.dimension_cellOf (member : simplex ∈ complex.simplices) :
    dimension (cellOf label simplex) = simplex.dimension := by
  rw [dimension, labels.card_cellOf wellFormed member, (wellFormed.simplices simplex member).dimension]

end

theorem cellOf_face
    (injective : ∀ v ∈ simplex.vertices, ∀ w ∈ simplex.vertices, label v = label w → v = w)
    {face : List Nat} {v : Nat} (inside : v ∈ simplex.vertices)
    (erased : face.toFinset = simplex.vertices.toFinset.erase v) :
    face.toFinset.image label = (cellOf label simplex).erase (label v) := by
  rw [erased, cellOf]
  ext x
  simp only [Finset.mem_image, Finset.mem_erase]
  constructor
  · rintro ⟨w, ⟨different, wMember⟩, rfl⟩
    refine ⟨?_, w, wMember, rfl⟩
    intro same
    exact different (injective w (List.mem_toFinset.mp wMember) v inside same)
  · rintro ⟨different, w, wMember, rfl⟩
    refine ⟨w, ⟨?_, wMember⟩, rfl⟩
    intro same
    rw [same] at different
    exact different rfl

theorem faceClosed_cells (labels : Labels label complex) (wellFormed : WellFormed complex)
    (facesPresent : FacesPresent complex) : FaceClosed (cellsOf label complex).toFinset := by
  refine ⟨?_, ?_⟩
  · intro s inside
    obtain ⟨simplex, member, rfl⟩ := List.mem_map.mp (List.mem_toFinset.mp inside)
    rw [← Finset.card_pos, labels.card_cellOf wellFormed member, List.length_pos_iff]
    exact (wellFormed.simplices simplex member).inhabited
  · intro s inside x xMember nonempty
    obtain ⟨simplex, member, rfl⟩ := List.mem_map.mp (List.mem_toFinset.mp inside)
    obtain ⟨v, vMember, rfl⟩ := Finset.mem_image.mp xMember
    rw [List.mem_toFinset] at vMember
    have large : 1 < simplex.vertices.length := by
      have positive := nonempty.card_pos
      rw [Finset.card_erase_of_mem xMember, labels.card_cellOf wellFormed member] at positive
      omega
    obtain ⟨face, faceMember, erased⟩ := exists_face (wellFormed.simplices simplex member).indexed large vMember
    obtain ⟨other, otherMember, vertices⟩ := facesPresent simplex member face faceMember
    rw [← cellOf_face (labels simplex member simplex member) vMember erased, ← vertices]
    exact List.mem_toFinset.mpr (List.mem_map_of_mem otherMember)

end

end AdicProof.Finality
