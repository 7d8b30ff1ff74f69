import AdicCore.Finality.ColumnReduction

open AdicModel.Finality

namespace AdicProof.Finality

theorem ascending_ext {first second : List Nat} (ascending : Ascending first) (ascending' : Ascending second)
    (same : first.toFinset = second.toFinset) : first = second := by
  apply ascending.eq_of_mem_iff ascending'
  intro x
  rw [← List.mem_toFinset, same, List.mem_toFinset]

variable {indices : List Nat}

theorem sortIndices_ascending (nodup : indices.Nodup) : Ascending (sortIndices indices) := by
  have sorted : (sortIndices indices).Pairwise (· ≤ ·) := List.pairwise_insertionSort (· ≤ ·) indices
  have distinct : (sortIndices indices).Nodup := (List.perm_insertionSort (· ≤ ·) indices).nodup_iff.mpr nodup
  exact (sorted.sortedLE.sortedLT_of_nodup distinct).pairwise

theorem sortIndices_toFinset (indices : List Nat) : (sortIndices indices).toFinset = indices.toFinset := by
  ext x
  rw [List.mem_toFinset, List.mem_toFinset, sortIndices, List.mem_insertionSort]

theorem sortIndices_length (indices : List Nat) : (sortIndices indices).length = indices.length :=
  List.length_insertionSort (· ≤ ·) indices

theorem sortIndices_of_ascending (ascending : Ascending indices) :
    sortIndices indices = indices :=
  List.Pairwise.insertionSort_eq (ascending.imp Nat.le_of_lt)

theorem sortIndices_eq_sort (nodup : indices.Nodup) :
    sortIndices indices = indices.toFinset.sort := by
  apply ascending_ext (sortIndices_ascending nodup) (Finset.sortedLT_sort _).pairwise
  rw [sortIndices_toFinset, Finset.sort_toFinset]

variable {vertices : List Nat}

theorem sort_toFinset_of_ascending (ascending : Ascending vertices) :
    vertices.toFinset.sort = vertices := by
  rw [← sortIndices_eq_sort ascending.nodup, sortIndices_of_ascending ascending]

structure WellFormedSimplex (simplex : Simplex) : Prop where
  ascending : Ascending simplex.vertices
  inhabited : simplex.vertices ≠ []
  dimension : simplex.dimension = simplex.vertices.length - 1

structure IndexedSimplex (simplex : Simplex) : Prop where
  ascending : Ascending simplex.vertices
  dimension : simplex.dimension = simplex.vertices.length - 1

variable {simplex : Simplex}

theorem WellFormedSimplex.indexed (wellFormed : WellFormedSimplex simplex) : IndexedSimplex simplex :=
  ⟨wellFormed.ascending, wellFormed.dimension⟩

structure WellFormed (complex : SimplicialComplex) : Prop where
  next : complex.nextId = complex.simplices.length
  ids : ∀ (i : Nat) simplex, complex.simplices[i]? = some simplex → simplex.id = i
  simplices : ∀ simplex ∈ complex.simplices, WellFormedSimplex simplex
  lookup : ∀ vertices i, complex.getSimplexId vertices = some i ↔
    ∃ simplex, complex.simplices[i]? = some simplex ∧ simplex.vertices = vertices

structure Indexed (complex : SimplicialComplex) : Prop where
  next : complex.nextId = complex.simplices.length
  ids : ∀ (i : Nat) simplex, complex.simplices[i]? = some simplex → simplex.id = i
  simplices : ∀ simplex ∈ complex.simplices, IndexedSimplex simplex
  lookup : ∀ vertices i, complex.getSimplexId vertices = some i ↔
    ∃ simplex, complex.simplices[i]? = some simplex ∧ simplex.vertices = vertices

variable {complex : SimplicialComplex}

theorem WellFormed.indexed (wellFormed : WellFormed complex) : Indexed complex :=
  ⟨wellFormed.next, wellFormed.ids, fun simplex member => (wellFormed.simplices simplex member).indexed,
    wellFormed.lookup⟩

def content (complex : SimplicialComplex) (s : Finset Nat) : Option Weight :=
  (complex.getSimplexId s.sort).bind fun id => (complex.getSimplex id).map Simplex.weight

theorem Simplex.new_indexed (id : Nat) (weight : Weight) (nodup : vertices.Nodup) :
    IndexedSimplex (Simplex.new id vertices weight) := by
  refine ⟨sortIndices_ascending nodup, ?_⟩
  change (if (sortIndices vertices).isEmpty then 0 else (sortIndices vertices).length - 1) =
    (sortIndices vertices).length - 1
  cases sortIndices vertices with
  | nil => rfl
  | cons first rest => rfl

theorem new_wellFormed : WellFormed SimplicialComplex.new := by
  refine ⟨rfl, ?_, ?_, ?_⟩
  · intro i simplex found
    cases found
  · intro simplex member
    cases member
  · intro vertices i
    constructor
    · intro found
      cases found
    · rintro ⟨simplex, found, _⟩
      cases found

section

variable {complex : SimplicialComplex}

section

variable (indexed : Indexed complex)

include indexed

theorem Indexed.content_eq_some {s : Finset Nat} {weight : Weight} : content complex s = some weight ↔
      ∃ simplex ∈ complex.simplices, simplex.vertices.toFinset = s ∧ simplex.weight = weight := by
  rw [content, Option.bind_eq_some_iff]
  constructor
  · rintro ⟨id, found, value⟩
    obtain ⟨simplex, atId, vertices⟩ := (indexed.lookup _ id).mp found
    rw [SimplicialComplex.getSimplex, atId] at value
    refine ⟨simplex, List.mem_of_getElem? atId, ?_, Option.some.inj value⟩
    rw [vertices, Finset.sort_toFinset]
  · rintro ⟨simplex, member, rfl, rfl⟩
    obtain ⟨id, atId⟩ := List.mem_iff_getElem?.mp member
    refine ⟨id, (indexed.lookup _ id).mpr ⟨simplex, atId, ?_⟩, ?_⟩
    · rw [sort_toFinset_of_ascending (indexed.simplices simplex member).ascending]
    · rw [SimplicialComplex.getSimplex, atId]
      rfl

theorem Indexed.getSimplexId_isSome (s : Finset Nat) :
    (complex.getSimplexId s.sort).isSome = (content complex s).isSome := by
  rw [content]
  cases found : complex.getSimplexId s.sort with
  | none => rfl
  | some id =>
    obtain ⟨simplex, atId, _⟩ := (indexed.lookup _ id).mp found
    rw [Option.bind_some, SimplicialComplex.getSimplex, atId]
    rfl

theorem Indexed.position_unique {i j : Nat} {first second : Simplex} (atI : complex.simplices[i]? = some first)
    (atJ : complex.simplices[j]? = some second) (same : first.vertices = second.vertices) : i = j := by
  have foundI := (indexed.lookup first.vertices i).mpr ⟨first, atI, rfl⟩
  have foundJ := (indexed.lookup first.vertices j).mpr ⟨second, atJ, same.symm⟩
  rw [foundI] at foundJ
  exact Option.some.inj foundJ

theorem Indexed.appendSimplex (indexedSimplex : IndexedSimplex simplex)
    (fresh : complex.getSimplexId simplex.vertices = none) : Indexed (appendSimplex complex simplex) := by
  have position : ∀ (i : Nat) other, (complex.simplices ++ [{ simplex with id := complex.nextId }])[i]? = some other ↔
      complex.simplices[i]? = some other ∨
        i = complex.simplices.length ∧ other = { simplex with id := complex.nextId } := by
    intro i other
    rw [List.getElem?_append]
    split
    · next below =>
      have apart : i ≠ complex.simplices.length := Nat.ne_of_lt below
      simp [apart]
    · next above =>
      rw [List.getElem?_eq_none (by omega : complex.simplices.length ≤ i)]
      rcases Nat.eq_or_lt_of_le (Nat.le_of_not_lt above) with same | beyond
      · subst same
        simp [eq_comm]
      · have apart : i ≠ complex.simplices.length := Nat.ne_of_gt beyond
        rw [List.getElem?_eq_none (by simp only [List.length_singleton]; omega)]
        simp [apart]
  refine ⟨?_, ?_, ?_, ?_⟩
  · change complex.nextId + 1 = (complex.simplices ++ [_]).length
    rw [List.length_append, indexed.next]
    rfl
  · intro i other found
    rcases (position i other).mp found with earlier | ⟨last, isNew⟩
    · exact indexed.ids i other earlier
    · rw [isNew, last]
      exact indexed.next
  · intro other member
    rcases List.mem_append.mp member with earlier | isNew
    · exact indexed.simplices other earlier
    · rw [List.mem_singleton.mp isNew]
      exact ⟨indexedSimplex.ascending, indexedSimplex.dimension⟩
  · intro vertices i
    have inserted : (AdicModel.Finality.appendSimplex complex simplex).getSimplexId vertices =
        if vertices = simplex.vertices then some complex.nextId else complex.getSimplexId vertices :=
      HashMap.lookup_insert_eq ..
    rw [inserted]
    split
    · next isNew =>
      constructor
      · intro found
        refine ⟨{ simplex with id := complex.nextId }, ?_, isNew.symm⟩
        apply (position i _).mpr
        rw [← Option.some.inj found, indexed.next]
        exact .inr ⟨rfl, rfl⟩
      · rintro ⟨other, found, vertices_eq⟩
        rcases (position i other).mp found with earlier | ⟨last, _⟩
        · have present := (indexed.lookup vertices i).mpr ⟨other, earlier, vertices_eq⟩
          rw [isNew, fresh] at present
          cases present
        · rw [last, indexed.next]
    · next old =>
      rw [indexed.lookup vertices i]
      constructor
      · rintro ⟨other, found, vertices_eq⟩
        exact ⟨other, (position i other).mpr (.inl found), vertices_eq⟩
      · rintro ⟨other, found, vertices_eq⟩
        rcases (position i other).mp found with earlier | ⟨_, isNew⟩
        · exact ⟨other, earlier, vertices_eq⟩
        · rw [isNew] at vertices_eq
          exact absurd vertices_eq.symm old

theorem Indexed.content_appendSimplex (indexedSimplex : IndexedSimplex simplex)
    (fresh : complex.getSimplexId simplex.vertices = none) (s : Finset Nat) :
    content (AdicModel.Finality.appendSimplex complex simplex) s =
      if s = simplex.vertices.toFinset then some simplex.weight else content complex s := by
  apply Option.ext
  intro weight
  rw [(indexed.appendSimplex indexedSimplex fresh).content_eq_some]
  constructor
  · rintro ⟨other, member, vertices, rfl⟩
    rcases List.mem_append.mp member with earlier | isNew
    · rw [if_neg]
      · exact indexed.content_eq_some.mpr ⟨other, earlier, vertices, rfl⟩
      · intro same
        have equal := ascending_ext (indexed.simplices other earlier).ascending indexedSimplex.ascending
          (vertices.trans same)
        obtain ⟨i, found⟩ := List.mem_iff_getElem?.mp earlier
        have present := (indexed.lookup simplex.vertices i).mpr ⟨other, found, equal⟩
        rw [fresh] at present
        cases present
    · rw [List.mem_singleton.mp isNew] at vertices ⊢
      rw [if_pos vertices.symm]
  · split
    · next same =>
      intro value
      refine ⟨{ simplex with id := complex.nextId }, List.mem_append_right _ (List.mem_singleton_self _), ?_, ?_⟩
      · exact same.symm
      · exact Option.some.inj value
    · intro value
      obtain ⟨other, member, vertices, weight_eq⟩ := indexed.content_eq_some.mp value
      exact ⟨other, List.mem_append_left _ member, vertices, weight_eq⟩

theorem Indexed.addSimplex (weight : Weight) (nodup : vertices.Nodup) :
    Indexed (complex.addSimplex vertices weight).1 ∧
      ∀ s, content (complex.addSimplex vertices weight).1 s =
        if s = vertices.toFinset then some ((content complex s).getD weight) else content complex s := by
  cases found : complex.getSimplexId (sortIndices vertices) with
  | some id =>
    have unchanged : (complex.addSimplex vertices weight).1 = complex := by
      rw [SimplicialComplex.getSimplexId] at found
      rw [SimplicialComplex.addSimplex, found]
    rw [unchanged]
    refine ⟨indexed, ?_⟩
    intro s
    split
    · next same =>
      have present := indexed.getSimplexId_isSome s
      rw [same, ← sortIndices_eq_sort nodup, found] at present
      obtain ⟨value, value_eq⟩ := Option.isSome_iff_exists.mp present.symm
      rw [same, value_eq]
      rfl
    · rfl
  | none =>
    have appended : (complex.addSimplex vertices weight).1 =
        AdicModel.Finality.appendSimplex complex (Simplex.new 0 vertices weight) := by
      rw [SimplicialComplex.getSimplexId] at found
      rw [SimplicialComplex.addSimplex, found]
      simp only [AdicModel.Finality.appendSimplex, Simplex.new,
        sortIndices_of_ascending (sortIndices_ascending nodup)]
    have simplexIndexed := Simplex.new_indexed 0 weight nodup
    rw [appended]
    refine ⟨indexed.appendSimplex simplexIndexed found, ?_⟩
    intro s
    rw [indexed.content_appendSimplex simplexIndexed found]
    have same : (Simplex.new 0 vertices weight).vertices.toFinset = vertices.toFinset :=
      sortIndices_toFinset vertices
    rw [same]
    split
    · next isNew =>
      have absent := indexed.getSimplexId_isSome s
      rw [isNew, ← sortIndices_eq_sort nodup, found] at absent
      have noWeight : content complex vertices.toFinset = none := by
        cases value : content complex vertices.toFinset with
        | none => rfl
        | some old =>
          rw [value] at absent
          cases absent
      rw [isNew, noWeight]
      rfl
    · rfl

theorem Indexed.wellFormed (noEmpty : content complex ∅ = none) : WellFormed complex := by
  refine ⟨indexed.next, indexed.ids, ?_, indexed.lookup⟩
  intro simplex member
  refine ⟨(indexed.simplices simplex member).ascending, ?_, (indexed.simplices simplex member).dimension⟩
  intro empty
  have present : content complex ∅ = some simplex.weight :=
    indexed.content_eq_some.mpr ⟨simplex, member, by simp [empty], rfl⟩
  rw [noEmpty] at present
  cases present

end

theorem WellFormed.content_empty (wellFormed : WellFormed complex) : content complex ∅ = none := by
  rw [Option.eq_none_iff_forall_ne_some]
  intro weight value
  obtain ⟨simplex, member, empty, _⟩ := wellFormed.indexed.content_eq_some.mp value
  exact (wellFormed.simplices simplex member).inhabited (by simpa using empty)

theorem WellFormed.addSimplex (wellFormed : WellFormed complex) (weight : Weight)
    (nodup : vertices.Nodup) (inhabited : vertices ≠ []) : WellFormed (complex.addSimplex vertices weight).1 := by
  obtain ⟨indexed, contents⟩ := wellFormed.indexed.addSimplex weight nodup
  apply indexed.wellFormed
  rw [contents ∅, if_neg, wellFormed.content_empty]
  intro empty
  exact inhabited (List.toFinset_eq_empty_iff vertices |>.mp empty.symm)

end

theorem toFinset_eraseIdx (nodup : vertices.Nodup) {i : Nat} (bound : i < vertices.length) :
    (vertices.eraseIdx i).toFinset = vertices.toFinset.erase vertices[i] := by
  ext x
  rw [List.mem_toFinset, Finset.mem_erase, List.mem_toFinset, List.mem_eraseIdx_iff_getElem]
  constructor
  · rintro ⟨j, jBound, different, rfl⟩
    refine ⟨?_, List.getElem_mem jBound⟩
    intro same
    exact different (nodup.getElem_inj_iff.mp same)
  · rintro ⟨different, member⟩
    obtain ⟨j, jBound, rfl⟩ := List.mem_iff_getElem.mp member
    refine ⟨j, jBound, ?_, rfl⟩
    intro same
    subst same
    exact different rfl

theorem mem_faces (indexed : IndexedSimplex simplex) {face : List Nat} :
    face ∈ simplex.faces ↔
      1 < simplex.vertices.length ∧ ∃ i < simplex.vertices.length, simplex.vertices.eraseIdx i = face := by
  rw [Simplex.faces, indexed.dimension]
  split
  · next zero =>
    constructor
    · intro member
      cases member
    · rintro ⟨large, _⟩
      omega
  · next nonzero =>
    rw [List.mem_map]
    simp only [List.mem_range]
    constructor
    · intro found
      exact ⟨by omega, found⟩
    · rintro ⟨_, found⟩
      exact found

structure FaceOf (simplex : Simplex) (face : List Nat) : Prop where
  ascending : Ascending face
  inhabited : face ≠ []
  shorter : face.length + 1 = simplex.vertices.length
  erased : ∃ v ∈ simplex.vertices, face.toFinset = simplex.vertices.toFinset.erase v

theorem faceOf_mem (indexed : IndexedSimplex simplex) {face : List Nat}
    (member : face ∈ simplex.faces) : FaceOf simplex face := by
  obtain ⟨large, i, bound, rfl⟩ := (mem_faces indexed).mp member
  have shorter : (simplex.vertices.eraseIdx i).length + 1 = simplex.vertices.length := by
    rw [List.length_eraseIdx_of_lt bound]
    omega
  refine ⟨indexed.ascending.sublist (List.eraseIdx_sublist _ i), ?_, shorter, ?_⟩
  · rw [← List.length_pos_iff]
    omega
  · exact ⟨_, List.getElem_mem bound, toFinset_eraseIdx indexed.ascending.nodup bound⟩

theorem exists_face (indexed : IndexedSimplex simplex)
    (large : 1 < simplex.vertices.length) {v : Nat} (member : v ∈ simplex.vertices) :
    ∃ face ∈ simplex.faces, face.toFinset = simplex.vertices.toFinset.erase v := by
  obtain ⟨i, bound, rfl⟩ := List.mem_iff_getElem.mp member
  exact ⟨_, (mem_faces indexed).mpr ⟨large, i, bound, rfl⟩, toFinset_eraseIdx indexed.ascending.nodup bound⟩

def Covers (before after : SimplicialComplex) (vertices : Finset Nat) (weight : Weight) : Prop :=
  ∀ s, content after s =
    if s.Nonempty ∧ s ⊆ vertices then some ((content before s).getD (if s = vertices then weight else 0))
    else content before s

theorem foldl_faces (add : SimplicialComplex → List Nat → SimplicialComplex) (faces : List (List Nat))
    (adds : ∀ face ∈ faces, ∀ complex, Indexed complex →
      Indexed (add complex face) ∧ Covers complex (add complex face) face.toFinset 0)
    (indexed : Indexed complex) :
    Indexed (faces.foldl add complex) ∧ ∀ s, content (faces.foldl add complex) s =
      if s.Nonempty ∧ ∃ face ∈ faces, s ⊆ face.toFinset then some ((content complex s).getD 0)
      else content complex s := by
  induction faces generalizing complex with
  | nil => exact ⟨indexed, by simp⟩
  | cons face faces ih =>
    obtain ⟨kept, covers⟩ := adds face List.mem_cons_self complex indexed
    obtain ⟨finished, contents⟩ := ih (fun other member => adds other (List.mem_cons_of_mem face member)) kept
    refine ⟨finished, ?_⟩
    intro s
    rw [List.foldl_cons, contents s, covers s]
    simp only [List.mem_cons, exists_eq_or_imp, ite_self]
    by_cases inhabited : s.Nonempty <;> by_cases here : s ⊆ face.toFinset <;>
      by_cases later : ∃ other ∈ faces, s ⊆ other.toFinset <;> simp [inhabited, here, later]

theorem addFaces_covers (depth : Nat) (complex : SimplicialComplex) (vertices : List Nat) (weight : Weight)
    (indexed : Indexed complex) (nodup : vertices.Nodup) (inhabited : vertices ≠ [])
    (enough : vertices.length ≤ depth + 1) :
    Indexed (complex.addFaces depth vertices weight).1 ∧
      Covers complex (complex.addFaces depth vertices weight).1 vertices.toFinset weight := by
  induction depth generalizing complex vertices weight with
  | zero =>
    obtain ⟨finished, contents⟩ := indexed.addSimplex weight nodup
    have positive := List.length_pos_iff.mpr inhabited
    obtain ⟨v, rfl⟩ := List.length_eq_one_iff.mp (by omega : vertices.length = 1)
    refine ⟨finished, ?_⟩
    intro s
    rw [SimplicialComplex.addFaces, contents s]
    have only : s.Nonempty ∧ s ⊆ [v].toFinset ↔ s = [v].toFinset := by
      rw [List.toFinset_cons, List.toFinset_nil, insert_empty_eq]
      constructor
      · rintro ⟨present, inside⟩
        exact present.subset_singleton_iff.mp inside
      · rintro rfl
        exact ⟨Finset.singleton_nonempty v, subset_rfl⟩
    by_cases same : s = [v].toFinset
    · rw [if_pos same, if_pos (only.mpr same), if_pos same]
    · rw [if_neg same, if_neg fun both => same (only.mp both)]
  | succ depth ih =>
    have simplexIndexed := Simplex.new_indexed 0 weight nodup
    have vertexSet : (Simplex.new 0 vertices weight).vertices.toFinset = vertices.toFinset :=
      sortIndices_toFinset vertices
    have size : (Simplex.new 0 vertices weight).vertices.length = vertices.length := sortIndices_length vertices
    have addsFace : ∀ face ∈ (Simplex.new 0 vertices weight).faces, ∀ current, Indexed current →
        Indexed (current.addFaces depth face 0).1 ∧
          Covers current (current.addFaces depth face 0).1 face.toFinset 0 := by
      intro face member current kept
      have faceOf := faceOf_mem simplexIndexed member
      have shorter := faceOf.shorter
      exact ih current face 0 kept faceOf.ascending.nodup faceOf.inhabited (by omega)
    obtain ⟨facesAdded, faceContents⟩ := foldl_faces _ (Simplex.new 0 vertices weight).faces addsFace indexed
    obtain ⟨finished, contents⟩ := facesAdded.addSimplex weight nodup
    refine ⟨finished, ?_⟩
    intro s
    rw [SimplicialComplex.addFaces, contents s, faceContents s]
    have inFace : s ≠ vertices.toFinset → (s.Nonempty ∧ s ⊆ vertices.toFinset ↔
        s.Nonempty ∧ ∃ face ∈ (Simplex.new 0 vertices weight).faces, s ⊆ face.toFinset) := by
      intro proper
      constructor
      · rintro ⟨present, inside⟩
        obtain ⟨v, vMember, vAbsent⟩ := Finset.exists_of_ssubset (Finset.ssubset_iff_subset_ne.mpr ⟨inside, proper⟩)
        have large : 1 < vertices.toFinset.card := by
          have smaller := Finset.card_lt_card (Finset.ssubset_iff_subset_ne.mpr ⟨inside, proper⟩)
          have := present.card_pos
          omega
        rw [List.toFinset_card_of_nodup nodup, ← size] at large
        rw [← vertexSet, List.mem_toFinset] at vMember
        obtain ⟨face, faceMember, faceSet⟩ := exists_face simplexIndexed large vMember
        refine ⟨present, face, faceMember, ?_⟩
        rw [faceSet, vertexSet]
        exact Finset.subset_erase.mpr ⟨inside, vAbsent⟩
      · rintro ⟨present, face, faceMember, inside⟩
        obtain ⟨v, _, faceSet⟩ := (faceOf_mem simplexIndexed faceMember).erased
        rw [faceSet, vertexSet] at inside
        exact ⟨present, inside.trans (Finset.erase_subset v _)⟩
    have whole : ¬∃ face ∈ (Simplex.new 0 vertices weight).faces, vertices.toFinset ⊆ face.toFinset := by
      rintro ⟨face, faceMember, inside⟩
      obtain ⟨v, vMember, faceSet⟩ := (faceOf_mem simplexIndexed faceMember).erased
      rw [faceSet, vertexSet] at inside
      rw [← List.mem_toFinset, vertexSet] at vMember
      exact Finset.notMem_erase v _ (inside vMember)
    by_cases same : s = vertices.toFinset
    · subst same
      have present : vertices.toFinset.Nonempty := List.toFinset_nonempty_iff _ |>.mpr inhabited
      rw [if_pos rfl, if_neg fun both => whole both.2, if_pos ⟨present, subset_rfl⟩, if_pos rfl]
    · rw [if_neg same]
      by_cases covered : s.Nonempty ∧ s ⊆ vertices.toFinset
      · rw [if_pos covered, if_pos ((inFace same).mp covered), if_neg same]
      · rw [if_neg covered, if_neg fun both => covered ((inFace same).mpr both)]

theorem Indexed.addSimplexWithFaces_covers (indexed : Indexed complex)
    (weight : Weight) (nodup : vertices.Nodup) (inhabited : vertices ≠ []) :
    Indexed (complex.addSimplexWithFaces vertices weight).1 ∧
      Covers complex (complex.addSimplexWithFaces vertices weight).1 vertices.toFinset weight :=
  addFaces_covers vertices.length complex vertices weight indexed nodup inhabited (Nat.le_succ _)

theorem addSimplexWithFaces_covers (wellFormed : WellFormed complex)
    (weight : Weight) (nodup : vertices.Nodup) (inhabited : vertices ≠ []) :
    WellFormed (complex.addSimplexWithFaces vertices weight).1 ∧
      Covers complex (complex.addSimplexWithFaces vertices weight).1 vertices.toFinset weight := by
  obtain ⟨indexed, covers⟩ := wellFormed.indexed.addSimplexWithFaces_covers weight nodup inhabited
  refine ⟨indexed.wellFormed ?_, covers⟩
  rw [covers ∅, wellFormed.content_empty]
  simp

end AdicProof.Finality
