import AdicCore.Finality.Presentation

open AdicModel.Finality

namespace AdicProof.Finality

def addedWithFaces (calls : List (List Nat × Weight)) : SimplicialComplex :=
  calls.foldl (fun complex call => (complex.addSimplexWithFaces call.1 call.2).1) SimplicialComplex.new

/-- Indices are positions, and every face of a simplex is present with a smaller index. -/
structure ValidFiltration (complex : SimplicialComplex) : Prop where
  ids : ∀ i simplex, complex.getSimplex i = some simplex → simplex.id = i
  faces : ∀ i simplex, complex.getSimplex i = some simplex → ∀ s : Finset Nat, s.Nonempty →
    s ⊂ simplex.vertices.toFinset → ∃ id < i, complex.getSimplexId s.sort = some id

def firstWeight (calls : List (List Nat × Weight)) (s : Finset Nat) : Option Weight :=
  (calls.find? fun call => s ⊆ call.1.toFinset).map fun call => if s = call.1.toFinset then call.2 else 0

/-- A set with a positive weight is covered, with one more vertex, only by a call of that set with no smaller weight. -/
def KeepsOrder (calls : List (List Nat × Weight)) : Prop :=
  ∀ before vertices weight middle others other after, calls = before ++ (vertices, weight) :: middle ++ (others, other) :: after →
    vertices ≠ [] → 0 < weight → (∀ call ∈ before, ¬ vertices ⊆ call.1) → ∀ v ∉ vertices, v :: vertices ⊆ others →
    (∀ call ∈ middle, ¬ v :: vertices ⊆ call.1) → others ⊆ v :: vertices ∧ weight ≤ other

section

variable {complex : SimplicialComplex}

theorem Indexed.addSimplexWithFaces (indexed : Indexed complex) {vertices : List Nat} (weight : Weight)
    (nodup : vertices.Nodup) :
    Indexed (complex.addSimplexWithFaces vertices weight).1 ∧
      ∀ s, s.Nonempty → content (complex.addSimplexWithFaces vertices weight).1 s =
        if s ⊆ vertices.toFinset then some ((content complex s).getD (if s = vertices.toFinset then weight else 0))
        else content complex s := by
  cases vertices with
  | nil =>
    obtain ⟨kept, contents⟩ := indexed.addSimplex weight nodup
    refine ⟨kept, ?_⟩
    intro s present
    have different : s ≠ ∅ := present.ne_empty
    have added : content (complex.addSimplexWithFaces [] weight).1 s = _ := contents s
    simp [added, different]
  | cons first rest =>
    obtain ⟨kept, covers⟩ := indexed.addSimplexWithFaces_covers weight nodup (List.cons_ne_nil first rest)
    refine ⟨kept, ?_⟩
    intro s present
    rw [covers s]
    simp only [present, true_and]

variable {calls : List (List Nat × Weight)}

theorem addedWithFaces_spec (nodup : ∀ call ∈ calls, call.1.Nodup) :
    Indexed (addedWithFaces calls) ∧ ∀ s, s.Nonempty → content (addedWithFaces calls) s = firstWeight calls s := by
  induction calls using List.reverseRecOn with
  | nil =>
    refine ⟨new_wellFormed.indexed, ?_⟩
    intro s _
    rfl
  | append_singleton before call ih =>
    obtain ⟨indexed, contents⟩ := ih fun other member => nodup other (List.mem_append_left _ member)
    obtain ⟨kept, added⟩ := indexed.addSimplexWithFaces call.2 (nodup call (by simp))
    have last : addedWithFaces (before ++ [call]) = ((addedWithFaces before).addSimplexWithFaces call.1 call.2).1 := by
      simp [addedWithFaces]
    rw [last]
    refine ⟨kept, ?_⟩
    intro s present
    rw [added s present, contents s present]
    unfold firstWeight
    rw [List.find?_append]
    cases before.find? fun call => s ⊆ call.1.toFinset with
    | none => by_cases covered : s ⊆ call.1.toFinset <;> simp [covered]
    | some earlier => simp

theorem firstWeight_subset {s t : Finset Nat} (part : s ⊆ t) {high : Weight}
    (covered : firstWeight calls t = some high) : ∃ low, firstWeight calls s = some low := by
  unfold firstWeight at covered ⊢
  obtain ⟨call, found, _⟩ := Option.map_eq_some_iff.mp covered
  have member := List.mem_of_find?_eq_some found
  have inside : t ⊆ call.1.toFinset := by simpa using List.find?_some found
  have earlier : (calls.find? fun call => s ⊆ call.1.toFinset).isSome := by
    rw [List.find?_isSome]
    exact ⟨call, member, by simpa using part.trans inside⟩
  obtain ⟨other, otherFound⟩ := Option.isSome_iff_exists.mp earlier
  exact ⟨_, by rw [otherFound]; rfl⟩

def Ascends (weightOf : Finset Nat → Option Weight) : Prop :=
  ∀ s v, s.Nonempty → v ∉ s → ∀ low high, weightOf s = some low → weightOf (insert v s) = some high → low ≤ high

theorem Indexed.position (indexed : Indexed complex) {s : Finset Nat} {weight : Weight}
    (found : content complex s = some weight) :
    ∃ i simplex, complex.getSimplex i = some simplex ∧ simplex.vertices = s.sort ∧ simplex.weight = weight ∧
      complex.getSimplexId s.sort = some i := by
  obtain ⟨simplex, member, same, value⟩ := indexed.content_eq_some.mp found
  obtain ⟨i, atI⟩ := List.mem_iff_getElem?.mp member
  have vertices : simplex.vertices = s.sort := by
    rw [← same, sort_toFinset_of_ascending (indexed.simplices simplex member).ascending]
  exact ⟨i, simplex, atI, vertices, value, (indexed.lookup _ i).mpr ⟨simplex, atI, vertices⟩⟩

/-- A sorted complex that holds the parts of its sets is valid exactly if the weights do not fall. -/
theorem Indexed.valid_iff_ascends (indexed : Indexed complex) (sorted : complex.simplices.Pairwise filtrationOrder)
    (parts : ∀ s t weight, s.Nonempty → s ⊆ t → content complex t = some weight → ∃ low, content complex s = some low) :
    ValidFiltration complex ↔ Ascends (content complex) := by
  have ordered : ∀ {i j : Nat} {first second : Simplex}, i < j → complex.getSimplex i = some first →
      complex.getSimplex j = some second → filtrationOrder first second := by
    intro i j first second before atI atJ
    obtain ⟨iBound, rfl⟩ := List.getElem?_eq_some_iff.mp atI
    obtain ⟨jBound, rfl⟩ := List.getElem?_eq_some_iff.mp atJ
    exact List.pairwise_iff_getElem.mp sorted i j iBound jBound before
  constructor
  · intro valid s v present fresh low high lowIs highIs
    obtain ⟨j, whole, atJ, vertices, value, _⟩ := indexed.position highIs
    obtain ⟨i, part, atI, _, value', listed⟩ := indexed.position lowIs
    have inside : s ⊂ whole.vertices.toFinset := by
      rw [vertices, Finset.sort_toFinset]
      exact Finset.ssubset_insert fresh
    obtain ⟨id, before, found⟩ := valid.faces j whole atJ s present inside
    rw [listed] at found
    cases found
    rw [← value, ← value']
    rcases ordered before atI atJ with below | ⟨same, _⟩
    · exact below.le
    · exact same.le
  · intro ascends
    refine ⟨indexed.ids, ?_⟩
    intro i simplex atI s
    -- One vertex of the simplex is dropped at a time until the face is left.
    induction size : simplex.vertices.length using Nat.strong_induction_on generalizing i simplex with
    | _ _ ih =>
      intro present inside
      have member := List.mem_of_getElem? atI
      have ascending := (indexed.simplices simplex member).ascending
      obtain ⟨v, vMember, vAbsent⟩ := Finset.exists_of_ssubset inside
      have kept : s ⊆ simplex.vertices.toFinset.erase v := Finset.subset_erase.mpr ⟨inside.1, vAbsent⟩
      have facePresent : (simplex.vertices.toFinset.erase v).Nonempty := present.mono kept
      have weightOf : content complex simplex.vertices.toFinset = some simplex.weight :=
        indexed.content_eq_some.mpr ⟨simplex, member, rfl, rfl⟩
      obtain ⟨low, lowIs⟩ := parts _ _ _ facePresent (Finset.erase_subset v _) weightOf
      obtain ⟨j, face, atJ, vertices, value, listed⟩ := indexed.position lowIs
      have light : low ≤ simplex.weight := by
        apply ascends _ v facePresent (Finset.notMem_erase v _) low _ lowIs
        rw [Finset.insert_erase vMember, weightOf]
      have shorter : face.vertices.length + 1 = simplex.vertices.length := by
        rw [vertices, Finset.length_sort, Finset.card_erase_add_one vMember, List.toFinset_card_of_nodup ascending.nodup]
      have earlier : j < i := by
        rcases Nat.lt_trichotomy i j with before | same | after
        · have dimensions := (indexed.simplices simplex member).dimension
          have dimensions' := (indexed.simplices face (List.mem_of_getElem? atJ)).dimension
          have positive := facePresent.card_pos
          rw [← Finset.length_sort (· ≤ ·), ← vertices] at positive
          rcases ordered before atI atJ with below | ⟨_, wide⟩
          · rw [value] at below
            exact absurd light (not_le.mpr below)
          · omega
        · rw [same, atJ] at atI
          cases atI
          omega
        · exact after
      by_cases whole : s = simplex.vertices.toFinset.erase v
      · rw [whole]
        exact ⟨j, earlier, listed⟩
      · have faceSet : face.vertices.toFinset = simplex.vertices.toFinset.erase v := by
          rw [vertices, Finset.sort_toFinset]
        have proper : s ⊂ face.vertices.toFinset := by
          rw [faceSet]
          exact Finset.ssubset_iff_subset_ne.mpr ⟨kept, whole⟩
        obtain ⟨id, before, found⟩ := ih face.vertices.length (by omega) j face atJ rfl present proper
        exact ⟨id, by omega, found⟩

theorem ascends_firstWeight_iff (nonneg : ∀ call ∈ calls, 0 ≤ call.2) :
    Ascends (firstWeight calls) ↔ KeepsOrder calls := by
  constructor
  · intro ascends before vertices weight middle others other after split inhabited positive new v fresh inside late
    have vertexSet : ∀ {call : List Nat × Weight}, ¬ vertices ⊆ call.1 → ¬ vertices.toFinset ⊆ call.1.toFinset := by
      intro call absent covered
      exact absent fun x member => List.mem_toFinset.mp (covered (List.mem_toFinset.mpr member))
    have early : ∀ call ∈ before, ¬ vertices.toFinset ⊆ call.1.toFinset := fun call member => vertexSet (new call member)
    have low : firstWeight calls vertices.toFinset = some weight := by
      have noneBefore : before.find? (fun call => vertices.toFinset ⊆ call.1.toFinset) = none := by
        simpa [List.find?_eq_none] using early
      simp [firstWeight, split, List.find?_append, noneBefore]
    have high : firstWeight calls (insert v vertices.toFinset) =
        some (if insert v vertices.toFinset = others.toFinset then other else 0) := by
      have noneBefore : before.find? (fun call => insert v vertices.toFinset ⊆ call.1.toFinset) = none := by
        rw [List.find?_eq_none]
        intro call member
        have part := early call member
        simpa using fun covered => part ((Finset.subset_insert v _).trans covered)
      have noneBetween : middle.find? (fun call => insert v vertices.toFinset ⊆ call.1.toFinset) = none := by
        rw [List.find?_eq_none]
        intro call member
        have part := late call member
        simpa [← List.toFinset_cons, Finset.subset_iff, List.subset_def] using part
      have here : ¬ insert v vertices.toFinset ⊆ vertices.toFinset := by
        intro covered
        exact fresh (List.mem_toFinset.mp (covered (Finset.mem_insert_self v _)))
      have there : insert v vertices.toFinset ⊆ others.toFinset := by
        simpa [← List.toFinset_cons, Finset.subset_iff, List.subset_def] using inside
      simp [firstWeight, split, List.find?_append, noneBefore, noneBetween, here, there]
    have rises := ascends vertices.toFinset v (by simpa [List.toFinset_nonempty_iff] using inhabited)
      (by simpa using fresh) weight _ low high
    by_cases same : insert v vertices.toFinset = others.toFinset
    · rw [if_pos same] at rises
      refine ⟨?_, rises⟩
      intro x member
      rw [← List.mem_toFinset, ← same] at member
      simpa using member
    · rw [if_neg same] at rises
      exact absurd positive (not_lt.mpr rises)
  · intro keeps s v present fresh low high lowIs highIs
    obtain ⟨call, found, same⟩ := Option.map_eq_some_iff.mp lowIs
    obtain ⟨call', found', same'⟩ := Option.map_eq_some_iff.mp highIs
    have positive : 0 ≤ high := by
      rw [← same']
      split
      · exact nonneg call' (List.mem_of_find?_eq_some found')
      · exact le_refl 0
    by_cases zero : low ≤ 0
    · exact zero.trans positive
    · split at same
      · next whole =>
        obtain ⟨inside, before, rest, split, early⟩ := List.find?_eq_some_iff_append.mp found
        have notBefore : before.find? (fun call => insert v s ⊆ call.1.toFinset) = none := by
          rw [List.find?_eq_none]
          intro other member
          have part := early other member
          simp only [Bool.not_eq_true', decide_eq_false_iff_not] at part
          simpa using fun covered => part ((Finset.subset_insert v s).trans covered)
        have notHere : ¬ insert v s ⊆ call.1.toFinset := by
          rw [← whole]
          exact fun covered => fresh (covered (Finset.mem_insert_self v s))
        rw [split, List.find?_append, notBefore, Option.none_or, List.find?_cons_of_neg (by simpa using notHere)] at found'
        obtain ⟨covered, middle, after, split', late⟩ := List.find?_eq_some_iff_append.mp found'
        simp only [decide_eq_true_eq] at covered
        have vertexSet : ∀ {others : List Nat}, v :: call.1 ⊆ others ↔ insert v s ⊆ others.toFinset := by
          intro others
          rw [whole, ← List.toFinset_cons]
          simp [Finset.subset_iff, List.subset_def]
        have kept := keeps before call.1 call.2 middle call'.1 call'.2 after (by rw [split, split']; simp) ?_ ?_ ?_ v ?_
          (vertexSet.mpr covered) ?_
        · have equal : insert v s = call'.1.toFinset := by
            apply covered.antisymm
            intro x member
            have listed := kept.1 (List.mem_toFinset.mp member)
            rw [whole]
            simpa using listed
          rw [if_pos equal] at same'
          rw [← same, ← same']
          exact kept.2
        · intro empty
          rw [empty] at whole
          exact present.ne_empty whole
        · rw [same]
          exact not_le.mp zero
        · intro other member subset
          have part := early other member
          simp only [Bool.not_eq_true', decide_eq_false_iff_not] at part
          apply part
          rw [whole]
          intro x listed
          exact List.mem_toFinset.mpr (subset (List.mem_toFinset.mp listed))
        · rw [whole] at fresh
          simpa using fresh
        · intro other member subset
          have part := late other member
          simp only [Bool.not_eq_true', decide_eq_false_iff_not] at part
          exact part (vertexSet.mp subset)
      · exact absurd same.le (fun _ => zero same.symm.le)

end

/-- The sorted complex of some calls is a filtration exactly if the calls keep the order. -/
theorem validFiltration_iff (calls : List (List Nat × Weight)) (valid : ∀ call ∈ calls, call.1.Nodup ∧ 0 ≤ call.2) :
    ValidFiltration (addedWithFaces calls).sortByFiltration ↔ KeepsOrder calls := by
  obtain ⟨indexed, contents⟩ := addedWithFaces_spec fun call member => (valid call member).1
  obtain ⟨kept, sorted, same⟩ := indexed.sortByFiltration_spec
  rw [kept.valid_iff_ascends sorted, ← ascends_firstWeight_iff fun call member => (valid call member).2]
  · constructor
    · intro ascends s v present fresh low high lowIs highIs
      rw [← contents s present, ← same] at lowIs
      rw [← contents _ (Finset.insert_nonempty v s), ← same] at highIs
      exact ascends s v present fresh low high lowIs highIs
    · intro ascends s v present fresh low high lowIs highIs
      rw [same, contents s present] at lowIs
      rw [same, contents _ (Finset.insert_nonempty v s)] at highIs
      exact ascends s v present fresh low high lowIs highIs
  · intro s t weight present part covered
    rw [same, contents t (present.mono part)] at covered
    rw [same, contents s present]
    exact firstWeight_subset part covered

def lightTriangle : List (List Nat × Weight) := [([0, 1], 5), ([0, 1, 2], 3)]

theorem lightTriangle_valid : ∀ call ∈ lightTriangle, call.1.Nodup ∧ 0 ≤ call.2 := by decide

theorem validFiltration_iff_triangle : (∀ call ∈ lightTriangle, call.1.Nodup ∧ 0 ≤ call.2) ∧
    (ValidFiltration (addedWithFaces lightTriangle).sortByFiltration ↔ KeepsOrder lightTriangle) :=
  ⟨lightTriangle_valid, validFiltration_iff lightTriangle lightTriangle_valid⟩

/-- The edge comes after its triangle. -/
theorem lightTriangle_unordered : (∀ call ∈ lightTriangle, call.1.Nodup ∧ 0 ≤ call.2) ∧
    ¬ ValidFiltration (addedWithFaces lightTriangle).sortByFiltration := by
  refine ⟨lightTriangle_valid, ?_⟩
  intro filtration
  have last : (addedWithFaces lightTriangle).sortByFiltration.getSimplex 5 = some ⟨5, [0, 1, 2], 2, 3⟩ := by decide +kernel
  obtain ⟨id, before, found⟩ := filtration.faces 5 _ last {0, 1} (by decide) (by decide)
  have ascending : Ascending [0, 1] := by decide
  have names : Finset.sort ({0, 1} : Finset Nat) = [0, 1] := sort_toFinset_of_ascending ascending
  have edge : (addedWithFaces lightTriangle).sortByFiltration.getSimplexId [0, 1] = some 6 := by
    decide +kernel
  rw [names, edge] at found
  cases found
  omega

end AdicProof.Finality
