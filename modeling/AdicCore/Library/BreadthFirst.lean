import Mathlib

namespace BreadthFirst

variable {α : Type} [DecidableEq α]

def fresh (visited : List α) : List α → List α
  | [] => []
  | node :: rest => if node ∈ visited then fresh visited rest else node :: fresh (visited ++ [node]) rest

def search (next : α → List α) : Nat → List (α × Nat) → List α → Nat → List α × Nat
  | 0, _, visited, deepest => (visited, deepest)
  | _ + 1, [], visited, deepest => (visited, deepest)
  | fuel + 1, (current, depth) :: queue, visited, deepest =>
    search next fuel (queue ++ (fresh visited (next current)).map fun node => (node, depth + 1))
      (visited ++ fresh visited (next current)) (max deepest depth)

inductive Walk (next : α → List α) (root : α) : Nat → α → Prop
  | here : Walk next root 0 root
  | step {length : Nat} {node child : α} (walk : Walk next root length node) (edge : child ∈ next node) :
    Walk next root (length + 1) child

def Distance (next : α → List α) (root : α) (node : α) (length : Nat) : Prop :=
  Walk next root length node ∧ ∀ other, Walk next root other node → length ≤ other

def IsDepth (next : α → List α) (root : α) (depth : Nat) : Prop :=
  IsGreatest {length | ∃ node, Distance next root node length} depth

omit [DecidableEq α] in
theorem IsDepth.unique {next : α → List α} {root : α} {first second : Nat} (isFirst : IsDepth next root first)
    (isSecond : IsDepth next root second) : first = second := IsGreatest.unique isFirst isSecond

omit [DecidableEq α] in
theorem Walk.mono {next next' : α → List α} {root node : α} {length : Nat}
    (edges : ∀ node child, child ∈ next node → child ∈ next' node) (walk : Walk next root length node) :
    Walk next' root length node := by
  induction walk with
  | here => exact .here
  | step _ edge ih => exact .step ih (edges _ _ edge)

theorem mem_fresh {visited nodes : List α} {node : α} : node ∈ fresh visited nodes ↔ node ∈ nodes ∧ node ∉ visited := by
  induction nodes generalizing visited with
  | nil => simp [fresh]
  | cons first rest ih =>
    unfold fresh
    split
    · next seen =>
      rw [ih, List.mem_cons]
      constructor
      · exact fun found => ⟨.inr found.1, found.2⟩
      · rintro ⟨rfl | later, unseen⟩
        · exact absurd seen unseen
        · exact ⟨later, unseen⟩
    · next unseen =>
      rw [List.mem_cons, ih, List.mem_cons]
      by_cases same : node = first
      · simp [same, unseen]
      · simp [same]

theorem fresh_nodup {visited nodes : List α} (nodup : visited.Nodup) : (visited ++ fresh visited nodes).Nodup := by
  induction nodes generalizing visited with
  | nil => simpa [fresh] using nodup
  | cons first rest ih =>
    unfold fresh
    split
    · exact ih nodup
    · next unseen =>
      have extended : (visited ++ [first]).Nodup := by
        rw [List.nodup_append]
        refine ⟨nodup, List.nodup_singleton _, ?_⟩
        intro node seen other last
        rw [List.mem_singleton.mp last]
        rintro rfl
        exact unseen seen
      simpa using ih extended

section

variable {next : α → List α} {root : α} {bound : Finset α}

structure Invariant (next : α → List α) (root : α) (bound : Finset α) (done queue : List (α × Nat))
    (visited : List α) (deepest : Nat) : Prop where
  nodes : visited = (done ++ queue).map Prod.fst
  nodup : visited.Nodup
  inside : ∀ node ∈ visited, node ∈ bound
  start : (root, 0) ∈ done ++ queue
  walks : ∀ entry ∈ done ++ queue, Walk next root entry.2 entry.1
  sorted : (done ++ queue).Pairwise fun a b => a.2 ≤ b.2
  near : ∀ first ∈ queue.head?, ∀ entry ∈ done ++ queue, entry.2 ≤ first.2 + 1
  closed : ∀ entry ∈ done, ∀ child ∈ next entry.1, ∃ depth ≤ entry.2 + 1, (child, depth) ∈ done ++ queue
  upper : ∀ entry ∈ done, entry.2 ≤ deepest
  attained : deepest = 0 ∨ ∃ node, (node, deepest) ∈ done

omit [DecidableEq α] in
theorem Invariant.initial (inside : root ∈ bound) : Invariant next root bound [] [(root, 0)] [root] 0 where
  nodes := rfl
  nodup := List.nodup_singleton _
  inside := by
    intro node seen
    rw [List.mem_singleton.mp seen]
    exact inside
  start := by simp
  walks := by
    intro entry member
    rw [List.mem_singleton.mp member]
    exact .here
  sorted := by simp
  near := by
    intro first head entry member
    rw [List.mem_singleton.mp member]
    exact Nat.zero_le _
  closed := fun _ member => nomatch member
  upper := fun _ member => nomatch member
  attained := .inl rfl

variable {visited : List α}

theorem Invariant.round {done queue : List (α × Nat)} {deepest depth : Nat} {current : α}
    (invariant : Invariant next root bound done ((current, depth) :: queue) visited deepest)
    (closed : ∀ node ∈ bound, ∀ child ∈ next node, child ∈ bound) :
    Invariant next root bound (done ++ [(current, depth)])
      (queue ++ (fresh visited (next current)).map fun node => (node, depth + 1))
      (visited ++ fresh visited (next current)) (max deepest depth) := by
  have whole : (done ++ [(current, depth)]) ++ (queue ++ (fresh visited (next current)).map fun node => (node, depth + 1)) =
      (done ++ (current, depth) :: queue) ++ (fresh visited (next current)).map fun node => (node, depth + 1) := by simp
  have near := invariant.near (current, depth) rfl
  have member : (current, depth) ∈ done ++ (current, depth) :: queue := by simp
  have isFresh : ∀ entry ∈ (fresh visited (next current)).map fun node => (node, depth + 1),
      entry.1 ∈ fresh visited (next current) ∧ entry.2 = depth + 1 := by
    intro entry found
    rcases List.mem_map.mp found with ⟨node, isNew, rfl⟩
    exact ⟨isNew, rfl⟩
  constructor
  case nodes =>
    rw [whole, List.map_append, ← invariant.nodes, List.map_map]
    congr 1
    exact (List.map_id _).symm
  case nodup => exact fresh_nodup invariant.nodup
  case inside =>
    intro node seen
    rcases List.mem_append.mp seen with old | found
    · exact invariant.inside node old
    · refine closed current (invariant.inside current ?_) node (mem_fresh.mp found).1
      rw [invariant.nodes]
      exact List.mem_map.mpr ⟨_, member, rfl⟩
  case start =>
    rw [whole]
    exact List.mem_append_left _ invariant.start
  case walks =>
    intro entry seen
    rw [whole] at seen
    rcases List.mem_append.mp seen with old | found
    · exact invariant.walks entry old
    · rcases isFresh entry found with ⟨isNew, deeper⟩
      rw [deeper]
      exact .step (invariant.walks _ member) (mem_fresh.mp isNew).1
  case sorted =>
    rw [whole, List.pairwise_append]
    refine ⟨invariant.sorted, ?_, ?_⟩
    · rw [List.pairwise_map]
      exact List.pairwise_of_forall fun _ _ => le_refl _
    · intro entry old other found
      rw [(isFresh other found).2]
      exact near entry old
  case near =>
    intro first head entry seen
    rw [whole] at seen
    have below : entry.2 ≤ depth + 1 := by
      rcases List.mem_append.mp seen with old | found
      · exact near entry old
      · exact (isFresh entry found).2.le
    have above : depth ≤ first.2 := by
      rcases List.mem_append.mp (List.mem_of_mem_head? head) with old | found
      · have sorted := (List.pairwise_append.mp invariant.sorted).2.1
        exact (List.pairwise_cons.mp sorted).1 first old
      · rw [(isFresh first found).2]
        exact Nat.le_succ depth
    omega
  case closed =>
    intro entry finished child edge
    rw [whole]
    rcases List.mem_append.mp finished with old | last
    · rcases invariant.closed entry old child edge with ⟨found, bounded, seen⟩
      exact ⟨found, bounded, List.mem_append_left _ seen⟩
    · rw [List.mem_singleton.mp last] at edge ⊢
      by_cases seen : child ∈ visited
      · rw [invariant.nodes] at seen
        rcases List.mem_map.mp seen with ⟨⟨_, found⟩, old, rfl⟩
        exact ⟨found, near _ old, List.mem_append_left _ old⟩
      · refine ⟨depth + 1, le_refl _, List.mem_append_right _ (List.mem_map.mpr ⟨child, ?_, rfl⟩)⟩
        exact mem_fresh.mpr ⟨edge, seen⟩
  case upper =>
    intro entry finished
    rcases List.mem_append.mp finished with old | last
    · exact (invariant.upper entry old).trans (le_max_left _ _)
    · rw [List.mem_singleton.mp last]
      exact le_max_right _ _
  case attained =>
    rcases le_total deepest depth with less | more
    · rw [max_eq_right less]
      exact .inr ⟨current, by simp⟩
    · rw [max_eq_left more]
      rcases invariant.attained with zero | ⟨node, finished⟩
      · exact .inl zero
      · exact .inr ⟨node, List.mem_append_left _ finished⟩

omit [DecidableEq α] in
theorem Invariant.finish {done : List (α × Nat)} {deepest : Nat}
    (invariant : Invariant next root bound done [] visited deepest) :
    (∀ node, node ∈ visited ↔ ∃ length, Walk next root length node) ∧ IsDepth next root deepest := by
  have complete : ∀ node length, Walk next root length node → ∃ depth ≤ length, (node, depth) ∈ done := by
    intro node length walk
    induction walk with
    | here => exact ⟨0, le_refl _, by simpa using invariant.start⟩
    | step _ edge ih =>
      rcases ih with ⟨depth, bounded, finished⟩
      rcases invariant.closed _ finished _ edge with ⟨deeper, less, found⟩
      exact ⟨deeper, by omega, by simpa using found⟩
  have distance : ∀ entry ∈ done, Distance next root entry.1 entry.2 := by
    intro entry finished
    refine ⟨invariant.walks entry (by simpa using finished), fun length walk => ?_⟩
    rcases complete entry.1 length walk with ⟨depth, bounded, found⟩
    have nodup : (done.map Prod.fst).Nodup := by
      have nodes := invariant.nodes
      rw [List.append_nil] at nodes
      rw [← nodes]
      exact invariant.nodup
    have same := List.inj_on_of_nodup_map nodup found finished rfl
    rw [← same]
    exact bounded
  constructor
  · intro node
    rw [invariant.nodes, List.append_nil, List.mem_map]
    constructor
    · rintro ⟨entry, finished, rfl⟩
      exact ⟨entry.2, (distance entry finished).1⟩
    · rintro ⟨length, walk⟩
      rcases complete node length walk with ⟨depth, _, finished⟩
      exact ⟨_, finished, rfl⟩
  · constructor
    · rcases invariant.attained with zero | ⟨node, finished⟩
      · rw [zero]
        exact ⟨root, distance (root, 0) (by simpa using invariant.start)⟩
      · exact ⟨node, distance _ finished⟩
    · rintro length ⟨node, walk, shortest⟩
      rcases complete node length walk with ⟨depth, bounded, finished⟩
      exact (shortest depth (distance _ finished).1).trans (invariant.upper _ finished)

theorem search_spec {done queue : List (α × Nat)} {deepest : Nat} (fuel : Nat)
    (closed : ∀ node ∈ bound, ∀ child ∈ next node, child ∈ bound) (enough : bound.card ≤ done.length + fuel)
    (invariant : Invariant next root bound done queue visited deepest) :
    ((search next fuel queue visited deepest).1.Nodup) ∧
      (∀ node, node ∈ (search next fuel queue visited deepest).1 ↔ ∃ length, Walk next root length node) ∧
        IsDepth next root (search next fuel queue visited deepest).2 := by
  induction fuel generalizing done queue visited deepest with
  | zero =>
    have size : visited.length ≤ bound.card := by
      rw [← List.toFinset_card_of_nodup invariant.nodup]
      exact Finset.card_le_card fun node seen => invariant.inside node (List.mem_toFinset.mp seen)
    rw [invariant.nodes, List.length_map, List.length_append] at size
    have empty : queue = [] := List.eq_nil_of_length_eq_zero (by omega)
    subst empty
    exact ⟨invariant.nodup, invariant.finish⟩
  | succ fuel ih =>
    cases queue with
    | nil => exact ⟨invariant.nodup, invariant.finish⟩
    | cons entry queue =>
      obtain ⟨current, depth⟩ := entry
      refine ih ?_ (invariant.round closed)
      rw [List.length_append, List.length_singleton]
      omega

theorem search_root (fuel : Nat) (closed : ∀ node ∈ bound, ∀ child ∈ next node, child ∈ bound) (inside : root ∈ bound)
    (enough : bound.card ≤ fuel) :
    ((search next fuel [(root, 0)] [root] 0).1.Nodup) ∧
      (∀ node, node ∈ (search next fuel [(root, 0)] [root] 0).1 ↔ ∃ length, Walk next root length node) ∧
        IsDepth next root (search next fuel [(root, 0)] [root] 0).2 :=
  search_spec fuel closed (by simpa using enough) (Invariant.initial inside)

end

end BreadthFirst
