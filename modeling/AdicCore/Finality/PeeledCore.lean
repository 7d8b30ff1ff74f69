import AdicCore.Finality.KCore
import AdicCore.Library.BreadthFirst
import AdicCore.Library.Cores

open AdicModel AdicModel.Storage AdicModel.Finality AdicModel.Finality.KCoreAnalyzer AdicProof.Storage

namespace AdicProof.KCore

section

variable (storage : StorageEngine) (root : MessageId)

theorem foldl_visitChild (children queue cone : List MessageId) :
    children.foldl visitChild (queue, cone) =
      (queue ++ BreadthFirst.fresh cone children, cone ++ BreadthFirst.fresh cone children) := by
  induction children generalizing queue cone with
  | nil => simp [BreadthFirst.fresh]
  | cons child rest ih =>
    unfold BreadthFirst.fresh
    rw [List.foldl_cons]
    by_cases seen : child ∈ cone
    · rw [if_pos seen, ← ih]
      simp [visitChild, seen]
    · rw [if_neg seen]
      simp [visitChild, seen, ih]

theorem coneLoop_eq (fuel : Nat) (queue : List (MessageId × Nat)) (cone : List MessageId) (deepest : Nat) :
    coneLoop storage fuel (queue.map Prod.fst) cone =
      (BreadthFirst.search storage.getChildren fuel queue cone deepest).1 := by
  induction fuel generalizing queue cone deepest with
  | zero => rfl
  | succ fuel ih =>
    cases queue with
    | nil => rfl
    | cons entry queue =>
      obtain ⟨current, depth⟩ := entry
      unfold BreadthFirst.search
      rw [← ih, List.map_cons, coneLoop, foldl_visitChild]
      simp [Function.comp_def]

def storedNodes : Finset MessageId := insert root ((HashMap.pairs storage.children).flatMap Prod.snd).toFinset

variable {storage root}

theorem card_storedNodes : (storedNodes storage root).card ≤ searchRounds storage := by
  have size : ((HashMap.pairs storage.children).flatMap Prod.snd).length = HashMap.total List.length storage.children := by
    simp [HashMap.pairs, HashMap.total, List.length_flatMap, Function.comp_def]
  have few := List.toFinset_card_le ((HashMap.pairs storage.children).flatMap Prod.snd)
  have inserted := Finset.card_insert_le root ((HashMap.pairs storage.children).flatMap Prod.snd).toFinset
  unfold storedNodes searchRounds
  omega

theorem mem_storedNodes {node child : MessageId} (edge : child ∈ storage.getChildren node) :
    child ∈ storedNodes storage root := by
  unfold StorageEngine.getChildren at edge
  cases found : storage.children.lookup node with
  | none =>
    rw [found] at edge
    exact absurd edge List.not_mem_nil
  | some children =>
    rw [found] at edge
    refine Finset.mem_insert_of_mem (List.mem_toFinset.mpr (List.mem_flatMap.mpr ?_))
    exact ⟨(node, children), HashMap.mem_pairs.mpr found, edge⟩

theorem buildForwardCone_spec :
    (buildForwardCone storage root).Nodup ∧
      ∀ node, node ∈ buildForwardCone storage root ↔ ∃ length, BreadthFirst.Walk storage.getChildren root length node := by
  have closed : ∀ node ∈ storedNodes storage root, ∀ child ∈ storage.getChildren node, child ∈ storedNodes storage root :=
    fun _ _ _ edge => mem_storedNodes edge
  have inside : root ∈ storedNodes storage root := Finset.mem_insert_self _ _
  have spec := BreadthFirst.search_root (searchRounds storage) closed inside card_storedNodes
  have loop := coneLoop_eq storage (searchRounds storage) [(root, 0)] [root] 0
  unfold buildForwardCone
  rw [← loop] at spec
  exact ⟨spec.1, spec.2.1⟩

theorem root_mem_buildForwardCone : root ∈ buildForwardCone storage root :=
  buildForwardCone_spec.2 root |>.mpr ⟨0, .here⟩

end

def edgeWeight (storage : StorageEngine) (node other : MessageId) : Nat :=
  (storage.getParents node).count other + (storage.getChildren node).count other

section

variable {storage : StorageEngine} {k : Nat} (order : HashMap.Order) {nodes core removed : List MessageId}
  {degrees : HashMap.Table MessageId Nat}

theorem edgeWeight_symm (linked : Linked storage) (node other : MessageId) :
    edgeWeight storage node other = edgeWeight storage other node := by
  unfold edgeWeight
  rw [linked other node, ← linked node other]
  exact add_comm _ _

theorem initialDegree_eq (node : MessageId) :
    initialDegree storage nodes node = ∑ other ∈ nodes.toFinset, edgeWeight storage node other := by
  unfold initialDegree edgeWeight
  rw [Finset.sum_add_distrib, Cores.sum_count, Cores.sum_count]
  simp

theorem lookup_lowerDegree (neighbor node : MessageId) :
    (lowerDegree degrees neighbor).lookup node =
      (degrees.lookup node).map fun degree => degree - if neighbor = node then 1 else 0 := by
  unfold lowerDegree
  cases found : degrees.lookup neighbor with
  | none =>
    by_cases same : neighbor = node
    · subst same
      simp [found]
    · simp [same]
  | some degree =>
    show (degrees.insert neighbor (degree - 1)).lookup node = _
    rw [HashMap.lookup_insert_eq]
    by_cases same : neighbor = node
    · subst same
      simp [found]
    · have other : node ≠ neighbor := fun equal => same equal.symm
      simp [same, other]

theorem lookup_lowerDegrees (neighbors : List MessageId) (node : MessageId) :
    (neighbors.foldl lowerDegree degrees).lookup node =
      (degrees.lookup node).map fun degree => degree - neighbors.count node := by
  induction neighbors generalizing degrees with
  | nil => simp
  | cons neighbor rest ih =>
    rw [List.foldl_cons, ih, lookup_lowerDegree, Option.map_map, List.count_cons]
    congr 1
    funext degree
    simp only [Function.comp_apply, beq_iff_eq]
    omega

theorem removeNodes_core (removed : List MessageId) :
    (removed.foldl (removeNode storage) (core, degrees)).1 = removed.foldl List.erase core := by
  induction removed generalizing core degrees with
  | nil => rfl
  | cons node rest ih =>
    rw [List.foldl_cons, List.foldl_cons, removeNode, ih]

theorem removeNodes_degrees (removed : List MessageId) (node : MessageId) :
    (removed.foldl (removeNode storage) (core, degrees)).2.lookup node =
      (degrees.lookup node).map fun degree => degree - (removed.map fun other => edgeWeight storage other node).sum := by
  induction removed generalizing core degrees with
  | nil => simp
  | cons first rest ih =>
    rw [List.foldl_cons, removeNode, ih, lookup_lowerDegrees, lookup_lowerDegrees, Option.map_map, Option.map_map,
      List.map_cons, List.sum_cons]
    congr 1
    funext degree
    unfold edgeWeight
    simp only [Function.comp_apply]
    omega

theorem mem_erase_all (nodup : core.Nodup) (removed : List MessageId) :
    (removed.foldl List.erase core).Nodup ∧ ∀ node, node ∈ removed.foldl List.erase core ↔ node ∈ core ∧ node ∉ removed := by
  induction removed generalizing core with
  | nil => simpa using nodup
  | cons first rest ih =>
    rcases ih (nodup.erase first) with ⟨keeps, member⟩
    refine ⟨keeps, fun node => ?_⟩
    rw [List.foldl_cons, member, nodup.mem_erase_iff, List.mem_cons, not_or]
    exact ⟨fun found => ⟨found.1.2, found.1.1, found.2⟩, fun found => ⟨⟨found.2.1, found.1⟩, found.2.2⟩⟩

theorem length_erase_all_lt (nodup : core.Nodup) (some : removed ≠ []) (inside : ∀ node ∈ removed, node ∈ core) :
    (removed.foldl List.erase core).length < core.length := by
  rcases List.exists_mem_of_ne_nil _ some with ⟨node, taken⟩
  rcases mem_erase_all nodup removed with ⟨keeps, member⟩
  have fewer : removed.foldl List.erase core ⊆ core.erase node := by
    intro other found
    rcases (member other).mp found with ⟨inside, kept⟩
    refine nodup.mem_erase_iff.mpr ⟨fun same => kept ?_, inside⟩
    rw [same]
    exact taken
  have short := (keeps.subperm fewer).length_le
  rw [List.length_erase_of_mem (inside node taken)] at short
  have positive := List.length_pos_of_mem (inside node taken)
  omega

structure PeelInvariant (storage : StorageEngine) (k : Nat) (nodes core : List MessageId)
    (degrees : HashMap.Table MessageId Nat) : Prop where
  nodup : core.Nodup
  peeled : Cores.Peeled (edgeWeight storage) k nodes.toFinset core.toFinset
  degree : ∀ node, degrees.lookup node =
    if node ∈ nodes then some (∑ other ∈ core.toFinset, edgeWeight storage node other) else none

theorem peelInvariant_initial (nodup : nodes.Nodup) :
    PeelInvariant storage k nodes nodes
      (HashMap.ofPairs (nodes.map fun node => (node, initialDegree storage nodes node))) where
  nodup := nodup
  peeled := .all
  degree := by
    intro node
    have keys : ((nodes.map fun node => (node, initialDegree storage nodes node)).map Prod.fst).Nodup := by
      simpa [Function.comp_def] using nodup
    by_cases member : node ∈ nodes
    · rw [if_pos member, HashMap.lookup_ofPairs keys, ← initialDegree_eq]
      exact List.mem_map.mpr ⟨node, member, rfl⟩
    · rw [if_neg member, Option.eq_none_iff_forall_ne_some]
      intro degree found
      rw [HashMap.lookup_ofPairs keys, List.mem_map] at found
      rcases found with ⟨other, within, equal⟩
      cases equal
      exact member within

theorem mem_toRemove (invariant : PeelInvariant storage k nodes core degrees) (node : MessageId) :
    node ∈ toRemove k order core degrees ↔
      node ∈ core ∧ ∑ other ∈ core.toFinset, edgeWeight storage node other < k := by
  unfold toRemove
  rw [List.mem_map]
  constructor
  · intro found
    rcases found with ⟨⟨_, degree⟩, listed, rfl⟩
    rw [List.mem_filter, HashMap.Order.mem_iterate, HashMap.mem_pairs, invariant.degree] at listed
    rcases listed with ⟨stored, low⟩
    simp only [Bool.and_eq_true, decide_eq_true_eq] at low
    split at stored
    · rw [Option.some.inj stored]
      exact low
    · cases stored
  · rintro ⟨member, low⟩
    have within : node ∈ nodes := List.mem_toFinset.mp (invariant.peeled.inside (List.mem_toFinset.mpr member))
    refine ⟨(node, ∑ other ∈ core.toFinset, edgeWeight storage node other), ?_, rfl⟩
    rw [List.mem_filter, HashMap.Order.mem_iterate, HashMap.mem_pairs, invariant.degree, if_pos within]
    simp [member, low]

theorem toRemove_nodup : (toRemove k order core degrees).Nodup := by
  unfold toRemove
  have keys : ((order.iterate (HashMap.pairs degrees)).map Prod.fst).Nodup :=
    ((order.perm _).map Prod.fst).nodup_iff.mpr (HashMap.pairs_keys_nodup degrees)
  exact keys.sublist (List.filter_sublist.map _)

theorem peelInvariant_round (linked : Linked storage) (invariant : PeelInvariant storage k nodes core degrees)
    (nodup : removed.Nodup)
    (low : ∀ node, node ∈ removed ↔ node ∈ core ∧ ∑ other ∈ core.toFinset, edgeWeight storage node other < k) :
    PeelInvariant storage k nodes (removed.foldl (removeNode storage) (core, degrees)).1
      (removed.foldl (removeNode storage) (core, degrees)).2 := by
  rcases mem_erase_all invariant.nodup removed with ⟨keeps, member⟩
  have left : (removed.foldl List.erase core).toFinset = core.toFinset \ removed.toFinset := by
    ext node
    simp [member]
  constructor
  case nodup =>
    rw [removeNodes_core]
    exact keeps
  case peeled =>
    rw [removeNodes_core, left]
    exact invariant.peeled.sdiff fun node taken => ((low node).mp (List.mem_toFinset.mp taken)).2
  case degree =>
    intro node
    rw [removeNodes_degrees, removeNodes_core, left, invariant.degree]
    by_cases within : node ∈ nodes
    · have inside : removed.toFinset ⊆ core.toFinset := by
        intro other taken
        exact List.mem_toFinset.mpr ((low other).mp (List.mem_toFinset.mp taken)).1
      have split := Finset.sum_sdiff (f := edgeWeight storage node) inside
      have taken : (removed.map fun other => edgeWeight storage other node).sum =
          ∑ other ∈ removed.toFinset, edgeWeight storage node other := by
        rw [List.sum_toFinset _ nodup]
        congr 1
        exact List.map_congr_left fun other _ => edgeWeight_symm linked other node
      rw [if_pos within, if_pos within, Option.map_some, taken]
      congr 1
      omega
    · rw [if_neg within, if_neg within]
      rfl

theorem peel_spec (linked : Linked storage) (fuel : Nat) (enough : core.length ≤ fuel)
    (invariant : PeelInvariant storage k nodes core degrees) :
    (peel storage k order fuel core degrees).Nodup ∧
      Cores.IsCore (edgeWeight storage) k nodes.toFinset (peel storage k order fuel core degrees).toFinset := by
  induction fuel generalizing core degrees with
  | zero =>
    have empty : core = [] := List.eq_nil_of_length_eq_zero (by omega)
    subst empty
    exact ⟨invariant.nodup, invariant.peeled.isCore fun node member => absurd member (by simp)⟩
  | succ fuel ih =>
    unfold peel
    have low := mem_toRemove order invariant
    split
    · next done =>
      rw [done] at low
      refine ⟨invariant.nodup, invariant.peeled.isCore fun node member => ?_⟩
      by_contra few
      exact absurd ((low node).mpr ⟨List.mem_toFinset.mp member, by omega⟩) List.not_mem_nil
    · next some =>
      refine ih ?_ (peelInvariant_round linked invariant (toRemove_nodup order) low)
      rw [removeNodes_core]
      have fewer := length_erase_all_lt invariant.nodup some fun node taken => ((low node).mp taken).1
      omega

theorem computeKcore_spec (linked : Linked storage) (nodup : nodes.Nodup) :
    (computeKcore storage k order nodes).Nodup ∧
      Cores.IsCore (edgeWeight storage) k nodes.toFinset (computeKcore storage k order nodes).toFinset :=
  peel_spec order linked nodes.length (le_refl _) (peelInvariant_initial nodup)

theorem computeKcore_perm (linked : Linked storage) (nodup : nodes.Nodup) (order' : HashMap.Order) :
    (computeKcore storage k order nodes).Perm (computeKcore storage k order' nodes) := by
  rcases computeKcore_spec (k := k) order linked nodup with ⟨first, isCore⟩
  rcases computeKcore_spec (k := k) order' linked nodup with ⟨second, isCore'⟩
  exact (List.perm_ext_iff_of_nodup first second).mpr fun node => by
    rw [← List.mem_toFinset, ← List.mem_toFinset, isCore.unique isCore']

end

end AdicProof.KCore
