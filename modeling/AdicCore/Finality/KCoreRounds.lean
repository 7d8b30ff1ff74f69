import AdicCore.Finality.PeeledCore

namespace AdicModel.Finality.KCoreAnalyzer

open AdicModel.Storage

def initialState (storage : StorageEngine) (nodes : List MessageId) : List MessageId × HashMap.Table MessageId Nat :=
  (nodes, HashMap.ofPairs (nodes.map fun node => (node, initialDegree storage nodes node)))

/-- A turn of the loop that removes nodes, in an order of its own. -/
inductive Round (storage : StorageEngine) (k : Nat) :
    List MessageId × HashMap.Table MessageId Nat → List MessageId × HashMap.Table MessageId Nat → Prop where
  | remove {core : List MessageId} {degrees : HashMap.Table MessageId Nat} (order : HashMap.Order)
      (some : toRemove k order core degrees ≠ []) :
      Round storage k (core, degrees) ((toRemove k order core degrees).foldl (removeNode storage) (core, degrees))

end AdicModel.Finality.KCoreAnalyzer

open AdicModel AdicModel.Storage AdicModel.Finality AdicModel.Finality.KCoreAnalyzer AdicProof.Storage

namespace AdicProof.KCore

structure SimpleLinks (storage : StorageEngine) : Prop where
  inverse : ∀ parent child, parent ∈ storage.getParents child ↔ child ∈ storage.getChildren parent
  parents : ∀ node, (storage.getParents node).Nodup
  children : ∀ node, (storage.getChildren node).Nodup

def linksWithin (storage : StorageEngine) (part : Finset MessageId) (node : MessageId) : Nat :=
  ((storage.getParents node).filter fun parent => parent ∈ part).length +
    ((storage.getChildren node).filter fun child => child ∈ part).length

def denseParts (storage : StorageEngine) (k : Nat) (nodes : List MessageId) : Set (Finset MessageId) :=
  {part | part ⊆ nodes.toFinset ∧ ∀ node ∈ part, k ≤ linksWithin storage part node}

section

variable {storage : StorageEngine} {k : Nat} {nodes core : List MessageId} {degrees : HashMap.Table MessageId Nat}
  {state next : List MessageId × HashMap.Table MessageId Nat}

theorem SimpleLinks.linked (links : SimpleLinks storage) : Linked storage := by
  intro parent child
  by_cases member : parent ∈ storage.getParents child
  · rw [List.count_eq_one_of_mem (links.parents child) member,
      List.count_eq_one_of_mem (links.children parent) ((links.inverse parent child).mp member)]
  · rw [List.count_eq_zero_of_not_mem member,
      List.count_eq_zero_of_not_mem fun found => member ((links.inverse parent child).mpr found)]

theorem linksWithin_eq (part : Finset MessageId) (node : MessageId) :
    linksWithin storage part node = ∑ other ∈ part, edgeWeight storage node other := by
  unfold linksWithin edgeWeight
  rw [Finset.sum_add_distrib, Cores.sum_count, Cores.sum_count]

theorem isGreatest_of_isCore {part : Finset MessageId}
    (isCore : Cores.IsCore (edgeWeight storage) k nodes.toFinset part) :
    IsGreatest (denseParts storage k nodes) part := by
  constructor
  · refine ⟨isCore.inside, fun node member => ?_⟩
    rw [linksWithin_eq]
    exact isCore.stable node member
  · intro other found
    refine isCore.greatest other found.1 fun node member => ?_
    rw [← linksWithin_eq]
    exact found.2 node member

section

variable (linked : Linked storage) (invariant : PeelInvariant storage k nodes state.1 state.2)

include linked invariant

theorem peelInvariant_next (round : Round storage k state next) :
    PeelInvariant storage k nodes next.1 next.2 ∧ next.1.length < state.1.length := by
  cases round with
  | remove order some =>
    have low := mem_toRemove order invariant
    refine ⟨peelInvariant_round linked invariant (toRemove_nodup order) low, ?_⟩
    rw [removeNodes_core]
    exact length_erase_all_lt invariant.nodup some fun node taken => ((low node).mp taken).1

theorem peelInvariant_run (run : Relation.ReflTransGen (Round storage k) state next) :
    PeelInvariant storage k nodes next.1 next.2 := by
  induction run with
  | refl => exact invariant
  | tail _ round kept => exact (peelInvariant_next linked kept round).1

theorem rounds_end : Acc (fun next state => Round storage k state next) state := by
  induction size : state.1.length using Nat.strong_induction_on generalizing state with
  | _ length ih =>
    constructor
    intro next round
    obtain ⟨kept, fewer⟩ := peelInvariant_next linked invariant round
    exact ih next.1.length (size ▸ fewer) kept rfl

end

theorem isCore_of_stuck (invariant : PeelInvariant storage k nodes state.1 state.2)
    (stuck : ∀ next, ¬ Round storage k state next) :
    Cores.IsCore (edgeWeight storage) k nodes.toFinset state.1.toFinset := by
  refine invariant.peeled.isCore fun node member => ?_
  by_contra few
  have low := (mem_toRemove HashMap.Order.stored invariant node).mpr ⟨List.mem_toFinset.mp member, by omega⟩
  exact stuck _ (.remove HashMap.Order.stored (List.ne_nil_of_mem low))

theorem peel_run (linked : Linked storage) (order : HashMap.Order) (fuel : Nat) (enough : core.length ≤ fuel)
    (invariant : PeelInvariant storage k nodes core degrees) :
    ∃ final, Relation.ReflTransGen (Round storage k) (core, degrees) final ∧ (∀ next, ¬ Round storage k final next) ∧
      peel storage k order fuel core degrees = final.1 := by
  have stuck_of_nil : ∀ {core : List MessageId} {degrees : HashMap.Table MessageId Nat},
      PeelInvariant storage k nodes core degrees → toRemove k order core degrees = [] →
        ∀ next, ¬ Round storage k (core, degrees) next := by
    intro core degrees invariant nil next round
    cases round with
    | remove order' some =>
      obtain ⟨node, taken⟩ := List.exists_mem_of_ne_nil _ some
      have low := (mem_toRemove order invariant node).mpr ((mem_toRemove order' invariant node).mp taken)
      rw [nil] at low
      exact List.not_mem_nil low
  induction fuel generalizing core degrees with
  | zero =>
    have empty : core = [] := List.eq_nil_of_length_eq_zero (by omega)
    subst empty
    refine ⟨_, .refl, stuck_of_nil invariant ?_, rfl⟩
    refine List.eq_nil_iff_forall_not_mem.mpr fun node taken => ?_
    exact List.not_mem_nil ((mem_toRemove order invariant node).mp taken).1
  | succ fuel ih =>
    unfold peel
    split
    · next nil => exact ⟨_, .refl, stuck_of_nil invariant nil, rfl⟩
    · next some =>
      have round : Round storage k (core, degrees) _ := .remove order some
      obtain ⟨kept, fewer⟩ := peelInvariant_next linked invariant round
      obtain ⟨final, run, stuck, same⟩ := ih (Nat.le_of_lt_succ (fewer.trans_le enough)) kept
      exact ⟨final, .head round run, stuck, same⟩

/-- The loop ends with the greatest such set, in whatever order nodes are removed. -/
theorem compute_kcore_greatest (links : SimpleLinks storage) (nodup : nodes.Nodup) :
    Acc (fun next state => Round storage k state next) (initialState storage nodes) ∧
      (∀ final, Relation.ReflTransGen (Round storage k) (initialState storage nodes) final →
        (∀ next, ¬ Round storage k final next) →
          final.1.Nodup ∧ IsGreatest (denseParts storage k nodes) final.1.toFinset) ∧
      ∀ order, ∃ final, Relation.ReflTransGen (Round storage k) (initialState storage nodes) final ∧
        (∀ next, ¬ Round storage k final next) ∧ computeKcore storage k order nodes = final.1 := by
  have initial : PeelInvariant storage k nodes (initialState storage nodes).1 (initialState storage nodes).2 :=
    peelInvariant_initial nodup
  refine ⟨rounds_end links.linked initial, fun final run stuck => ?_, fun order => ?_⟩
  · have kept := peelInvariant_run links.linked initial run
    exact ⟨kept.nodup, isGreatest_of_isCore (isCore_of_stuck kept stuck)⟩
  · exact peel_run links.linked order nodes.length (le_refl _) initial

theorem simpleLinks_new : SimpleLinks StorageEngine.new :=
  ⟨fun _ _ => iff_of_false List.not_mem_nil List.not_mem_nil, fun _ => List.nodup_nil, fun _ => List.nodup_nil⟩

theorem SimpleLinks.addParentChild (links : SimpleLinks storage) {parent child : MessageId}
    (fresh : child ∉ storage.getChildren parent) : SimpleLinks (StorageEngine.addParentChild parent child storage) where
  inverse first second := by
    rw [← List.count_pos_iff, ← List.count_pos_iff, linked_addParentChild links.linked first second]
  parents node := by
    rw [getParents_addParentChild]
    split
    · rw [← List.concat_eq_append]
      exact (links.parents child).concat fun found => fresh ((links.inverse parent child).mp found)
    · exact links.parents node
  children node := by
    rw [getChildren_addParentChild]
    split
    · rw [← List.concat_eq_append]
      exact (links.children parent).concat fresh
    · exact links.children node

end

def nodeId (byte : UInt8) : MessageId := ⟨Bytes32.replicate byte⟩

def pairStorage : StorageEngine := StorageEngine.new.addParentChild (nodeId 1) (nodeId 2)

def threeNodes : List MessageId := [nodeId 1, nodeId 2, nodeId 3]

theorem compute_kcore_greatest_pair :
    Acc (fun next state => Round pairStorage 1 state next) (initialState pairStorage threeNodes) ∧
      (∀ final, Relation.ReflTransGen (Round pairStorage 1) (initialState pairStorage threeNodes) final →
        (∀ next, ¬ Round pairStorage 1 final next) →
          final.1.Nodup ∧ IsGreatest (denseParts pairStorage 1 threeNodes) final.1.toFinset) ∧
      ∀ order, ∃ final, Relation.ReflTransGen (Round pairStorage 1) (initialState pairStorage threeNodes) final ∧
        (∀ next, ¬ Round pairStorage 1 final next) ∧ computeKcore pairStorage 1 order threeNodes = final.1 :=
  compute_kcore_greatest (simpleLinks_new.addParentChild List.not_mem_nil) (by decide)

end AdicProof.KCore
