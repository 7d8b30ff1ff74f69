import AdicCore.Finality.PeeledCore

open AdicModel AdicModel.Storage AdicModel.Finality AdicModel.Finality.KCoreAnalyzer AdicProof.Storage

namespace AdicProof.KCore

def fresh (analyzer : KCoreAnalyzer) : KCoreAnalyzer :=
  KCoreAnalyzer.new analyzer.k analyzer.minDepth analyzer.minDiversity analyzer.minReputation analyzer.rho

def coreOf (storage : StorageEngine) (k : Nat) (order : HashMap.Order) (root : MessageId) : List MessageId :=
  computeKcore storage k order (buildForwardCone storage root)

def kcoreNodes (storage : StorageEngine) (k : Nat) (root : MessageId) : Finset MessageId :=
  (coreOf storage k .stored root).toFinset

/-- The total reputation of a core, in the order of its set. -/
def coreTotal (storage : StorageEngine) (order : HashMap.Order) (getReputation : PublicKey → ℚ)
    (core : List MessageId) : ℚ :=
  (((order.iterate core).filterMap storage.getMessage).map fun msg => getReputation msg.proposerPk).foldl addDoubles 0

def coreBalls (storage : StorageEngine) (rho : List UInt32) (core : List MessageId) : Finset (UInt32 × List UInt8) :=
  ((core.filterMap storage.getMessage).flatMap (messageBalls rho)).toFinset

def ballCounts (balls : Finset (UInt32 × List UInt8)) : Finset (UInt32 × Nat) :=
  (balls.image Prod.fst).image fun axis => (axis, (balls.filter fun ball => ball.1 = axis).card)

section

variable {storage grown : StorageEngine} {k : Nat} (order order' : HashMap.Order) {root : MessageId}
  {getReputation : PublicKey → ℚ} {rho : List UInt32} {core core' : List MessageId}

theorem coreOf_perm (linked : Linked storage) :
    (coreOf storage k order root).Perm (coreOf storage k order' root) :=
  computeKcore_perm order linked buildForwardCone_spec.1 order'

theorem coreOf_nodes (linked : Linked storage) :
    (coreOf storage k order root).toFinset = kcoreNodes storage k root :=
  List.toFinset_eq_of_perm _ _ (coreOf_perm order .stored linked)

theorem computeMetrics_snd :
    (computeMetrics storage rho order getReputation core).2 = ballCounts (coreBalls storage rho core) := by
  have same : (((order.iterate core).filterMap storage.getMessage).flatMap (messageBalls rho)).toFinset =
      coreBalls storage rho core :=
    List.toFinset_eq_of_perm _ _ (((order.perm core).filterMap _).flatMap_right _)
  unfold computeMetrics ballCounts
  rw [← same]

theorem coreBalls_perm (perm : core.Perm core') : coreBalls storage rho core = coreBalls storage rho core' :=
  List.toFinset_eq_of_perm _ _ ((perm.filterMap _).flatMap_right _)

def resultWith (storage : StorageEngine) (analyzer : KCoreAnalyzer) (order : HashMap.Order)
    (getReputation : PublicKey → ℚ) (root : MessageId) (depth : Nat) : KCoreResult :=
  let core := coreOf storage analyzer.k order root
  let totalReputation := coreTotal storage order getReputation core
  let distinctBalls := ballCounts (coreBalls storage analyzer.rho core)
  if core.isEmpty then .notFinal
  else
    ⟨core.length ≥ analyzer.k && depth ≥ analyzer.minDepth &&
        decide (∀ entry ∈ distinctBalls, entry.2 ≥ analyzer.minDiversity) && totalReputation ≥ analyzer.minReputation,
      core.length, depth, totalReputation, distinctBalls, some root⟩

theorem analyze_result (analyzer : KCoreAnalyzer) :
    (analyze storage order getReputation root analyzer).1 = resultWith storage analyzer order getReputation root
      (computeDepth storage analyzer (coreOf storage analyzer.k order root) root).1 := by
  have notEmpty : ¬ (buildForwardCone storage root).isEmpty := by
    rw [List.isEmpty_iff]
    exact List.ne_nil_of_mem root_mem_buildForwardCone
  unfold analyze resultWith
  dsimp only
  rw [if_neg notEmpty]
  by_cases empty : (coreOf storage analyzer.k order root).isEmpty
  · rw [if_pos empty]
    unfold coreOf at empty
    rw [if_pos empty]
  · rw [if_neg empty, ← computeMetrics_snd order]
    unfold coreOf at empty ⊢
    rw [if_neg empty]
    rfl

end

def knownChildren (storage : StorageEngine) (cache : HashMap.Table MessageId (List MessageId)) (node : MessageId) :
    List MessageId := (cache.lookup node).getD (storage.getChildren node)

def intoCore (children : MessageId → List MessageId) (core : Finset MessageId) (node : MessageId) : List MessageId :=
  (children node).filter fun child => child ∈ core

section

variable {storage : StorageEngine} {cache : HashMap.Table MessageId (List MessageId)} {core : List MessageId}
  {root : MessageId}

theorem cachedChildren_fst (node : MessageId) : (cachedChildren storage cache node).1 = knownChildren storage cache node := by
  unfold cachedChildren knownChildren
  cases cache.lookup node with
  | none => rfl
  | some children => rfl

theorem cachedChildren_snd (node : MessageId) :
    knownChildren storage (cachedChildren storage cache node).2 = knownChildren storage cache := by
  unfold cachedChildren
  cases found : cache.lookup node with
  | some children => rfl
  | none =>
    funext other
    show ((cache.insert node (storage.getChildren node)).lookup other).getD (storage.getChildren other) = _
    unfold knownChildren
    rw [HashMap.lookup_insert_eq]
    by_cases same : other = node
    · subst same
      simp [found]
    · simp [same]

theorem foldl_visitCoreChild (depth : Nat) (children : List MessageId) (queue : List (MessageId × Nat))
    (visited : List MessageId) :
    children.foldl (visitCoreChild core depth) (queue, visited) =
      (queue ++ (BreadthFirst.fresh visited (children.filter fun child => child ∈ core.toFinset)).map fun node =>
          (node, depth + 1),
        visited ++ BreadthFirst.fresh visited (children.filter fun child => child ∈ core.toFinset)) := by
  induction children generalizing queue visited with
  | nil => simp [BreadthFirst.fresh]
  | cons child rest ih =>
    rw [List.foldl_cons]
    unfold visitCoreChild
    by_cases inside : child ∈ core
    · have kept : child ∈ core.toFinset := List.mem_toFinset.mpr inside
      rw [List.filter_cons_of_pos (by simpa using inside), BreadthFirst.fresh]
      by_cases seen : child ∈ visited
      · rw [if_neg fun both => both.2 seen, if_pos seen]
        exact ih queue visited
      · rw [if_pos ⟨inside, seen⟩, if_neg seen]
        refine (ih _ _).trans ?_
        simp
    · rw [if_neg fun both => inside both.1, List.filter_cons_of_neg (by simpa using inside)]
      exact ih queue visited

theorem depthLoop_eq (fuel : Nat) (queue : List (MessageId × Nat)) (visited : List MessageId) (maxDepth : Nat)
    (cache : HashMap.Table MessageId (List MessageId)) :
    (depthLoop storage core fuel queue visited maxDepth cache).1 =
      (BreadthFirst.search (intoCore (knownChildren storage cache) core.toFinset) fuel queue visited maxDepth).2 := by
  induction fuel generalizing queue visited maxDepth cache with
  | zero => rfl
  | succ fuel ih =>
    cases queue with
    | nil => rfl
    | cons entry queue =>
      obtain ⟨current, depth⟩ := entry
      unfold depthLoop BreadthFirst.search
      dsimp only
      rw [cachedChildren_fst, foldl_visitCoreChild, ih, cachedChildren_snd]
      rfl

theorem computeDepth_isDepth (analyzer : KCoreAnalyzer) (core : List MessageId) (root : MessageId)
    (unknown : analyzer.depthCache.lookup root = none) :
    BreadthFirst.IsDepth (intoCore (knownChildren storage analyzer.childrenCache) core.toFinset) root
      (computeDepth storage analyzer core root).1 := by
  have closed : ∀ node ∈ insert root core.toFinset,
      ∀ child ∈ intoCore (knownChildren storage analyzer.childrenCache) core.toFinset node,
        child ∈ insert root core.toFinset := by
    intro node _ child edge
    exact Finset.mem_insert_of_mem (by simpa using (List.mem_filter.mp edge).2)
  have enough : (insert root core.toFinset).card ≤ core.length + 1 :=
    (Finset.card_insert_le _ _).trans (Nat.add_le_add_right (List.toFinset_card_le core) 1)
  have spec := (BreadthFirst.search_root (core.length + 1) closed (Finset.mem_insert_self _ _) enough).2.2
  rw [← depthLoop_eq] at spec
  unfold computeDepth
  rw [unknown]
  exact spec

theorem computeDepth_remembered {analyzer : KCoreAnalyzer} {depth : Nat}
    (found : analyzer.depthCache.lookup root = some depth) : computeDepth storage analyzer core root = (depth, analyzer) := by
  unfold computeDepth
  rw [found]

end

def freshResult (storage : StorageEngine) (order : HashMap.Order) (getReputation : PublicKey → ℚ) (root : MessageId)
    (analyzer : KCoreAnalyzer) : KCoreResult := (analyze storage order getReputation root (fresh analyzer)).1

section

variable {storage grown : StorageEngine} {order order' : HashMap.Order} {getReputation : PublicKey → ℚ}
  {root : MessageId} {analyzer : KCoreAnalyzer} {depth depth' : Nat}

theorem resultWith_eq (nonempty : coreOf storage analyzer.k order root ≠ []) :
    (resultWith storage analyzer order getReputation root depth).coreSize =
        (coreOf storage analyzer.k order root).length ∧
      (resultWith storage analyzer order getReputation root depth).depth = depth ∧
      (resultWith storage analyzer order getReputation root depth).totalReputation =
        coreTotal storage order getReputation (coreOf storage analyzer.k order root) ∧
      (resultWith storage analyzer order getReputation root depth).distinctBalls =
        ballCounts (coreBalls storage analyzer.rho (coreOf storage analyzer.k order root)) := by
  unfold resultWith
  simp [nonempty]

end

def leafMessage (byte : UInt8) (parents : List UInt8) (digits : List (UInt32 × UInt8)) : AdicMessage where
  id := ⟨.replicate byte⟩
  parents := parents.map fun parent => ⟨.replicate parent⟩
  features := ⟨digits.map fun entry => ⟨⟨entry.1⟩, ⟨[entry.2], 3⟩⟩⟩
  metadata := .new ⟨0, 0⟩
  proposerPk := ⟨.replicate byte⟩
  signature := .empty
  transfer := none
  data := []

def evenReputation : PublicKey → ℚ := fun _ => 1

end AdicProof.KCore
