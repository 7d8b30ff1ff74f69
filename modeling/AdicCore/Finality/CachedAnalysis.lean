import AdicCore.Finality.CoreMetrics

open AdicModel AdicModel.Storage AdicModel.Finality AdicModel.Finality.KCoreAnalyzer AdicProof.Storage

namespace AdicProof.KCore

/-- A remembered depth is that of the stored core, or the remembered children give the depth of the stored ones. -/
def DepthCurrent (storage : StorageEngine) (analyzer : KCoreAnalyzer) (root : MessageId) : Prop :=
  let core := kcoreNodes storage analyzer.k root
  let stored := intoCore storage.getChildren core
  core = ∅ ∨
    match analyzer.depthCache.lookup root with
    | some depth => BreadthFirst.IsDepth stored root depth
    | none => ∃ depth, BreadthFirst.IsDepth stored root depth ∧
        BreadthFirst.IsDepth (intoCore (knownChildren storage analyzer.childrenCache) core) root depth

section

variable {storage : StorageEngine} {analyzer parameters : KCoreAnalyzer} {order order' : HashMap.Order}
  {getReputation : PublicKey → ℚ} {root : MessageId} {depth depth' : Nat}

theorem resultWith_inj (linked : Linked storage) :
    resultWith storage analyzer order getReputation root depth =
        resultWith storage analyzer order' getReputation root depth' ↔
      kcoreNodes storage analyzer.k root = ∅ ∨ depth = depth' ∧
        coreTotal storage order getReputation (coreOf storage analyzer.k order root) =
          coreTotal storage order' getReputation (coreOf storage analyzer.k order' root) := by
  have perm : (coreOf storage analyzer.k order root).Perm (coreOf storage analyzer.k order' root) :=
    coreOf_perm order order' linked
  rw [← coreOf_nodes order linked, List.toFinset_eq_empty_iff]
  by_cases empty : coreOf storage analyzer.k order root = []
  · have empty' : coreOf storage analyzer.k order' root = [] := by
      rw [empty] at perm
      exact perm.symm.eq_nil
    simp [resultWith, empty, empty']
  · have nonempty' : coreOf storage analyzer.k order' root ≠ [] := fun nothing => empty (nothing ▸ perm).eq_nil
    constructor
    · intro same
      have first := @resultWith_eq _ order getReputation _ _ depth empty
      have second := @resultWith_eq _ order' getReputation _ _ depth' nonempty'
      rw [same, second.2.1, second.2.2.1] at first
      exact .inr ⟨first.2.1.symm, first.2.2.1.symm⟩
    · rintro (nothing | ⟨same, total⟩)
      · exact absurd nothing empty
      · unfold resultWith
        dsimp only
        rw [same, total, coreBalls_perm perm, perm.length_eq, perm.isEmpty_eq]

theorem computeDepth_fresh (core : List MessageId) :
    BreadthFirst.IsDepth (intoCore storage.getChildren core.toFinset) root
      (computeDepth storage (fresh analyzer) core root).1 := computeDepth_isDepth (fresh analyzer) core root rfl

theorem coreTotal_empty (linked : Linked storage) {k : Nat} (nothing : kcoreNodes storage k root = ∅) :
    coreTotal storage order getReputation (coreOf storage k order root) = 0 := by
  rw [← coreOf_nodes order linked, List.toFinset_eq_empty_iff] at nothing
  rw [nothing, coreTotal, (order.perm []).eq_nil]
  rfl

theorem depthCurrent_iff (linked : Linked storage)
    (isFresh : BreadthFirst.IsDepth (intoCore storage.getChildren (kcoreNodes storage analyzer.k root)) root depth) :
    DepthCurrent storage analyzer root ↔ kcoreNodes storage analyzer.k root = ∅ ∨
      (computeDepth storage analyzer (coreOf storage analyzer.k order root) root).1 = depth := by
  unfold DepthCurrent
  refine or_congr_right ?_
  cases found : analyzer.depthCache.lookup root with
  | some depth' =>
    rw [computeDepth_remembered found]
    dsimp only
    constructor
    · exact fun isDepth => isDepth.unique isFresh
    · intro same
      rw [same]
      exact isFresh
  | none =>
    have known : BreadthFirst.IsDepth
        (intoCore (knownChildren storage analyzer.childrenCache) (kcoreNodes storage analyzer.k root)) root
        (computeDepth storage analyzer (coreOf storage analyzer.k order root) root).1 := by
      rw [← coreOf_nodes order linked]
      exact computeDepth_isDepth analyzer _ root found
    dsimp only
    constructor
    · rintro ⟨depth', stored, remembered⟩
      rw [known.unique remembered, stored.unique isFresh]
    · intro same
      rw [same] at known
      exact ⟨_, isFresh, known⟩

theorem analyze_agrees_iff (linked : Linked storage) :
    (analyze storage order getReputation root analyzer).1 = freshResult storage order' getReputation root analyzer ↔
      DepthCurrent storage analyzer root ∧ coreTotal storage order getReputation (coreOf storage analyzer.k order root) =
        coreTotal storage order' getReputation (coreOf storage analyzer.k order' root) := by
  have isFresh : BreadthFirst.IsDepth (intoCore storage.getChildren (kcoreNodes storage analyzer.k root)) root
      (computeDepth storage (fresh analyzer) (coreOf storage analyzer.k order' root) root).1 := by
    rw [← coreOf_nodes order' linked]
    exact computeDepth_fresh _
  have unfolded : freshResult storage order' getReputation root analyzer =
      resultWith storage analyzer order' getReputation root
        (computeDepth storage (fresh analyzer) (coreOf storage analyzer.k order' root) root).1 :=
    analyze_result order' (fresh analyzer)
  rw [unfolded, analyze_result order, resultWith_inj linked, depthCurrent_iff linked isFresh]
  constructor
  · rintro (nothing | ⟨same, total⟩)
    · exact ⟨.inl nothing, by rw [coreTotal_empty linked nothing, coreTotal_empty linked nothing]⟩
    · exact ⟨.inr same, total⟩
  · rintro ⟨nothing | same, total⟩
    · exact .inl nothing
    · exact .inr ⟨same, total⟩

/-- The doubles 0.1, 0.2 and 0.7 in two orders. -/
example :
    let reputations : List ℚ := [3602879701896397 / 2 ^ 55, 3602879701896397 / 2 ^ 54, 3152519739159347 / 2 ^ 52]
    reputations.foldl addDoubles 0 = 1 ∧ reputations.reverse.foldl addDoubles 0 < 1 := by
  decide +kernel

theorem fresh_analyze : fresh (analyze storage order getReputation root analyzer).2 = fresh analyzer := by
  unfold analyze
  dsimp only
  split
  · rfl
  · split
    · rfl
    · unfold computeDepth
      cases analyzer.depthCache.lookup root with
      | some depth => rfl
      | none => rfl

end

inductive Call where
  | storeMessage (message : AdicMessage)
  | analyze (order : HashMap.Order) (getReputation : PublicKey → ℚ) (root : MessageId)

structure Session where
  storage : StorageEngine
  analyzer : KCoreAnalyzer

def Session.next (session : Session) : Call → Session
  | .storeMessage message => { session with storage := nextStorage session.storage message }
  | .analyze order getReputation root =>
    { session with analyzer := (analyze session.storage order getReputation root session.analyzer).2 }

def Agrees (parameters : KCoreAnalyzer) (session : Session) : Call → Prop
  | .storeMessage _ => True
  | .analyze order getReputation root => ∀ order', (analyze session.storage order getReputation root session.analyzer).1 =
      freshResult session.storage order' getReputation root parameters

/-- The reputations of the core may round to different totals in different orders of the set. -/
def Current (session : Session) : Call → Prop
  | .storeMessage _ => True
  | .analyze order getReputation root =>
    let total := fun order => coreTotal session.storage order getReputation
      (coreOf session.storage session.analyzer.k order root)
    DepthCurrent session.storage session.analyzer root ∧ ∀ order', total order = total order'

def sessionAfter (parameters : KCoreAnalyzer) (calls : List Call) : Session :=
  Runs.after Session.next ⟨.new, fresh parameters⟩ calls

theorem sessionAfter_kept (parameters : KCoreAnalyzer) (calls : List Call) :
    Linked (sessionAfter parameters calls).storage ∧ fresh (sessionAfter parameters calls).analyzer = fresh parameters := by
  have kept : ∀ session call, Linked session.storage ∧ fresh session.analyzer = fresh parameters →
      Linked (Session.next session call).storage ∧ fresh (Session.next session call).analyzer = fresh parameters := by
    rintro session call ⟨linked, same⟩
    cases call with
    | storeMessage message => exact ⟨linked_nextStorage linked message, same⟩
    | analyze order getReputation root => exact ⟨linked, fresh_analyze.trans same⟩
  exact Runs.invariant_of_kept ⟨linked_new, rfl⟩ kept calls

/-- All analyses of a run agree with new analyzers exactly if their depths and their totals do. -/
theorem analyses_agree_iff (parameters : KCoreAnalyzer) (calls : List Call) :
    (∀ before call, before ++ [call] <+: calls → Agrees parameters (sessionAfter parameters before) call) ↔
      ∀ before call, before ++ [call] <+: calls → Current (sessionAfter parameters before) call := by
  refine forall_congr' fun before => forall_congr' fun call => forall_congr' fun _ => ?_
  rcases sessionAfter_kept parameters before with ⟨linked, same⟩
  cases call with
  | storeMessage message => exact Iff.rfl
  | analyze order getReputation root =>
    unfold Agrees Current freshResult
    rw [← same]
    constructor
    · intro agrees
      exact ⟨((analyze_agrees_iff linked).mp (agrees order)).1, fun order' => ((analyze_agrees_iff linked).mp (agrees order')).2⟩
    · exact fun current order' => (analyze_agrees_iff linked).mpr ⟨current.1, current.2 order'⟩

theorem remembered_depth_differs :
    let calls := [.storeMessage (leafMessage 1 [] []), .storeMessage (leafMessage 2 [1] []),
      .analyze .stored evenReputation ⟨.replicate 1⟩, .storeMessage (leafMessage 3 [2] [])]
    let parameters := KCoreAnalyzer.new 1 2 0 0 []
    let session := sessionAfter parameters calls
    (analyze session.storage .stored evenReputation ⟨.replicate 1⟩ session.analyzer).1.isFinal = false ∧
      (analyze session.storage .stored evenReputation ⟨.replicate 1⟩ session.analyzer).1.depth = 1 ∧
      (freshResult session.storage .stored evenReputation ⟨.replicate 1⟩ parameters).isFinal = true ∧
      (freshResult session.storage .stored evenReputation ⟨.replicate 1⟩ parameters).depth = 2 := by
  refine ⟨?_, ?_, ?_, ?_⟩ <;> decide +kernel

end AdicProof.KCore
