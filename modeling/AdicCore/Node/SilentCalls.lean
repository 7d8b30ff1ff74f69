import AdicCore.Node.AdicNode

open AdicModel AdicModel.Economics AdicModel.Consensus AdicModel.Finality AdicModel.Storage AdicModel.Node
open Calls

namespace AdicProof.Node

structure Record (σ B : Type) where
  storage : B
  reputation : ReputationTracker
  history : List (NodeEvent σ B)

def recordOf {σ B : Type} (node : AdicNode σ B) : Record σ B :=
  ⟨node.world.storage, node.world.reputation, node.world.history⟩

abbrev Keeps {σ B α : Type} (kept : Record σ B → Prop) (call : NodeCall σ B α) : Prop :=
  Triple (fun node => kept (recordOf node)) call (fun _ node => kept (recordOf node)) fun node => kept (recordOf node)

def Silent {σ B α : Type} (call : NodeCall σ B α) : Prop := ∀ node, recordOf (stateAfter call node) = recordOf node

section

variable {σ B α β : Type} {call : NodeCall σ B α} {rest : α → NodeCall σ B β}

theorem Silent.triple (silent : Silent call) (kept : Record σ B → Prop) : Keeps kept call := by
  intro node holds
  have same := silent node
  unfold stateAfter at same
  cases run : call node with
  | ok value next =>
    rw [run] at same
    show kept (recordOf next)
    rw [same]
    exact holds
  | error error next =>
    rw [run] at same
    show kept (recordOf next)
    rw [same]
    exact holds

theorem Silent.bind (first : Silent call) (second : ∀ value, Silent (rest value)) : Silent (call >>= rest) := by
  intro node
  apply related_bind (fun before after => recordOf after = recordOf before)
  · intro _ _ _ earlier later
    exact later.trans earlier
  · exact first node
  · exact fun value next _ => second value next

theorem silent_pure (value : α) : Silent (pure value : NodeCall σ B α) := fun _ => rfl

theorem silent_throw (error : NodeError) : Silent (throw error : NodeCall σ B α) := fun _ => rfl

theorem onBalances_silent (call : Call (BalanceManager σ) α) : Silent (onBalances call : NodeCall σ B α) := by
  intro node
  unfold stateAfter onBalances
  cases call node.world.balances with
  | ok value balances => rfl
  | error error balances => rfl

theorem onDeposits_silent (call : DepositCall σ α) : Silent (onDeposits call : NodeCall σ B α) := by
  intro node
  unfold stateAfter onDeposits
  cases call node.world.deposits with
  | ok value deposits => rfl
  | error error deposits => rfl

theorem adaptExcept_silent (silent : Silent call) (change : NodeError → NodeError) :
    Silent (EStateM.adaptExcept change call) := by
  intro node
  have same := silent node
  unfold stateAfter at same ⊢
  unfold EStateM.adaptExcept
  cases run : call node with
  | ok value next =>
    rw [run] at same
    exact same
  | error error next =>
    rw [run] at same
    exact same

theorem fromResult_silent (result : Except NodeError α) : Silent (fromResult result : NodeCall σ B α) := by
  cases result with
  | ok value => exact silent_pure value
  | error error => exact silent_throw error

theorem logged_silent (silent : Silent call) : Silent (logged call) := by
  intro node
  have same := silent node
  unfold stateAfter at same ⊢
  unfold logged
  cases run : call node with
  | ok value next =>
    rw [run] at same
    exact same
  | error error next =>
    rw [run] at same
    exact same

theorem addToFinality_silent (id : MessageId) : Silent (addToFinality id : NodeCall σ B Unit) := fun _ => rfl

end

section

variable {σ B α β : Type} {call : NodeCall σ B α} {rest : α → NodeCall σ B β}

def OnlyBalances (call : NodeCall σ B α) : Prop :=
  ∀ node, ∃ balances, stateAfter call node = { node with world := { node.world with balances } }

theorem OnlyBalances.silent (only : OnlyBalances call) : Silent call := by
  intro node
  obtain ⟨balances, same⟩ := only node
  rw [same]
  rfl

theorem OnlyBalances.bind (first : OnlyBalances call) (second : ∀ value, OnlyBalances (rest value)) :
    OnlyBalances (call >>= rest) := by
  intro node
  obtain ⟨balances, same⟩ := first node
  unfold stateAfter at same ⊢
  cases run : call node with
  | ok value next =>
    rw [run] at same
    change next = _ at same
    obtain ⟨last, ended⟩ := second value next
    refine ⟨last, ?_⟩
    rw [bind_ok run]
    refine ended.trans ?_
    rw [same]
  | error error next =>
    rw [run] at same
    refine ⟨balances, ?_⟩
    rw [bind_error run]
    exact same

theorem onlyBalances_get {next : AdicNode σ B → NodeCall σ B β} (only : ∀ current, OnlyBalances (next current)) :
    OnlyBalances (MonadState.get >>= next) := fun node => only node node

theorem onlyBalances_pure (value : α) : OnlyBalances (pure value : NodeCall σ B α) :=
  fun node => ⟨node.world.balances, rfl⟩

theorem onlyBalances_throw (error : NodeError) : OnlyBalances (throw error : NodeCall σ B α) :=
  fun node => ⟨node.world.balances, rfl⟩

theorem onBalances_onlyBalances (call : Call (BalanceManager σ) α) :
    OnlyBalances (onBalances call : NodeCall σ B α) := by
  intro node
  unfold stateAfter onBalances
  cases call node.world.balances with
  | ok value balances => exact ⟨balances, rfl⟩
  | error error balances => exact ⟨balances, rfl⟩

end

section

variable {σ B : Type} (setup : Setup) (outside : Outside σ B)

section

variable [EconomicsStorage σ]

theorem createEncodedFeatures_onlyBalances : OnlyBalances (createEncodedFeatures setup outside) :=
  (onBalances_onlyBalances _).bind fun _ => onlyBalances_pure _

theorem checkTransfer_onlyBalances (transfer : Option ValueTransfer) :
    OnlyBalances (checkTransfer outside transfer) := by
  cases transfer with
  | some t => exact onBalances_onlyBalances _
  | none => exact onlyBalances_pure _

theorem checkDeposit_silent (proposerPk : PublicKey) : Silent (checkDeposit setup outside proposerPk) := by
  refine (adaptExcept_silent (onBalances_silent _) _).bind fun balance => ?_
  split
  · exact silent_throw _
  · exact silent_pure _

variable [StorageBackend B]

theorem tipFeatures_onlyBalances (tips : List MessageId) : OnlyBalances (tipFeatures setup outside tips) := by
  apply onlyBalances_get
  intro node
  dsimp only
  split
  · exact onlyBalances_pure _
  · exact createEncodedFeatures_onlyBalances setup outside

theorem explicitFeatures_onlyBalances (parents : List MessageId) (features : Option SubmitFeatures) :
    OnlyBalances (explicitFeatures setup outside parents features) := by
  cases features with
  | some features => exact onlyBalances_pure _
  | none =>
    apply onlyBalances_get
    intro node
    dsimp only
    split
    · exact createEncodedFeatures_onlyBalances setup outside
    · exact onlyBalances_pure _

end

theorem selectParents_onlyBalances [StorageBackend B] (features : AdicFeatures) (tips : List MessageId) :
    OnlyBalances (selectParents setup outside features tips) := by
  apply onlyBalances_get
  intro node
  dsimp only
  split
  · split
    · exact onlyBalances_pure _
    · exact onlyBalances_throw _
  · split
    · exact onlyBalances_pure _
    · exact onlyBalances_throw _

end

end AdicProof.Node
