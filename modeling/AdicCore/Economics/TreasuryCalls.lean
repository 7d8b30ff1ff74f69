import AdicCore.Economics.Balance
import AdicCore.Library.Calls

namespace AdicModel.Economics

structure MultisigConfig where
  signers : List AccountAddress
  threshold : UInt32
deriving DecidableEq

structure TreasuryProposal where
  id : Bytes32
  recipient : AccountAddress
  amount : AdicAmount
  reason : String
  proposer : AccountAddress
  approvals : Finset AccountAddress
  rejections : Finset AccountAddress
  executed : Bool
  createdAt : Int
  expiresAt : Int

namespace TreasuryProposal

def new (blake3 : List UInt8 → Bytes32) (now : Int) (recipient : AccountAddress) (amount : AdicAmount) (reason : String)
    (proposer : AccountAddress) : TreasuryProposal where
  id := blake3 (recipient.asBytes.bytes ++ toLeBytes amount.baseUnits.toNat ++ reason.toUTF8.toList ++ toLeBytes now)
  recipient := recipient
  amount := amount
  reason := reason
  proposer := proposer
  approvals := {proposer}
  rejections := ∅
  executed := false
  createdAt := now
  expiresAt := now + 7 * 24 * 3600

def isExpired (now : Int) (proposal : TreasuryProposal) : Bool := now > proposal.expiresAt

end TreasuryProposal

structure TreasuryManager (σ : Type) where
  balances : BalanceManager σ
  multisig : Option MultisigConfig
  proposals : HashMap.Table Bytes32 TreasuryProposal
  executedProposals : List Bytes32

namespace TreasuryManager

variable {σ : Type}

def new (balances : BalanceManager σ) : TreasuryManager σ := ⟨balances, none, ∅, []⟩

def onBalances {α : Type} (call : Call (BalanceManager σ) α) : Call (TreasuryManager σ) α := fun manager =>
  match call manager.balances with
  | .ok value balances => .ok value { manager with balances := balances }
  | .error error balances => .error error { manager with balances := balances }

def putProposal (proposalId : Bytes32) (proposal : TreasuryProposal) : Call (TreasuryManager σ) Unit :=
  modify fun manager => { manager with proposals := manager.proposals.insert proposalId proposal }

def initializeMultisig (signers : List AccountAddress) (threshold : UInt32) : Call (TreasuryManager σ) Unit := do
  if signers.isEmpty then throw .noSigners
  else if threshold = 0 ∨ threshold > UInt32.ofNat signers.length then throw (.invalidThreshold signers.length)
  else if signers.toFinset.card ≠ signers.length then throw .duplicateSigners
  else if (← get).multisig.isSome then throw .multisigInitialized
  else modify fun manager => { manager with multisig := some ⟨signers, threshold⟩ }

/-- One signer suffices, and the new signers may repeat. -/
def updateMultisig (newSigners : List AccountAddress) (newThreshold : UInt32) (approver : AccountAddress) :
    Call (TreasuryManager σ) Unit := do
  match (← get).multisig with
  | none => throw .multisigNotInitialized
  | some config =>
    if approver ∉ config.signers then throw .updateNotSigner
    else if newThreshold = 0 ∨ newThreshold > UInt32.ofNat newSigners.length then throw .invalidNewThreshold
    else modify fun manager => { manager with multisig := some ⟨newSigners, newThreshold⟩ }

def rejectProposal (proposalId : Bytes32) (rejector : AccountAddress) : Call (TreasuryManager σ) Unit := do
  match (← get).multisig with
  | none => throw .multisigNotInitialized
  | some config =>
    if rejector ∉ config.signers then throw .rejectNotSigner
    else
      match (← get).proposals.lookup proposalId with
      | none => throw .proposalNotFound
      | some proposal =>
        if proposal.executed then throw .proposalExecuted
        else putProposal proposalId { proposal with
          approvals := proposal.approvals.erase rejector
          rejections := insert rejector proposal.rejections }

variable [EconomicsStorage σ] (blake3 : List UInt8 → Bytes32) (now : Int)

def proposeTransfer (recipient : AccountAddress) (amount : AdicAmount) (reason : String) (proposer : AccountAddress) :
    Call (TreasuryManager σ) Bytes32 := do
  match (← get).multisig with
  | none => throw .multisigNotInitialized
  | some config =>
    if proposer ∉ config.signers then throw .proposeNotSigner
    else
      let balance ← onBalances (BalanceManager.getBalance now AccountAddress.treasury)
      if amount > balance then throw (.insufficientTreasury balance amount)
      else
        let proposal := TreasuryProposal.new blake3 now recipient amount reason proposer
        putProposal proposal.id proposal
        return proposal.id

/-- The last thousand executions are kept. -/
def executeProposalInternal (proposalId : Bytes32) (proposal : TreasuryProposal) : Call (TreasuryManager σ) Unit := do
  let _ ← onBalances (BalanceManager.getBalance now AccountAddress.treasury)
  let _ ← onBalances (BalanceManager.transfer blake3 now AccountAddress.treasury proposal.recipient proposal.amount)
  let _ ← onBalances (BalanceManager.getBalance now AccountAddress.treasury)
  putProposal proposalId { proposal with executed := true }
  modify fun manager =>
    let executed := manager.executedProposals ++ [proposal.id]
    { manager with executedProposals := if executed.length > 1000 then executed.drop 100 else executed }

/-- An approval stays when the execution fails. -/
def approveProposal (proposalId : Bytes32) (approver : AccountAddress) : Call (TreasuryManager σ) Bool := do
  match (← get).multisig with
  | none => throw .multisigNotInitialized
  | some config =>
    if approver ∉ config.signers then throw .approveNotSigner
    else
      match (← get).proposals.lookup proposalId with
      | none => throw .proposalNotFound
      | some proposal =>
        if proposal.executed then throw .proposalExecuted
        else if proposal.isExpired now then throw .proposalExpired
        else
          let approved := { proposal with
            rejections := proposal.rejections.erase approver
            approvals := insert approver proposal.approvals }
          putProposal proposalId approved
          if UInt32.ofNat approved.approvals.card ≥ config.threshold then
            executeProposalInternal blake3 now proposalId approved
            return true
          else return false

end TreasuryManager

end AdicModel.Economics

open AdicModel AdicModel.Economics Calls

namespace AdicProof.Economics

abbrev Desk : Type := Option MultisigConfig × HashMap.Table Bytes32 TreasuryProposal

section

variable {σ : Type}

def deskOf (manager : TreasuryManager σ) : Desk := (manager.multisig, manager.proposals)

def Leaves {ε τ υ α : Type} (view : τ → υ) (call : EStateM ε τ α) (state : τ) (after : υ) : Prop :=
  (∃ value, Returns view call state value after) ∨ Fails view call state after

theorem onBalances_leaves {α : Type} (call : Call (BalanceManager σ) α) (manager : TreasuryManager σ) :
    Leaves deskOf (TreasuryManager.onBalances call) manager (deskOf manager) := by
  unfold Leaves Returns Fails TreasuryManager.onBalances
  cases call manager.balances with
  | ok value balances => exact .inl ⟨value, _, rfl, rfl⟩
  | error error balances => exact .inr ⟨error, _, rfl, rfl⟩

theorem putProposal_returns (manager : TreasuryManager σ) (proposalId : Bytes32) (proposal : TreasuryProposal) :
    Returns deskOf (TreasuryManager.putProposal proposalId proposal) manager ()
      (manager.multisig, manager.proposals.insert proposalId proposal) := ⟨_, rfl, rfl⟩

variable {manager : TreasuryManager σ}

theorem initializeMultisig_leaves (signers : List AccountAddress) (threshold : UInt32) :
    Fails deskOf (TreasuryManager.initializeMultisig signers threshold) manager (deskOf manager) ∨
      manager.multisig = none ∧ Returns deskOf (TreasuryManager.initializeMultisig signers threshold) manager ()
        (some ⟨signers, threshold⟩, manager.proposals) := by
  unfold TreasuryManager.initializeMultisig
  split
  · exact .inl (fails_throw _ rfl)
  · split
    · exact .inl (fails_throw _ rfl)
    · split
      · exact .inl (fails_throw _ rfl)
      · cases multisig : manager.multisig with
        | none =>
          refine .inr ⟨rfl, Returns.get ?_⟩
          rw [multisig, Option.isSome_none, if_neg Bool.false_ne_true]
          exact ⟨_, rfl, rfl⟩
        | some config =>
          refine .inl (Fails.get ?_)
          rw [multisig, Option.isSome_some, if_pos rfl]
          exact fails_throw _ rfl

def UpdateAccepted (newSigners : List AccountAddress) (newThreshold : UInt32) (approver : AccountAddress)
    (config : MultisigConfig) : Prop :=
  approver ∈ config.signers ∧ ¬ (newThreshold = 0 ∨ newThreshold > UInt32.ofNat newSigners.length)

theorem updateMultisig_leaves (newSigners : List AccountAddress) (newThreshold : UInt32) (approver : AccountAddress) :
    Fails deskOf (TreasuryManager.updateMultisig newSigners newThreshold approver) manager (deskOf manager) ∨
      ∃ config, manager.multisig = some config ∧ UpdateAccepted newSigners newThreshold approver config ∧
        Returns deskOf (TreasuryManager.updateMultisig newSigners newThreshold approver) manager ()
          (some ⟨newSigners, newThreshold⟩, manager.proposals) := by
  unfold TreasuryManager.updateMultisig
  cases multisig : manager.multisig with
  | none =>
    refine .inl (Fails.get ?_)
    simp only [multisig]
    exact fails_throw _ rfl
  | some config =>
    by_cases signer : approver ∈ config.signers
    swap
    · refine .inl (Fails.get ?_)
      simp only [multisig, signer, not_false_eq_true, if_true]
      exact fails_throw _ rfl
    by_cases invalid : newThreshold = 0 ∨ newThreshold > UInt32.ofNat newSigners.length
    · refine .inl (Fails.get ?_)
      simp only [multisig, signer, not_true, if_false]
      rw [if_pos invalid]
      exact fails_throw _ rfl
    · refine .inr ⟨config, rfl, ⟨signer, invalid⟩, Returns.get ?_⟩
      simp only [multisig, signer, not_true, if_false]
      rw [if_neg invalid]
      exact ⟨_, rfl, rfl⟩

def rejectedBy (rejector : AccountAddress) (proposal : TreasuryProposal) : TreasuryProposal :=
  { proposal with
    approvals := proposal.approvals.erase rejector
    rejections := insert rejector proposal.rejections }

theorem rejectProposal_leaves (proposalId : Bytes32) (rejector : AccountAddress) :
    Fails deskOf (TreasuryManager.rejectProposal proposalId rejector) manager (deskOf manager) ∨
      ∃ config proposal, manager.multisig = some config ∧ manager.proposals.lookup proposalId = some proposal ∧
        proposal.executed = false ∧
        Returns deskOf (TreasuryManager.rejectProposal proposalId rejector) manager ()
          (manager.multisig, manager.proposals.insert proposalId (rejectedBy rejector proposal)) := by
  unfold TreasuryManager.rejectProposal
  cases multisig : manager.multisig with
  | none =>
    refine .inl (Fails.get ?_)
    simp only [multisig]
    exact fails_throw _ rfl
  | some config =>
    by_cases signer : rejector ∈ config.signers
    swap
    · refine .inl (Fails.get ?_)
      simp only [multisig, signer, not_false_eq_true, if_true]
      exact fails_throw _ rfl
    cases found : manager.proposals.lookup proposalId with
    | none =>
      refine .inl (Fails.get ?_)
      simp only [multisig, signer, not_true, if_false]
      refine Fails.get ?_
      simp only [found]
      exact fails_throw _ rfl
    | some proposal =>
      cases executed : proposal.executed with
      | true =>
        refine .inl (Fails.get ?_)
        simp only [multisig, signer, not_true, if_false]
        refine Fails.get ?_
        simp only [found, executed, if_true]
        exact fails_throw _ rfl
      | false =>
        refine .inr ⟨config, proposal, rfl, rfl, executed, Returns.get ?_⟩
        simp only [multisig, signer, not_true, if_false]
        refine Returns.get ?_
        simp only [found]
        rw [if_neg (by simp [executed])]
        have rejects := putProposal_returns manager proposalId (rejectedBy rejector proposal)
        rw [multisig] at rejects
        exact rejects

variable [EconomicsStorage σ] (blake3 : List UInt8 → Bytes32) (now : Int)

def ProposalAccepted (proposer : AccountAddress) (amount : AdicAmount) (manager : TreasuryManager σ) : Prop :=
  ∃ config balance balances, manager.multisig = some config ∧ proposer ∈ config.signers ∧
    BalanceManager.getBalance now AccountAddress.treasury manager.balances = .ok balance balances ∧ ¬ balance < amount

theorem proposeTransfer_leaves (recipient : AccountAddress) (amount : AdicAmount) (reason : String)
    (proposer : AccountAddress) :
    Fails deskOf (TreasuryManager.proposeTransfer blake3 now recipient amount reason proposer) manager
        (deskOf manager) ∨
      ProposalAccepted now proposer amount manager ∧
        Returns deskOf (TreasuryManager.proposeTransfer blake3 now recipient amount reason proposer) manager
          (TreasuryProposal.new blake3 now recipient amount reason proposer).id
          (manager.multisig, manager.proposals.insert (TreasuryProposal.new blake3 now recipient amount reason proposer).id
            (TreasuryProposal.new blake3 now recipient amount reason proposer)) := by
  unfold TreasuryManager.proposeTransfer
  cases multisig : manager.multisig with
  | none =>
    refine .inl (Fails.get ?_)
    simp only [multisig]
    exact fails_throw _ rfl
  | some config =>
    by_cases signer : proposer ∈ config.signers
    swap
    · refine .inl (Fails.get ?_)
      simp only [multisig, signer, not_false_eq_true, if_true]
      exact fails_throw _ rfl
    cases read : BalanceManager.getBalance now AccountAddress.treasury manager.balances with
    | error error balances =>
      refine .inl (Fails.get ?_)
      simp only [multisig, signer, not_true, if_false]
      refine Fails.bind ⟨error, { manager with balances := balances }, ?_, rfl⟩
      unfold TreasuryManager.onBalances
      rw [read]
    | ok balance balances =>
      have readRun : TreasuryManager.onBalances (BalanceManager.getBalance now AccountAddress.treasury) manager =
          .ok balance { manager with balances := balances } := by
        unfold TreasuryManager.onBalances
        rw [read]
      by_cases short : balance < amount
      · refine .inl (Fails.get ?_)
        simp only [multisig, signer, not_true, if_false]
        refine Fails.bind_of_run readRun ?_
        rw [if_pos short]
        exact fails_throw _ rfl
      · refine .inr ⟨⟨config, balance, balances, multisig, signer, read, short⟩, Returns.get ?_⟩
        simp only [multisig, signer, not_true, if_false]
        refine Returns.bind_of_run readRun ?_
        rw [if_neg short]
        refine (putProposal_returns _ _ _).bind fun last seen => returns_pure ?_
        rw [← multisig]
        exact seen

theorem executeProposalInternal_leaves (proposalId : Bytes32) (proposal : TreasuryProposal) :
    Fails deskOf (TreasuryManager.executeProposalInternal blake3 now proposalId proposal) manager (deskOf manager) ∨
      Returns deskOf (TreasuryManager.executeProposalInternal blake3 now proposalId proposal) manager ()
        (manager.multisig, manager.proposals.insert proposalId { proposal with executed := true }) := by
  unfold TreasuryManager.executeProposalInternal
  rcases onBalances_leaves (BalanceManager.getBalance now AccountAddress.treasury) manager with
    ⟨before, first, firstRun, firstSeen⟩ | failed
  swap
  · exact .inl failed.bind
  rcases onBalances_leaves (BalanceManager.transfer blake3 now AccountAddress.treasury proposal.recipient proposal.amount)
    first with ⟨txHash, second, secondRun, secondSeen⟩ | failed
  swap
  · rw [firstSeen] at failed
    exact .inl (Fails.bind_of_run firstRun failed.bind)
  rcases onBalances_leaves (BalanceManager.getBalance now AccountAddress.treasury) second with
    ⟨after, third, thirdRun, thirdSeen⟩ | failed
  swap
  · rw [secondSeen, firstSeen] at failed
    exact .inl (Fails.bind_of_run firstRun (Fails.bind_of_run secondRun failed.bind))
  refine .inr (Returns.bind_of_run firstRun (Returns.bind_of_run secondRun (Returns.bind_of_run thirdRun ?_)))
  refine (putProposal_returns third proposalId _).bind fun fourth fourthSeen => ⟨_, rfl, ?_⟩
  have same : deskOf third = deskOf manager := by rw [thirdSeen, secondSeen, firstSeen]
  have multisig : third.multisig = manager.multisig := congrArg Prod.fst same
  have proposals : third.proposals = manager.proposals := congrArg Prod.snd same
  rw [multisig, proposals] at fourthSeen
  exact fourthSeen

def approvedBy (approver : AccountAddress) (proposal : TreasuryProposal) : TreasuryProposal :=
  { proposal with
    rejections := proposal.rejections.erase approver
    approvals := insert approver proposal.approvals }

theorem approveProposal_leaves (proposalId : Bytes32) (approver : AccountAddress) :
    Fails deskOf (TreasuryManager.approveProposal blake3 now proposalId approver) manager (deskOf manager) ∨
      ∃ config proposal, manager.multisig = some config ∧ approver ∈ config.signers ∧
        manager.proposals.lookup proposalId = some proposal ∧ proposal.executed = false ∧
        (Fails deskOf (TreasuryManager.approveProposal blake3 now proposalId approver) manager
            (manager.multisig, manager.proposals.insert proposalId (approvedBy approver proposal)) ∨
          Returns deskOf (TreasuryManager.approveProposal blake3 now proposalId approver) manager false
            (manager.multisig, manager.proposals.insert proposalId (approvedBy approver proposal)) ∨
          config.threshold ≤ UInt32.ofNat (approvedBy approver proposal).approvals.card ∧
            Returns deskOf (TreasuryManager.approveProposal blake3 now proposalId approver) manager true
              (manager.multisig, (manager.proposals.insert proposalId (approvedBy approver proposal)).insert proposalId
                { approvedBy approver proposal with executed := true })) := by
  unfold TreasuryManager.approveProposal
  cases multisig : manager.multisig with
  | none =>
    refine .inl (Fails.get ?_)
    simp only [multisig]
    exact fails_throw _ rfl
  | some config =>
    by_cases signer : approver ∈ config.signers
    swap
    · refine .inl (Fails.get ?_)
      simp only [multisig, signer, not_false_eq_true, if_true]
      exact fails_throw _ rfl
    cases found : manager.proposals.lookup proposalId with
    | none =>
      refine .inl (Fails.get ?_)
      simp only [multisig, signer, not_true, if_false]
      refine Fails.get ?_
      simp only [found]
      exact fails_throw _ rfl
    | some proposal =>
      cases executed : proposal.executed with
      | true =>
        refine .inl (Fails.get ?_)
        simp only [multisig, signer, not_true, if_false]
        refine Fails.get ?_
        simp only [found, executed, if_true]
        exact fails_throw _ rfl
      | false =>
        cases expired : proposal.isExpired now with
        | true =>
          refine .inl (Fails.get ?_)
          simp only [multisig, signer, not_true, if_false]
          refine Fails.get ?_
          simp only [found, executed, expired, if_true, Bool.false_eq_true, if_false]
          exact fails_throw _ rfl
        | false =>
          refine .inr ⟨config, proposal, rfl, signer, rfl, executed, ?_⟩
          have counted := putProposal_returns manager proposalId (approvedBy approver proposal)
          rw [multisig] at counted
          rcases counted with ⟨put, counts, seen⟩
          have sameMultisig : put.multisig = some config := congrArg Prod.fst seen
          have sameProposals : put.proposals = manager.proposals.insert proposalId (approvedBy approver proposal) :=
            congrArg Prod.snd seen
          by_cases reached : config.threshold ≤ UInt32.ofNat (approvedBy approver proposal).approvals.card
          · have enough : UInt32.ofNat (insert approver proposal.approvals).card ≥ config.threshold := reached
            rcases @executeProposalInternal_leaves _ put _ blake3 now proposalId (approvedBy approver proposal) with
              fails | returns
            · rw [seen] at fails
              refine .inl (Fails.get ?_)
              simp only [multisig, signer, not_true, if_false]
              refine Fails.get ?_
              simp only [found]
              rw [if_neg (by simp [executed]), if_neg (by simp [expired])]
              refine Fails.bind_of_run counts ?_
              rw [if_pos enough]
              exact fails.bind
            · rw [sameMultisig, sameProposals] at returns
              refine .inr (.inr ⟨reached, Returns.get ?_⟩)
              simp only [multisig, signer, not_true, if_false]
              refine Returns.get ?_
              simp only [found]
              rw [if_neg (by simp [executed]), if_neg (by simp [expired])]
              refine Returns.bind_of_run counts ?_
              rw [if_pos enough]
              exact returns.bind fun last lastSeen => returns_pure lastSeen
          · have few : ¬ UInt32.ofNat (insert approver proposal.approvals).card ≥ config.threshold := reached
            refine .inr (.inl (Returns.get ?_))
            simp only [multisig, signer, not_true, if_false]
            refine Returns.get ?_
            simp only [found]
            rw [if_neg (by simp [executed]), if_neg (by simp [expired])]
            refine Returns.bind_of_run counts ?_
            rw [if_neg few]
            exact returns_pure seen

end

end AdicProof.Economics
