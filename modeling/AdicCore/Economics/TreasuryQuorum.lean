import AdicCore.Economics.Coherence
import AdicCore.Economics.TreasuryCalls

open AdicModel AdicModel.Economics Calls

namespace AdicProof.Economics

inductive TreasuryOperation (σ : Type) where
  | initializeMultisig (signers : List AccountAddress) (threshold : UInt32)
  | updateMultisig (newSigners : List AccountAddress) (newThreshold : UInt32) (approver : AccountAddress)
  | proposeTransfer (recipient : AccountAddress) (amount : AdicAmount) (reason : String) (proposer : AccountAddress)
  | approveProposal (proposalId : Bytes32) (approver : AccountAddress)
  | rejectProposal (proposalId : Bytes32) (rejector : AccountAddress)
  | balances (used : BalanceManager σ)

structure Payout where
  proposalId : Bytes32
  approvals : Finset AccountAddress
  config : MultisigConfig
deriving DecidableEq

def Payout.Quorate (payout : Payout) : Prop :=
  payout.config.threshold.toNat ≤ (payout.approvals ∩ payout.config.signers.toFinset).card

def QuorateOnce (payouts : List Payout) : Prop :=
  (∀ payout ∈ payouts, payout.Quorate) ∧ (payouts.map Payout.proposalId).Nodup

section

structure Orderly (desk : Desk) (payouts : List Payout) : Prop where
  opened : desk.1 = none → ∀ proposalId, desk.2.lookup proposalId = none
  current : ∀ config proposalId proposal, desk.1 = some config → desk.2.lookup proposalId = some proposal →
    proposal.executed = false → proposal.approvals ⊆ config.signers.toFinset
  settled : ∀ payout ∈ payouts, ∃ proposal, desk.2.lookup payout.proposalId = some proposal ∧ proposal.executed = true
  quorate : QuorateOnce payouts

variable {desk : Desk} {payouts : List Payout} {config : MultisigConfig} {proposalId : Bytes32}
  {proposal : TreasuryProposal}

theorem Orderly.new : Orderly (none, ∅) [] where
  opened := fun _ _ => rfl
  current := fun _ _ _ _ found => nomatch found
  settled := fun _ member => nomatch member
  quorate := ⟨fun _ member => (nomatch member), List.nodup_nil⟩

theorem Orderly.appoint (orderly : Orderly desk payouts)
    (kept : ∀ proposalId proposal, desk.2.lookup proposalId = some proposal → proposal.executed = false →
      proposal.approvals ⊆ config.signers.toFinset) : Orderly (some config, desk.2) payouts where
  opened := fun vacant => nomatch vacant
  current := by
    intro appointed other stored same found pending
    cases same
    exact kept other stored found pending
  settled := orderly.settled
  quorate := orderly.quorate

theorem Orderly.store (orderly : Orderly desk payouts) (appointed : desk.1 = some config)
    (approvers : proposal.approvals ⊆ config.signers.toFinset)
    (fresh : ∀ old, desk.2.lookup proposalId = some old → old.executed = false) :
    Orderly (desk.1, desk.2.insert proposalId proposal) payouts where
  opened := by
    intro vacant
    rw [appointed] at vacant
    cases vacant
  current := by
    intro other otherId stored same found unexecuted
    rw [HashMap.lookup_insert_eq] at found
    split at found
    · rw [appointed] at same
      cases same
      cases found
      exact approvers
    · exact orderly.current other otherId stored same found unexecuted
  settled := by
    intro payout member
    rcases orderly.settled payout member with ⟨stored, found, executed⟩
    have different : payout.proposalId ≠ proposalId := by
      intro same
      rw [same] at found
      rw [fresh stored found] at executed
      cases executed
    refine ⟨stored, ?_, executed⟩
    rw [HashMap.lookup_insert_eq, if_neg different]
    exact found
  quorate := orderly.quorate

theorem Orderly.execute (orderly : Orderly desk payouts) (appointed : desk.1 = some config)
    (found : desk.2.lookup proposalId = some proposal) (pending : proposal.executed = false)
    (reached : config.threshold ≤ UInt32.ofNat proposal.approvals.card) :
    Orderly (desk.1, desk.2.insert proposalId { proposal with executed := true })
      (payouts ++ [⟨proposalId, proposal.approvals, config⟩]) where
  opened := by
    intro vacant
    rw [appointed] at vacant
    cases vacant
  current := by
    intro other otherId stored same present unexecuted
    rw [HashMap.lookup_insert_eq] at present
    split at present
    · cases present
      cases unexecuted
    · exact orderly.current other otherId stored same present unexecuted
  settled := by
    intro payout member
    rw [HashMap.lookup_insert_eq]
    split
    · exact ⟨_, rfl, rfl⟩
    · next different =>
      rcases List.mem_append.mp member with earlier | last
      · exact orderly.settled payout earlier
      · rw [List.mem_singleton] at last
        rw [last] at different
        exact absurd rfl different
  quorate := by
    constructor
    · intro payout member
      rcases List.mem_append.mp member with earlier | last
      · exact orderly.quorate.1 payout earlier
      · rw [List.mem_singleton] at last
        subst last
        have approvers := orderly.current config proposalId proposal appointed found pending
        unfold Payout.Quorate
        rw [Finset.inter_eq_left.mpr approvers]
        have counted : config.threshold.toNat ≤ proposal.approvals.card % 2 ^ 32 := by
          simpa [UInt32.le_iff_toNat_le] using reached
        exact counted.trans (Nat.mod_le _ _)
    · rw [List.map_append, List.map_singleton]
      refine List.nodup_append.mpr ⟨orderly.quorate.2, List.nodup_singleton _, ?_⟩
      intro paid earlier other last
      rw [List.mem_singleton] at last
      rcases List.mem_map.mp earlier with ⟨payout, member, rfl⟩
      rcases orderly.settled payout member with ⟨stored, present, executed⟩
      rw [last]
      intro same
      rw [same, found] at present
      cases present
      rw [pending] at executed
      cases executed

end

section

variable {σ : Type} [EconomicsStorage σ] (blake3 : List UInt8 → Bytes32)

abbrev Treasury (σ : Type) : Type := TreasuryManager σ × List Payout

def payoutOf (proposalId : Bytes32) (manager : TreasuryManager σ) : List Payout :=
  match manager.multisig, manager.proposals.lookup proposalId with
  | some config, some proposal => [⟨proposalId, proposal.approvals, config⟩]
  | _, _ => []

def nextTreasury (treasury : Treasury σ) : TreasuryOperation σ × Int → Treasury σ
  | (.initializeMultisig signers threshold, _) =>
    (stateAfter (TreasuryManager.initializeMultisig signers threshold) treasury.1, treasury.2)
  | (.updateMultisig newSigners newThreshold approver, _) =>
    (stateAfter (TreasuryManager.updateMultisig newSigners newThreshold approver) treasury.1, treasury.2)
  | (.proposeTransfer recipient amount reason proposer, now) =>
    (stateAfter (TreasuryManager.proposeTransfer blake3 now recipient amount reason proposer) treasury.1, treasury.2)
  | (.approveProposal proposalId approver, now) =>
    match TreasuryManager.approveProposal blake3 now proposalId approver treasury.1 with
    | .ok true next => (next, treasury.2 ++ payoutOf proposalId next)
    | .ok false next => (next, treasury.2)
    | .error _ next => (next, treasury.2)
  | (.rejectProposal proposalId rejector, _) =>
    (stateAfter (TreasuryManager.rejectProposal proposalId rejector) treasury.1, treasury.2)
  | (.balances used, _) => ({ treasury.1 with balances := used }, treasury.2)

def treasuryAfter (balances : BalanceManager σ) (calls : List (TreasuryOperation σ × Int)) : Treasury σ :=
  Runs.after (nextTreasury blake3) (TreasuryManager.new balances, []) calls

/-- An update keeps the signers who have approved something open, and a proposal does not take the id of an executed
    one. -/
def TreasuryOperation.Steady (manager : TreasuryManager σ) : TreasuryOperation σ × Int → Prop
  | (.updateMultisig newSigners newThreshold approver, _) =>
    ∀ config, manager.multisig = some config → UpdateAccepted newSigners newThreshold approver config →
      ∀ proposalId proposal, manager.proposals.lookup proposalId = some proposal → proposal.executed = false →
        proposal.approvals ⊆ newSigners.toFinset
  | (.proposeTransfer recipient amount reason proposer, now) =>
    ProposalAccepted now proposer amount manager →
      ∀ old, manager.proposals.lookup (TreasuryProposal.new blake3 now recipient amount reason proposer).id = some old →
        old.executed = false
  | _ => True

variable {manager : TreasuryManager σ} {payouts : List Payout}

theorem orderly_nextTreasury (orderly : Orderly (deskOf manager) payouts) (call : TreasuryOperation σ × Int)
    (steady : TreasuryOperation.Steady blake3 manager call) :
    Orderly (deskOf (nextTreasury blake3 (manager, payouts) call).1)
      (nextTreasury blake3 (manager, payouts) call).2 := by
  obtain ⟨operation, now⟩ := call
  cases operation with
  | initializeMultisig signers threshold =>
    unfold nextTreasury
    rcases @initializeMultisig_leaves _ manager signers threshold with fails | ⟨vacant, returns⟩
    · rw [fails.stateAfter]
      exact orderly
    · rw [returns.stateAfter]
      refine orderly.appoint fun proposalId proposal found _ => ?_
      rw [orderly.opened vacant proposalId] at found
      cases found
  | updateMultisig newSigners newThreshold approver =>
    unfold nextTreasury
    rcases @updateMultisig_leaves _ manager newSigners newThreshold approver with
      fails | ⟨config, appointed, accepted, returns⟩
    · rw [fails.stateAfter]
      exact orderly
    · rw [returns.stateAfter]
      exact orderly.appoint (steady config appointed accepted)
  | proposeTransfer recipient amount reason proposer =>
    unfold nextTreasury
    rcases @proposeTransfer_leaves _ manager _ blake3 now recipient amount reason proposer with
      fails | ⟨accepted, returns⟩
    · rw [fails.stateAfter]
      exact orderly
    · rw [returns.stateAfter]
      have ⟨config, _, _, appointed, signer, _⟩ := accepted
      refine orderly.store appointed ?_ (steady accepted)
      intro approver approves
      have proposes : approver = proposer := Finset.mem_singleton.mp approves
      rw [proposes, List.mem_toFinset]
      exact signer
  | approveProposal proposalId approver =>
    rcases @approveProposal_leaves _ manager _ blake3 now proposalId approver with
      ⟨error, next, run, seen⟩ | ⟨config, proposal, appointed, signer, found, pending, effect⟩
    · simp only [nextTreasury, run]
      rw [seen]
      exact orderly
    · have counted : Orderly (manager.multisig, manager.proposals.insert proposalId (approvedBy approver proposal))
          payouts := by
        refine orderly.store appointed ?_ ?_
        · refine Finset.insert_subset (List.mem_toFinset.mpr signer) ?_
          exact orderly.current config proposalId proposal appointed found pending
        · intro old same
          rw [show (deskOf manager).2 = manager.proposals from rfl, found] at same
          cases same
          exact pending
      rcases effect with ⟨error, next, run, seen⟩ | ⟨next, run, seen⟩ | ⟨reached, next, run, seen⟩
      · simp only [nextTreasury, run]
        rw [seen]
        exact counted
      · simp only [nextTreasury, run]
        rw [seen]
        exact counted
      · have executed := counted.execute appointed (AList.lookup_insert _) pending reached
        have paid : payoutOf proposalId next = [⟨proposalId, (approvedBy approver proposal).approvals, config⟩] := by
          have multisig : next.multisig = some config := (congrArg Prod.fst seen).trans appointed
          have proposals : next.proposals.lookup proposalId = some { approvedBy approver proposal with executed := true } :=
            (congrArg (fun desk : Desk => desk.2.lookup proposalId) seen).trans (AList.lookup_insert _)
          simp only [payoutOf, multisig, proposals]
        simp only [nextTreasury, run, paid]
        rw [seen]
        exact executed
  | rejectProposal proposalId rejector =>
    unfold nextTreasury
    rcases @rejectProposal_leaves _ manager proposalId rejector with
      fails | ⟨config, proposal, appointed, found, pending, returns⟩
    · rw [fails.stateAfter]
      exact orderly
    · rw [returns.stateAfter]
      refine orderly.store appointed ?_ ?_
      · exact (Finset.erase_subset _ _).trans (orderly.current config proposalId proposal appointed found pending)
      · intro old same
        rw [show (deskOf manager).2 = manager.proposals from rfl, found] at same
        cases same
        exact pending
  | balances used => exact orderly

/-- In a run of steady calls every payout has a quorum of the signers in force, and no proposal is paid out twice. -/
theorem payouts_quorate (balances : BalanceManager σ) (calls : List (TreasuryOperation σ × Int))
    (steady : ∀ before call, before ++ [call] <+: calls →
      TreasuryOperation.Steady blake3 (treasuryAfter blake3 balances before).1 call) :
    ∀ before, before <+: calls → QuorateOnce (treasuryAfter blake3 balances before).2 := by
  have orderly : ∀ before, before <+: calls →
      Orderly (deskOf (treasuryAfter blake3 balances before).1) (treasuryAfter blake3 balances before).2 := by
    refine Runs.forall_prefixes Orderly.new ?_
    intro before call part earlier
    unfold treasuryAfter at earlier ⊢
    rw [Runs.after_snoc]
    exact orderly_nextTreasury blake3 earlier call (steady before call part)
  exact fun before part => (orderly before part).quorate

end

def endowed (amount : AdicAmount) : BalanceManager MemoryStorage :=
  BalanceManager.new { MemoryStorage.new with
    balances := (∅ : BalanceMap).insert AccountAddress.treasury amount }

def twoOfTwo : List (TreasuryOperation MemoryStorage × Int) :=
  [(.initializeMultisig [account 1, account 2] 2, 0), (.proposeTransfer (account 5) ⟨3⟩ "grant" (account 1), 0),
    (.approveProposal (Bytes32.replicate 0) (account 2), 1)]

theorem payouts_quorate_approval : (treasuryAfter (fun _ => Bytes32.replicate 0) (endowed ⟨9⟩) twoOfTwo).2.length = 1 ∧
    ∀ before, before <+: twoOfTwo →
      QuorateOnce (treasuryAfter (fun _ => Bytes32.replicate 0) (endowed ⟨9⟩) before).2 := by
  refine ⟨by decide +kernel, payouts_quorate _ (endowed ⟨9⟩) twoOfTwo ?_⟩
  refine Runs.forall_steps_cons.mpr ⟨trivial, Runs.forall_steps_cons.mpr ⟨?_,
    Runs.forall_steps_cons.mpr ⟨trivial, Runs.forall_steps_nil⟩⟩⟩
  intro _ old found
  cases found

/-- The approval of a former signer counts. -/
theorem former_signer_counts : ¬ QuorateOnce (treasuryAfter (fun _ => Bytes32.replicate 0) (endowed ⟨9⟩)
    [(.initializeMultisig [account 1, account 2] 2, 0), (.proposeTransfer (account 5) ⟨3⟩ "grant" (account 1), 0),
      (.updateMultisig [account 2, account 3] 2 (account 1), 0),
      (.approveProposal (Bytes32.replicate 0) (account 2), 1)]).2 := by
  have payouts : (treasuryAfter (fun _ => Bytes32.replicate 0) (endowed ⟨9⟩)
      [(.initializeMultisig [account 1, account 2] 2, 0), (.proposeTransfer (account 5) ⟨3⟩ "grant" (account 1), 0),
        (.updateMultisig [account 2, account 3] 2 (account 1), 0),
        (.approveProposal (Bytes32.replicate 0) (account 2), 1)]).2 =
      [⟨Bytes32.replicate 0, {account 2, account 1}, ⟨[account 2, account 3], 2⟩⟩] := by decide +kernel
  intro once
  rw [payouts] at once
  have quorate : 2 ≤ 1 := once.1 _ List.mem_cons_self
  omega

end AdicProof.Economics
