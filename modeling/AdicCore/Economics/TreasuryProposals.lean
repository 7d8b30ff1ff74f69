import AdicCore.Economics.TreasuryQuorum
import AdicCore.Economics.Amounts
import AdicCore.Library.ByteKeys

open AdicModel AdicModel.Economics Calls

namespace AdicProof.Economics

theorem ok_of_run' {ε τ α : Type} {call : EStateM ε τ α} {state : τ} {value : α}
    (returned : EStateM.run' call state = some value) : ∃ next, call state = .ok value next := by
  unfold EStateM.run' EStateM.run at returned
  cases run : call state with
  | ok result next =>
    rw [run] at returned
    cases returned
    exact ⟨next, rfl⟩
  | error error next =>
    rw [run] at returned
    cases returned

def proposalBytes (recipient : AccountAddress) (amount : AdicAmount) (reason : String) (now : Int) : List UInt8 :=
  recipient.asBytes.bytes ++ toLeBytes amount.baseUnits.toNat ++ reason.toUTF8.toList ++ toLeBytes now

def SameSecond (first second : Int) : Prop := first % 2 ^ 64 = second % 2 ^ 64

theorem proposalBytes_inj {recipient other : AccountAddress} {amount otherAmount : AdicAmount}
    {reason otherReason : String} {now later : Int} :
    proposalBytes recipient amount reason now = proposalBytes other otherAmount otherReason later ↔
      recipient = other ∧ amount = otherAmount ∧ reason = otherReason ∧ SameSecond now later := by
  unfold proposalBytes SameSecond
  constructor
  · intro same
    have ⟨start, seconds⟩ := List.append_inj' same ((toLeBytes_length _).trans (toLeBytes_length _).symm)
    rw [List.append_assoc, List.append_assoc] at start
    have ⟨recipients, rest⟩ := List.append_inj start (recipient.asBytes.size.trans other.asBytes.size.symm)
    have ⟨amounts, reasons⟩ := List.append_inj rest ((toLeBytes_length _).trans (toLeBytes_length _).symm)
    refine ⟨?_, ?_, ByteKeys.toUTF8_toList_injective reasons, toLeBytes_inj.mp seconds⟩
    · rcases recipient with ⟨⟨bytes, size⟩⟩
      rcases other with ⟨⟨otherBytes, otherSize⟩⟩
      cases recipients
      rfl
    · rw [toLeBytes_inj] at amounts
      have bound := units_lt amount
      have otherBound := units_lt otherAmount
      apply units_injective
      unfold units at bound otherBound ⊢
      omega
  · rintro ⟨rfl, rfl, rfl, seconds⟩
    rw [toLeBytes_inj.mpr seconds]

section

variable {σ : Type} [EconomicsStorage σ] (blake3 : List UInt8 → Bytes32)

def requestedBytes (calls : List (TreasuryOperation σ × Int)) : Set (List UInt8) :=
  {bytes | ∃ recipient amount reason proposer now,
    (.proposeTransfer recipient amount reason proposer, now) ∈ calls ∧ bytes = proposalBytes recipient amount reason now}

def StoredAnew (manager : TreasuryManager σ) : TreasuryOperation σ × Int → Prop
  | (.proposeTransfer recipient amount reason proposer, now) =>
    ∀ proposalId next,
      TreasuryManager.proposeTransfer blake3 now recipient amount reason proposer manager = .ok proposalId next →
        manager.proposals.lookup proposalId = none ∧
          ∀ other proposal, manager.proposals.lookup other = some proposal →
            next.proposals.lookup other = some proposal
  | _ => True

def Unlike (manager : TreasuryManager σ) : TreasuryOperation σ × Int → Prop
  | (.proposeTransfer recipient amount reason proposer, now) =>
    ProposalAccepted now proposer amount manager →
      ∀ other proposal, manager.proposals.lookup other = some proposal →
        ¬ (proposal.recipient = recipient ∧ proposal.amount = amount ∧ proposal.reason = reason ∧
          SameSecond proposal.createdAt now)
  | _ => True

def Identified (calls : List (TreasuryOperation σ × Int)) (desk : Desk) : Prop :=
  ∀ proposalId proposal, desk.2.lookup proposalId = some proposal →
    proposalId = blake3 (proposalBytes proposal.recipient proposal.amount proposal.reason proposal.createdAt) ∧
      proposalBytes proposal.recipient proposal.amount proposal.reason proposal.createdAt ∈ requestedBytes calls

variable {blake3} {calls : List (TreasuryOperation σ × Int)} {desk : Desk} {multisig : Option MultisigConfig}
  {proposalId : Bytes32} {proposal : TreasuryProposal}

omit [EconomicsStorage σ] in
theorem Identified.store (identified : Identified blake3 calls desk)
    (own : proposalId = blake3 (proposalBytes proposal.recipient proposal.amount proposal.reason proposal.createdAt))
    (requested : proposalBytes proposal.recipient proposal.amount proposal.reason proposal.createdAt ∈
      requestedBytes calls) : Identified blake3 calls (multisig, desk.2.insert proposalId proposal) := by
  intro other stored found
  rw [HashMap.lookup_insert_eq] at found
  split at found
  · next same =>
    cases found
    rw [same]
    exact ⟨own, requested⟩
  · exact identified other stored found

omit [EconomicsStorage σ] in
theorem Identified.revise (identified : Identified blake3 calls desk) (found : desk.2.lookup proposalId = some proposal)
    {revised : TreasuryProposal}
    (same : proposalBytes revised.recipient revised.amount revised.reason revised.createdAt =
      proposalBytes proposal.recipient proposal.amount proposal.reason proposal.createdAt) :
    Identified blake3 calls (multisig, desk.2.insert proposalId revised) := by
  have ⟨own, requested⟩ := identified proposalId proposal found
  rw [← same] at own requested
  exact identified.store own requested

variable (blake3) {manager : TreasuryManager σ} {payouts : List Payout}

theorem identified_nextTreasury (identified : Identified blake3 calls (deskOf manager))
    (call : TreasuryOperation σ × Int) (called : call ∈ calls) :
    Identified blake3 calls (deskOf (nextTreasury blake3 (manager, payouts) call).1) := by
  obtain ⟨operation, now⟩ := call
  cases operation with
  | initializeMultisig signers threshold =>
    unfold nextTreasury
    rcases @initializeMultisig_leaves _ manager signers threshold with fails | ⟨_, returns⟩
    · rw [fails.stateAfter]
      exact identified
    · rw [returns.stateAfter]
      exact identified
  | updateMultisig newSigners newThreshold approver =>
    unfold nextTreasury
    rcases @updateMultisig_leaves _ manager newSigners newThreshold approver with fails | ⟨_, _, _, returns⟩
    · rw [fails.stateAfter]
      exact identified
    · rw [returns.stateAfter]
      exact identified
  | proposeTransfer recipient amount reason proposer =>
    unfold nextTreasury
    rcases @proposeTransfer_leaves _ manager _ blake3 now recipient amount reason proposer with fails | ⟨_, returns⟩
    · rw [fails.stateAfter]
      exact identified
    · rw [returns.stateAfter]
      exact identified.store rfl ⟨recipient, amount, reason, proposer, now, called, rfl⟩
  | approveProposal proposalId approver =>
    rcases @approveProposal_leaves _ manager _ blake3 now proposalId approver with
      ⟨error, next, run, seen⟩ | ⟨config, proposal, _, _, found, _, effect⟩
    · simp only [nextTreasury, run]
      rw [seen]
      exact identified
    · have counted : Identified blake3 calls
          (manager.multisig, manager.proposals.insert proposalId (approvedBy approver proposal)) :=
        identified.revise found rfl
      rcases effect with ⟨error, next, run, seen⟩ | ⟨next, run, seen⟩ | ⟨_, next, run, seen⟩
      · simp only [nextTreasury, run]
        rw [seen]
        exact counted
      · simp only [nextTreasury, run]
        rw [seen]
        exact counted
      · simp only [nextTreasury, run]
        rw [seen]
        exact counted.revise (AList.lookup_insert _) rfl
  | rejectProposal proposalId rejector =>
    unfold nextTreasury
    rcases @rejectProposal_leaves _ manager proposalId rejector with fails | ⟨_, proposal, _, found, _, returns⟩
    · rw [fails.stateAfter]
      exact identified
    · rw [returns.stateAfter]
      exact identified.revise found rfl
  | balances used => exact identified

theorem proposeTransfer_accepted {now : Int} {proposer : AccountAddress} {amount : AdicAmount}
    (accepted : ProposalAccepted now proposer amount manager) (recipient : AccountAddress) (reason : String) :
    ∃ proposalId last,
      TreasuryManager.proposeTransfer blake3 now recipient amount reason proposer manager = .ok proposalId last := by
  rcases accepted with ⟨config, balance, balances, multisig, signer, read, enough⟩
  have readRun : TreasuryManager.onBalances (BalanceManager.getBalance now AccountAddress.treasury) manager =
      .ok balance { manager with balances := balances } := by
    unfold TreasuryManager.onBalances
    rw [read]
  unfold TreasuryManager.proposeTransfer
  rw [bind_get, multisig]
  dsimp only
  rw [if_neg (not_not.mpr signer), bind_ok readRun, if_neg enough]
  exact ⟨_, _, rfl⟩

theorem storedAnew_iff (identified : Identified blake3 calls (deskOf manager)) (call : TreasuryOperation σ × Int)
    (called : call ∈ calls) (injective : Set.InjOn blake3 (requestedBytes calls)) :
    StoredAnew blake3 manager call ↔ Unlike manager call := by
  obtain ⟨operation, now⟩ := call
  cases operation with
  | proposeTransfer recipient amount reason proposer =>
    have requested : proposalBytes recipient amount reason now ∈ requestedBytes calls :=
      ⟨recipient, amount, reason, proposer, now, called, rfl⟩
    have alike : ∀ other proposal, manager.proposals.lookup other = some proposal →
        (other = blake3 (proposalBytes recipient amount reason now) ↔ proposal.recipient = recipient ∧
          proposal.amount = amount ∧ proposal.reason = reason ∧ SameSecond proposal.createdAt now) := by
      intro other proposal found
      have ⟨own, stored⟩ := identified other proposal found
      rw [← proposalBytes_inj, own]
      exact injective.eq_iff stored requested
    unfold StoredAnew Unlike
    rcases @proposeTransfer_leaves _ manager _ blake3 now recipient amount reason proposer with
      ⟨error, last, run, seen⟩ | ⟨accepted, last, run, seen⟩
    · constructor
      · intro _ accepted
        rcases proposeTransfer_accepted blake3 accepted recipient reason with ⟨proposalId, next, succeeded⟩
        rw [run] at succeeded
        cases succeeded
      · intro _ proposalId next succeeded
        rw [run] at succeeded
        cases succeeded
    · constructor
      · intro anew _ other proposal found same
        have own := (alike other proposal found).mpr same
        have vacant := (anew _ last run).1
        rw [own] at found
        rw [show (TreasuryProposal.new blake3 now recipient amount reason proposer).id =
          blake3 (proposalBytes recipient amount reason now) from rfl, found] at vacant
        cases vacant
      · intro unlike proposalId next succeeded
        rw [run] at succeeded
        cases succeeded
        have different : ∀ other proposal, manager.proposals.lookup other = some proposal →
            other ≠ blake3 (proposalBytes recipient amount reason now) := by
          intro other proposal found same
          exact unlike accepted other proposal found ((alike other proposal found).mp same)
        constructor
        · cases found : manager.proposals.lookup (TreasuryProposal.new blake3 now recipient amount reason proposer).id with
          | none => rfl
          | some proposal => exact (different _ proposal found rfl).elim
        · intro other proposal found
          have proposals : last.proposals = _ := congrArg Prod.snd seen
          rw [proposals, HashMap.lookup_insert_eq, if_neg]
          · exact found
          · exact different other proposal found
  | initializeMultisig signers threshold => exact Iff.rfl
  | updateMultisig newSigners newThreshold approver => exact Iff.rfl
  | approveProposal proposalId approver => exact Iff.rfl
  | rejectProposal proposalId rejector => exact Iff.rfl
  | balances used => exact Iff.rfl

/-- No proposal is lost over a run exactly if no transfer is proposed again in the second of its proposal. -/
theorem proposals_kept_iff (balances : BalanceManager σ) (calls : List (TreasuryOperation σ × Int))
    (injective : Set.InjOn blake3 (requestedBytes calls)) :
    (∀ before call, before ++ [call] <+: calls →
        StoredAnew blake3 (treasuryAfter blake3 balances before).1 call) ↔
      ∀ before call, before ++ [call] <+: calls → Unlike (treasuryAfter blake3 balances before).1 call := by
  have identified : ∀ before, before <+: calls →
      Identified blake3 calls (deskOf (treasuryAfter blake3 balances before).1) := by
    refine Runs.forall_prefixes ?_ ?_
    · intro proposalId proposal found
      cases found
    · intro before call part earlier
      have called : call ∈ calls := part.subset (List.mem_append_right _ List.mem_cons_self)
      unfold treasuryAfter at earlier ⊢
      rw [Runs.after_snoc]
      exact identified_nextTreasury blake3 earlier call called
  refine forall_congr' fun before => forall_congr' fun call => forall_congr' fun part => ?_
  exact storedAnew_iff blake3 (identified before ((List.prefix_append before [call]).trans part)) call
    (part.subset (List.mem_append_right _ List.mem_cons_self)) injective

end

def secondHash (bytes : List UInt8) : Bytes32 := Bytes32.replicate (bytes.getD 45 0)

def twoSeconds : List (TreasuryOperation MemoryStorage × Int) :=
  [(.initializeMultisig [account 1, account 2] 2, 0), (.proposeTransfer (account 5) ⟨3⟩ "grant" (account 1), 0),
    (.approveProposal (Bytes32.replicate 0) (account 2), 0), (.proposeTransfer (account 5) ⟨3⟩ "grant" (account 2), 1)]

theorem proposals_kept_seconds :
    (treasuryAfter secondHash (endowed ⟨9⟩) twoSeconds).1.proposals.keys = [Bytes32.replicate 1, Bytes32.replicate 0] ∧
      ((∀ before call, before ++ [call] <+: twoSeconds →
          StoredAnew secondHash (treasuryAfter secondHash (endowed ⟨9⟩) before).1 call) ↔
        ∀ before call, before ++ [call] <+: twoSeconds →
          Unlike (treasuryAfter secondHash (endowed ⟨9⟩) before).1 call) := by
  refine ⟨by decide +kernel, proposals_kept_iff secondHash (endowed ⟨9⟩) twoSeconds ?_⟩
  rintro first ⟨recipient, amount, reason, proposer, now, called, rfl⟩ second
    ⟨otherRecipient, otherAmount, otherReason, otherProposer, later, otherCalled, rfl⟩ same
  simp only [twoSeconds, List.mem_cons, Prod.mk.injEq, reduceCtorEq, TreasuryOperation.proposeTransfer.injEq, false_and,
    false_or, List.not_mem_nil, or_false] at called otherCalled
  rcases called with ⟨⟨rfl, rfl, rfl, rfl⟩, rfl⟩ | ⟨⟨rfl, rfl, rfl, rfl⟩, rfl⟩
  · rcases otherCalled with ⟨⟨rfl, rfl, rfl, rfl⟩, rfl⟩ | ⟨⟨rfl, rfl, rfl, rfl⟩, rfl⟩
    · rfl
    · exact absurd same (by decide +kernel)
  · rcases otherCalled with ⟨⟨rfl, rfl, rfl, rfl⟩, rfl⟩ | ⟨⟨rfl, rfl, rfl, rfl⟩, rfl⟩
    · exact absurd same (by decide +kernel)
    · rfl

def sameSecond : List (TreasuryOperation MemoryStorage × Int) :=
  [(.initializeMultisig [account 1, account 2] 2, 0), (.proposeTransfer (account 5) ⟨3⟩ "grant" (account 1), 0),
    (.approveProposal (Bytes32.replicate 0) (account 2), 0)]

theorem executed_mark_lost :
    ¬ ∀ (blake3 : List UInt8 → Bytes32) (balances : BalanceManager MemoryStorage)
      (calls : List (TreasuryOperation MemoryStorage × Int)), Set.InjOn blake3 (requestedBytes calls) →
        ∀ before call, before ++ [call] <+: calls →
          StoredAnew blake3 (treasuryAfter blake3 balances before).1 call := by
  intro claim
  have injective : Set.InjOn secondHash (requestedBytes
      (sameSecond ++ [(.proposeTransfer (account 5) ⟨3⟩ "grant" (account 2), 0)])) := by
    rintro first ⟨recipient, amount, reason, proposer, now, called, rfl⟩ second
      ⟨otherRecipient, otherAmount, otherReason, otherProposer, later, otherCalled, rfl⟩ _
    simp only [sameSecond, List.cons_append, List.nil_append, List.mem_cons, Prod.mk.injEq, reduceCtorEq,
      TreasuryOperation.proposeTransfer.injEq, false_and, false_or, List.not_mem_nil, or_false] at called otherCalled
    rcases called with ⟨⟨rfl, rfl, rfl, rfl⟩, rfl⟩ | ⟨⟨rfl, rfl, rfl, rfl⟩, rfl⟩
    · rcases otherCalled with ⟨⟨rfl, rfl, rfl, rfl⟩, rfl⟩ | ⟨⟨rfl, rfl, rfl, rfl⟩, rfl⟩
      · rfl
      · rfl
    · rcases otherCalled with ⟨⟨rfl, rfl, rfl, rfl⟩, rfl⟩ | ⟨⟨rfl, rfl, rfl, rfl⟩, rfl⟩
      · rfl
      · rfl
  have anew := claim secondHash (endowed ⟨9⟩) _ injective sameSecond _ (List.prefix_refl _)
  have proposes : EStateM.run' (TreasuryManager.proposeTransfer secondHash 0 (account 5) ⟨3⟩ "grant" (account 2))
      (treasuryAfter secondHash (endowed ⟨9⟩) sameSecond).1 = some (Bytes32.replicate 0) := by decide +kernel
  rcases ok_of_run' proposes with ⟨next, run⟩
  have vacant := (anew _ next run).1
  have executed : ((treasuryAfter secondHash (endowed ⟨9⟩) sameSecond).1.proposals.lookup (Bytes32.replicate 0)).map
      TreasuryProposal.executed = some true := by decide +kernel
  rw [vacant] at executed
  cases executed

end AdicProof.Economics
