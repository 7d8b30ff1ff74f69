import AdicCore.Governance.Enactment
import AdicCore.Governance.OneVote

open AdicModel AdicModel.Economics AdicModel.Governance AdicModel.Governance.ProposalLifecycleManager Calls

namespace AdicProof.Governance

/-- Where a committee is to sign, a coordinator is configured or no committee can be selected. -/
def Signs (signing : ReceiptSigning) (proposalId : Hash) : Prop :=
  ∀ selectCommittee members, signing.quorumSelector = some selectCommittee → signing.blsSigner = true →
    selectCommittee (ReceiptSigning.epochOf proposalId) signing.quorumConfig signing.eligibleNodes = .ok members →
      signing.blsCoordinator ≠ none

section

variable {signing : ReceiptSigning} {proposalId : Hash}

theorem generateReceiptSignature_ok (signs : Signs signing proposalId) (stats : QuorumStats) (result : VoteResult) :
    ∃ signature, signing.generateReceiptSignature proposalId stats result = .ok signature := by
  unfold ReceiptSigning.generateReceiptSignature
  split
  next selectCommittee isSelector isSigner =>
    split
    · exact ⟨_, rfl⟩
    next members selected =>
      split
      next missing => exact absurd missing (signs selectCommittee members isSelector isSigner selected)
      next initiateSigning _ => split <;> exact ⟨_, rfl⟩
  · exact ⟨_, rfl⟩

theorem generateReceiptSignature_error (unsigned : ¬ Signs signing proposalId) (stats : QuorumStats)
    (result : VoteResult) :
    signing.generateReceiptSignature proposalId stats result = .error .blsCoordinatorRequired := by
  unfold Signs at unsigned
  simp only [not_forall, not_not] at unsigned
  obtain ⟨selectCommittee, members, isSelector, isSigner, selected, missing⟩ := unsigned
  unfold ReceiptSigning.generateReceiptSignature
  rw [isSelector, isSigner]
  dsimp only
  rw [selected]
  dsimp only
  rw [missing]

end

section

variable {L : Type} {governance : GovernanceState L} {proposalId : Hash} {proposal : GovernanceProposal}
  {services : LifecycleServices} {now : DateTime} {stats : QuorumStats} {error : GovernanceError}

theorem reads_error {α : Type} {check : ProposalLifecycleManager → Except GovernanceError α}
    (checked : check governance.manager = .error error) :
    (reads check : GovernanceCall L α) governance = .error error governance := by
  unfold ProposalLifecycleManager.reads
  rw [checked]

def decided (services : LifecycleServices) (proposalId : Hash) (proposal : GovernanceProposal) (stats : QuorumStats)
    (governance : GovernanceState L) : GovernanceState L :=
  { governance with
    manager :=
      (governance.manager.setProposal proposalId (tallied proposal stats)).setProposal proposalId
        { tallied proposal stats with
          status := statusOf (decideResult services governance.manager.votingEngine proposal stats) } }

theorem decided_lookup :
    (decided services proposalId proposal stats governance).manager.proposals.lookup proposalId =
      some { tallied proposal stats with
        status := statusOf (decideResult services governance.manager.votingEngine proposal stats) } := by
  unfold decided ProposalLifecycleManager.setProposal
  rw [HashMap.lookup_insert_eq, if_pos rfl]

theorem statusOf_ne_voting (result : VoteResult) : statusOf result ≠ .voting := by
  cases result <;> decide

section

variable (stored : governance.manager.proposals.lookup proposalId = some proposal) (voting : proposal.status = .voting)

include stored voting

theorem finalizeVoting_early (early : proposal.votingEnded now = false) :
    (finalizeVoting services now proposalId : GovernanceCall L VoteResult) governance =
      .error .votingNotEnded governance := by
  unfold finalizeVoting
  rw [bind_ok (reads_ok (proposalIn_ok_iff.mpr ⟨stored, voting⟩)), if_pos early]
  rfl

section

variable (ended : proposal.votingEnded now = true)

include ended

theorem finalizeVoting_untallied
    (untallied : governance.manager.votingEngine.tallyVotes (governance.manager.getVotes proposalId) proposalId =
      .error error) :
    (finalizeVoting services now proposalId : GovernanceCall L VoteResult) governance = .error error governance := by
  unfold finalizeVoting
  rw [bind_ok (reads_ok (proposalIn_ok_iff.mpr ⟨stored, voting⟩)), if_neg (by rw [ended]; decide)]
  exact bind_error (reads_error untallied)

theorem finalizeVoting_tallied
    (counted : governance.manager.votingEngine.tallyVotes (governance.manager.getVotes proposalId) proposalId =
      .ok stats) :
    (finalizeVoting services now proposalId : GovernanceCall L VoteResult) governance =
      (do
        let result := decideResult services governance.manager.votingEngine proposal stats
        let (quorumSignature, committeeMembers) ←
          reads fun _ => services.generateReceiptSignature proposalId stats result
        storeReceipt ⟨proposalId, stats, result, quorumSignature, committeeMembers⟩
        return result : GovernanceCall L VoteResult) (decided services proposalId proposal stats governance) := by
  unfold finalizeVoting
  rw [bind_ok (reads_ok (proposalIn_ok_iff.mpr ⟨stored, voting⟩)), if_neg (by rw [ended]; decide)]
  exact bind_ok (reads_ok counted)

theorem finalizeVoting_unsigned
    (counted : governance.manager.votingEngine.tallyVotes (governance.manager.getVotes proposalId) proposalId =
      .ok stats)
    (unsigned : services.generateReceiptSignature proposalId stats
      (decideResult services governance.manager.votingEngine proposal stats) = .error error) :
    (finalizeVoting services now proposalId : GovernanceCall L VoteResult) governance =
      .error error (decided services proposalId proposal stats governance) := by
  rw [finalizeVoting_tallied stored voting ended counted]
  exact bind_error (reads_error unsigned)

theorem finalizeVoting_decides
    (counted : governance.manager.votingEngine.tallyVotes (governance.manager.getVotes proposalId) proposalId =
      .ok stats)
    {signature : Option Signature × List PublicKey}
    (signed : services.generateReceiptSignature proposalId stats
      (decideResult services governance.manager.votingEngine proposal stats) = .ok signature) :
    ∃ result after,
      (finalizeVoting services now proposalId : GovernanceCall L VoteResult) governance = .ok result after := by
  rw [finalizeVoting_tallied stored voting ended counted]
  exact ⟨_, _, bind_ok (reads_ok signed)⟩

end

end

theorem votingEnded_later (proposal : GovernanceProposal) (now : DateTime) :
    ∃ later : DateTime, now.timestamp < later.timestamp ∧ proposal.votingEnded later = true := by
  refine ⟨⟨max now.timestamp proposal.votingEndTimestamp.timestamp + 1, 0⟩, ?_, ?_⟩
  · show now.timestamp < _ + 1
    omega
  · unfold GovernanceProposal.votingEnded
    rw [Bool.or_eq_true]
    left
    apply decide_eq_true
    show _ < _ + 1
    omega

def SameTallies (proposal kept : GovernanceProposal) : Prop :=
  kept.status = proposal.status ∧ kept.tallyYes = proposal.tallyYes ∧ kept.tallyNo = proposal.tallyNo ∧
    kept.tallyAbstain = proposal.tallyAbstain

/-- A later call decides the proposal, whatever reputations, committees and coordinators it then meets. -/
def Retryable (now : DateTime) (proposalId : Hash) (governance : GovernanceState L) : Prop :=
  ∃ later : DateTime, now.timestamp < later.timestamp ∧
    ∀ signing getReputation totalEligibleCredits, Signs signing proposalId →
      ∃ result after,
        (finalizeVoting (signing.services getReputation totalEligibleCredits) later proposalId :
          GovernanceCall L VoteResult) governance = .ok result after

def FailsHarmlessly (services : LifecycleServices) (now : DateTime) (proposalId : Hash) (proposal : GovernanceProposal)
    (governance : GovernanceState L) : Prop :=
  ∀ error next,
    (finalizeVoting services now proposalId : GovernanceCall L VoteResult) governance = .error error next →
      (∃ kept, next.manager.proposals.lookup proposalId = some kept ∧ SameTallies proposal kept) ∧
        next.manager.getVotes proposalId = governance.manager.getVotes proposalId ∧ Retryable now proposalId next

def unsignedReceipts : ReceiptSigning := ⟨0, [], none, false, none, none, fun _ => Bytes32.replicate 0, fun _ => []⟩

theorem unsignedReceipts_signs (proposalId : Hash) : Signs unsignedReceipts proposalId := by
  intro _ _ impossible
  cases impossible

theorem retryable_iff (stored : governance.manager.proposals.lookup proposalId = some proposal)
    (voting : proposal.status = .voting) :
    Retryable now proposalId governance ↔ (countedVoters (governance.manager.getVotes proposalId) proposalId).Nodup := by
  constructor
  · intro retryable
    obtain ⟨later, _, decides⟩ := retryable
    obtain ⟨result, after, run⟩ := decides unsignedReceipts (fun _ => 0) 0 (unsignedReceipts_signs proposalId)
    apply (@tallyVotes_ok_iff governance.manager.votingEngine _ _).mp
    cases counted : governance.manager.votingEngine.tallyVotes (governance.manager.getVotes proposalId) proposalId with
    | ok stats => exact ⟨stats, rfl⟩
    | error error =>
      cases ended : proposal.votingEnded later with
      | true =>
        rw [finalizeVoting_untallied stored voting ended counted] at run
        cases run
      | false =>
        rw [finalizeVoting_early stored voting ended] at run
        cases run
  · intro distinct
    obtain ⟨later, isLater, ended⟩ := votingEnded_later proposal now
    obtain ⟨stats, counted⟩ := (@tallyVotes_ok_iff governance.manager.votingEngine _ _).mpr distinct
    refine ⟨later, isLater, fun signing getReputation totalEligibleCredits signs => ?_⟩
    obtain ⟨signature, signed⟩ := generateReceiptSignature_ok signs stats
      (decideResult (signing.services getReputation totalEligibleCredits) governance.manager.votingEngine proposal stats)
    exact finalizeVoting_decides stored voting ended counted signed

/-- A failed finalization is harmless exactly if no voter is counted twice and, after the voting, the receipt can be
    signed. -/
theorem fails_harmlessly_iff (signing : ReceiptSigning) (getReputation : PublicKey → ℚ) (totalEligibleCredits : ℚ)
    (now : DateTime) (proposalId : Hash) (proposal : GovernanceProposal) (governance : GovernanceState L)
    (stored : governance.manager.proposals.lookup proposalId = some proposal) (voting : proposal.status = .voting) :
    FailsHarmlessly (signing.services getReputation totalEligibleCredits) now proposalId proposal governance ↔
      (countedVoters (governance.manager.getVotes proposalId) proposalId).Nodup ∧
        (proposal.votingEnded now = true → Signs signing proposalId) := by
  constructor
  · intro harmless
    cases ended : proposal.votingEnded now with
    | false =>
      have kept := harmless _ _ (finalizeVoting_early stored voting ended)
      refine ⟨(retryable_iff stored voting).mp kept.2.2, ?_⟩
      intro impossible
      cases impossible
    | true =>
      cases counted : governance.manager.votingEngine.tallyVotes (governance.manager.getVotes proposalId) proposalId with
      | error error =>
        have kept := harmless _ _ (finalizeVoting_untallied stored voting ended counted)
        have distinct := (retryable_iff stored voting).mp kept.2.2
        obtain ⟨stats, tallied⟩ := (@tallyVotes_ok_iff governance.manager.votingEngine _ _).mpr distinct
        rw [counted] at tallied
        cases tallied
      | ok stats =>
        refine ⟨tallyVotes_ok_iff.mp ⟨stats, counted⟩, fun _ => ?_⟩
        by_contra unsigned
        have failed : (finalizeVoting (signing.services getReputation totalEligibleCredits) now proposalId :
            GovernanceCall L VoteResult) governance = .error .blsCoordinatorRequired _ :=
          finalizeVoting_unsigned stored voting ended counted (generateReceiptSignature_error unsigned stats _)
        obtain ⟨⟨kept, isKept, same⟩, _⟩ := harmless _ _ failed
        rw [decided_lookup] at isKept
        cases isKept
        exact statusOf_ne_voting _ (same.1.trans voting)
  · intro conditions error next failed
    obtain ⟨distinct, signs⟩ := conditions
    have unchanged : next = governance := by
      cases ended : proposal.votingEnded now with
      | false =>
        rw [finalizeVoting_early stored voting ended] at failed
        cases failed
        rfl
      | true =>
        obtain ⟨stats, counted⟩ := (@tallyVotes_ok_iff governance.manager.votingEngine _ _).mpr distinct
        obtain ⟨signature, signed⟩ := generateReceiptSignature_ok (signs ended) stats
          (decideResult (signing.services getReputation totalEligibleCredits) governance.manager.votingEngine proposal
            stats)
        have decides : ∃ result after, (finalizeVoting (signing.services getReputation totalEligibleCredits) now
            proposalId : GovernanceCall L VoteResult) governance = .ok result after :=
          finalizeVoting_decides stored voting ended counted signed
        obtain ⟨result, after, run⟩ := decides
        rw [run] at failed
        cases failed
    rw [unchanged]
    exact ⟨⟨proposal, stored, rfl, rfl, rfl, rfl⟩, rfl, (retryable_iff stored voting).mpr distinct⟩

end

namespace MissingCoordinator

def signing : ReceiptSigning :=
  { unsignedReceipts with
    committeeSize := 1
    quorumSelector := some fun _ _ _ => .ok [SimultaneousVotes.voter]
    blsSigner := true }

def services : LifecycleServices := signing.services (fun _ => 100) 100

def governance : GovernanceState Unit where
  manager :=
    { ProposalLifecycleManager.new ⟨50, 604800, 1 / 10⟩ SimultaneousVotes.votingEngine with
      proposals := HashMap.ofPairs [(Bytes32.replicate 2, SimultaneousVotes.proposal)]
      votes := HashMap.ofPairs [(Bytes32.replicate 2, [SimultaneousVotes.vote])] }
  parameterStore := none
  treasuryExecutor := none
  ledger := ()

def stats : QuorumStats := ⟨100, 0, 0, 100⟩

theorem counted : governance.manager.votingEngine.tallyVotes (governance.manager.getVotes (Bytes32.replicate 2))
    (Bytes32.replicate 2) = .ok stats := by
  have result : (governance.manager.votingEngine.tallyVotes (governance.manager.getVotes (Bytes32.replicate 2))
      (Bytes32.replicate 2)).toOption = some stats := by
    decide +kernel
  cases tallied : governance.manager.votingEngine.tallyVotes (governance.manager.getVotes (Bytes32.replicate 2))
      (Bytes32.replicate 2) with
  | ok counts =>
    rw [tallied] at result
    rw [Option.some.inj result]
  | error error =>
    rw [tallied] at result
    cases result

theorem passes : decideResult services governance.manager.votingEngine SimultaneousVotes.proposal stats = .pass := by
  decide +kernel

/-- Before the end of the voting a call fails harmlessly. -/
theorem early_fails_harmlessly :
    FailsHarmlessly (unsignedReceipts.services (fun _ => 100) 100) ⟨0, 0⟩ (Bytes32.replicate 2)
      SimultaneousVotes.proposal governance := by
  refine (fails_harmlessly_iff unsignedReceipts (fun _ => 100) 100 ⟨0, 0⟩ (Bytes32.replicate 2)
    SimultaneousVotes.proposal governance rfl rfl).mpr ⟨by decide +kernel, ?_⟩
  intro _
  exact unsignedReceipts_signs _

/-- The call fails with the tallies and the result stored, and every later call is refused. -/
theorem decided_without_receipt :
    ∃ next, (finalizeVoting services ⟨604800, 0⟩ (Bytes32.replicate 2) : GovernanceCall Unit VoteResult) governance =
        .error .blsCoordinatorRequired next ∧
      (∃ kept, next.manager.proposals.lookup (Bytes32.replicate 2) = some kept ∧ kept.status = .succeeded ∧
        kept.tallyYes = 100) ∧
      ∀ services later, (finalizeVoting services later (Bytes32.replicate 2) : GovernanceCall Unit VoteResult) next =
        .error (.invalidStatus "Voting" "Succeeded") next := by
  refine ⟨decided services (Bytes32.replicate 2) SimultaneousVotes.proposal stats governance, ?_, ?_, ?_⟩
  · exact finalizeVoting_unsigned rfl rfl (by decide) counted rfl
  · refine ⟨_, decided_lookup, ?_, rfl⟩
    rw [passes]
    rfl
  · intro other later
    have status : (decided services (Bytes32.replicate 2) SimultaneousVotes.proposal stats governance).manager.proposalIn
        (Bytes32.replicate 2) .voting = .error (.invalidStatus "Voting" "Succeeded") := by
      unfold ProposalLifecycleManager.proposalIn
      rw [decided_lookup, passes]
      rfl
    exact bind_error (reads_error status)

end MissingCoordinator

end AdicProof.Governance
