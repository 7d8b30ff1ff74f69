import AdicCore.Governance.Lifecycle
import AdicCore.Library.Calls

open AdicModel AdicModel.Governance Calls

namespace AdicProof.Governance

inductive LifecycleStep (L : Type) where
  | submitProposal (services : LifecycleServices) (proposal : GovernanceProposal)
  | castVote (services : LifecycleServices) (now : DateTime) (vote : GovernanceVote)
  | finalizeVoting (services : LifecycleServices) (now : DateTime) (proposalId : Hash)
  | beginEnactment (proposalId : Hash)
  | enactProposal (services : TreasuryServices L) (proposalId : Hash)

abbrev Content := List String × Json.Value

def contentOf (proposal : GovernanceProposal) : Content := (proposal.paramKeys, proposal.newValues)

section

variable {L : Type}

def next (state : GovernanceState L) : LifecycleStep L → GovernanceState L
  | .submitProposal services proposal =>
    stateAfter (ProposalLifecycleManager.fromManager (state.manager.submitProposal services proposal)) state
  | .castVote services now vote =>
    { state with manager := ((state.manager.castVote services now vote).toOption).getD state.manager }
  | .finalizeVoting services now proposalId =>
    stateAfter (ProposalLifecycleManager.finalizeVoting services now proposalId) state
  | .beginEnactment proposalId => stateAfter (ProposalLifecycleManager.beginEnactment proposalId) state
  | .enactProposal services proposalId =>
    stateAfter (ProposalLifecycleManager.enactProposal services proposalId) state

def proposalOf (state : GovernanceState L) (proposalId : Hash) : Option GovernanceProposal :=
  state.manager.proposals.lookup proposalId

def storedStatus (state : GovernanceState L) (proposalId : Hash) : Option ProposalStatus :=
  (proposalOf state proposalId).map GovernanceProposal.status

def Revised (start : ProposalLifecycleManager) (proposalId : Hash) (proposal : GovernanceProposal)
    (state : GovernanceState L) : Prop :=
  state.manager.votes = start.votes ∧ ∃ revised, contentOf revised = contentOf proposal ∧
    ∀ other, proposalOf state other = if other = proposalId then some revised else start.proposals.lookup other

inductive Effect (state after : GovernanceState L) : LifecycleStep L → Prop where
  | same {step : LifecycleStep L} (proposals : ∀ proposalId, proposalOf after proposalId = proposalOf state proposalId)
      (votes : after.manager.votes = state.manager.votes) : Effect state after step
  | submitted {services : LifecycleServices} {proposal : GovernanceProposal} (stored : GovernanceProposal)
      (content : contentOf stored = contentOf proposal) (status : stored.status = .voting)
      (proposals : ∀ proposalId, proposalOf after proposalId =
        if proposalId = proposal.proposalId then some stored else proposalOf state proposalId)
      (votes : after.manager.votes = state.manager.votes) : Effect state after (.submitProposal services proposal)
  | cast {services : LifecycleServices} {now : DateTime} {vote : GovernanceVote} {proposal : GovernanceProposal}
      (stored : proposalOf state vote.proposalId = some proposal)
      (accepted : state.manager.castVote services now vote = .ok (state.manager.appendVote vote))
      (appended : after = { state with manager := state.manager.appendVote vote }) :
      Effect state after (.castVote services now vote)
  | revised {step : LifecycleStep L} (proposalId : Hash) (proposal : GovernanceProposal)
      (stored : proposalOf state proposalId = some proposal) (open_ : proposal.status.isTerminal = false)
      (unsubmitted : ∀ services proposal, step ≠ .submitProposal services proposal)
      (revised : Revised state.manager proposalId proposal after) : Effect state after step

variable {start : ProposalLifecycleManager} {state : GovernanceState L} {proposalId : Hash}
  {proposal : GovernanceProposal}

abbrev KeepsRevised {α : Type} (start : ProposalLifecycleManager) (proposalId : Hash) (proposal : GovernanceProposal)
    (call : GovernanceCall L α) : Prop :=
  Triple (Revised start proposalId proposal) call (fun _ => Revised start proposalId proposal)
    (Revised start proposalId proposal)

theorem revised_self (stored : proposalOf state proposalId = some proposal) :
    Revised state.manager proposalId proposal state := by
  refine ⟨rfl, proposal, rfl, fun other => ?_⟩
  split
  · next same => rw [same, stored]
  · rfl

theorem setProposalTo_keeps {changed : GovernanceProposal} (content : contentOf changed = contentOf proposal) :
    KeepsRevised start proposalId proposal
      (ProposalLifecycleManager.setProposalTo proposalId changed : GovernanceCall L Unit) := by
  apply triple_modify
  rintro state ⟨votes, revised, -, proposals⟩
  refine ⟨votes, changed, content, fun other => ?_⟩
  show (state.manager.proposals.insert proposalId changed).lookup other = _
  rw [HashMap.lookup_insert_eq]
  split
  · rfl
  · next different =>
    have same := proposals other
    rw [if_neg different] at same
    exact same

theorem setStatus_keeps (status : ProposalStatus) :
    KeepsRevised start proposalId proposal
      (ProposalLifecycleManager.setProposalTo proposalId { proposal with status } : GovernanceCall L Unit) :=
  setProposalTo_keeps rfl

theorem setTallied_keeps (stats : QuorumStats) (status : ProposalStatus) :
    KeepsRevised start proposalId proposal (ProposalLifecycleManager.setProposalTo proposalId
      { ProposalLifecycleManager.tallied proposal stats with status } : GovernanceCall L Unit) :=
  setProposalTo_keeps rfl

theorem storeReceipt_keeps (receipt : GovernanceReceipt) :
    KeepsRevised start proposalId proposal (ProposalLifecycleManager.storeReceipt receipt : GovernanceCall L Unit) :=
  triple_modify fun _ holds => holds

theorem applyParam_keeps (key : String) :
    KeepsRevised start proposalId proposal
      (ProposalLifecycleManager.applyParam proposalId proposal key : GovernanceCall L Unit) := by
  apply Triple.get_any
  intro current
  split
  · split
    · exact triple_modify fun _ holds => holds
    · exact (setStatus_keeps .failed).bind fun _ => triple_throw fun _ holds => holds
  · exact triple_pure fun _ holds => holds

theorem onTreasury_keeps (executor : TreasuryExecutor) (call : TreasuryCall L Unit) :
    KeepsRevised start proposalId proposal (ProposalLifecycleManager.onTreasury executor call) := by
  intro state holds
  unfold ProposalLifecycleManager.onTreasury
  cases call ⟨executor, state.ledger⟩ with
  | ok value treasury => exact holds
  | error error treasury => exact holds

theorem enactGrant_keeps (services : TreasuryServices L) :
    KeepsRevised start proposalId proposal
      (ProposalLifecycleManager.enactGrant services proposalId proposal) := by
  apply Triple.get_any
  intro current
  split
  · refine (onTreasury_keeps _ _).bind fun executed => ?_
    cases executed with
    | ok done => exact triple_pure fun _ holds => holds
    | error error => exact (setStatus_keeps .failed).bind fun _ => triple_throw fun _ holds => holds
  · exact triple_pure fun _ holds => holds

theorem proposalIn_ok_iff {manager : ProposalLifecycleManager} {expected : ProposalStatus} :
    manager.proposalIn proposalId expected = .ok proposal ↔
      manager.proposals.lookup proposalId = some proposal ∧ proposal.status = expected := by
  unfold ProposalLifecycleManager.proposalIn
  cases manager.proposals.lookup proposalId with
  | none => simp
  | some stored =>
    by_cases status : stored.status = expected
    · simp only [status, ne_eq, not_true_eq_false, if_false, Except.ok.injEq, Option.some.injEq]
      constructor
      · intro same
        exact ⟨same, same ▸ status⟩
      · intro both
        exact both.1
    · simp only [status, ne_eq, not_false_eq_true, if_true, Option.some.injEq]
      constructor
      · intro impossible
        cases impossible
      · rintro ⟨same, found⟩
        exact absurd (same ▸ found) status

theorem reads_keeps {α : Type} (check : ProposalLifecycleManager → Except GovernanceError α) :
    KeepsRevised start proposalId proposal (ProposalLifecycleManager.reads check : GovernanceCall L α) := by
  intro state holds
  unfold ProposalLifecycleManager.reads
  cases check state.manager with
  | ok value => exact holds
  | error error => exact holds

theorem effect_of_revises {step : LifecycleStep L} {α : Type} {expected : ProposalStatus}
    (rest : GovernanceProposal → GovernanceCall L α) (open_ : expected.isTerminal = false)
    (unsubmitted : ∀ services proposal, step ≠ .submitProposal services proposal)
    (keeps : ∀ start proposal, KeepsRevised start proposalId proposal (rest proposal)) :
    Effect state (stateAfter
      (ProposalLifecycleManager.reads (ProposalLifecycleManager.proposalIn proposalId expected) >>= rest) state) step := by
  cases read : state.manager.proposalIn proposalId expected with
  | error error =>
    have run : (ProposalLifecycleManager.reads (ProposalLifecycleManager.proposalIn proposalId expected) :
        GovernanceCall L GovernanceProposal) state = .error error state := by
      unfold ProposalLifecycleManager.reads
      rw [read]
    unfold stateAfter
    rw [bind_error run]
    exact .same (fun _ => rfl) rfl
  | ok proposal =>
    obtain ⟨stored, status⟩ := proposalIn_ok_iff.mp read
    have run : (ProposalLifecycleManager.reads (ProposalLifecycleManager.proposalIn proposalId expected) :
        GovernanceCall L GovernanceProposal) state = .ok proposal state := by
      unfold ProposalLifecycleManager.reads
      rw [read]
    have revised := (keeps state.manager proposal).stateAfter (revised_self stored)
    refine .revised proposalId proposal stored (by rw [status]; exact open_) unsubmitted ?_
    unfold stateAfter at revised ⊢
    rw [bind_ok run]
    exact revised

theorem finalizeVoting_effect (proposalId : Hash) (state : GovernanceState L) (services : LifecycleServices) (now : DateTime) :
    Effect state (stateAfter (ProposalLifecycleManager.finalizeVoting services now proposalId) state)
      (.finalizeVoting services now proposalId) := by
  refine effect_of_revises _ rfl (fun _ _ impossible => by cases impossible) fun start proposal => ?_
  apply triple_ite
  · intro _
    exact triple_throw fun _ holds => holds
  · intro _
    refine (reads_keeps _).bind fun stats => ?_
    refine (setTallied_keeps stats .tallying).bind fun _ => Triple.get_any fun current => ?_
    refine (setTallied_keeps stats _).bind fun _ => (reads_keeps _).bind fun signed => ?_
    exact (storeReceipt_keeps _).bind fun _ => triple_pure fun _ holds => holds

theorem beginEnactment_effect :
    Effect state (stateAfter (ProposalLifecycleManager.beginEnactment proposalId) state)
      (.beginEnactment proposalId) :=
  effect_of_revises _ rfl (fun _ _ impossible => by cases impossible) fun start proposal => setStatus_keeps .enacting

theorem enactProposal_effect (services : TreasuryServices L) :
    Effect state (stateAfter (ProposalLifecycleManager.enactProposal services proposalId) state)
      (.enactProposal services proposalId) := by
  refine effect_of_revises _ rfl (fun _ _ impossible => by cases impossible) fun start proposal => ?_
  refine (triple_forM (fun key => applyParam_keeps key) _).bind fun _ => ?_
  exact (enactGrant_keeps services).bind fun _ => setStatus_keeps .enacted

theorem submitProposal_effect (services : LifecycleServices) (proposal : GovernanceProposal) :
    Effect state (next state (.submitProposal services proposal)) (.submitProposal services proposal) := by
  show Effect state
    (stateAfter (ProposalLifecycleManager.fromManager (state.manager.submitProposal services proposal)) state) _
  unfold ProposalLifecycleManager.submitProposal
  by_cases low : services.getReputation proposal.proposerPk < state.manager.config.minProposerReputation
  · simp only [if_pos low]
    exact .same (fun _ => rfl) rfl
  · simp only [if_neg low]
    refine .submitted (ProposalLifecycleManager.withVotingPeriod state.manager.config proposal) rfl rfl
      (fun other => ?_) rfl
    exact HashMap.lookup_insert_eq _ _ _ _

theorem castVote_ok_iff {manager cast : ProposalLifecycleManager} {services : LifecycleServices} {now : DateTime}
    {vote : GovernanceVote} :
    manager.castVote services now vote = .ok cast ↔
      manager.checkVote services now vote = .ok () ∧ manager.checkDuplicate vote = .ok () ∧
        manager.appendVote vote = cast := by
  unfold ProposalLifecycleManager.castVote
  cases checked : manager.checkVote services now vote with
  | error error => simp [bind, Except.bind]
  | ok done =>
    cases distinct : manager.checkDuplicate vote with
    | error error => simp [bind, Except.bind]
    | ok done => simp [bind, Except.bind, pure, Except.pure]

theorem checkVote_ok {manager : ProposalLifecycleManager} {services : LifecycleServices} {now : DateTime}
    {vote : GovernanceVote} (checked : manager.checkVote services now vote = .ok ()) :
    ∃ proposal, manager.proposals.lookup vote.proposalId = some proposal ∧ proposal.status = .voting := by
  unfold ProposalLifecycleManager.checkVote at checked
  split at checked
  · cases checked
  · next proposal stored =>
    split at checked
    · cases checked
    · next voting => exact ⟨proposal, stored, by simpa using voting⟩

theorem castVote_effect (services : LifecycleServices) (now : DateTime) (vote : GovernanceVote) :
    Effect state (next state (.castVote services now vote)) (.castVote services now vote) := by
  show Effect state
    { state with manager := ((state.manager.castVote services now vote).toOption).getD state.manager } _
  cases cast : state.manager.castVote services now vote with
  | error error => exact .same (fun _ => rfl) rfl
  | ok manager =>
    obtain ⟨checked, -, appended⟩ := castVote_ok_iff.mp cast
    obtain ⟨proposal, stored, -⟩ := checkVote_ok checked
    rw [← appended] at cast ⊢
    exact .cast stored cast rfl

theorem next_effect (state : GovernanceState L) (step : LifecycleStep L) : Effect state (next state step) step := by
  cases step with
  | submitProposal services proposal => exact submitProposal_effect services proposal
  | castVote services now vote => exact castVote_effect services now vote
  | finalizeVoting services now proposalId => exact finalizeVoting_effect proposalId state services now
  | beginEnactment proposalId => exact beginEnactment_effect
  | enactProposal services proposalId => exact enactProposal_effect services

end

end AdicProof.Governance
