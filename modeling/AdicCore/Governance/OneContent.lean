import AdicCore.Governance.ContentRuns

open AdicModel AdicModel.Governance Calls

namespace AdicProof.Governance

section

variable {L : Type}

def start (config : LifecycleConfig) (votingEngine : VotingEngine) (parameterStore : Option AppCommon.ParameterStore)
    (treasuryExecutor : Option TreasuryExecutor) (ledger : L) : GovernanceState L :=
  ⟨.new config votingEngine, parameterStore, treasuryExecutor, ledger⟩

def storedContent (state : GovernanceState L) (proposalId : Hash) : Option Content :=
  (proposalOf state proposalId).map contentOf

def CastUnder (initial : GovernanceState L) (steps : List (LifecycleStep L)) (vote : GovernanceVote)
    (content : Content) : Prop :=
  ∃ before services now, before ++ [.castVote services now vote] <+: steps ∧
    ((Runs.after next initial before).manager.castVote services now vote).isOk ∧
    storedContent (Runs.after next initial before) vote.proposalId = some content

structure OneContent (initial : GovernanceState L) (steps : List (LifecycleStep L)) : Prop where
  content : ∀ before step, before ++ [step] <+: steps → ∀ proposalId content,
    storedContent (Runs.after next initial before) proposalId = some content →
    storedContent (Runs.after next initial (before ++ [step])) proposalId = some content
  terminal : ∀ before step, before ++ [step] <+: steps → ∀ proposalId status, status.isTerminal = true →
    storedStatus (Runs.after next initial before) proposalId = some status →
    storedStatus (Runs.after next initial (before ++ [step])) proposalId = some status
  tallied : ∀ before services now proposalId, before ++ [.finalizeVoting services now proposalId] <+: steps →
    ∀ content, storedContent (Runs.after next initial before) proposalId = some content →
    ∀ vote ∈ (Runs.after next initial before).manager.getVotes proposalId,
      vote.proposalId = proposalId ∧ CastUnder initial before vote content

def SubmitsSame (state : GovernanceState L) : LifecycleStep L → Prop
  | .submitProposal services proposal =>
    state.manager.config.minProposerReputation ≤ services.getReputation proposal.proposerPk →
    ∀ stored, proposalOf state proposal.proposalId = some stored →
      contentOf stored = contentOf proposal ∧ stored.status.isTerminal = false
  | _ => True

variable {initial state : GovernanceState L} {step : LifecycleStep L} {steps : List (LifecycleStep L)}
  {proposalId : Hash} {content : Content} {proposal : GovernanceProposal} {services : LifecycleServices}

theorem proposalOf_submitted (state : GovernanceState L)
    (accepted : state.manager.config.minProposerReputation ≤ services.getReputation proposal.proposerPk)
    (other : Hash) :
    proposalOf (next state (.submitProposal services proposal)) other =
      if other = proposal.proposalId then
        some (ProposalLifecycleManager.withVotingPeriod state.manager.config proposal)
      else proposalOf state other := by
  show proposalOf
    (stateAfter (ProposalLifecycleManager.fromManager (state.manager.submitProposal services proposal)) state) other = _
  unfold ProposalLifecycleManager.submitProposal
  simp only [if_neg (not_lt.mpr accepted)]
  exact HashMap.lookup_insert_eq _ _ _ _

theorem next_refused
    (refused : ¬state.manager.config.minProposerReputation ≤ services.getReputation proposal.proposerPk) :
    next state (.submitProposal services proposal) = state := by
  show stateAfter
    (ProposalLifecycleManager.fromManager (state.manager.submitProposal services proposal)) state = state
  unfold ProposalLifecycleManager.submitProposal
  simp only [if_pos (not_le.mp refused)]
  rfl

structure Keeps (state after : GovernanceState L) : Prop where
  content : ∀ proposalId content, storedContent state proposalId = some content →
    storedContent after proposalId = some content
  terminal : ∀ proposalId status, status.isTerminal = true → storedStatus state proposalId = some status →
    storedStatus after proposalId = some status

variable {after : GovernanceState L}

theorem Keeps.of_same
    (same : ∀ proposalId, proposalOf after proposalId = proposalOf state proposalId) : Keeps state after := by
  constructor
  · intro proposalId content stored
    unfold storedContent
    rw [same]
    exact stored
  · intro proposalId status _ stored
    unfold storedStatus
    rw [same]
    exact stored

theorem Keeps.of_replaced {proposal replaced : GovernanceProposal}
    (stored : ∀ held, proposalOf state proposalId = some held →
      contentOf held = contentOf proposal ∧ held.status.isTerminal = false)
    (content : contentOf replaced = contentOf proposal)
    (proposals : ∀ other, proposalOf after other = if other = proposalId then some replaced else proposalOf state other) :
    Keeps state after := by
  constructor
  · intro other known storedKnown
    unfold storedContent at storedKnown ⊢
    rw [proposals]
    by_cases same : other = proposalId
    · rw [if_pos same]
      rw [same] at storedKnown
      obtain ⟨held, lookup, known⟩ := Option.map_eq_some_iff.mp storedKnown
      rw [Option.map_some, content, ← (stored held lookup).1, known]
    · rw [if_neg same]
      exact storedKnown
  · intro other status final storedStatus
    unfold AdicProof.Governance.storedStatus at storedStatus ⊢
    rw [proposals]
    by_cases same : other = proposalId
    · rw [same] at storedStatus
      obtain ⟨held, lookup, known⟩ := Option.map_eq_some_iff.mp storedStatus
      rw [← known, (stored held lookup).2] at final
      cases final
    · rw [if_neg same]
      exact storedStatus

theorem keeps_of_revised
    (stored : proposalOf state proposalId = some proposal) (undecided : proposal.status.isTerminal = false)
    (revised : Revised state.manager proposalId proposal after) : Keeps state after := by
  obtain ⟨-, replaced, content, proposals⟩ := revised
  refine Keeps.of_replaced (fun held lookup => ?_) content proposals
  rw [stored] at lookup
  cases lookup
  exact ⟨rfl, undecided⟩

theorem keeps_of_effect
    (unsubmitted : ∀ services proposal, step ≠ .submitProposal services proposal) (effect : Effect state after step) :
    Keeps state after := by
  cases effect with
  | same proposals votes => exact Keeps.of_same proposals
  | submitted stored content status proposals votes => exact absurd rfl (unsubmitted _ _)
  | cast stored accepted appended =>
    rw [appended]
    exact Keeps.of_same fun _ => rfl
  | revised proposalId proposal stored undecided _ revised => exact keeps_of_revised stored undecided revised

theorem submitted_keeps_iff :
    Keeps state (next state (.submitProposal services proposal)) ↔
      SubmitsSame state (.submitProposal services proposal) := by
  by_cases accepted : state.manager.config.minProposerReputation ≤ services.getReputation proposal.proposerPk
  · have proposals := proposalOf_submitted state accepted
    constructor
    · intro keeps _ stored held
      have content := keeps.content proposal.proposalId (contentOf stored) (by rw [storedContent, held]; rfl)
      rw [storedContent, proposals, if_pos rfl] at content
      refine ⟨(Option.some.inj content).symm, ?_⟩
      by_contra final
      rw [Bool.not_eq_false] at final
      have status := keeps.terminal proposal.proposalId stored.status final (by rw [storedStatus, held]; rfl)
      rw [storedStatus, proposals, if_pos rfl] at status
      rw [← Option.some.inj status] at final
      cases final
    · intro same
      have content : contentOf (ProposalLifecycleManager.withVotingPeriod state.manager.config proposal) =
          contentOf proposal := rfl
      exact Keeps.of_replaced (same accepted) content proposals
  · rw [next_refused accepted]
    exact iff_of_true (Keeps.of_same fun _ => rfl) fun impossible => absurd impossible accepted

theorem keeps_iff : Keeps state (next state step) ↔ SubmitsSame state step := by
  have effect := next_effect state step
  cases step with
  | submitProposal services proposal => exact submitted_keeps_iff
  | castVote | finalizeVoting | beginEnactment | enactProposal =>
    exact iff_of_true (keeps_of_effect (fun _ _ impossible => by cases impossible) effect) trivial

def CastEarlier (initial : GovernanceState L) (steps : List (LifecycleStep L)) (vote : GovernanceVote) : Prop :=
  ∃ before services now, before ++ [.castVote services now vote] <+: steps ∧
    ((Runs.after next initial before).manager.castVote services now vote).isOk ∧
    (proposalOf (Runs.after next initial before) vote.proposalId).isSome

theorem CastEarlier.extend {vote : GovernanceVote} (cast : CastEarlier initial steps vote) (step : LifecycleStep L) :
    CastEarlier initial (steps ++ [step]) vote := by
  obtain ⟨before, services, now, part, accepted⟩ := cast
  exact ⟨before, services, now, part.trans (List.prefix_append steps [step]), accepted⟩

theorem getVotes_of_votes {manager other : ProposalLifecycleManager} (votes : manager.votes = other.votes)
    (proposalId : Hash) : manager.getVotes proposalId = other.getVotes proposalId := by
  unfold ProposalLifecycleManager.getVotes
  rw [votes]

theorem getVotes_appendVote (manager : ProposalLifecycleManager) (vote : GovernanceVote) (proposalId : Hash) :
    (manager.appendVote vote).getVotes proposalId =
      if proposalId = vote.proposalId then manager.getVotes proposalId ++ [vote] else manager.getVotes proposalId := by
  unfold ProposalLifecycleManager.appendVote
  rw [ProposalLifecycleManager.getVotes, HashMap.lookup_insert_eq]
  split
  · next same => rw [same]; rfl
  · rfl

theorem castEarlier_of_stored (unvoted : initial.manager.votes = ∅) (steps : List (LifecycleStep L)) :
    ∀ proposalId, ∀ vote ∈ (Runs.after next initial steps).manager.getVotes proposalId,
      vote.proposalId = proposalId ∧ CastEarlier initial steps vote := by
  induction steps using List.reverseRecOn with
  | nil =>
    intro proposalId vote member
    rw [Runs.after_nil, ProposalLifecycleManager.getVotes, unvoted] at member
    cases member
  | append_singleton before step ih =>
    have kept (votes : (next (Runs.after next initial before) step).manager.votes =
        (Runs.after next initial before).manager.votes) :
        ∀ proposalId, ∀ vote ∈ (Runs.after next initial (before ++ [step])).manager.getVotes proposalId,
          vote.proposalId = proposalId ∧ CastEarlier initial (before ++ [step]) vote := by
      intro proposalId vote member
      rw [Runs.after_snoc, getVotes_of_votes votes] at member
      obtain ⟨same, cast⟩ := ih proposalId vote member
      exact ⟨same, cast.extend step⟩
    cases next_effect (Runs.after next initial before) step with
    | same proposals votes => exact kept votes
    | submitted stored content status proposals votes => exact kept votes
    | revised proposalId proposal stored undecided unsubmitted revised => exact kept revised.1
    | @cast services now vote proposal stored accepted appended =>
      intro proposalId other member
      rw [Runs.after_snoc, appended, getVotes_appendVote] at member
      split at member
      · next same =>
        rcases List.mem_append.mp member with earlier | last
        · obtain ⟨ids, cast⟩ := ih proposalId other earlier
          exact ⟨ids, cast.extend _⟩
        · rw [List.mem_singleton.mp last]
          refine ⟨same.symm, before, services, now, List.prefix_refl _, ?_, ?_⟩
          · rw [accepted]
            rfl
          · rw [stored]
            rfl
      · obtain ⟨ids, cast⟩ := ih proposalId other member
        exact ⟨ids, cast.extend _⟩

theorem content_later (same : ∀ before step, before ++ [step] <+: steps →
      SubmitsSame (Runs.after next initial before) step)
    {before : List (LifecycleStep L)} (stored : storedContent (Runs.after next initial before) proposalId = some content)
    (later : List (LifecycleStep L)) (part : before ++ later <+: steps) :
    storedContent (Runs.after next initial (before ++ later)) proposalId = some content := by
  induction later using List.reverseRecOn with
  | nil =>
    rw [List.append_nil]
    exact stored
  | append_singleton earlier step ih =>
    rw [← List.append_assoc] at part ⊢
    rw [Runs.after_snoc]
    exact (keeps_iff.mpr (same (before ++ earlier) step part)).content proposalId content
      (ih ((List.prefix_append _ [step]).trans part))

theorem castUnder_of_kept (same : ∀ before step, before ++ [step] <+: steps →
      SubmitsSame (Runs.after next initial before) step)
    {vote : GovernanceVote} (cast : CastEarlier initial steps vote)
    (stored : storedContent (Runs.after next initial steps) vote.proposalId = some content) :
    CastUnder initial steps vote content := by
  obtain ⟨before, services, now, part, accepted, known⟩ := cast
  obtain ⟨proposal, held⟩ := Option.isSome_iff_exists.mp known
  have earlier : storedContent (Runs.after next initial before) vote.proposalId = some (contentOf proposal) := by
    rw [storedContent, held]
    rfl
  refine ⟨before, services, now, part, accepted, ?_⟩
  obtain ⟨later, all⟩ := (List.prefix_append before [_]).trans part
  have kept := content_later same earlier later (by rw [all])
  rw [all, stored] at kept
  rw [earlier, ← kept]

/-- Every decision is about one content exactly if a resubmitted proposal has the stored content and is undecided. -/
theorem one_content_iff (config : LifecycleConfig) (votingEngine : VotingEngine)
    (parameterStore : Option AppCommon.ParameterStore) (treasuryExecutor : Option TreasuryExecutor) (ledger : L)
    (steps : List (LifecycleStep L)) :
    OneContent (start config votingEngine parameterStore treasuryExecutor ledger) steps ↔
      ∀ before step, before ++ [step] <+: steps →
        SubmitsSame (Runs.after next (start config votingEngine parameterStore treasuryExecutor ledger) before) step := by
  constructor
  · intro one before step part
    apply keeps_iff.mp
    constructor
    · intro proposalId content stored
      have kept := one.content before step part proposalId content stored
      rw [Runs.after_snoc] at kept
      exact kept
    · intro proposalId status final stored
      have kept := one.terminal before step part proposalId status final stored
      rw [Runs.after_snoc] at kept
      exact kept
  · intro same
    constructor
    · intro before step part proposalId content stored
      rw [Runs.after_snoc]
      exact (keeps_iff.mpr (same before step part)).content proposalId content stored
    · intro before step part proposalId status final stored
      rw [Runs.after_snoc]
      exact (keeps_iff.mpr (same before step part)).terminal proposalId status final stored
    · intro before services now proposalId part content stored vote member
      obtain ⟨ids, cast⟩ := castEarlier_of_stored rfl before proposalId vote member
      refine ⟨ids, castUnder_of_kept (fun earlier step within => ?_) cast (by rw [ids]; exact stored)⟩
      exact same earlier step (within.trans ((List.prefix_append before [_]).trans part))

end

namespace Resubmission

def voter : PublicKey := ⟨Bytes32.replicate 1⟩

def proposalWith (newValue : Json.Value) : GovernanceProposal where
  proposalId := Bytes32.replicate 2
  proposalClass := .operational
  proposerPk := voter
  paramKeys := ["k"]
  newValues := .object [("k", newValue)]
  treasuryGrant := none
  enactEpoch := 0
  creationTimestamp := ⟨0, 0⟩
  votingEndTimestamp := ⟨0, 0⟩
  status := .voting
  tallyYes := 0
  tallyNo := 0
  tallyAbstain := 0

def votingEngine : VotingEngine where
  rmax := 100000
  minQuorum := 1 / 10
  overlapTracker := none
  sqrt := some

def services : LifecycleServices where
  getReputation _ := 100
  totalEligibleCredits := 100
  generateReceiptSignature _ _ _ := .ok (none, [])

def vote : GovernanceVote := ⟨Bytes32.replicate 2, voter, 100, .yes, ⟨1, 0⟩⟩

/-- The content under an id is replaced after the vote for it. -/
theorem replaced_after_vote :
    ¬OneContent (start ⟨50, 604800, 1 / 10⟩ votingEngine none none ())
      [.submitProposal services (proposalWith (.bool true)), .castVote services ⟨1, 0⟩ vote,
        .submitProposal services (proposalWith (.bool false)), .finalizeVoting services ⟨604800, 0⟩ vote.proposalId] := by
  intro one
  have tallied := one.content
    [.submitProposal services (proposalWith (.bool true)), .castVote services ⟨1, 0⟩ vote]
    (.submitProposal services (proposalWith (.bool false)))
    (List.prefix_append _ [LifecycleStep.finalizeVoting services ⟨604800, 0⟩ vote.proposalId])
    vote.proposalId (["k"], .object [("k", .bool true)]) (by decide +kernel)
  revert tallied
  decide +kernel

end Resubmission

end AdicProof.Governance
