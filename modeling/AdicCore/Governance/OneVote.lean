import AdicCore.Governance.OneContent

open AdicModel.Economics AdicModel.AppCommon

namespace AdicModel.Governance

/-- How far a call of `castVote` came: the status check, then the duplicate check. -/
inductive CastPhase where
  | checked (vote : GovernanceVote)
  | distinct (vote : GovernanceVote)

/-- The calls of `castVote` in flight. Each holds a read guard of the proposals until its vote is stored. -/
structure VotingSystem (L : Type) where
  governance : GovernanceState L
  casting : HashMap.Table Nat CastPhase

inductive VotingStep where
  | checkStatus (call : Nat) (services : LifecycleServices) (now : DateTime) (vote : GovernanceVote)
  | checkDuplicate (call : Nat)
  | storeVote (call : Nat)
  | finalizeVoting (services : LifecycleServices) (now : DateTime) (proposalId : Hash)

namespace VotingSystem

variable {L : Type}

def manager (system : VotingSystem L) : ProposalLifecycleManager := system.governance.manager

def checkStatus (system : VotingSystem L) (call : Nat) (services : LifecycleServices) (now : DateTime)
    (vote : GovernanceVote) : VotingSystem L :=
  if (system.casting.lookup call).isSome then system
  else
    match system.manager.checkVote services now vote with
    | .error _ => system
    | .ok _ => { system with casting := system.casting.insert call (.checked vote) }

def checkDuplicate (system : VotingSystem L) (call : Nat) : VotingSystem L :=
  match system.casting.lookup call with
  | some (.checked vote) =>
    match system.manager.checkDuplicate vote with
    | .error _ => { system with casting := system.casting.erase call }
    | .ok _ => { system with casting := system.casting.insert call (.distinct vote) }
  | _ => system

def storeVote (system : VotingSystem L) (call : Nat) : VotingSystem L :=
  match system.casting.lookup call with
  | some (.distinct vote) =>
    { governance := { system.governance with manager := system.manager.appendVote vote }
      casting := system.casting.erase call }
  | _ => system

/-- The write guard of the proposals is held from the first to the last step of the call. -/
def finalizeVoting (system : VotingSystem L) (services : LifecycleServices) (now : DateTime) (proposalId : Hash) :
    VotingSystem L :=
  if system.casting.keys = [] then
    { system with
      governance :=
        Calls.stateAfter (ProposalLifecycleManager.finalizeVoting services now proposalId) system.governance }
  else system

/-- A step that is not enabled does nothing. -/
def next (system : VotingSystem L) : VotingStep → VotingSystem L
  | .checkStatus call services now vote => system.checkStatus call services now vote
  | .checkDuplicate call => system.checkDuplicate call
  | .storeVote call => system.storeVote call
  | .finalizeVoting services now proposalId => system.finalizeVoting services now proposalId

def start (config : LifecycleConfig) (votingEngine : VotingEngine)
    (proposals : HashMap.Table Hash GovernanceProposal) (parameterStore : Option ParameterStore)
    (treasuryExecutor : Option TreasuryExecutor) (ledger : L) : VotingSystem L where
  governance := ⟨⟨config, votingEngine, proposals, ∅, ∅⟩, parameterStore, treasuryExecutor, ledger⟩
  casting := ∅

end VotingSystem

end AdicModel.Governance

open AdicModel AdicModel.Governance Calls

namespace AdicProof.Governance

section

variable {engine : VotingEngine} {proposalId : Hash}

def countedVoters (votes : List GovernanceVote) (proposalId : Hash) : List PublicKey :=
  (votes.filter fun vote => vote.proposalId = proposalId).map GovernanceVote.voterPk

theorem countVote_ok (engine : VotingEngine) {count : VoteCount} {vote : GovernanceVote}
    (filed : vote.proposalId = proposalId) (fresh : vote.voterPk ∉ count.voterSet) :
    ∃ counted, engine.countVote proposalId count vote = .ok counted ∧
      counted.voterSet = vote.voterPk :: count.voterSet := by
  unfold VotingEngine.countVote
  rw [if_neg (not_not.mpr filed), if_neg fresh]
  cases ballot : vote.ballot <;> exact ⟨_, rfl, rfl⟩

theorem countVotes_ok_iff (engine : VotingEngine) (votes : List GovernanceVote) (count : VoteCount) :
    (∃ counted, votes.foldlM (engine.countVote proposalId) count = .ok counted) ↔
      (countedVoters votes proposalId).Nodup ∧ ∀ voter ∈ countedVoters votes proposalId, voter ∉ count.voterSet := by
  induction votes generalizing count with
  | nil => simp [countedVoters, pure, Except.pure]
  | cons vote votes ih =>
    rw [List.foldlM_cons]
    by_cases filed : vote.proposalId = proposalId
    · have voters : countedVoters (vote :: votes) proposalId = vote.voterPk :: countedVoters votes proposalId := by
        simp [countedVoters, filed]
      rw [voters, List.nodup_cons]
      by_cases fresh : vote.voterPk ∈ count.voterSet
      · have run : engine.countVote proposalId count vote = .error (.duplicateVote (hexEncode vote.voterPk.asBytes.bytes)) := by
          unfold VotingEngine.countVote
          rw [if_neg (not_not.mpr filed), if_pos fresh]
        rw [run]
        constructor
        · intro counts
          obtain ⟨_, impossible⟩ := counts
          cases impossible
        · intro distinct
          exact absurd fresh (distinct.2 _ List.mem_cons_self)
      · obtain ⟨counted, run, added⟩ := countVote_ok engine filed fresh
        rw [run]
        refine (ih counted).trans ?_
        rw [added]
        simp only [List.mem_cons, not_or, forall_eq_or_imp]
        constructor
        · intro distinct
          exact ⟨⟨fun member => (distinct.2 _ member).1 rfl, distinct.1⟩, fresh, fun voter member => (distinct.2 voter member).2⟩
        · intro distinct
          exact ⟨distinct.1.2, fun voter member => ⟨fun same => distinct.1.1 (same ▸ member), distinct.2.2 voter member⟩⟩
    · have voters : countedVoters (vote :: votes) proposalId = countedVoters votes proposalId := by
        simp [countedVoters, filed]
      have run : engine.countVote proposalId count vote = .ok count := by
        unfold VotingEngine.countVote
        rw [if_pos filed]
      rw [run, voters]
      exact ih count

theorem tallyVotes_ok_iff {votes : List GovernanceVote} :
    (∃ stats, engine.tallyVotes votes proposalId = .ok stats) ↔ (countedVoters votes proposalId).Nodup := by
  have counts := @countVotes_ok_iff proposalId engine votes ⟨[], 0, 0, 0⟩
  simp only [List.not_mem_nil, not_false_eq_true, implies_true, and_true] at counts
  rw [← counts]
  unfold VotingEngine.tallyVotes
  cases votes.foldlM (engine.countVote proposalId) ⟨[], 0, 0, 0⟩ with
  | ok counted => exact ⟨fun _ => ⟨counted, rfl⟩, fun _ => ⟨_, rfl⟩⟩
  | error error =>
    constructor
    · intro tallied
      obtain ⟨_, impossible⟩ := tallied
      cases impossible
    · intro counted
      obtain ⟨_, impossible⟩ := counted
      cases impossible

theorem tallyVotes_ok {votes : List GovernanceVote} (filed : ∀ vote ∈ votes, vote.proposalId = proposalId)
    (nodup : (votes.map GovernanceVote.voterPk).Nodup) : (engine.tallyVotes votes proposalId).isOk := by
  have all : votes.filter (fun vote => vote.proposalId = proposalId) = votes := by
    apply List.filter_eq_self.mpr
    intro vote member
    exact decide_eq_true (filed vote member)
  have voters : (countedVoters votes proposalId).Nodup := by
    unfold countedVoters
    rw [all]
    exact nodup
  obtain ⟨stats, run⟩ := tallyVotes_ok_iff.mpr voters
  rw [run]
  rfl

end

section

variable {L : Type}

def phaseOf (system : VotingSystem L) (call : Nat) : Option CastPhase := system.casting.lookup call

def votesOf (system : VotingSystem L) (proposalId : Hash) : List GovernanceVote := system.manager.getVotes proposalId

def Rival (vote rival : GovernanceVote) : Prop :=
  rival.proposalId = vote.proposalId ∧ rival.voterPk = vote.voterPk

structure OneVoteEach (initial : VotingSystem L) (steps : List VotingStep) : Prop where
  distinct : ∀ before, before <+: steps → ∀ proposalId,
    ((votesOf (Runs.after VotingSystem.next initial before) proposalId).map GovernanceVote.voterPk).Nodup
  voting : ∀ before call vote, before ++ [.storeVote call] <+: steps →
    phaseOf (Runs.after VotingSystem.next initial before) call = some (.distinct vote) →
    storedStatus (Runs.after VotingSystem.next initial before).governance vote.proposalId = some .voting
  tallied : ∀ before, before <+: steps → ∀ proposalId,
    ((Runs.after VotingSystem.next initial before).manager.votingEngine.tallyVotes
      (votesOf (Runs.after VotingSystem.next initial before) proposalId) proposalId).isOk

def Overtaken (initial : VotingSystem L) (before : List VotingStep) (call : Nat) (vote : GovernanceVote) : Prop :=
  ∃ earlier other rival later, earlier ++ [.storeVote other] ++ later = before ∧ other ≠ call ∧ Rival vote rival ∧
    phaseOf (Runs.after VotingSystem.next initial earlier) call = some (.distinct vote) ∧
    phaseOf (Runs.after VotingSystem.next initial earlier) other = some (.distinct rival)

inductive VotingEffect (system after : VotingSystem L) : VotingStep → Prop where
  | same {step : VotingStep} (unchanged : after = system) : VotingEffect system after step
  | checked {call : Nat} {services : LifecycleServices} {now : DateTime} {vote : GovernanceVote}
      (status : storedStatus system.governance vote.proposalId = some .voting)
      (changed : after = { system with casting := system.casting.insert call (.checked vote) }) :
      VotingEffect system after (.checkStatus call services now vote)
  | refused {call : Nat} (changed : after = { system with casting := system.casting.erase call }) :
      VotingEffect system after (.checkDuplicate call)
  | distinct {call : Nat} {vote : GovernanceVote} (phase : phaseOf system call = some (.checked vote))
      (absent : ∀ other ∈ votesOf system vote.proposalId, other.voterPk ≠ vote.voterPk)
      (changed : after = { system with casting := system.casting.insert call (.distinct vote) }) :
      VotingEffect system after (.checkDuplicate call)
  | stored {call : Nat} {vote : GovernanceVote} (phase : phaseOf system call = some (.distinct vote))
      (changed : after =
        { governance := { system.governance with manager := system.manager.appendVote vote }
          casting := system.casting.erase call }) :
      VotingEffect system after (.storeVote call)
  | finalized {services : LifecycleServices} {now : DateTime} {proposalId : Hash}
      (idle : ∀ call, phaseOf system call = none) (calls : after.casting = system.casting)
      (votes : after.manager.votes = system.manager.votes) :
      VotingEffect system after (.finalizeVoting services now proposalId)

variable {initial system : VotingSystem L} {steps : List VotingStep} {call : Nat} {vote : GovernanceVote}
  {proposalId : Hash}

theorem checkDuplicate_ok {manager : ProposalLifecycleManager} (distinct : manager.checkDuplicate vote = .ok ()) :
    ∀ other ∈ manager.getVotes vote.proposalId, other.voterPk ≠ vote.voterPk := by
  unfold ProposalLifecycleManager.checkDuplicate at distinct
  split at distinct
  · cases distinct
  · next absent =>
    intro other member same
    apply absent
    rw [List.any_eq_true]
    exact ⟨other, member, decide_eq_true same⟩

theorem finalized_votes (services : LifecycleServices) (now : DateTime) (proposalId : Hash)
    (state : GovernanceState L) :
    (stateAfter (ProposalLifecycleManager.finalizeVoting services now proposalId) state).manager.votes =
      state.manager.votes := by
  cases finalizeVoting_effect proposalId state services now with
  | same proposals votes => exact votes
  | revised id proposal stored undecided unsubmitted revised => exact revised.1

theorem voting_effect (system : VotingSystem L) (step : VotingStep) :
    VotingEffect system (system.next step) step := by
  cases step with
  | checkStatus call services now vote =>
    show VotingEffect system (system.checkStatus call services now vote) _
    unfold VotingSystem.checkStatus
    split
    · exact .same rfl
    · split
      · exact .same rfl
      · next checked =>
        obtain ⟨proposal, stored, voting⟩ := checkVote_ok checked
        refine .checked ?_ rfl
        unfold VotingSystem.manager at stored
        unfold storedStatus proposalOf
        rw [stored, Option.map_some, voting]
  | checkDuplicate call =>
    show VotingEffect system (system.checkDuplicate call) _
    unfold VotingSystem.checkDuplicate
    split
    · next vote phase =>
      split
      · exact .refused rfl
      · next distinct => exact .distinct phase (checkDuplicate_ok distinct) rfl
    · exact .same rfl
  | storeVote call =>
    show VotingEffect system (system.storeVote call) _
    unfold VotingSystem.storeVote
    split
    · next vote phase => exact .stored phase rfl
    · exact .same rfl
  | finalizeVoting services now proposalId =>
    show VotingEffect system (system.finalizeVoting services now proposalId) _
    unfold VotingSystem.finalizeVoting
    split
    · next idle =>
      refine .finalized (fun call => ?_) rfl (finalized_votes services now proposalId system.governance)
      unfold phaseOf
      rw [AList.lookup_eq_none, AList.mem_keys, idle]
      exact List.not_mem_nil
    · exact .same rfl

def voteOf : CastPhase → GovernanceVote
  | .checked vote => vote
  | .distinct vote => vote

structure Filed (system : VotingSystem L) : Prop where
  votes : ∀ proposalId, ∀ vote ∈ votesOf system proposalId, vote.proposalId = proposalId
  voting : ∀ call phase, phaseOf system call = some phase →
    storedStatus system.governance (voteOf phase).proposalId = some .voting

theorem phaseOf_insert (casting : HashMap.Table Nat CastPhase) (governance : GovernanceState L) (call other : Nat)
    (phase : CastPhase) :
    phaseOf ⟨governance, casting.insert call phase⟩ other =
      if other = call then some phase else phaseOf ⟨governance, casting⟩ other :=
  HashMap.lookup_insert_eq casting call other phase

theorem phaseOf_erase (casting : HashMap.Table Nat CastPhase) (governance : GovernanceState L) (call other : Nat) :
    phaseOf ⟨governance, casting.erase call⟩ other =
      if other = call then none else phaseOf ⟨governance, casting⟩ other :=
  HashMap.lookup_erase_eq casting call other

theorem votesOf_stored (casting : HashMap.Table Nat CastPhase) (vote : GovernanceVote) (proposalId : Hash) :
    votesOf ⟨{ system.governance with manager := system.manager.appendVote vote }, casting⟩ proposalId =
      if proposalId = vote.proposalId then votesOf system proposalId ++ [vote] else votesOf system proposalId :=
  getVotes_appendVote system.manager vote proposalId

theorem filed_next (filed : Filed system) (step : VotingStep) : Filed (system.next step) := by
  cases voting_effect system step with
  | same unchanged =>
    rw [unchanged]
    exact filed
  | @checked call services now vote status changed =>
    rw [changed]
    refine ⟨filed.votes, fun other phase held => ?_⟩
    rw [phaseOf_insert] at held
    split at held
    · cases held
      exact status
    · exact filed.voting other phase held
  | refused changed =>
    rw [changed]
    refine ⟨filed.votes, fun other phase held => ?_⟩
    rw [phaseOf_erase] at held
    split at held
    · cases held
    · exact filed.voting other phase held
  | @distinct call vote checked absent changed =>
    rw [changed]
    refine ⟨filed.votes, fun other phase held => ?_⟩
    rw [phaseOf_insert] at held
    split at held
    · cases held
      exact filed.voting call (.checked vote) checked
    · exact filed.voting other phase held
  | @stored call vote phase changed =>
    rw [changed]
    constructor
    · intro proposalId other member
      rw [votesOf_stored] at member
      split at member
      · next same =>
        rcases List.mem_append.mp member with earlier | last
        · exact filed.votes proposalId other earlier
        · rw [List.mem_singleton.mp last, same]
      · exact filed.votes proposalId other member
    · intro other held lookup
      rw [phaseOf_erase] at lookup
      split at lookup
      · cases lookup
      · exact filed.voting other held lookup
  | finalized idle calls votes =>
    constructor
    · intro proposalId vote member
      rw [votesOf, getVotes_of_votes votes] at member
      exact filed.votes proposalId vote member
    · intro call phase held
      have nothing := idle call
      unfold phaseOf at held nothing
      rw [calls, nothing] at held
      cases held

theorem votesOf_same {after : VotingSystem L} (votes : after.manager.votes = system.manager.votes) (proposalId : Hash) :
    votesOf after proposalId = votesOf system proposalId :=
  getVotes_of_votes votes proposalId

theorem stored_next {vote : GovernanceVote} (member : vote ∈ votesOf system proposalId) (step : VotingStep) :
    vote ∈ votesOf (system.next step) proposalId := by
  cases voting_effect system step with
  | same unchanged =>
    rw [unchanged]
    exact member
  | checked status changed =>
    rw [changed]
    exact member
  | refused changed =>
    rw [changed]
    exact member
  | distinct checked absent changed =>
    rw [changed]
    exact member
  | stored phase changed =>
    rw [changed, votesOf_stored]
    split
    · exact List.mem_append_left _ member
    · exact member
  | finalized idle calls votes =>
    rw [votesOf_same votes]
    exact member

variable {before : List VotingStep}

theorem stored_after
    (member : vote ∈ votesOf (Runs.after VotingSystem.next initial before) proposalId) (later : List VotingStep) :
    vote ∈ votesOf (Runs.after VotingSystem.next initial (before ++ later)) proposalId := by
  induction later using List.reverseRecOn with
  | nil =>
    rw [List.append_nil]
    exact member
  | append_singleton earlier step ih =>
    rw [← List.append_assoc, Runs.after_snoc]
    exact stored_next ih step

theorem next_storeVote (phase : phaseOf system call = some (.distinct vote)) :
    system.next (.storeVote call) =
      { governance := { system.governance with manager := system.manager.appendVote vote }
        casting := system.casting.erase call } := by
  show system.storeVote call = _
  unfold phaseOf at phase
  unfold VotingSystem.storeVote
  rw [phase]

theorem stored_of_overtaken (overtaken : Overtaken initial before call vote) :
    ∃ rival ∈ votesOf (Runs.after VotingSystem.next initial before) vote.proposalId, rival.voterPk = vote.voterPk := by
  obtain ⟨earlier, other, rival, later, rfl, -, ⟨same, voter⟩, -, phase⟩ := overtaken
  refine ⟨rival, stored_after ?_ later, voter⟩
  rw [Runs.after_snoc, next_storeVote phase, votesOf_stored, if_pos same.symm]
  exact List.mem_append_right _ (List.mem_singleton.mpr rfl)

theorem Overtaken.extend (overtaken : Overtaken initial before call vote)
    (step : VotingStep) : Overtaken initial (before ++ [step]) call vote := by
  obtain ⟨earlier, other, rival, later, rfl, all⟩ := overtaken
  exact ⟨earlier, other, rival, later ++ [step], by simp, all⟩

theorem overtaken_of_stored (unvoted : ∀ proposalId, votesOf initial proposalId = []) (before : List VotingStep) :
    ∀ call vote, phaseOf (Runs.after VotingSystem.next initial before) call = some (.distinct vote) →
      ∀ rival ∈ votesOf (Runs.after VotingSystem.next initial before) vote.proposalId,
        rival.voterPk = vote.voterPk → Overtaken initial before call vote := by
  induction before using List.reverseRecOn with
  | nil =>
    intro call vote _ rival member
    rw [Runs.after_nil, unvoted] at member
    cases member
  | append_singleton before step ih =>
    intro call vote phase rival member voter
    rw [Runs.after_snoc] at phase member
    have kept (phaseThen : phaseOf (Runs.after VotingSystem.next initial before) call = some (.distinct vote))
        (memberThen : rival ∈ votesOf (Runs.after VotingSystem.next initial before) vote.proposalId) :
        Overtaken initial (before ++ [step]) call vote :=
      (ih call vote phaseThen rival memberThen voter).extend step
    cases voting_effect (Runs.after VotingSystem.next initial before) step with
    | same unchanged =>
      rw [unchanged] at phase member
      exact kept phase member
    | checked status changed =>
      rw [changed] at phase member
      rw [phaseOf_insert] at phase
      split at phase
      · cases phase
      · exact kept phase member
    | refused changed =>
      rw [changed] at phase member
      rw [phaseOf_erase] at phase
      split at phase
      · cases phase
      · exact kept phase member
    | distinct checked absent changed =>
      rw [changed] at phase member
      rw [phaseOf_insert] at phase
      split at phase
      · cases phase
        exact absurd voter (absent rival member)
      · exact kept phase member
    | @stored other stored phaseOther changed =>
      rw [changed] at phase member
      rw [phaseOf_erase] at phase
      split at phase
      · cases phase
      · next different =>
        rw [votesOf_stored] at member
        split at member
        · next same =>
          rcases List.mem_append.mp member with earlier | last
          · exact kept phase earlier
          · rw [List.mem_singleton.mp last] at voter
            refine ⟨before, other, stored, [], by simp, fun equal => different equal.symm, ⟨same.symm, voter⟩, ?_, ?_⟩
            · exact phase
            · exact phaseOther
        · exact kept phase member
    | finalized idle calls votes =>
      unfold phaseOf at phase
      rw [calls] at phase
      exact kept phase (by rw [votesOf_same votes] at member; exact member)

theorem filed_start (config : LifecycleConfig) (votingEngine : VotingEngine)
    (proposals : HashMap.Table Hash GovernanceProposal) (parameterStore : Option AppCommon.ParameterStore)
    (treasuryExecutor : Option TreasuryExecutor) (ledger : L) :
    Filed (VotingSystem.start config votingEngine proposals parameterStore treasuryExecutor ledger) := by
  constructor
  · intro proposalId vote member
    cases member
  · intro call phase held
    cases held

theorem filed_after (filed : Filed initial) (steps : List VotingStep) :
    Filed (Runs.after VotingSystem.next initial steps) :=
  Runs.invariant_of_kept filed (fun _ step holds => filed_next holds step) steps

def Distinct (system : VotingSystem L) : Prop :=
  ∀ proposalId, ((votesOf system proposalId).map GovernanceVote.voterPk).Nodup

theorem distinct_next (distinct : Distinct system) (step : VotingStep)
    (fresh : ∀ call vote, step = .storeVote call → phaseOf system call = some (.distinct vote) →
      ∀ rival ∈ votesOf system vote.proposalId, rival.voterPk ≠ vote.voterPk) : Distinct (system.next step) := by
  intro proposalId
  cases voting_effect system step with
  | same unchanged =>
    rw [unchanged]
    exact distinct proposalId
  | checked status changed =>
    rw [changed]
    exact distinct proposalId
  | refused changed =>
    rw [changed]
    exact distinct proposalId
  | distinct checked absent changed =>
    rw [changed]
    exact distinct proposalId
  | @stored call vote phase changed =>
    rw [changed, votesOf_stored]
    split
    · next same =>
      rw [List.map_append, List.nodup_append]
      refine ⟨distinct proposalId, List.nodup_singleton _, ?_⟩
      intro voter member other last
      obtain ⟨rival, stored, voterOf⟩ := List.mem_map.mp member
      rw [List.map_singleton, List.mem_singleton] at last
      rw [same] at stored
      rw [← voterOf, last]
      exact fresh call vote rfl phase rival stored
    · exact distinct proposalId
  | finalized idle calls votes =>
    rw [votesOf_same votes]
    exact distinct proposalId

/-- Every voter has one vote over a run exactly if no call stores its vote after it was overtaken. -/
theorem one_vote_each_iff (config : LifecycleConfig) (votingEngine : VotingEngine)
    (proposals : HashMap.Table Hash GovernanceProposal) (parameterStore : Option AppCommon.ParameterStore)
    (treasuryExecutor : Option TreasuryExecutor) (ledger : L) (steps : List VotingStep) :
    OneVoteEach (.start config votingEngine proposals parameterStore treasuryExecutor ledger) steps ↔
      ∀ before call vote, before ++ [.storeVote call] <+: steps →
        phaseOf (Runs.after VotingSystem.next
          (.start config votingEngine proposals parameterStore treasuryExecutor ledger) before) call =
            some (.distinct vote) →
        ¬Overtaken (.start config votingEngine proposals parameterStore treasuryExecutor ledger) before call vote := by
  have filed (before : List VotingStep) := filed_after
    (filed_start config votingEngine proposals parameterStore treasuryExecutor ledger) before
  generalize initially : VotingSystem.start config votingEngine proposals parameterStore treasuryExecutor ledger = initial
  rw [initially] at filed
  constructor
  · intro one before call vote part phase overtaken
    obtain ⟨rival, member, voter⟩ := stored_of_overtaken overtaken
    have distinct := one.distinct (before ++ [.storeVote call]) part vote.proposalId
    rw [Runs.after_snoc, next_storeVote phase, votesOf_stored, if_pos rfl, List.map_append, List.nodup_append] at distinct
    exact distinct.2.2 rival.voterPk (List.mem_map_of_mem member) vote.voterPk (by simp) voter
  · intro alone
    have unvoted : ∀ proposalId, votesOf initial proposalId = [] := by
      intro proposalId
      rw [← initially]
      rfl
    have distinct : ∀ before, before <+: steps → Distinct (Runs.after VotingSystem.next initial before) := by
      refine Runs.forall_prefixes ?_ ?_
      · intro proposalId
        rw [Runs.after_nil, unvoted]
        exact List.nodup_nil
      · intro before step part earlier
        rw [Runs.after_snoc]
        refine distinct_next earlier step ?_
        intro call vote store phase rival member voter
        rw [store] at part
        exact alone before call vote part phase (overtaken_of_stored unvoted before call vote phase rival member voter)
    constructor
    · intro before part proposalId
      exact distinct before part proposalId
    · intro before call vote _ phase
      exact (filed before).voting call (.distinct vote) phase
    · intro before part proposalId
      exact tallyVotes_ok ((filed before).votes proposalId) (distinct before part proposalId)

end

namespace SimultaneousVotes

def voter : PublicKey := ⟨Bytes32.replicate 1⟩

def proposal : GovernanceProposal where
  proposalId := Bytes32.replicate 2
  proposalClass := .operational
  proposerPk := voter
  paramKeys := []
  newValues := .null
  treasuryGrant := none
  enactEpoch := 0
  creationTimestamp := ⟨0, 0⟩
  votingEndTimestamp := ⟨604800, 0⟩
  status := .voting
  tallyYes := 0
  tallyNo := 0
  tallyAbstain := 0

def votingEngine : VotingEngine where
  rmax := 100000
  minQuorum := 1 / 10
  overlapTracker := none
  sqrt := some

def services : LifecycleServices where
  getReputation _ := 100
  totalEligibleCredits := 100
  generateReceiptSignature _ _ _ := .ok (none, [])

def vote : GovernanceVote := ⟨Bytes32.replicate 2, voter, 100, .yes, ⟨1, 0⟩⟩

def steps : List VotingStep :=
  [.checkStatus 0 services ⟨1, 0⟩ vote, .checkStatus 1 services ⟨1, 0⟩ vote, .checkDuplicate 0, .checkDuplicate 1,
    .storeVote 0, .storeVote 1]

/-- Two calls of one voter both find no vote, and both store theirs. -/
theorem both_stored :
    ¬OneVoteEach (.start ⟨50, 604800, 1 / 10⟩ votingEngine (HashMap.ofPairs [(Bytes32.replicate 2, proposal)]) none
      none ()) steps := by
  intro one
  have distinct := one.distinct steps (List.prefix_refl _) (Bytes32.replicate 2)
  revert distinct
  decide +kernel

end SimultaneousVotes

end AdicProof.Governance
