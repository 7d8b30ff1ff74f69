import AdicCore.Challenges.Lifecycle
import AdicCore.Consensus.Deposit
import AdicCore.Pouw.Executor

open AdicModel.Challenges AdicModel.Consensus AdicModel.Economics HashMap

namespace AdicModel.Pouw

inductive DisputeStatus where
  | submitted
  | underReview
  | accepted
  | rejected
  | inconclusive
  | appealed

inductive DisputeEvidence where
  | reExecutionProof (differentOutputCid : String) (executionTrace : List Hash)
  | inputOutputMismatch (expectedOutput actualOutput : String)
  | resourceUsageFraud (claimedMetrics actualMetrics : ExecutionMetrics)

/-- The time of its creation is left out. -/
structure Dispute where
  disputeId : Hash
  taskId : TaskId
  resultId : Hash
  worker : PublicKey
  challenger : PublicKey
  challengerStake : AdicAmount
  evidence : DisputeEvidence
  status : DisputeStatus
  resolutionDeadline : UInt64

/-- What the calls below read. -/
structure DisputeConfig where
  minChallengerStake : AdicAmount
  challengePeriodEpochs : UInt64
  arbitrationCommitteeSize : Nat
  arbitrationThreshold : ℚ
  appealPeriodEpochs : UInt64

def DisputeConfig.default : DisputeConfig := ⟨⟨10000000000⟩, 24, 7, 67 / 100, 48⟩

inductive DisputeOutcome where
  | challengeAccepted
  | challengeRejected
  | inconclusive
deriving DecidableEq

def DisputeOutcome.status : DisputeOutcome → DisputeStatus
  | challengeAccepted => .accepted
  | challengeRejected => .rejected
  | inconclusive => .inconclusive

/-- The reasoning and the epoch of a decision are left out. -/
structure ArbitrationDecision where
  disputeId : Hash
  arbitrators : List PublicKey
  votesForChallenger : Nat
  votesForWorker : Nat
  outcome : DisputeOutcome

structure DisputeManager where
  reputationTracker : ReputationTracker
  config : DisputeConfig
  disputes : Table Hash Dispute
  arbitrationCommittees : Table Hash (List PublicKey)
  challengeWindows : Table String ChallengeWindow

namespace DisputeManager

def new (reputationTracker : ReputationTracker) (config : DisputeConfig) : DisputeManager :=
  ⟨reputationTracker, config, ∅, ∅, ∅⟩

variable (blake3 : List UInt8 → Bytes32)

def generateWindowId (taskId : TaskId) (resultId : Hash) : String :=
  s!"pouw_challenge_{hexEncode (taskId.bytes.take 8)}_{hexEncode (resultId.bytes.take 8)}"

def generateDisputeId (now : Int) (taskId : TaskId) (resultId : Hash) (challenger : PublicKey) : Hash :=
  blake3 (taskId.bytes ++ resultId.bytes ++ challenger.asBytes.bytes ++ toLeBytes now)

def openChallengeWindow (taskId : TaskId) (resultId : Hash) (submittedAtEpoch : UInt64) (manager : DisputeManager) :
    String × DisputeManager :=
  let windowId := generateWindowId taskId resultId
  let window := ChallengeWindow.new ⟨blake3 (taskId.bytes ++ resultId.bytes)⟩ submittedAtEpoch
    { ChallengeConfig.default with windowDepth := manager.config.challengePeriodEpochs }
  (windowId, { manager with challengeWindows := manager.challengeWindows.insert windowId window })

def isChallengePeriodActive (windowId : String) (currentEpoch : UInt64) (manager : DisputeManager) : Bool :=
  match manager.challengeWindows.lookup windowId with
  | some window => window.isActive currentEpoch
  | none => false

/-- The deadline wraps around in release builds. -/
def submitChallenge (now : Int) (taskId : TaskId) (resultId : Hash) (worker challenger : PublicKey)
    (challengerStake : AdicAmount) (evidence : DisputeEvidence) (currentEpoch : UInt64) (manager : DisputeManager) :
    Except PoUWError Hash × DisputeManager :=
  if challengerStake.baseUnits < manager.config.minChallengerStake.baseUnits then
    (.error (.other (s!"Insufficient challenger stake: required {manager.config.minChallengerStake.baseUnits}, " ++
      s!"provided {challengerStake.baseUnits}")), manager)
  else if manager.isChallengePeriodActive (generateWindowId taskId resultId) currentEpoch = false then
    (.error (.other "Challenge period has expired"), manager)
  else
    let disputeId := generateDisputeId blake3 now taskId resultId challenger
    match manager.disputes.lookup disputeId with
    | some _ => (.error (.other "Dispute already exists"), manager)
    | none =>
      let dispute :=
        { disputeId, taskId, resultId, worker, challenger, challengerStake, evidence
          status := .submitted
          resolutionDeadline := currentEpoch + manager.config.challengePeriodEpochs }
      (.ok disputeId, { manager with disputes := manager.disputes.insert disputeId dispute })

/-- The index of an arbitrator is cast to a byte. -/
def generateArbitrators (disputeId : Hash) (currentEpoch : UInt64) (committeeSize : Nat) : List PublicKey :=
  (List.range committeeSize).map fun index =>
    ⟨blake3 (disputeId.bytes ++ [UInt8.ofNat index] ++ toLeBytes currentEpoch.toNat)⟩

def setStatus (disputeId : Hash) (dispute : Dispute) (status : DisputeStatus) (manager : DisputeManager) :
    DisputeManager :=
  { manager with disputes := manager.disputes.insert disputeId { dispute with status } }

def selectArbitrationCommittee (disputeId : Hash) (currentEpoch : UInt64) (manager : DisputeManager) :
    Except PoUWError (List PublicKey) × DisputeManager :=
  match manager.disputes.lookup disputeId with
  | none => (.error (.other "Dispute not found"), manager)
  | some dispute =>
    let arbitrators := generateArbitrators blake3 disputeId currentEpoch manager.config.arbitrationCommitteeSize
    (.ok arbitrators,
      { manager.setStatus disputeId dispute .underReview with
        arbitrationCommittees := manager.arbitrationCommittees.insert disputeId arbitrators })

def adjustReputations (dispute : Dispute) (outcome : DisputeOutcome) (tracker : ReputationTracker) :
    ReputationTracker :=
  match outcome with
  | .challengeAccepted =>
    let currentRep := tracker.getReputation dispute.worker
    let slashAmount := max (currentRep * (1 / 10)) 10
    let tracker := tracker.setReputation dispute.worker (max (currentRep - slashAmount) (1 / 10))
    let challengerRep := tracker.getReputation dispute.challenger
    tracker.setReputation dispute.challenger (min (challengerRep + 5) 10)
  | .challengeRejected =>
    let currentRep := tracker.getReputation dispute.challenger
    let slashAmount := max (currentRep * (5 / 100)) 5
    tracker.setReputation dispute.challenger (max (currentRep - slashAmount) (1 / 10))
  | .inconclusive => tracker

def processArbitration (disputeId : Hash) (decision : ArbitrationDecision) (manager : DisputeManager) :
    Except PoUWError DisputeOutcome × DisputeManager :=
  match manager.disputes.lookup disputeId with
  | none => (.error (.other "Dispute not found"), manager)
  | some dispute =>
    match manager.arbitrationCommittees.lookup disputeId with
    | none => (.error (.other "No committee found"), manager)
    | some expectedCommittee =>
      if ∃ arbitrator ∈ decision.arbitrators, arbitrator ∉ expectedCommittee then
        (.error (.other "Invalid arbitrator in decision"), manager)
      else
        (.ok decision.outcome,
          { manager.setStatus disputeId dispute decision.outcome.status with
            reputationTracker := adjustReputations dispute decision.outcome manager.reputationTracker })

/-- The end of the appeal period wraps around in release builds. -/
def submitAppeal (disputeId : Hash) (currentEpoch : UInt64) (manager : DisputeManager) :
    Except PoUWError Unit × DisputeManager :=
  match manager.disputes.lookup disputeId with
  | none => (.error (.other "Dispute not found"), manager)
  | some dispute =>
    if currentEpoch > dispute.resolutionDeadline + manager.config.appealPeriodEpochs then
      (.error (.other "Appeal period has expired"), manager)
    else (.ok (), manager.setStatus disputeId dispute .appealed)

end DisputeManager

inductive DisputeCall where
  | openChallengeWindow (taskId : TaskId) (resultId : Hash) (submittedAtEpoch : UInt64)
  | submitChallenge (now : Int) (taskId : TaskId) (resultId : Hash) (worker challenger : PublicKey)
    (challengerStake : AdicAmount) (evidence : DisputeEvidence) (currentEpoch : UInt64)
  | selectArbitrationCommittee (disputeId : Hash) (currentEpoch : UInt64)
  | processArbitration (disputeId : Hash) (decision : ArbitrationDecision)
  | submitAppeal (disputeId : Hash) (appellant : PublicKey) (appealEvidence : String) (currentEpoch : UInt64)

def DisputeCall.next (blake3 : List UInt8 → Bytes32) (manager : DisputeManager) : DisputeCall → DisputeManager
  | openChallengeWindow taskId resultId submittedAtEpoch =>
    (manager.openChallengeWindow blake3 taskId resultId submittedAtEpoch).2
  | submitChallenge now taskId resultId worker challenger challengerStake evidence currentEpoch =>
    (manager.submitChallenge blake3 now taskId resultId worker challenger challengerStake evidence currentEpoch).2
  | selectArbitrationCommittee disputeId currentEpoch =>
    (manager.selectArbitrationCommittee blake3 disputeId currentEpoch).2
  | processArbitration disputeId decision => (manager.processArbitration disputeId decision).2
  | submitAppeal disputeId _ _ currentEpoch => (manager.submitAppeal disputeId currentEpoch).2

end AdicModel.Pouw

open AdicModel AdicModel.Pouw

namespace AdicProof.Pouw

def Decides (manager : DisputeManager) (disputeId : Hash) (decision : ArbitrationDecision) : Prop :=
  (manager.disputes.lookup disputeId).isSome ∧
    ∃ committee, manager.arbitrationCommittees.lookup disputeId = some committee ∧
      ∀ arbitrator ∈ decision.arbitrators, arbitrator ∈ committee

def votesFor (decision : ArbitrationDecision) : Nat :=
  match decision.outcome with
  | .challengeAccepted => decision.votesForChallenger
  | .challengeRejected => decision.votesForWorker
  | .inconclusive => 0

def behind (committee : List PublicKey) (decision : ArbitrationDecision) : Nat :=
  min (votesFor decision) (committee.dedup.filter (· ∈ decision.arbitrators)).length

def Backed (config : DisputeConfig) (committee : List PublicKey) (decision : ArbitrationDecision) : Prop :=
  config.arbitrationThreshold * committee.dedup.length ≤ behind committee decision

section

variable {blake3 : List UInt8 → Bytes32} {manager : DisputeManager} {disputeId : Hash} {dispute : Dispute}
  {decision : ArbitrationDecision} {status : DisputeStatus} {call : DisputeCall}

theorem setStatus_lookup {other : Hash} {stored : Dispute}
    (found : (manager.setStatus disputeId dispute status).disputes.lookup other = some stored) :
    (other = disputeId ∧ stored.status = status) ∨ manager.disputes.lookup other = some stored := by
  unfold DisputeManager.setStatus at found
  rw [lookup_insert_eq] at found
  split at found
  next same =>
    cases found
    exact .inl ⟨same, rfl⟩
  · exact .inr found

theorem processArbitration_cases (manager : DisputeManager) (disputeId : Hash) (decision : ArbitrationDecision) :
    (¬ Decides manager disputeId decision ∧ (manager.processArbitration disputeId decision).2 = manager) ∨
      ∃ dispute, Decides manager disputeId decision ∧ (manager.processArbitration disputeId decision).2 =
        { manager.setStatus disputeId dispute decision.outcome.status with
          reputationTracker :=
            DisputeManager.adjustReputations dispute decision.outcome manager.reputationTracker } := by
  unfold DisputeManager.processArbitration Decides
  cases found : manager.disputes.lookup disputeId with
  | none => exact .inl ⟨fun decides => by simp at decides, rfl⟩
  | some dispute =>
    cases committees : manager.arbitrationCommittees.lookup disputeId with
    | none => exact .inl ⟨fun decides => by simp at decides, rfl⟩
    | some committee =>
      dsimp only
      split
      next stranger =>
        refine .inl ⟨fun decides => ?_, rfl⟩
        obtain ⟨arbitrator, listed, foreign⟩ := stranger
        obtain ⟨_, other, same, all⟩ := decides
        cases same
        exact foreign (all arbitrator listed)
      next known =>
        refine .inr ⟨dispute, ⟨rfl, committee, rfl, ?_⟩, rfl⟩
        intro arbitrator listed
        by_contra foreign
        exact known ⟨arbitrator, listed, foreign⟩

theorem next_tracker (manager : DisputeManager) (call : DisputeCall) :
    (call.next blake3 manager).reputationTracker = manager.reputationTracker ∨
      ∃ disputeId decision, call = .processArbitration disputeId decision ∧ Decides manager disputeId decision ∧
        decision.outcome ≠ .inconclusive := by
  cases call with
  | openChallengeWindow taskId resultId submittedAtEpoch => exact .inl rfl
  | submitChallenge now taskId resultId worker challenger stake evidence currentEpoch =>
    left
    show (DisputeManager.submitChallenge _ _ _ _ _ _ _ _ _ _).2.reputationTracker = _
    unfold DisputeManager.submitChallenge
    dsimp only
    split
    · rfl
    · split
      · rfl
      · split <;> rfl
  | selectArbitrationCommittee disputeId currentEpoch =>
    left
    show (DisputeManager.selectArbitrationCommittee _ _ _ _).2.reputationTracker = _
    unfold DisputeManager.selectArbitrationCommittee
    split <;> rfl
  | processArbitration disputeId decision =>
    rcases processArbitration_cases manager disputeId decision with ⟨_, same⟩ | ⟨dispute, decides, run⟩
    · left
      show (manager.processArbitration disputeId decision).2.reputationTracker = _
      rw [same]
    · by_cases open_ : decision.outcome = .inconclusive
      · left
        show (manager.processArbitration disputeId decision).2.reputationTracker = _
        rw [run, open_]
        rfl
      · exact .inr ⟨disputeId, decision, rfl, decides, open_⟩
  | submitAppeal disputeId appellant appealEvidence currentEpoch =>
    left
    show (DisputeManager.submitAppeal _ _ _).2.reputationTracker = _
    unfold DisputeManager.submitAppeal
    split
    · rfl
    · split <;> rfl

theorem next_committee (manager : DisputeManager) (call : DisputeCall) (disputeId : Hash) :
    (call.next blake3 manager).arbitrationCommittees.lookup disputeId =
        manager.arbitrationCommittees.lookup disputeId ∨
      ∃ currentEpoch, call = .selectArbitrationCommittee disputeId currentEpoch ∧
        (manager.disputes.lookup disputeId).isSome ∧
        (call.next blake3 manager).arbitrationCommittees.lookup disputeId =
          some (DisputeManager.generateArbitrators blake3 disputeId currentEpoch
            manager.config.arbitrationCommitteeSize) := by
  cases call with
  | openChallengeWindow taskId resultId submittedAtEpoch => exact .inl rfl
  | submitChallenge now taskId resultId worker challenger stake evidence currentEpoch =>
    left
    show (DisputeManager.submitChallenge _ _ _ _ _ _ _ _ _ _).2.arbitrationCommittees.lookup disputeId = _
    unfold DisputeManager.submitChallenge
    dsimp only
    split
    · rfl
    · split
      · rfl
      · split <;> rfl
  | selectArbitrationCommittee other currentEpoch =>
    show (DisputeManager.selectArbitrationCommittee _ _ _ _).2.arbitrationCommittees.lookup disputeId = _ ∨ _
    unfold DisputeManager.selectArbitrationCommittee
    cases found : manager.disputes.lookup other with
    | none => exact .inl rfl
    | some dispute =>
      by_cases same : disputeId = other
      · subst same
        right
        refine ⟨currentEpoch, rfl, by rw [found]; rfl, ?_⟩
        show (DisputeManager.selectArbitrationCommittee _ _ _ _).2.arbitrationCommittees.lookup disputeId = _
        unfold DisputeManager.selectArbitrationCommittee
        rw [found]
        exact (lookup_insert_eq _ _ _ _).trans (if_pos rfl)
      · exact .inl ((lookup_insert_eq _ _ _ _).trans (if_neg same))
  | processArbitration other decision =>
    left
    show (manager.processArbitration other decision).2.arbitrationCommittees.lookup disputeId = _
    rcases processArbitration_cases manager other decision with ⟨_, same⟩ | ⟨dispute, _, run⟩
    · rw [same]
    · rw [run]
      rfl
  | submitAppeal other appellant appealEvidence currentEpoch =>
    left
    show (DisputeManager.submitAppeal _ _ _).2.arbitrationCommittees.lookup disputeId = _
    unfold DisputeManager.submitAppeal
    split
    · rfl
    · split <;> rfl

theorem next_outcome {outcome : DisputeOutcome} (decided : outcome ≠ .inconclusive)
    (found : (call.next blake3 manager).disputes.lookup disputeId = some dispute)
    (recorded : dispute.status = outcome.status) :
    manager.disputes.lookup disputeId = some dispute ∨
      ∃ decision, call = .processArbitration disputeId decision ∧ Decides manager disputeId decision ∧
        decision.outcome = outcome := by
  cases call with
  | openChallengeWindow taskId resultId submittedAtEpoch => exact .inl found
  | submitChallenge now taskId resultId worker challenger stake evidence currentEpoch =>
    left
    change (DisputeManager.submitChallenge _ _ _ _ _ _ _ _ _ _).2.disputes.lookup disputeId = _ at found
    unfold DisputeManager.submitChallenge at found
    dsimp only at found
    split at found
    · exact found
    · split at found
      · exact found
      · split at found
        · exact found
        · rw [lookup_insert_eq] at found
          split at found
          · cases found
            cases outcome <;> cases recorded
          · exact found
  | selectArbitrationCommittee other currentEpoch =>
    left
    change (DisputeManager.selectArbitrationCommittee _ _ _ _).2.disputes.lookup disputeId = _ at found
    unfold DisputeManager.selectArbitrationCommittee at found
    split at found
    · exact found
    · rcases setStatus_lookup found with ⟨_, status⟩ | kept
      · rw [status] at recorded
        cases outcome <;> cases recorded
      · exact kept
  | processArbitration other decision =>
    change (manager.processArbitration other decision).2.disputes.lookup disputeId = _ at found
    rcases processArbitration_cases manager other decision with ⟨_, same⟩ | ⟨before, decides, run⟩
    · rw [same] at found
      exact .inl found
    · rw [run] at found
      rcases setStatus_lookup found with ⟨rfl, status⟩ | kept
      · rw [status] at recorded
        refine .inr ⟨decision, rfl, decides, ?_⟩
        cases isOutcome : decision.outcome <;> rw [isOutcome] at recorded <;> cases outcome <;>
          first | rfl | cases recorded
      · exact .inl kept
  | submitAppeal other appellant appealEvidence currentEpoch =>
    left
    change (DisputeManager.submitAppeal _ _ _).2.disputes.lookup disputeId = _ at found
    unfold DisputeManager.submitAppeal at found
    split at found
    · exact found
    · split at found
      · exact found
      · rcases setStatus_lookup found with ⟨_, status⟩ | kept
        · rw [status] at recorded
          cases outcome <;> cases recorded
        · exact kept

end

section

variable (blake3 : List UInt8 → Bytes32) (start : DisputeManager)

def disputesAfter (calls : List DisputeCall) : DisputeManager := Runs.after (DisputeCall.next blake3) start calls

abbrev arbitrated (disputeId : Hash) (decision : ArbitrationDecision) : DisputeCall :=
  .processArbitration disputeId decision

def DecidedBy (calls before : List DisputeCall) (disputeId : Hash) (decision : ArbitrationDecision) : Prop :=
  before ++ [arbitrated disputeId decision] <+: calls ∧
    Decides (disputesAfter blake3 start before) disputeId decision

structure DecidedOnce (calls : List DisputeCall) : Prop where
  once : ∀ before between disputeId decision decision',
    before ++ [arbitrated disputeId decision] ++ between ++ [arbitrated disputeId decision'] <+: calls →
      (disputesAfter blake3 start (before ++ [arbitrated disputeId decision])).reputationTracker =
          (disputesAfter blake3 start before).reputationTracker ∨
        (disputesAfter blake3 start
            (before ++ [arbitrated disputeId decision] ++ between ++
              [arbitrated disputeId decision'])).reputationTracker =
          (disputesAfter blake3 start
            (before ++ [arbitrated disputeId decision] ++ between)).reputationTracker
  others : ∀ before call, before ++ [call] <+: calls →
    (∀ disputeId decision, call ≠ arbitrated disputeId decision) →
      (disputesAfter blake3 start (before ++ [call])).reputationTracker =
        (disputesAfter blake3 start before).reputationTracker
  kept : ∀ before disputeId decision later, DecidedBy blake3 start calls before disputeId decision →
    before ++ [arbitrated disputeId decision] ++ later <+: calls →
      (disputesAfter blake3 start
          (before ++ [arbitrated disputeId decision] ++ later)).arbitrationCommittees.lookup disputeId =
        (disputesAfter blake3 start before).arbitrationCommittees.lookup disputeId
  backed : ∀ part disputeId dispute outcome, part <+: calls → outcome ≠ .inconclusive →
    (disputesAfter blake3 start part).disputes.lookup disputeId = some dispute → dispute.status = outcome.status →
      ∃ before decision committee, DecidedBy blake3 start part before disputeId decision ∧
        decision.outcome = outcome ∧
          (disputesAfter blake3 start before).arbitrationCommittees.lookup disputeId = some committee ∧
            Backed start.config committee decision

def RespectsDispute (before : List DisputeCall) : DisputeCall → Prop
  | .processArbitration disputeId decision =>
    Decides (disputesAfter blake3 start before) disputeId decision → decision.outcome ≠ .inconclusive →
      (∀ earlier decision', DecidedBy blake3 start before earlier disputeId decision' →
          decision'.outcome = .inconclusive) ∧
        ∀ committee, (disputesAfter blake3 start before).arbitrationCommittees.lookup disputeId = some committee →
          Backed start.config committee decision
  | .selectArbitrationCommittee disputeId currentEpoch =>
    ((disputesAfter blake3 start before).disputes.lookup disputeId).isSome →
      (∃ earlier decision, DecidedBy blake3 start before earlier disputeId decision) →
        (disputesAfter blake3 start before).arbitrationCommittees.lookup disputeId =
          some (DisputeManager.generateArbitrators blake3 disputeId currentEpoch start.config.arbitrationCommitteeSize)
  | _ => True

end

section

variable {blake3 : List UInt8 → Bytes32} {start : DisputeManager} {calls before part : List DisputeCall}
  {disputeId : Hash} {decision : ArbitrationDecision}

theorem disputesAfter_snoc (before : List DisputeCall) (call : DisputeCall) :
    disputesAfter blake3 start (before ++ [call]) = call.next blake3 (disputesAfter blake3 start before) :=
  Runs.after_snoc before call

theorem DecidedBy.extend {longer : List DisputeCall} (decided : DecidedBy blake3 start part before disputeId decision)
    (extends_ : part <+: longer) : DecidedBy blake3 start longer before disputeId decision :=
  ⟨decided.1.trans extends_, decided.2⟩

@[simp] theorem next_disputeConfig (manager : DisputeManager) (call : DisputeCall) :
    (call.next blake3 manager).config = manager.config := by
  cases call with
  | openChallengeWindow taskId resultId submittedAtEpoch => rfl
  | submitChallenge now taskId resultId worker challenger stake evidence currentEpoch =>
    show (DisputeManager.submitChallenge _ _ _ _ _ _ _ _ _ _).2.config = _
    unfold DisputeManager.submitChallenge
    dsimp only
    split
    · rfl
    · split
      · rfl
      · split <;> rfl
  | selectArbitrationCommittee disputeId currentEpoch =>
    show (DisputeManager.selectArbitrationCommittee _ _ _ _).2.config = _
    unfold DisputeManager.selectArbitrationCommittee
    split <;> rfl
  | processArbitration disputeId decision =>
    show (manager.processArbitration disputeId decision).2.config = _
    rcases processArbitration_cases manager disputeId decision with ⟨_, same⟩ | ⟨dispute, _, run⟩
    · rw [same]
    · rw [run]
      rfl
  | submitAppeal disputeId appellant appealEvidence currentEpoch =>
    show (DisputeManager.submitAppeal _ _ _).2.config = _
    unfold DisputeManager.submitAppeal
    split
    · rfl
    · split <;> rfl

@[simp] theorem disputesAfter_config (before : List DisputeCall) :
    (disputesAfter blake3 start before).config = start.config := by
  induction before using List.reverseRecOn with
  | nil => rfl
  | append_singleton before call ih => rw [disputesAfter_snoc, next_disputeConfig, ih]

theorem decided_of_changed
    (changed : (disputesAfter blake3 start (before ++ [arbitrated disputeId decision])).reputationTracker ≠
      (disputesAfter blake3 start before).reputationTracker) :
    Decides (disputesAfter blake3 start before) disputeId decision ∧ decision.outcome ≠ .inconclusive := by
  rw [disputesAfter_snoc] at changed
  rcases @next_tracker blake3 (disputesAfter blake3 start before) (.processArbitration disputeId decision) with
    same | ⟨other, other', isCall, decides, decisive⟩
  · exact absurd same changed
  · cases isCall
    exact ⟨decides, decisive⟩

variable (respects : ∀ before call, before ++ [call] <+: calls → RespectsDispute blake3 start before call)

include respects

theorem committee_kept (decided : DecidedBy blake3 start calls before disputeId decision)
    (later : List DisputeCall) (inside : before ++ [arbitrated disputeId decision] ++ later <+: calls) :
    (disputesAfter blake3 start
        (before ++ [arbitrated disputeId decision] ++ later)).arbitrationCommittees.lookup disputeId =
      (disputesAfter blake3 start before).arbitrationCommittees.lookup disputeId := by
  induction later using List.reverseRecOn with
  | nil =>
    rw [List.append_nil, disputesAfter_snoc]
    rcases @next_committee blake3 (disputesAfter blake3 start before)
      (.processArbitration disputeId decision) disputeId with same | ⟨_, impossible, _⟩
    · exact same
    · cases impossible
  | append_singleton later call ih =>
    rw [← List.append_assoc] at inside ⊢
    have kept := ih ((List.prefix_append _ [call]).trans inside)
    rw [disputesAfter_snoc]
    rcases @next_committee blake3 (disputesAfter blake3 start (before ++ [arbitrated disputeId decision] ++ later)) call
      disputeId with
      same | ⟨currentEpoch, rfl, exists_, selected⟩
    · rw [same, kept]
    · have again := respects _ _ inside exists_
        ⟨before, decision, ⟨List.prefix_append _ _, decided.2⟩⟩
      rw [selected, disputesAfter_config, ← again, kept]

theorem outcome_backed {dispute : Dispute} {outcome : DisputeOutcome} (decisive : outcome ≠ .inconclusive)
    (fresh : start.disputes = ∅) (inside : part <+: calls)
    (found : (disputesAfter blake3 start part).disputes.lookup disputeId = some dispute)
    (recorded : dispute.status = outcome.status) :
    ∃ before decision committee, DecidedBy blake3 start part before disputeId decision ∧
      decision.outcome = outcome ∧
        (disputesAfter blake3 start before).arbitrationCommittees.lookup disputeId = some committee ∧
          Backed start.config committee decision := by
  induction part using List.reverseRecOn with
  | nil =>
    rw [show (disputesAfter blake3 start []).disputes = ∅ from fresh] at found
    cases found
  | append_singleton part call ih =>
    rw [disputesAfter_snoc] at found
    rcases next_outcome decisive found recorded with earlier | ⟨decision, rfl, decides, isOutcome⟩
    · obtain ⟨before, decision, committee, decided, isOutcome, selected, backed⟩ :=
        ih ((List.prefix_append _ [call]).trans inside) earlier
      exact ⟨before, decision, committee, decided.extend (List.prefix_append _ _), isOutcome, selected, backed⟩
    · obtain ⟨_, committee, selected, _⟩ := id decides
      have fits := respects _ _ inside decides (isOutcome ▸ decisive)
      exact ⟨part, decision, committee, ⟨List.prefix_refl _, decides⟩, isOutcome, selected,
        fits.2 committee selected⟩

end

/-- Disputes are decided once, by their committees, in every run whose calls decide each so. -/
theorem disputes_decided_once (blake3 : List UInt8 → Bytes32) (tracker : ReputationTracker) (config : DisputeConfig)
    (calls : List DisputeCall)
    (respects : ∀ before call, before ++ [call] <+: calls →
      RespectsDispute blake3 (.new tracker config) before call) :
    DecidedOnce blake3 (.new tracker config) calls where
  once before between disputeId decision decision' inside := by
    by_contra neither
    rw [not_or] at neither
    obtain ⟨decides, decisive⟩ := decided_of_changed neither.1
    obtain ⟨decides', decisive'⟩ := decided_of_changed neither.2
    have fits := respects _ _ inside decides' decisive'
    exact decisive (fits.1 before decision ⟨List.prefix_append _ _, decides⟩)
  others before call inside other := by
    rw [disputesAfter_snoc]
    rcases @next_tracker blake3 (disputesAfter blake3 (.new tracker config) before) call with
      same | ⟨disputeId, decision, isCall, _⟩
    · exact same
    · exact absurd isCall (other disputeId decision)
  kept before disputeId decision later decided inside := committee_kept respects decided later inside
  backed part disputeId dispute outcome inside decisive found recorded :=
    outcome_backed respects decisive rfl inside found recorded

namespace RepeatedDecision

def byteHash (bytes : List UInt8) : Bytes32 := Bytes32.replicate (bytes.getD 32 0)

def key (byte : UInt8) : PublicKey := ⟨Bytes32.replicate byte⟩

def tracker : ReputationTracker := (ReputationTracker.new (9 / 10)).setReputation (key 8) 100

def config : DisputeConfig := { DisputeConfig.default with arbitrationCommitteeSize := 3 }

def opened : List DisputeCall :=
  [.openChallengeWindow (Bytes32.replicate 1) (Bytes32.replicate 2) 0,
    .submitChallenge 0 (Bytes32.replicate 1) (Bytes32.replicate 2) (key 8) (key 9) ⟨10000000000⟩
      (.inputOutputMismatch "out" "other") 1,
    .selectArbitrationCommittee (Bytes32.replicate 2) 1]

def unanimous : ArbitrationDecision :=
  ⟨Bytes32.replicate 2, [key 0, key 1, key 2], 3, 0, .challengeAccepted⟩

def empty : ArbitrationDecision := ⟨Bytes32.replicate 2, [], 0, 0, .challengeAccepted⟩

theorem unanimous_decided_once :
    DecidedOnce byteHash (.new tracker config) (opened ++ [arbitrated (Bytes32.replicate 2) unanimous]) := by
  refine disputes_decided_once byteHash tracker config (opened ++ [arbitrated (Bytes32.replicate 2) unanimous]) ?_
  refine Runs.forall_steps_cons.mpr ⟨trivial, Runs.forall_steps_cons.mpr ⟨trivial, Runs.forall_steps_cons.mpr ⟨?_,
    Runs.forall_steps_cons.mpr ⟨?_, Runs.forall_steps_nil⟩⟩⟩⟩
  · intro _ decided
    obtain ⟨earlier, decision, part, _⟩ := decided
    have member := part.subset (List.mem_append_right earlier (List.mem_singleton_self _))
    simp [arbitrated] at member
  · intro _ _
    refine ⟨fun earlier decision decided => ?_, fun committee selected => ?_⟩
    · have member := decided.1.subset (List.mem_append_right earlier (List.mem_singleton_self _))
      simp [arbitrated] at member
    · have three : (disputesAfter byteHash (.new tracker config) opened).arbitrationCommittees.lookup
          (Bytes32.replicate 2) = some [key 0, key 1, key 2] := by
        decide +kernel
      cases three.symm.trans selected
      unfold Backed
      decide +kernel

theorem worker_slashed_twice :
    ¬ DecidedOnce byteHash (.new tracker config)
      (opened ++ [arbitrated (Bytes32.replicate 2) empty] ++ [] ++ [arbitrated (Bytes32.replicate 2) empty]) := by
  intro decided
  rcases decided.once opened [] (Bytes32.replicate 2) empty empty (List.prefix_refl _) with same | same
  · have reputation := congrArg (fun tracker => tracker.getReputation (key 8)) same
    revert reputation
    decide +kernel
  · have reputation := congrArg (fun tracker => tracker.getReputation (key 8)) same
    revert reputation
    decide +kernel

end RepeatedDecision

end AdicProof.Pouw
