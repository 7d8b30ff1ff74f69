import AdicCore.Consensus.Deposit
import AdicCore.Library.Runs

open AdicModel.Consensus HashMap

namespace AdicModel.Pouw

inductive TaskOutcome where
  | success
  | failure
  | partialSuccess
  | slashed
  | expired

inductive ReputationChangeReason where
  | workAccepted (quality : ℚ)
  | workRejected (severity : ℚ)
  | deadlineMissed
  | fraudDetected
  | validationPerformed (correctness : Bool)

structure ReputationUpdate where
  account : PublicKey
  oldReputation : ℚ
  newReputation : ℚ
  changeReason : ReputationChangeReason
  qualityScore : ℚ

/-- The weights of the quality score are left out. -/
structure ReputationConfig where
  acceptanceMultiplier : ℚ
  rejectionMultiplier : ℚ
  maxDeltaPerEpoch : ℚ
  minReputation : ℚ

def ReputationConfig.default : ReputationConfig := ⟨1 / 10, 2 / 10, 100, 10⟩

structure EpochReputationTracking where
  totalDelta : ℚ
  numUpdates : UInt64
  lastEpoch : UInt64

namespace EpochReputationTracking

def default : EpochReputationTracking := ⟨0, 0, 0⟩

def forEpoch (tracking : EpochReputationTracking) (currentEpoch : UInt64) : EpochReputationTracking :=
  if tracking.lastEpoch < currentEpoch then ⟨0, 0, currentEpoch⟩ else tracking

end EpochReputationTracking

structure PoUWReputationManager where
  reputationTracker : ReputationTracker
  config : ReputationConfig
  epochUpdates : Table PublicKey EpochReputationTracking

def clamp (value : ℚ) : ℚ := max 0 (min value 1)

def signum (value : ℚ) : ℚ := if value < 0 then -1 else 1

namespace PoUWReputationManager

def new (reputationTracker : ReputationTracker) (config : ReputationConfig) : PoUWReputationManager :=
  ⟨reputationTracker, config, ∅⟩

def trackingAt (account : PublicKey) (currentEpoch : UInt64) (manager : PoUWReputationManager) :
    EpochReputationTracking :=
  ((manager.epochUpdates.lookup account).getD .default).forEpoch currentEpoch

def applyEpochCap (account : PublicKey) (delta : ℚ) (currentEpoch : UInt64) (manager : PoUWReputationManager) :
    ℚ × PoUWReputationManager :=
  let tracking := manager.trackingAt account currentEpoch
  let used := |tracking.totalDelta|
  let remaining := manager.config.maxDeltaPerEpoch - used
  if remaining ≤ 0 then (0, { manager with epochUpdates := manager.epochUpdates.insert account tracking })
  else
    let cappedDelta := if |delta| > remaining then remaining * signum delta else delta
    let tracking :=
      { tracking with totalDelta := tracking.totalDelta + cappedDelta, numUpdates := tracking.numUpdates + 1 }
    (cappedDelta, { manager with epochUpdates := manager.epochUpdates.insert account tracking })

def changeReputation (account : PublicKey) (delta : ℚ) (changeReason : ReputationChangeReason) (qualityScore : ℚ)
    (currentEpoch : UInt64) (manager : PoUWReputationManager) : ReputationUpdate × PoUWReputationManager :=
  let oldReputation := manager.reputationTracker.getReputation account
  let (cappedDelta, manager) := manager.applyEpochCap account delta currentEpoch
  let finalReputation := max (oldReputation + cappedDelta) manager.config.minReputation
  (⟨account, oldReputation, finalReputation, changeReason, qualityScore⟩,
    { manager with reputationTracker := manager.reputationTracker.setReputation account finalReputation })

def updateReputation (account : PublicKey) (outcome : TaskOutcome) (qualityScore severity : ℚ) (currentEpoch : UInt64)
    (manager : PoUWReputationManager) : ReputationUpdate × PoUWReputationManager :=
  let oldReputation := manager.reputationTracker.getReputation account
  match outcome with
  | .success =>
    let quality := clamp qualityScore
    let delta := oldReputation * manager.config.acceptanceMultiplier * quality
    manager.changeReputation account delta (.workAccepted quality) qualityScore currentEpoch
  | .failure | .partialSuccess =>
    let sev := clamp severity
    let delta := oldReputation * manager.config.rejectionMultiplier * sev
    manager.changeReputation account (-delta) (.workRejected sev) qualityScore currentEpoch
  | .slashed =>
    let delta := oldReputation * manager.config.rejectionMultiplier * 2
    manager.changeReputation account (-delta) .fraudDetected qualityScore currentEpoch
  | .expired =>
    let delta := oldReputation * manager.config.rejectionMultiplier * (1 / 2)
    manager.changeReputation account (-delta) .deadlineMissed qualityScore currentEpoch

def updateValidatorReputation (validator : PublicKey) (validationCorrect : Bool) (currentEpoch : UInt64)
    (manager : PoUWReputationManager) : ReputationUpdate × PoUWReputationManager :=
  let oldReputation := manager.reputationTracker.getReputation validator
  if validationCorrect then
    manager.changeReputation validator (oldReputation * (2 / 100)) (.validationPerformed true) 1 currentEpoch
  else
    manager.changeReputation validator (-(oldReputation * (5 / 100))) (.validationPerformed false) 0 currentEpoch

end PoUWReputationManager

inductive ReputationCall where
  | updateReputation (account : PublicKey) (outcome : TaskOutcome) (qualityScore severity : ℚ) (currentEpoch : UInt64)
  | updateValidatorReputation (validator : PublicKey) (validationCorrect : Bool) (currentEpoch : UInt64)

namespace ReputationCall

def account : ReputationCall → PublicKey
  | updateReputation account _ _ _ _ => account
  | updateValidatorReputation validator _ _ => validator

def currentEpoch : ReputationCall → UInt64
  | updateReputation _ _ _ _ currentEpoch => currentEpoch
  | updateValidatorReputation _ _ currentEpoch => currentEpoch

def isSlash : ReputationCall → Bool
  | updateReputation _ .slashed _ _ _ => true
  | _ => false

def next (manager : PoUWReputationManager) : ReputationCall → PoUWReputationManager
  | updateReputation account outcome qualityScore severity currentEpoch =>
    (manager.updateReputation account outcome qualityScore severity currentEpoch).2
  | updateValidatorReputation validator validationCorrect currentEpoch =>
    (manager.updateValidatorReputation validator validationCorrect currentEpoch).2

end ReputationCall

end AdicModel.Pouw

open AdicModel AdicModel.Pouw

namespace AdicProof.Pouw

def reputationOf (account : PublicKey) (manager : PoUWReputationManager) : ℚ :=
  manager.reputationTracker.getReputation account

def requestedDelta (manager : PoUWReputationManager) : ReputationCall → ℚ
  | .updateReputation account .success qualityScore _ _ =>
    reputationOf account manager * manager.config.acceptanceMultiplier * clamp qualityScore
  | .updateReputation account .failure _ severity _ | .updateReputation account .partialSuccess _ severity _ =>
    -(reputationOf account manager * manager.config.rejectionMultiplier * clamp severity)
  | .updateReputation account .slashed _ _ _ => -(reputationOf account manager * manager.config.rejectionMultiplier * 2)
  | .updateReputation account .expired _ _ _ =>
    -(reputationOf account manager * manager.config.rejectionMultiplier * (1 / 2))
  | .updateValidatorReputation validator true _ => reputationOf validator manager * (2 / 100)
  | .updateValidatorReputation validator false _ => -(reputationOf validator manager * (5 / 100))

def cappedDelta (manager : PoUWReputationManager) (call : ReputationCall) : ℚ :=
  (manager.applyEpochCap call.account (requestedDelta manager call) call.currentEpoch).1

section

variable {manager : PoUWReputationManager} {call : ReputationCall} {account : PublicKey}

theorem next_eq (manager : PoUWReputationManager) (call : ReputationCall) :
    ∃ reason qualityScore, call.next manager =
      (manager.changeReputation call.account (requestedDelta manager call) reason qualityScore call.currentEpoch).2 := by
  cases call with
  | updateReputation account outcome qualityScore severity currentEpoch =>
    cases outcome <;> exact ⟨_, _, rfl⟩
  | updateValidatorReputation validator validationCorrect currentEpoch =>
    cases validationCorrect <;> exact ⟨_, _, rfl⟩

@[simp] theorem applyEpochCap_config (manager : PoUWReputationManager) (account : PublicKey) (delta : ℚ) (epoch : UInt64) :
    (manager.applyEpochCap account delta epoch).2.config = manager.config := by
  unfold PoUWReputationManager.applyEpochCap
  dsimp only
  split <;> rfl

@[simp] theorem applyEpochCap_tracker (manager : PoUWReputationManager) (account : PublicKey) (delta : ℚ) (epoch : UInt64) :
    (manager.applyEpochCap account delta epoch).2.reputationTracker = manager.reputationTracker := by
  unfold PoUWReputationManager.applyEpochCap
  dsimp only
  split <;> rfl

theorem applyEpochCap_tracking (manager : PoUWReputationManager) (account other : PublicKey) (delta : ℚ) (epoch : UInt64) :
    if other = account then
      ∃ tracking, (manager.applyEpochCap account delta epoch).2.epochUpdates.lookup other = some tracking ∧
        tracking.lastEpoch = (manager.trackingAt account epoch).lastEpoch ∧
        tracking.totalDelta =
          (manager.trackingAt account epoch).totalDelta + (manager.applyEpochCap account delta epoch).1
    else (manager.applyEpochCap account delta epoch).2.epochUpdates.lookup other = manager.epochUpdates.lookup other := by
  unfold PoUWReputationManager.applyEpochCap
  dsimp only
  split
  next same =>
    split
    · exact ⟨_, (lookup_insert_eq _ _ _ _).trans (if_pos same), rfl, (add_zero _).symm⟩
    · exact ⟨_, (lookup_insert_eq _ _ _ _).trans (if_pos same), rfl, rfl⟩
  next different =>
    split <;> rw [lookup_insert_eq, if_neg different]

@[simp] theorem next_config (manager : PoUWReputationManager) (call : ReputationCall) :
    (call.next manager).config = manager.config := by
  obtain ⟨reason, qualityScore, run⟩ := next_eq manager call
  rw [run]
  exact applyEpochCap_config _ _ _ _

theorem next_reputation (manager : PoUWReputationManager) (call : ReputationCall) (account : PublicKey) :
    reputationOf account (call.next manager) =
      if account = call.account then
        max (reputationOf account manager + cappedDelta manager call) manager.config.minReputation
      else reputationOf account manager := by
  obtain ⟨reason, qualityScore, run⟩ := next_eq manager call
  rw [run]
  unfold PoUWReputationManager.changeReputation reputationOf
  dsimp only
  rw [Consensus.getReputation_setReputation, applyEpochCap_config, applyEpochCap_tracker]
  split
  next same => rw [same]; rfl
  · rfl

theorem next_tracking (manager : PoUWReputationManager) (call : ReputationCall) (account : PublicKey) :
    if account = call.account then
      ∃ tracking, (call.next manager).epochUpdates.lookup account = some tracking ∧
        tracking.lastEpoch = (manager.trackingAt call.account call.currentEpoch).lastEpoch ∧
        tracking.totalDelta = (manager.trackingAt call.account call.currentEpoch).totalDelta + cappedDelta manager call
    else (call.next manager).epochUpdates.lookup account = manager.epochUpdates.lookup account := by
  obtain ⟨reason, qualityScore, run⟩ := next_eq manager call
  rw [run]
  exact applyEpochCap_tracking manager call.account account (requestedDelta manager call) call.currentEpoch

def totalAt (account : PublicKey) (epoch : UInt64) (manager : PoUWReputationManager) : ℚ :=
  (manager.trackingAt account epoch).totalDelta

theorem abs_mul_signum (remaining delta : ℚ) : |remaining * signum delta| = |remaining| := by
  unfold signum
  split
  · rw [mul_neg, mul_one, abs_neg]
  · rw [mul_one]

theorem cappedDelta_eq (manager : PoUWReputationManager) (call : ReputationCall) :
    cappedDelta manager call =
      if manager.config.maxDeltaPerEpoch - |totalAt call.account call.currentEpoch manager| ≤ 0 then 0
      else if |requestedDelta manager call| >
          manager.config.maxDeltaPerEpoch - |totalAt call.account call.currentEpoch manager| then
        (manager.config.maxDeltaPerEpoch - |totalAt call.account call.currentEpoch manager|) *
          signum (requestedDelta manager call)
      else requestedDelta manager call := by
  unfold cappedDelta PoUWReputationManager.applyEpochCap totalAt
  dsimp only
  split <;> rfl

theorem total_within (within : |totalAt call.account call.currentEpoch manager| ≤ manager.config.maxDeltaPerEpoch) :
    |totalAt call.account call.currentEpoch manager + cappedDelta manager call| ≤ manager.config.maxDeltaPerEpoch := by
  rw [cappedDelta_eq]
  split
  · rwa [add_zero]
  next left =>
    have bounded : |if |requestedDelta manager call| >
          manager.config.maxDeltaPerEpoch - |totalAt call.account call.currentEpoch manager| then
        (manager.config.maxDeltaPerEpoch - |totalAt call.account call.currentEpoch manager|) *
          signum (requestedDelta manager call)
      else requestedDelta manager call| ≤
        manager.config.maxDeltaPerEpoch - |totalAt call.account call.currentEpoch manager| := by
      split
      · rw [abs_mul_signum, abs_of_nonneg (le_of_not_ge left)]
      next small => exact not_lt.mp small
    exact (abs_add_le _ _).trans (by linarith)

theorem totalAt_next_same (epoch : UInt64) (same : call.currentEpoch = epoch) (own : call.account = account) :
    totalAt account epoch (call.next manager) = totalAt account epoch manager + cappedDelta manager call := by
  subst same own
  have tracked := next_tracking manager call call.account
  rw [if_pos rfl] at tracked
  obtain ⟨tracking, found, lastEpoch, total⟩ := tracked
  unfold totalAt PoUWReputationManager.trackingAt
  rw [found, Option.getD_some]
  unfold EpochReputationTracking.forEpoch
  have current : ¬ tracking.lastEpoch < call.currentEpoch := by
    rw [lastEpoch]
    unfold PoUWReputationManager.trackingAt EpochReputationTracking.forEpoch
    split
    · exact UInt64.lt_irrefl _
    next late => exact late
  rw [if_neg current]
  exact total

theorem totalAt_next_other (epoch : UInt64) (other : call.account ≠ account) :
    totalAt account epoch (call.next manager) = totalAt account epoch manager := by
  have tracked := next_tracking manager call account
  rw [if_neg (Ne.symm other)] at tracked
  unfold totalAt PoUWReputationManager.trackingAt
  rw [tracked]

def TrackedBefore (account : PublicKey) (epoch : UInt64) (manager : PoUWReputationManager) : Prop :=
  ∀ tracking, manager.epochUpdates.lookup account = some tracking → tracking.lastEpoch < epoch

theorem totalAt_trackedBefore {epoch : UInt64} (before : TrackedBefore account epoch manager) :
    totalAt account epoch manager = 0 := by
  unfold totalAt PoUWReputationManager.trackingAt EpochReputationTracking.forEpoch
  cases found : manager.epochUpdates.lookup account with
  | none =>
    rw [Option.getD_none]
    split <;> rfl
  | some tracking =>
    rw [Option.getD_some, if_pos (before tracking found)]

theorem trackedBefore_next {epoch : UInt64} (before : TrackedBefore account epoch manager)
    (earlier : call.account = account → call.currentEpoch < epoch) :
    TrackedBefore account epoch (call.next manager) := by
  intro tracking found
  have tracked := next_tracking manager call account
  by_cases own : account = call.account
  · rw [if_pos own] at tracked
    obtain ⟨tracking', found', lastEpoch, _⟩ := tracked
    rw [found] at found'
    cases found'
    rw [lastEpoch]
    unfold PoUWReputationManager.trackingAt EpochReputationTracking.forEpoch
    split
    · exact earlier own.symm
    · rw [← own]
      cases old : manager.epochUpdates.lookup account with
      | none => exact UInt64.lt_of_le_of_lt UInt64.zero_le (earlier own.symm)
      | some last => exact before last old
  · rw [if_neg own] at tracked
    exact before tracking (tracked ▸ found)

end

def reputationsAfter (manager : PoUWReputationManager) (calls : List ReputationCall) : PoUWReputationManager :=
  Runs.after ReputationCall.next manager calls

def decreases (account : PublicKey) : PoUWReputationManager → List ReputationCall → ℚ
  | _, [] => 0
  | manager, call :: calls =>
    max 0 (reputationOf account manager - reputationOf account (call.next manager)) +
      decreases account (call.next manager) calls

structure EpochSplit (account : PublicKey) (epoch : UInt64) (earlier during : List ReputationCall) : Prop where
  earlier : ∀ call ∈ earlier, call.account = account → call.currentEpoch < epoch
  during : ∀ call ∈ during, call.account = account → call.currentEpoch = epoch

structure DueSlash (account : PublicKey) (start : PoUWReputationManager) (earlier during : List ReputationCall)
    (call : ReputationCall) : Prop where
  split : EpochSplit account call.currentEpoch earlier during
  own : call.account = account
  slash : call.isSlash = true
  aboveFloor : start.config.minReputation < reputationOf account (reputationsAfter start (earlier ++ during))
  uncapped : decreases account (reputationsAfter start earlier) during < start.config.maxDeltaPerEpoch

structure BudgetHolds (account : PublicKey) (start : PoUWReputationManager) (calls : List ReputationCall) : Prop where
  within : ∀ earlier during epoch, earlier ++ during <+: calls → EpochSplit account epoch earlier during →
    |reputationOf account (reputationsAfter start (earlier ++ during)) -
      reputationOf account (reputationsAfter start earlier)| ≤
      start.config.maxDeltaPerEpoch
  lowers : ∀ earlier during call, earlier ++ during ++ [call] <+: calls → DueSlash account start earlier during call →
    reputationOf account (reputationsAfter start (earlier ++ during ++ [call])) <
      reputationOf account (reputationsAfter start (earlier ++ during))

def FloorUnused (account : PublicKey) (start : PoUWReputationManager) (calls : List ReputationCall) : Prop :=
  ∀ before call, before ++ [call] <+: calls → call.account = account →
    start.config.minReputation ≤
      reputationOf account (reputationsAfter start before) + cappedDelta (reputationsAfter start before) call

/-- When a slash is due, it asks for a decrease and the gains of the epoch have not used up the cap. -/
def SlashesUnshielded (account : PublicKey) (start : PoUWReputationManager) (calls : List ReputationCall) : Prop :=
  ∀ earlier during call, earlier ++ during ++ [call] <+: calls → DueSlash account start earlier during call →
    0 < reputationOf account (reputationsAfter start (earlier ++ during)) * start.config.rejectionMultiplier ∧
      totalAt account call.currentEpoch (reputationsAfter start (earlier ++ during)) < start.config.maxDeltaPerEpoch

section

variable {account : PublicKey} {manager start : PoUWReputationManager} {calls during earlier : List ReputationCall}
  {epoch : UInt64} {call : ReputationCall}

theorem reputationsAfter_append (manager : PoUWReputationManager) (earlier during : List ReputationCall) :
    reputationsAfter manager (earlier ++ during) = reputationsAfter (reputationsAfter manager earlier) during :=
  List.foldl_append

@[simp] theorem reputationsAfter_config (manager : PoUWReputationManager) (calls : List ReputationCall) :
    (reputationsAfter manager calls).config = manager.config := by
  induction calls generalizing manager with
  | nil => rfl
  | cons call calls ih => exact (ih (call.next manager)).trans (next_config manager call)

theorem decreases_snoc (manager : PoUWReputationManager) (calls : List ReputationCall) (call : ReputationCall) :
    decreases account manager (calls ++ [call]) =
      decreases account manager calls +
        max 0 (reputationOf account (reputationsAfter manager calls) -
          reputationOf account (call.next (reputationsAfter manager calls))) := by
  induction calls generalizing manager with
  | nil => exact add_comm _ _
  | cons first calls ih =>
    show _ + decreases account (first.next manager) (calls ++ [call]) = _
    rw [ih (first.next manager), ← add_assoc]
    rfl

theorem trackedBefore_after (fresh : start.epochUpdates = ∅)
    (before : ∀ call ∈ earlier, call.account = account → call.currentEpoch < epoch) :
    TrackedBefore account epoch (reputationsAfter start earlier) := by
  induction earlier using List.reverseRecOn with
  | nil =>
    intro tracking found
    rw [show (reputationsAfter start []).epochUpdates = ∅ from fresh] at found
    cases found
  | append_singleton calls call ih =>
    rw [reputationsAfter_append]
    exact trackedBefore_next (ih fun other member => before other (by simp [member])) (before call (by simp))

structure EpochBooks (account : PublicKey) (epoch : UInt64) (manager : PoUWReputationManager)
    (during : List ReputationCall) : Prop where
  moved : reputationOf account (reputationsAfter manager during) =
    reputationOf account manager + totalAt account epoch (reputationsAfter manager during)
  within : |totalAt account epoch (reputationsAfter manager during)| ≤ manager.config.maxDeltaPerEpoch
  counted : -decreases account manager during ≤ totalAt account epoch (reputationsAfter manager during)

theorem epochBooks_start (cap : 0 ≤ manager.config.maxDeltaPerEpoch) (before : TrackedBefore account epoch manager) :
    EpochBooks account epoch manager [] := by
  have zero : totalAt account epoch (reputationsAfter manager []) = 0 := totalAt_trackedBefore before
  refine ⟨?_, ?_, ?_⟩
  · rw [zero, add_zero]
    rfl
  · rw [zero, abs_zero]
    exact cap
  · rw [zero]
    exact neg_nonpos.mpr le_rfl

theorem epochBooks_step (books : EpochBooks account epoch manager during)
    (same : call.account = account → call.currentEpoch = epoch)
    (unused : call.account = account → manager.config.minReputation ≤
      reputationOf account (reputationsAfter manager during) + cappedDelta (reputationsAfter manager during) call) :
    EpochBooks account epoch manager (during ++ [call]) := by
  have step : reputationsAfter manager (during ++ [call]) = call.next (reputationsAfter manager during) :=
    reputationsAfter_append _ _ _
  by_cases own : call.account = account
  · have moves : reputationOf account (call.next (reputationsAfter manager during)) =
        reputationOf account (reputationsAfter manager during) + cappedDelta (reputationsAfter manager during) call := by
      rw [next_reputation, if_pos own.symm, reputationsAfter_config, max_eq_left (unused own)]
    have total : totalAt account epoch (call.next (reputationsAfter manager during)) =
        totalAt account epoch (reputationsAfter manager during) + cappedDelta (reputationsAfter manager during) call :=
      totalAt_next_same epoch (same own) own
    refine ⟨?_, ?_, ?_⟩
    · rw [step, moves, total, books.moved]
      ring
    · have current : |totalAt call.account call.currentEpoch (reputationsAfter manager during)| ≤
          (reputationsAfter manager during).config.maxDeltaPerEpoch := by
        rw [own, same own, reputationsAfter_config]
        exact books.within
      have kept := total_within current
      rw [own, same own, reputationsAfter_config] at kept
      rw [step, total]
      exact kept
    · rw [decreases_snoc, step, total, moves]
      have lost := le_max_right 0 (reputationOf account (reputationsAfter manager during) -
        (reputationOf account (reputationsAfter manager during) + cappedDelta (reputationsAfter manager during) call))
      have counted := books.counted
      linarith
  · have still : reputationOf account (call.next (reputationsAfter manager during)) =
        reputationOf account (reputationsAfter manager during) := by
      rw [next_reputation, if_neg (Ne.symm own)]
    have total : totalAt account epoch (call.next (reputationsAfter manager during)) =
        totalAt account epoch (reputationsAfter manager during) := totalAt_next_other epoch own
    refine ⟨?_, ?_, ?_⟩
    · rw [step, still, total]
      exact books.moved
    · rw [step, total]
      exact books.within
    · rw [decreases_snoc, step, total, still, sub_self, max_self, add_zero]
      exact books.counted

theorem epochBooks (cap : 0 ≤ start.config.maxDeltaPerEpoch) (fresh : start.epochUpdates = ∅)
    (unused : FloorUnused account start calls) (part : earlier ++ during <+: calls)
    (split : EpochSplit account epoch earlier during) :
    EpochBooks account epoch (reputationsAfter start earlier) during := by
  induction during using List.reverseRecOn with
  | nil =>
    rw [← reputationsAfter_config start earlier] at cap
    exact epochBooks_start cap (trackedBefore_after fresh split.earlier)
  | append_singleton calls call ih =>
    rw [← List.append_assoc] at part
    have books := ih ((List.prefix_append _ [call]).trans part)
      ⟨split.earlier, fun other member => split.during other (by simp [member])⟩
    refine epochBooks_step books (split.during call (by simp)) fun own => ?_
    rw [reputationsAfter_config, ← reputationsAfter_append]
    exact unused _ call part own

theorem capped_negative_iff {budget total penalty : ℚ} (low : -budget < total) :
    (if budget - |total| ≤ 0 then 0
      else if |-(penalty * 2)| > budget - |total| then (budget - |total|) * signum (-(penalty * 2))
      else -(penalty * 2)) < 0 ↔ 0 < penalty ∧ total < budget := by
  by_cases room : budget - |total| ≤ 0
  · rw [if_pos room]
    constructor
    · intro impossible
      exact absurd impossible (lt_irrefl 0)
    · intro both
      have inside : |total| < budget := abs_lt.mpr ⟨low, both.2⟩
      linarith
  · rw [if_neg room]
    have below : total < budget := (le_abs_self total).trans_lt (by linarith)
    rw [and_iff_left below]
    split
    · unfold signum
      split
      next negative =>
        rw [mul_neg, mul_one, neg_lt_zero]
        constructor
        · intro _
          linarith
        · intro _
          linarith
      next positive =>
        rw [mul_one]
        constructor
        · intro impossible
          linarith
        · intro penal
          linarith
    · constructor
      · intro decreases
        linarith
      · intro penal
        linarith

theorem slash_lowers_iff (books : EpochBooks account call.currentEpoch manager during)
    (own : call.account = account) (slash : call.isSlash = true)
    (above : manager.config.minReputation < reputationOf account (reputationsAfter manager during))
    (uncapped : decreases account manager during < manager.config.maxDeltaPerEpoch) :
    reputationOf account (call.next (reputationsAfter manager during)) < reputationOf account (reputationsAfter manager during) ↔
      0 < reputationOf account (reputationsAfter manager during) * manager.config.rejectionMultiplier ∧
        totalAt account call.currentEpoch (reputationsAfter manager during) < manager.config.maxDeltaPerEpoch := by
  have requested : requestedDelta (reputationsAfter manager during) call =
      -(reputationOf account (reputationsAfter manager during) * manager.config.rejectionMultiplier * 2) := by
    cases call with
    | updateReputation worker outcome qualityScore severity currentEpoch =>
      cases outcome with
      | slashed =>
        rw [← reputationsAfter_config manager during]
        cases own
        rfl
      | success => cases slash
      | failure => cases slash
      | partialSuccess => cases slash
      | expired => cases slash
    | updateValidatorReputation validator validationCorrect currentEpoch => cases slash
  have capped := cappedDelta_eq (reputationsAfter manager during) call
  have counted := books.counted
  rw [requested, own, reputationsAfter_config] at capped
  rw [next_reputation, if_pos own.symm, reputationsAfter_config, max_lt_iff, and_iff_left above, add_lt_iff_neg_left, capped]
  generalize reputationOf account (reputationsAfter manager during) * manager.config.rejectionMultiplier = penalty
  generalize totalAt account call.currentEpoch (reputationsAfter manager during) = total at counted ⊢
  exact capped_negative_iff (by linarith)

/-- Within an epoch the budget holds exactly if no due slash is shielded, as long as the floor is not applied. -/
theorem budget_holds_iff (account : PublicKey) (tracker : ReputationTracker) (config : ReputationConfig)
    (calls : List ReputationCall) (cap : 0 ≤ config.maxDeltaPerEpoch)
    (unused : FloorUnused account (.new tracker config) calls) :
    BudgetHolds account (.new tracker config) calls ↔ SlashesUnshielded account (.new tracker config) calls := by
  have books : ∀ earlier during epoch, earlier ++ during <+: calls → EpochSplit account epoch earlier during →
      EpochBooks account epoch (reputationsAfter (.new tracker config) earlier) during :=
    fun earlier during epoch part split => epochBooks cap rfl unused part split
  have lowers : ∀ earlier during call, earlier ++ during ++ [call] <+: calls →
      DueSlash account (.new tracker config) earlier during call →
        (reputationOf account (reputationsAfter (.new tracker config) (earlier ++ during ++ [call])) <
            reputationOf account (reputationsAfter (.new tracker config) (earlier ++ during)) ↔
          0 < reputationOf account (reputationsAfter (.new tracker config) (earlier ++ during)) * config.rejectionMultiplier ∧
            totalAt account call.currentEpoch (reputationsAfter (.new tracker config) (earlier ++ during)) <
              config.maxDeltaPerEpoch) := by
    intro earlier during call part due
    have kept := books earlier during call.currentEpoch ((List.prefix_append _ [call]).trans part) due.split
    have above := due.aboveFloor
    have uncapped := due.uncapped
    rw [reputationsAfter_append] at above
    have configured : (reputationsAfter (.new tracker config) earlier).config = config := reputationsAfter_config _ _
    rw [reputationsAfter_append, reputationsAfter_append]
    have lowered := slash_lowers_iff kept due.own due.slash (by rw [configured]; exact above)
      (by rw [configured]; exact uncapped)
    rw [configured] at lowered
    exact lowered
  constructor
  · intro holds earlier during call part due
    exact (lowers earlier during call part due).mp (holds.lowers earlier during call part due)
  · intro unshielded
    refine ⟨fun earlier during epoch part split => ?_, fun earlier during call part due => ?_⟩
    · have kept := books earlier during epoch part split
      have within := kept.within
      rw [reputationsAfter_config] at within
      rw [reputationsAfter_append, kept.moved, add_sub_cancel_left]
      exact within
    · exact (lowers earlier during call part due).mpr (unshielded earlier during call part due)

end

namespace ShieldedSlash

def worker : PublicKey := ⟨Bytes32.replicate 3⟩

def manager (reputation : ℚ) : PoUWReputationManager :=
  .new ((ReputationTracker.new (9 / 10)).setReputation worker reputation) .default

def success : ReputationCall := .updateReputation worker .success 1 0 1

def slash : ReputationCall := .updateReputation worker .slashed 0 1 1

/-- A gain is followed by a slash within the budget. -/
theorem small_gain_slashed : BudgetHolds worker (manager 100) [success, slash] ↔
    SlashesUnshielded worker (manager 100) [success, slash] := by
  refine budget_holds_iff worker ((ReputationTracker.new (9 / 10)).setReputation worker 100) .default [success, slash]
    (by decide +kernel) ?_
  refine Runs.forall_steps_cons.mpr ⟨?_, Runs.forall_steps_cons.mpr ⟨?_, Runs.forall_steps_nil⟩⟩
  · intro _
    decide +kernel
  · intro _
    decide +kernel

/-- A gain uses up the budget of the slash after it. From the floor the reputation can rise by more. -/
theorem slash_without_effect : ¬ BudgetHolds worker (manager 1000) [success, slash] ∧
    ¬ BudgetHolds worker (manager 10) (slash :: List.replicate 26 success) := by
  constructor
  · intro holds
    have lower := holds.lowers [] [success] slash (List.prefix_refl _)
      ⟨⟨by decide, by decide⟩, rfl, rfl, by decide +kernel, by decide +kernel⟩
    revert lower
    decide +kernel
  · intro holds
    have near := holds.within [] (slash :: List.replicate 26 success) 1 (List.prefix_refl _) ⟨by decide, by decide⟩
    revert near
    decide +kernel

end ShieldedSlash

end AdicProof.Pouw
