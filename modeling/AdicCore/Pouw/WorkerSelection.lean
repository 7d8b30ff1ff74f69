import AdicCore.AppCommon.EscrowBooks
import AdicCore.Economics.Ledger
import AdicCore.Library.OrderedScan
import AdicCore.Pouw.TaskManager

open AdicModel.AppCommon AdicModel.Consensus AdicModel.Economics HashMap

namespace AdicModel

def ofBeBytes (bytes : List UInt8) : Nat := bytes.foldl (fun value byte => 256 * value + byte.toNat) 0

end AdicModel

namespace AdicModel.Pouw

/-- `as u64`. -/
def asU64 (value : ℚ) : UInt64 := if 2 ^ 64 ≤ value then 0 - 1 else UInt64.ofNat ⌊value⌋.toNat

namespace Encoders

variable (blake3 : List UInt8 → Hash)

def encodeRegion (regionCode : String) (p : UInt32) (precision : Nat) : QpDigits :=
  let value : UInt64 := match regionCode with
    | "US" => 1
    | "EU" => 2
    | "ASIA" => 3
    | "AF" => 4
    | "SA" => 5
    | "OC" => 6
    | _ => ((blake3 (utf8 regionCode)).bytes.headD 0).toUInt64 % 100 + 7
  QpDigits.fromU64 value p precision

def tierThresholds : List UInt64 := [0, 10, 100, 1000, 10000, 100000, 1000000, 10000000, 100000000]

/-- The text of an amount is parsed back to the amount. -/
def encodeStake (stakeAmount : UInt64) (p : UInt32) (precision : Nat) : QpDigits :=
  let tier := match tierThresholds.reverse.findIdx? fun threshold => threshold ≤ stakeAmount with
    | some pos => tierThresholds.length - 1 - pos
    | none => 0
  QpDigits.fromU64 (UInt64.ofNat tier) p precision

/-- `trim_start_matches` with a pattern of two letters. -/
def trimStartMatches (first second : Char) : List Char → List Char
  | a :: b :: rest => if a = first ∧ b = second then trimStartMatches first second rest else a :: b :: rest
  | text => text

/-- `parse::<u32>`. -/
def parseU32 (text : List Char) : Option Nat :=
  let digits := match text with
    | '+' :: rest => rest
    | rest => rest
  if digits.isEmpty || !digits.all Char.isDigit then none
  else
    let value := digits.foldl (fun value digit => 10 * value + (digit.toNat - '0'.toNat)) 0
    if value < 2 ^ 32 then some value else none

/-- The power of `p` is one of 32 bits. -/
def encodeAsn (asn : Nat) (p : UInt32) (precision : Nat) : QpDigits :=
  QpDigits.fromU64 (UInt64.ofNat (asn % (p ^ precision).toNat)) p precision

def encodeAsnStr (asnStr : String) (p : UInt32) (precision : Nat) : QpDigits :=
  let trimmed := trimStartMatches 'a' 's' (trimStartMatches 'A' 'S' asnStr.toList)
  let asnNum := (parseU32 trimmed).getD (ofBeBytes ((blake3 (utf8 asnStr)).bytes.take 4))
  encodeAsn asnNum p precision

end Encoders

structure OfferedTask extends ManagedTask where
  minReputation : ℚ

/-- The rounds of the lottery, which nothing reads, are left out. -/
structure WorkerSelectionConfig where
  minWorkerReputation : ℚ
  collateralMultiplier : ℚ
  requireAxisDiversity : Bool
  maxWorkersPerAxisBall : Nat
  performanceWeight : ℚ

def WorkerSelectionConfig.default : WorkerSelectionConfig := ⟨500, 1 / 2, true, 2, 3 / 10⟩

/-- What the score of a worker is calculated from. -/
structure WorkerPerformance where
  totalTasksCompleted : UInt64
  tasksFailed : UInt64
  tasksSlashed : UInt64
  averageQualityScore : ℚ

def WorkerPerformance.default : WorkerPerformance := ⟨0, 0, 0, 1⟩

def WorkerPerformance.calculateScore (performance : WorkerPerformance) : ℚ :=
  let totalAttempted := performance.totalTasksCompleted + performance.tasksFailed + performance.tasksSlashed
  if totalAttempted = 0 then 1
  else
    let successRate : ℚ := performance.totalTasksCompleted.toNat / totalAttempted.toNat
    let slashPenalty : ℚ := if performance.tasksSlashed > 0 then 1 / 2 else 1
    min (max (successRate * performance.averageQualityScore * slashPenalty) 0) 1

structure EligibleWorker where
  worker : PublicKey
  reputation : ℚ
  performanceScore : ℚ
  vrfValue : Hash
  selectionScore : ℚ

structure WorkerFeatures where
  region : String
  asn : String
  stakeTier : UInt64

/-- An assignment with all of its data. -/
structure Assignment extends WorkAssignment where
  assignedEpoch : UInt64
  vrfProof : List UInt8
  workerIndex : UInt8
  collateralLockId : Option LockId
  assignmentTimestamp : Int

structure WorkerSelector (σ : Type) where
  reputationTracker : ReputationTracker
  escrowManager : EscrowManager σ
  workerPerformance : Table PublicKey WorkerPerformance
  config : WorkerSelectionConfig
  workerFeatures : Table PublicKey WorkerFeatures

abbrev SelectorCall (σ α : Type) : Type := EStateM TaskError (WorkerSelector σ) α

abbrev AxisUsage := Table UInt32 (Table (List UInt8) Nat)

def AxisUsage.count (used : AxisUsage) (axis : UInt32) (ball : List UInt8) : Nat :=
  (((used.lookup axis).getD ∅).lookup ball).getD 0

def AxisUsage.add (used : AxisUsage) (axis : UInt32) (ball : List UInt8) : AxisUsage :=
  used.insert axis (((used.lookup axis).getD ∅).insert ball (used.count axis ball + 1))

namespace WorkerSelector

variable {σ : Type} (blake3 : List UInt8 → Hash)

def new (reputationTracker : ReputationTracker) (escrowManager : EscrowManager σ) (config : WorkerSelectionConfig) :
    WorkerSelector σ := ⟨reputationTracker, escrowManager, ∅, config, ∅⟩

def generateWorkerSeed (task : OfferedTask) (worker : PublicKey) (epoch : UInt64) : List UInt8 :=
  task.taskId.bytes ++ worker.asBytes.bytes ++ toLeBytes epoch.toNat ++ utf8 "ADIC-POUW-WORKER-SELECTION-v1"

def calculateSelectionScore (config : WorkerSelectionConfig) (reputation performanceScore : ℚ) (vrfValue : Hash) : ℚ :=
  let vrfScore : ℚ := ofBeBytes (vrfValue.bytes.take 8).reverse / (2 ^ 64 - 1)
  let repScore := min (reputation / 10000) 1
  let repWeight := 2 / 5
  let perfWeight := config.performanceWeight
  let vrfWeight := 1 - repWeight - perfWeight
  repScore * repWeight + performanceScore * perfWeight + vrfScore * vrfWeight

def rate (selector : WorkerSelector σ) (task : OfferedTask) (currentEpoch : UInt64) (worker : PublicKey) :
    EligibleWorker :=
  let reputation := selector.reputationTracker.getReputation worker
  let performanceScore := ((selector.workerPerformance.lookup worker).getD .default).calculateScore
  let vrfValue := blake3 (generateWorkerSeed task worker currentEpoch)
  { worker, reputation, performanceScore, vrfValue
    selectionScore := calculateSelectionScore selector.config reputation performanceScore vrfValue }

def filterEligibleWorkers (selector : WorkerSelector σ) (task : OfferedTask) (candidates : List PublicKey)
    (currentEpoch : UInt64) : List EligibleWorker :=
  candidates.filterMap fun worker =>
    let reputation := selector.reputationTracker.getReputation worker
    if reputation < selector.config.minWorkerReputation then none
    else if reputation < task.minReputation then none
    else some (selector.rate blake3 task currentEpoch worker)

def deriveFeatures (worker : PublicKey) : WorkerFeatures :=
  let hashBytes := (blake3 worker.asBytes.bytes).bytes
  let region := match (hashBytes.headD 0).toNat % 6 with
    | 0 => "US"
    | 1 => "EU"
    | 2 => "ASIA"
    | 3 => "AF"
    | 4 => "SA"
    | 5 => "OC"
    | _ => "UNKNOWN"
  let asnNum := ofBeBytes ((hashBytes.drop 1).take 4) % 100000
  let stakeTier := ofBeBytes ((hashBytes.drop 5).take 4 ++ [0, 0, 0, 0]) % 1000000
  ⟨region, s!"AS{asnNum}", UInt64.ofNat stakeTier⟩

def getWorkerFeatures (worker : PublicKey) : SelectorCall σ WorkerFeatures := do
  match (← get).workerFeatures.lookup worker with
  | some features => return features
  | none =>
    let features := deriveFeatures blake3 worker
    modify fun selector => { selector with workerFeatures := selector.workerFeatures.insert worker features }
    return features

def axisBalls (features : WorkerFeatures) : List (UInt32 × List UInt8) :=
  [(1, (Encoders.encodeRegion blake3 features.region 3 5).ballId 3),
    (2, (Encoders.encodeAsnStr blake3 features.asn 3 5).ballId 3),
    (3, (Encoders.encodeStake features.stakeTier 3 5).ballId 3)]

def getWorkerAxisBalls (worker : PublicKey) : SelectorCall σ (List (UInt32 × List UInt8)) := do
  return axisBalls blake3 (← getWorkerFeatures blake3 worker)

def selectEach (workerCount : Nat) :
    List EligibleWorker → List EligibleWorker → AxisUsage → SelectorCall σ (List EligibleWorker)
  | [], selected, _ => return selected
  | candidate :: rest, selected, used => do
    if workerCount ≤ selected.length then return selected
    else if (← get).config.requireAxisDiversity then
      let workerBalls ← getWorkerAxisBalls blake3 candidate.worker
      let limit := (← get).config.maxWorkersPerAxisBall
      if workerBalls.any fun (axis, ball) => limit ≤ used.count axis ball then
        selectEach workerCount rest selected used
      else
        selectEach workerCount rest (selected ++ [candidate])
          (workerBalls.foldl (fun used (axis, ball) => used.add axis ball) used)
    else selectEach workerCount rest (selected ++ [candidate]) used

def rankWorkers (eligible : List EligibleWorker) : List EligibleWorker :=
  eligible.insertionSort fun a b => b.selectionScore ≤ a.selectionScore

def vrfSelectWorkers (task : OfferedTask) (eligible : List EligibleWorker) : SelectorCall σ (List EligibleWorker) := do
  let selected ← selectEach blake3 task.workerCount.toNat (rankWorkers eligible) [] ∅
  if selected.length < task.workerCount.toNat then
    throw (.other s!"Could not select enough diverse workers: need {task.workerCount}, selected {selected.length}")
  else return selected

def generateAssignmentId (task : OfferedTask) (worker : PublicKey) (index : Nat) : Hash :=
  blake3 (task.taskId.bytes ++ worker.asBytes.bytes ++ toLeBytes index)

def onEscrow {α : Type} (call : EscrowCall σ α) : SelectorCall σ α := fun selector =>
  match call selector.escrowManager with
  | .ok value next => .ok value { selector with escrowManager := next }
  | .error error next => .error (.escrowError error) { selector with escrowManager := next }

def workerEscrow (task : OfferedTask) (worker : PublicKey) : EscrowType :=
  .poUWDeposit ⟨task.taskId⟩ (AccountAddress.fromPublicKey blake3 worker)

variable (now : Int)

def assignmentOf (task : OfferedTask) (workerInfo : EligibleWorker) (currentEpoch : UInt64) (index : Nat)
    (lockId : LockId) : Assignment where
  assignmentId := generateAssignmentId blake3 task workerInfo.worker index
  taskId := task.taskId
  worker := workerInfo.worker
  assignedEpoch := currentEpoch
  vrfProof := workerInfo.vrfValue.bytes
  workerIndex := UInt8.ofNat index
  collateralLockId := some lockId
  assignmentTimestamp := now

variable [EconomicsStorage σ]

def escrowEach (task : OfferedTask) (collateral : AdicAmount) (currentEpoch : UInt64) :
    Nat → List EligibleWorker → SelectorCall σ (List Assignment)
  | _, [] => return []
  | index, workerInfo :: rest => do
    let lockId ← onEscrow (EscrowManager.lock now (workerEscrow blake3 task workerInfo.worker) collateral currentEpoch)
    let assignment := assignmentOf blake3 now task workerInfo currentEpoch index lockId
    return assignment :: (← escrowEach task collateral currentEpoch (index + 1) rest)

/-- The collateral of each worker. A task without workers divides by zero. -/
def perWorkerCollateral (config : WorkerSelectionConfig) (task : OfferedTask) : AdicAmount :=
  let total := asU64 (task.reward.baseUnits.toNat * config.collateralMultiplier)
  AdicAmount.fromBaseUnits (total / task.workerCount.toUInt64)

def escrowWorkerCollateral (task : OfferedTask) (selected : List EligibleWorker) (currentEpoch : UInt64) :
    SelectorCall σ (List Assignment) := do
  if task.workerCount = 0 then throw .panicked
  else
    let collateral := perWorkerCollateral (← get).config task
    escrowEach blake3 now task collateral currentEpoch 0 selected

def selectWorkers (task : OfferedTask) (candidateWorkers : List PublicKey) (currentEpoch : UInt64) :
    SelectorCall σ (List Assignment) := do
  let eligible := (← get).filterEligibleWorkers blake3 task candidateWorkers currentEpoch
  if eligible.length < task.workerCount.toNat then
    throw (.other s!"Insufficient eligible workers: need {task.workerCount}, found {eligible.length}")
  else
    let selected ← vrfSelectWorkers blake3 task eligible
    escrowWorkerCollateral blake3 now task selected currentEpoch

end WorkerSelector

end AdicModel.Pouw

open AdicModel AdicModel.Pouw AdicModel.Pouw.WorkerSelector AdicModel.AppCommon AdicModel.Economics AdicProof.Economics
  AdicProof.AppCommon AdicProof.Consensus Calls

namespace AdicProof.Pouw

section

variable {used : AxisUsage} {axis : UInt32} {ball : List UInt8}

theorem count_add (used : AxisUsage) (axis other : UInt32) (ball otherBall : List UInt8) :
    (used.add axis ball).count other otherBall =
      used.count other otherBall + if (other, otherBall) = (axis, ball) then 1 else 0 := by
  unfold AxisUsage.add
  rw [AxisUsage.count, HashMap.lookup_insert_eq]
  split
  · next same =>
    subst same
    rw [Option.getD_some, HashMap.lookup_insert_eq]
    split
    · next equal => simp [equal]
    · next different => simp [AxisUsage.count, different]
  · next different => simp [AxisUsage.count, different]

theorem count_addAll (balls : List (UInt32 × List UInt8)) (used : AxisUsage) :
    (balls.foldl (fun used (entry : UInt32 × List UInt8) => used.add entry.1 entry.2) used).count axis ball =
      used.count axis ball + balls.count (axis, ball) := by
  induction balls generalizing used with
  | nil => rfl
  | cons first rest ih =>
    rw [List.foldl_cons, ih, count_add, List.count_cons]
    by_cases same : first = (axis, ball)
    · subst same
      simp
      omega
    · rw [if_neg (Ne.symm same)]
      simp [same]

theorem axisBalls_nodup (blake3 : List UInt8 → Hash) (features : WorkerFeatures) :
    (axisBalls blake3 features).Nodup := by
  simp [axisBalls]

end

variable {entry : EligibleWorker}

section

variable {σ : Type} (blake3 : List UInt8 → Hash) (selector : WorkerSelector σ)

def featuresOf (worker : PublicKey) : WorkerFeatures :=
  (selector.workerFeatures.lookup worker).getD (deriveFeatures blake3 worker)

def ballsOf (worker : PublicKey) : List (UInt32 × List UInt8) := axisBalls blake3 (featuresOf blake3 selector worker)

def crowd (workers : List PublicKey) (ball : UInt32 × List UInt8) : Nat :=
  workers.countP fun worker => ball ∈ ballsOf blake3 selector worker

def HasRoom (workerCount : Nat) (picked : List EligibleWorker) (candidate : EligibleWorker) : Prop :=
  picked.length < workerCount ∧ (selector.config.requireAxisDiversity = true →
    ∀ ball ∈ ballsOf blake3 selector candidate.worker,
      crowd blake3 selector (picked.map EligibleWorker.worker) ball < selector.config.maxWorkersPerAxisBall)

instance decidableHasRoom (workerCount : Nat) (picked : List EligibleWorker) (candidate : EligibleWorker) :
    Decidable (HasRoom blake3 selector workerCount picked candidate) :=
  inferInstanceAs (Decidable (_ ∧ (_ → ∀ _ ∈ _, _)))

def team (task : OfferedTask) (candidates : List PublicKey) (currentEpoch : UInt64) : List EligibleWorker :=
  Greedy.pick (HasRoom blake3 selector task.workerCount.toNat) []
    (Greedy.ranked EligibleWorker.selectionScore (selector.filterEligibleWorkers blake3 task candidates currentEpoch))

def glance : WorkerSelector σ × (PublicKey → WorkerFeatures) :=
  ({ selector with workerFeatures := ∅ }, featuresOf blake3 selector)

variable {blake3 selector} {next : WorkerSelector σ}

section

variable (same : glance blake3 next = glance blake3 selector)

include same

theorem config_of_glance : next.config = selector.config :=
  congrArg (fun seen => seen.1.config) same

theorem escrow_of_glance :
    next.escrowManager = selector.escrowManager := congrArg (fun seen => seen.1.escrowManager) same

theorem ballsOf_of_glance : ballsOf blake3 next = ballsOf blake3 selector := by
  funext worker
  exact congrArg (axisBalls blake3) (congrFun (congrArg Prod.snd same) worker)

theorem crowd_of_glance : crowd blake3 next = crowd blake3 selector := by
  unfold crowd
  rw [ballsOf_of_glance same]

theorem hasRoom_of_glance : HasRoom blake3 next = HasRoom blake3 selector := by
  unfold HasRoom
  rw [ballsOf_of_glance same, crowd_of_glance same, config_of_glance same]

end

theorem getWorkerAxisBalls_returns (worker : PublicKey) :
    Returns (glance blake3) (getWorkerAxisBalls blake3 worker) selector (ballsOf blake3 selector worker)
      (glance blake3 selector) := by
  have read : Returns (glance blake3) (getWorkerFeatures blake3 worker) selector (featuresOf blake3 selector worker)
      (glance blake3 selector) := by
    unfold getWorkerFeatures featuresOf
    apply Returns.get
    cases found : selector.workerFeatures.lookup worker with
    | some features => exact returns_pure rfl
    | none =>
      refine ⟨{ selector with
        workerFeatures := selector.workerFeatures.insert worker (deriveFeatures blake3 worker) }, rfl, ?_⟩
      refine Prod.ext rfl (funext fun other => ?_)
      show ((selector.workerFeatures.insert worker _).lookup other).getD _ = featuresOf blake3 selector other
      rw [HashMap.lookup_insert_eq]
      split
      · next same =>
        rw [same, featuresOf, found]
        rfl
      · rfl
  exact read.bind fun _ seen => returns_pure seen

theorem crowd_snoc (workers : List PublicKey) (worker : PublicKey) (ball : UInt32 × List UInt8) :
    crowd blake3 selector (workers ++ [worker]) ball =
      crowd blake3 selector workers ball + (ballsOf blake3 selector worker).count ball := by
  have nodup : (ballsOf blake3 selector worker).Nodup := axisBalls_nodup blake3 _
  unfold crowd
  rw [List.countP_append, List.countP_singleton, nodup.count]
  simp only [decide_eq_true_eq]

variable (blake3 selector) in
def Represents (used : AxisUsage) (selected : List EligibleWorker) : Prop :=
  ∀ axis ball, used.count axis ball = crowd blake3 selector (selected.map EligibleWorker.worker) (axis, ball)

theorem Represents.snoc {used : AxisUsage} {selected : List EligibleWorker}
    (counted : Represents blake3 selector used selected) (candidate : EligibleWorker) :
    Represents blake3 selector ((ballsOf blake3 selector candidate.worker).foldl
      (fun used (entry : UInt32 × List UInt8) => used.add entry.1 entry.2) used) (selected ++ [candidate]) := by
  intro axis ball
  rw [count_addAll, counted axis ball, List.map_append, List.map_singleton, crowd_snoc]

theorem full_iff {used : AxisUsage} {selected : List EligibleWorker} {workerCount : Nat}
    (diverse : selector.config.requireAxisDiversity = true) (counted : Represents blake3 selector used selected)
    (candidate : EligibleWorker) (needed : selected.length < workerCount) :
    ((ballsOf blake3 selector candidate.worker).any fun (axis, ball) =>
      selector.config.maxWorkersPerAxisBall ≤ used.count axis ball) = true ↔
      ¬ HasRoom blake3 selector workerCount selected candidate := by
  rw [List.any_eq_true]
  unfold HasRoom
  push Not
  constructor
  · rintro ⟨⟨axis, ball⟩, member, taken⟩ _
    rw [decide_eq_true_eq, counted axis ball] at taken
    exact ⟨diverse, (axis, ball), member, taken⟩
  · intro blocked
    obtain ⟨_, ⟨axis, ball⟩, member, taken⟩ := blocked needed
    refine ⟨(axis, ball), member, ?_⟩
    rw [decide_eq_true_eq, counted axis ball]
    exact taken

theorem selectEach_returns (workerCount : Nat) (ranking selected : List EligibleWorker) (used : AxisUsage)
    (counted : selector.config.requireAxisDiversity = true → Represents blake3 selector used selected) :
    Returns (glance blake3) (selectEach blake3 workerCount ranking selected used) selector
      (Greedy.pick (HasRoom blake3 selector workerCount) selected ranking) (glance blake3 selector) := by
  induction ranking generalizing selector selected used with
  | nil => exact returns_pure rfl
  | cons candidate rest ih =>
    unfold selectEach Greedy.pick
    by_cases enough : workerCount ≤ selected.length
    · have noRoom : ∀ other, ¬ HasRoom blake3 selector workerCount selected other :=
        fun other room => absurd room.1 (Nat.not_lt.mpr enough)
      rw [if_pos enough, if_neg (noRoom candidate), Greedy.pick_full noRoom]
      exact returns_pure rfl
    · rw [if_neg enough]
      apply Returns.get
      cases diverse : selector.config.requireAxisDiversity with
      | false =>
        have room : HasRoom blake3 selector workerCount selected candidate := by
          refine ⟨Nat.not_le.mp enough, fun required => ?_⟩
          rw [diverse] at required
          cases required
        rw [if_neg Bool.false_ne_true, if_pos room]
        refine ih _ _ fun required => ?_
        rw [diverse] at required
        cases required
      | true =>
        rw [if_pos rfl]
        refine (getWorkerAxisBalls_returns candidate.worker).bind fun next seen => ?_
        apply Returns.get
        rw [config_of_glance seen]
        have full := full_iff diverse (counted diverse) candidate (Nat.not_le.mp enough)
        have same := hasRoom_of_glance seen
        have represents : ∀ {used selected}, Represents blake3 selector used selected →
            Represents blake3 next used selected := by
          intro used selected counted axis ball
          rw [crowd_of_glance seen]
          exact counted axis ball
        by_cases room : HasRoom blake3 selector workerCount selected candidate
        · rw [if_neg fun taken => full.mp taken room, if_pos room]
          have later := @ih next (selected ++ [candidate]) _ fun _ =>
            represents ((counted diverse).snoc candidate)
          rw [seen] at later
          convert later using 2
          rw [same]
        · rw [if_pos (full.mpr room), if_neg room]
          have later := @ih next selected used fun _ => represents (counted diverse)
          rw [seen] at later
          convert later using 2
          rw [same]

section

variable {task : OfferedTask} {candidates : List PublicKey} {currentEpoch : UInt64}

theorem length_team_le : (team blake3 selector task candidates currentEpoch).length ≤ task.workerCount.toNat := by
  refine @Greedy.pick_induction _ _ _ _ _ (fun picked => picked.length ≤ task.workerCount.toNat) (Nat.zero_le _) ?_
  intro picked candidate _ room
  rw [List.length_append, List.length_singleton]
  exact room.1

theorem length_team_le_eligible : (team blake3 selector task candidates currentEpoch).length ≤
    (selector.filterEligibleWorkers blake3 task candidates currentEpoch).length := by
  have bound := @Greedy.length_pick_le _ (HasRoom blake3 selector task.workerCount.toNat) _ []
    (Greedy.ranked EligibleWorker.selectionScore (selector.filterEligibleWorkers blake3 task candidates currentEpoch))
  rw [List.length_nil, Nat.zero_add, Greedy.ranked_perm.length_eq] at bound
  exact bound

theorem crowd_team_le (diverse : selector.config.requireAxisDiversity = true) (ball : UInt32 × List UInt8) :
    crowd blake3 selector ((team blake3 selector task candidates currentEpoch).map EligibleWorker.worker) ball ≤
      selector.config.maxWorkersPerAxisBall := by
  refine @Greedy.pick_induction _ _ _ _ _ (fun picked =>
    crowd blake3 selector (picked.map EligibleWorker.worker) ball ≤ selector.config.maxWorkersPerAxisBall)
    (Nat.zero_le _) ?_
  intro picked candidate before room
  rw [List.map_append, List.map_singleton, crowd_snoc]
  have nodup : (ballsOf blake3 selector candidate.worker).Nodup := axisBalls_nodup blake3 _
  rw [nodup.count]
  split
  · next member => exact room.2 diverse ball member
  · exact before

theorem eligible_mem
    (member : entry ∈ selector.filterEligibleWorkers blake3 task candidates currentEpoch) :
    ∃ worker ∈ candidates, entry = selector.rate blake3 task currentEpoch worker := by
  obtain ⟨worker, listed, found⟩ := List.mem_filterMap.mp member
  refine ⟨worker, listed, ?_⟩
  dsimp only at found
  split at found
  · cases found
  · split at found
    · cases found
    · exact (Option.some.inj found).symm

theorem team_eq_of_perm {reordered : List PublicKey} (distinct : Set.InjOn (fun worker =>
      (selector.rate blake3 task currentEpoch worker).selectionScore) {worker | worker ∈ candidates})
    (same : reordered.Perm candidates) :
    team blake3 selector task reordered currentEpoch = team blake3 selector task candidates currentEpoch := by
  unfold team
  congr 1
  refine Greedy.ranked_eq_of_perm ?_ (same.filterMap _)
  intro first member second member' scores
  obtain ⟨worker, listed, rfl⟩ := eligible_mem member
  obtain ⟨other, listed', rfl⟩ := eligible_mem member'
  rw [distinct listed listed' scores]

variable (blake3)

theorem team_returns : Returns (glance blake3) (selectEach blake3 task.workerCount.toNat
      (rankWorkers (selector.filterEligibleWorkers blake3 task candidates currentEpoch)) [] ∅) selector
    (team blake3 selector task candidates currentEpoch) (glance blake3 selector) :=
  selectEach_returns _ _ _ _ fun _ _ _ => rfl

theorem vrfSelectWorkers_short
    (short : (team blake3 selector task candidates currentEpoch).length < task.workerCount.toNat) :
    Fails (glance blake3) (vrfSelectWorkers blake3 task
      (selector.filterEligibleWorkers blake3 task candidates currentEpoch)) selector (glance blake3 selector) := by
  unfold vrfSelectWorkers
  refine (team_returns blake3).bind_fails fun next seen => ?_
  rw [if_pos short]
  exact fails_throw _ seen

theorem vrfSelectWorkers_returns
    (enough : ¬ (team blake3 selector task candidates currentEpoch).length < task.workerCount.toNat) :
    Returns (glance blake3) (vrfSelectWorkers blake3 task
      (selector.filterEligibleWorkers blake3 task candidates currentEpoch)) selector
      (team blake3 selector task candidates currentEpoch) (glance blake3 selector) := by
  unfold vrfSelectWorkers
  refine (team_returns blake3).bind fun next seen => ?_
  rw [if_neg enough]
  exact returns_pure seen

variable [EconomicsStorage σ] (now : Int)

theorem selectWorkers_short (short : (team blake3 selector task candidates currentEpoch).length <
      task.workerCount.toNat ∨ task.workerCount = 0) :
    ∃ error next, selectWorkers blake3 now task candidates currentEpoch selector = .error error next ∧
      next.escrowManager = selector.escrowManager := by
  have fails : Fails WorkerSelector.escrowManager (selectWorkers blake3 now task candidates currentEpoch) selector
      selector.escrowManager := by
    unfold selectWorkers
    apply Fails.get
    dsimp only
    split
    · exact fails_throw _ rfl
    · by_cases enough : (team blake3 selector task candidates currentEpoch).length < task.workerCount.toNat
      · obtain ⟨error, next, run, seen⟩ := vrfSelectWorkers_short blake3 enough
        exact Fails.bind ⟨error, next, run, escrow_of_glance seen⟩
      · obtain ⟨next, run, seen⟩ := vrfSelectWorkers_returns blake3 enough
        refine Fails.bind_of_run run ?_
        unfold escrowWorkerCollateral
        rw [if_pos (short.resolve_left enough)]
        exact fails_throw _ (escrow_of_glance seen)
  obtain ⟨error, next, run, seen⟩ := fails
  exact ⟨error, next, run, seen⟩

theorem selectWorkers_escrow
    (enough : ¬ (team blake3 selector task candidates currentEpoch).length < task.workerCount.toNat)
    (some : task.workerCount ≠ 0) :
    ∃ middle, middle.escrowManager = selector.escrowManager ∧
      selectWorkers blake3 now task candidates currentEpoch selector =
        escrowEach blake3 now task (perWorkerCollateral selector.config task) currentEpoch 0
          (team blake3 selector task candidates currentEpoch) middle := by
  obtain ⟨middle, run, seen⟩ := vrfSelectWorkers_returns blake3 enough
  refine ⟨middle, escrow_of_glance seen, ?_⟩
  unfold selectWorkers
  rw [bind_get, if_neg fun few => enough (Nat.lt_of_le_of_lt length_team_le_eligible few), bind_ok run]
  unfold escrowWorkerCollateral
  rw [if_neg some, bind_get, config_of_glance seen]

end

end

section

variable {σ : Type} [EconomicsStorage σ] [LawfulStorage σ] (manager : EscrowManager σ) (account : AccountAddress)

def held : Entry := (booksOf manager.balanceMgr).entry account

def available : Nat := units (held manager account).balance - units (held manager account).locked

def lockedRead : AdicAmount :=
  (((booksOf manager.balanceMgr).cache account).map Entry.locked).getD
    ((booksOf manager.balanceMgr).accounts.locked account)

def Capped : Prop := ∀ account, (held manager account).balance ≤ AdicAmount.maxSupply

structure Untouched (before after : EscrowManager σ) : Prop where
  locks : after.locks = before.locks
  accounts : (booksOf after.balanceMgr).accounts = (booksOf before.balanceMgr).accounts
  held : ∀ account, held after account = held before account
  read : ∀ account, lockedRead after account = lockedRead before account

variable {manager account} {collateral : AdicAmount} {escrowType : EscrowType} {currentEpoch : UInt64} (now : Int)

def Granted (manager : EscrowManager σ) (collateral : AdicAmount) (owner : AccountAddress) (next : EscrowManager σ) :
    Prop :=
  ∀ other, held next other = if other = owner then
    { held manager owner with locked := (held manager owner).locked.saturatingAdd collateral } else held manager other

theorem entry_after_load (books : Books) (address other : AccountAddress) :
    (books.load address).entry other = books.entry other := by
  unfold Books.load
  rw [Books.entry_setEntry]
  split
  · next same => rw [same]
  · rfl

theorem lock_granted (enough : units collateral ≤ available manager escrowType.owner) :
    ∃ lockId next, EscrowManager.lock now escrowType collateral currentEpoch manager = .ok lockId next ∧
      Granted manager collateral escrowType.owner next := by
  have agrees := @AppCommon.lock_agrees _ _ now _ manager escrowType collateral currentEpoch
  have covered : ¬ ((vaultOf manager).books.entry escrowType.owner).balance.saturatingSub
      ((vaultOf manager).books.entry escrowType.owner).locked < collateral := by
    rw [amount_lt, units_saturatingSub]
    exact Nat.not_lt.mpr enough
  simp only [Vault.result, if_neg covered] at agrees
  obtain ⟨lockId, next, run, seen⟩ := agrees.returns
  refine ⟨lockId, next, run, fun other => ?_⟩
  have books : booksOf next.balanceMgr = _ := congrArg Vault.books seen
  show (booksOf next.balanceMgr).entry other = _
  rw [books, Books.entry_setLocked]
  split
  · rfl
  · exact entry_after_load _ _ other

theorem lock_refused (short : ¬ units collateral ≤ available manager escrowType.owner) :
    ∃ error next, EscrowManager.lock now escrowType collateral currentEpoch manager = .error error next ∧
      next.locks = manager.locks ∧
      booksOf next.balanceMgr = (booksOf manager.balanceMgr).load escrowType.owner := by
  have agrees := @AppCommon.lock_agrees _ _ now _ manager escrowType collateral currentEpoch
  have refused : ((vaultOf manager).books.entry escrowType.owner).balance.saturatingSub
      ((vaultOf manager).books.entry escrowType.owner).locked < collateral := by
    rw [amount_lt, units_saturatingSub]
    exact Nat.not_le.mp short
  simp only [Vault.result, if_pos refused] at agrees
  obtain ⟨error, next, run, seen⟩ := agrees.fails
  exact ⟨error, next, run, congrArg Vault.locks seen, congrArg Vault.books seen⟩

section

variable {next : EscrowManager σ} {owner : AccountAddress} (capped : Capped manager)
  (granted : Granted manager collateral owner next)

include capped granted

theorem available_granted (other : AccountAddress) :
    available next other = available manager other - if other = owner then units collateral else 0 := by
  unfold available
  rw [granted other]
  split
  · next same =>
    subst same
    have cap := capped other
    rw [amount_le, units_maxSupply] at cap
    dsimp only
    rw [units_saturatingAdd]
    omega
  · rfl

theorem capped_granted : Capped next := by
  intro other
  rw [granted other]
  split
  · exact capped owner
  · exact capped other

end

def Affords (manager : EscrowManager σ) (collateral : AdicAmount) (owners : List AccountAddress) : Prop :=
  ∀ owner ∈ owners, units collateral * owners.count owner ≤ available manager owner

theorem positive_of_refused {owners : List AccountAddress} (refused : ¬ Affords manager collateral owners) :
    0 < units collateral := by
  rw [Nat.pos_iff_ne_zero]
  intro nothing
  refine refused fun owner _ => ?_
  rw [nothing, Nat.zero_mul]
  exact Nat.zero_le _

variable {owner : AccountAddress} {next : EscrowManager σ}

theorem locked_granted (capped : Capped manager)
    (positive : 0 < units collateral) (enough : units collateral ≤ available manager owner)
    (granted : Granted manager collateral owner next) (other : AccountAddress) :
    units (held next other).locked =
      units (held manager other).locked + if other = owner then units collateral else 0 := by
  rw [granted other]
  split
  · next same =>
    subst same
    have cap := capped other
    rw [amount_le, units_maxSupply] at cap
    unfold available at enough
    dsimp only
    rw [units_saturatingAdd]
    omega
  · rfl

theorem affords_first {rest : List AccountAddress}
    (affords : Affords manager collateral (owner :: rest)) : units collateral ≤ available manager owner := by
  have whole := affords owner List.mem_cons_self
  rw [List.count_cons_self, Nat.mul_add, Nat.mul_one] at whole
  omega

theorem affords_head {owners : List AccountAddress}
    (affords : Affords manager collateral owners) (listed : owner ∈ owners.head?) :
    units collateral ≤ available manager owner := by
  cases owners with
  | nil => cases listed
  | cons first rest =>
    cases listed
    exact affords_first affords

theorem affords_cons {rest : List AccountAddress}
    (enough : units collateral ≤ available manager owner)
    (taken : ∀ other, available next other = available manager other - if other = owner then units collateral else 0) :
    Affords manager collateral (owner :: rest) ↔ Affords next collateral rest := by
  constructor
  · intro affords other member
    have whole := affords other (List.mem_cons_of_mem owner member)
    rw [List.count_cons, Nat.mul_add] at whole
    rw [taken other]
    by_cases same : other = owner
    · subst same
      simp only [beq_self_eq_true, if_true, Nat.mul_one] at whole ⊢
      omega
    · rw [if_neg same]
      omega
  · intro affords other member
    rw [List.count_cons, Nat.mul_add]
    by_cases listed : other ∈ rest
    · have later := affords other listed
      rw [taken other] at later
      by_cases same : other = owner
      · subst same
        simp only [beq_self_eq_true, if_true, Nat.mul_one] at later ⊢
        omega
      · rw [if_neg same] at later
        rw [if_neg fun equal => same (beq_iff_eq.mp equal).symm]
        omega
    · rcases List.mem_cons.mp member with rfl | later
      · rw [List.count_eq_zero.mpr listed]
        simp only [beq_self_eq_true, if_true, Nat.mul_one, Nat.mul_zero]
        omega
      · exact absurd later listed

theorem untouched_load_iff (locks : next.locks = manager.locks)
    (loaded : booksOf next.balanceMgr = (booksOf manager.balanceMgr).load account) :
    Untouched manager next ↔ ((booksOf manager.balanceMgr).cache account).isSome ∨
      (booksOf manager.balanceMgr).accounts.locked account = AdicAmount.zero := by
  have read : ∀ other, lockedRead next other =
      if other = account then (held manager account).locked else lockedRead manager other := by
    intro other
    unfold lockedRead
    rw [loaded, Books.accounts_load]
    unfold Books.load Books.setEntry
    dsimp only
    rw [Function.update_apply]
    split <;> rfl
  have seen : (held manager account).locked = lockedRead manager account ↔
      ((booksOf manager.balanceMgr).cache account).isSome ∨
        (booksOf manager.balanceMgr).accounts.locked account = AdicAmount.zero := by
    unfold held lockedRead Books.entry Books.cachedLocked
    cases (booksOf manager.balanceMgr).cache account with
    | none =>
      constructor
      · intro same
        exact Or.inr same.symm
      · intro found
        exact (found.resolve_left Bool.false_ne_true).symm
    | some entry => exact iff_of_true rfl (Or.inl rfl)
  rw [← seen]
  constructor
  · intro untouched
    have same := untouched.read account
    rw [read, if_pos rfl] at same
    exact same
  · intro same
    refine ⟨locks, ?_, fun other => ?_, fun other => ?_⟩
    · rw [loaded, Books.accounts_load]
    · show (booksOf next.balanceMgr).entry other = _
      rw [loaded]
      exact entry_after_load _ _ other
    · rw [read]
      split
      · next equal => rw [equal, same]
      · rfl

end

section

variable {σ : Type} [EconomicsStorage σ] [LawfulStorage σ] {blake3 : List UInt8 → Hash} {selector : WorkerSelector σ}
  {task : OfferedTask} {collateral : AdicAmount} {currentEpoch : UInt64} {now : Int}

variable (blake3) in
def ownersOf (workers : List EligibleWorker) : List AccountAddress :=
  workers.map fun entry => AccountAddress.fromPublicKey blake3 entry.worker

omit [LawfulStorage σ] in
theorem escrowEach_granted {index : Nat} {rest : List EligibleWorker} {lockId : LockId}
    {escrow : EscrowManager σ} (run : EscrowManager.lock now (workerEscrow blake3 task entry.worker) collateral
      currentEpoch selector.escrowManager = .ok lockId escrow) :
    escrowEach blake3 now task collateral currentEpoch index (entry :: rest) selector =
      (do return assignmentOf blake3 now task entry currentEpoch index lockId ::
            (← escrowEach blake3 now task collateral currentEpoch (index + 1) rest))
        { selector with escrowManager := escrow } := by
  have locked : onEscrow (EscrowManager.lock now (workerEscrow blake3 task entry.worker) collateral currentEpoch)
      selector = .ok lockId { selector with escrowManager := escrow } := by
    unfold onEscrow
    rw [run]
  rw [escrowEach, bind_ok locked]

omit [LawfulStorage σ] in
theorem escrowEach_failed {index : Nat} {rest : List EligibleWorker} {error : AppError}
    {escrow : EscrowManager σ} (run : EscrowManager.lock now (workerEscrow blake3 task entry.worker) collateral
      currentEpoch selector.escrowManager = .error error escrow) :
    escrowEach blake3 now task collateral currentEpoch index (entry :: rest) selector =
      .error (.escrowError error) { selector with escrowManager := escrow } := by
  have failed : onEscrow (EscrowManager.lock now (workerEscrow blake3 task entry.worker) collateral currentEpoch)
      selector = .error (.escrowError error) { selector with escrowManager := escrow } := by
    unfold onEscrow
    rw [run]
  rw [escrowEach, bind_error failed]

theorem escrowEach_affords (index : Nat) {workers : List EligibleWorker} (capped : Capped selector.escrowManager)
    (affords : Affords selector.escrowManager collateral (ownersOf blake3 workers)) :
    ∃ assignments next, escrowEach blake3 now task collateral currentEpoch index workers selector =
      .ok assignments next ∧
      assignments.map (fun assignment => assignment.worker) = workers.map EligibleWorker.worker := by
  induction workers generalizing selector index with
  | nil => exact ⟨[], selector, rfl, rfl⟩
  | cons entry rest ih =>
    have enough := affords_first affords
    obtain ⟨lockId, escrow, run, granted⟩ := @lock_granted _ _ _ selector.escrowManager collateral
      (workerEscrow blake3 task entry.worker) currentEpoch now enough
    have later := (affords_cons enough (available_granted capped granted)).mp affords
    obtain ⟨others, last, later_run, workers⟩ :=
      @ih { selector with escrowManager := escrow } (index + 1) (capped_granted capped granted) later
    refine ⟨assignmentOf blake3 now task entry currentEpoch index lockId :: others, last, ?_, ?_⟩
    · rw [escrowEach_granted run, bind_ok later_run]
      rfl
    · rw [List.map_cons, List.map_cons, workers]
      rfl

theorem escrowEach_refused (index : Nat) {workers : List EligibleWorker} (capped : Capped selector.escrowManager)
    (refused : ¬ Affords selector.escrowManager collateral (ownersOf blake3 workers)) :
    ∃ error next, escrowEach blake3 now task collateral currentEpoch index workers selector = .error error next ∧
      (∀ account,
        units (held selector.escrowManager account).locked ≤ units (held next.escrowManager account).locked) ∧
      ∀ owner ∈ (ownersOf blake3 workers).head?, units collateral ≤ available selector.escrowManager owner →
        units (held selector.escrowManager owner).locked < units (held next.escrowManager owner).locked := by
  induction workers generalizing selector index with
  | nil => exact absurd (fun _ member => absurd member List.not_mem_nil) refused
  | cons entry rest ih =>
    have head : ∀ owner ∈ (ownersOf blake3 (entry :: rest)).head?,
        owner = AccountAddress.fromPublicKey blake3 entry.worker := by
      intro owner first
      exact (Option.some.inj first).symm
    by_cases enough : units collateral ≤
      available selector.escrowManager (AccountAddress.fromPublicKey blake3 entry.worker)
    · obtain ⟨lockId, escrow, run, granted⟩ := @lock_granted _ _ _ selector.escrowManager collateral
        (workerEscrow blake3 task entry.worker) currentEpoch now enough
      have later := (not_congr (affords_cons enough (available_granted capped granted))).mp refused
      have positive := positive_of_refused refused
      have locked := locked_granted capped positive enough granted
      obtain ⟨error, last, later_run, kept, _⟩ :=
        @ih { selector with escrowManager := escrow } (index + 1) (capped_granted capped granted) later
      refine ⟨error, last, ?_, fun account => ?_, fun owner first _ => ?_⟩
      · rw [escrowEach_granted run, bind_error later_run]
      · have before := locked account
        have after := kept account
        dsimp only at after
        omega
      · have before := locked owner
        have after := kept owner
        rw [if_pos (head owner first)] at before
        dsimp only at after
        omega
    · obtain ⟨error, escrow, run, _, loaded⟩ := @lock_refused _ _ _ selector.escrowManager collateral
        (workerEscrow blake3 task entry.worker) currentEpoch now enough
      refine ⟨_, _, escrowEach_failed run, fun account => ?_, fun owner first covered => ?_⟩
      · show _ ≤ units ((booksOf escrow.balanceMgr).entry account).locked
        rw [loaded, entry_after_load]
        exact le_rfl
      · rw [head owner first] at covered
        exact absurd covered enough

variable (blake3) (now) (selector) (task) (candidates : List PublicKey) (currentEpoch)

/-- A failed selection leaves the ledger. Another one returns as many workers as asked, for every order. -/
structure AllOrNothing : Prop where
  failed : ∀ error next, selectWorkers blake3 now task candidates currentEpoch selector = .error error next →
    Untouched selector.escrowManager next.escrowManager
  selected : ∀ assignments next,
    selectWorkers blake3 now task candidates currentEpoch selector = .ok assignments next →
    let workers := assignments.map fun assignment => assignment.worker
    workers.length = task.workerCount.toNat ∧ workers.Nodup ∧
      (∀ ball, crowd blake3 selector workers ball ≤ selector.config.maxWorkersPerAxisBall) ∧
      ∀ later reordered, reordered.Perm candidates → ∃ others last,
        selectWorkers blake3 later task reordered currentEpoch selector = .ok others last ∧
          (others.map fun assignment => assignment.worker) = workers

/-- The team is too small, or the first worker cannot pay and no lock is hidden, or all can pay and are different. -/
def Collectable : Prop :=
  let chosen := team blake3 selector task candidates currentEpoch
  let collateral := perWorkerCollateral selector.config task
  let books := booksOf selector.escrowManager.balanceMgr
  (chosen.length < task.workerCount.toNat ∨ task.workerCount = 0) ∨
  (∃ owner ∈ (ownersOf blake3 chosen).head?, ¬ units collateral ≤ available selector.escrowManager owner ∧
    ((books.cache owner).isSome ∨ books.accounts.locked owner = AdicAmount.zero)) ∨
  Affords selector.escrowManager collateral (ownersOf blake3 chosen) ∧ (chosen.map EligibleWorker.worker).Nodup ∧
    (selector.config.requireAxisDiversity = true ∨
      ∀ ball, crowd blake3 selector (chosen.map EligibleWorker.worker) ball ≤ selector.config.maxWorkersPerAxisBall)

variable {blake3 now selector task candidates currentEpoch}

theorem allOrNothing_short (short : (team blake3 selector task candidates currentEpoch).length <
      task.workerCount.toNat ∨ task.workerCount = 0) :
    AllOrNothing blake3 selector task currentEpoch now candidates := by
  obtain ⟨error, next, run, same⟩ := selectWorkers_short blake3 now short
  constructor
  · intro other last failed
    rw [run] at failed
    cases failed
    rw [same]
    exact ⟨rfl, rfl, fun _ => rfl, fun _ => rfl⟩
  · intro assignments last returned
    rw [run] at returned
    cases returned

theorem allOrNothing_affords (capped : Capped selector.escrowManager)
    (distinct : Set.InjOn (fun worker => (selector.rate blake3 task currentEpoch worker).selectionScore)
      {worker | worker ∈ candidates})
    (enough : ¬ (team blake3 selector task candidates currentEpoch).length < task.workerCount.toNat)
    (some : task.workerCount ≠ 0)
    (affords : Affords selector.escrowManager (perWorkerCollateral selector.config task)
      (ownersOf blake3 (team blake3 selector task candidates currentEpoch))) :
    AllOrNothing blake3 selector task currentEpoch now candidates ↔
      let workers := (team blake3 selector task candidates currentEpoch).map EligibleWorker.worker
      workers.Nodup ∧ (selector.config.requireAxisDiversity = true ∨
        ∀ ball, crowd blake3 selector workers ball ≤ selector.config.maxWorkersPerAxisBall) := by
  have runs : ∀ later reordered, team blake3 selector task reordered currentEpoch =
      team blake3 selector task candidates currentEpoch → ∃ assignments next,
      selectWorkers blake3 later task reordered currentEpoch selector = .ok assignments next ∧
      assignments.map (fun assignment => assignment.worker) =
        (team blake3 selector task candidates currentEpoch).map EligibleWorker.worker := by
    intro later reordered same
    rw [← same] at enough affords
    obtain ⟨middle, kept, run⟩ := selectWorkers_escrow blake3 later enough some
    rw [← kept] at capped affords
    obtain ⟨assignments, next, escrowed, workers⟩ := escrowEach_affords 0 capped affords
    rw [same] at workers
    exact ⟨assignments, next, run.trans escrowed, workers⟩
  obtain ⟨assignments, next, run, workers⟩ := runs now candidates rfl
  constructor
  · intro whole
    obtain ⟨_, nodup, spread, _⟩ := whole.selected assignments next run
    rw [workers] at nodup spread
    exact ⟨nodup, Or.inr spread⟩
  · rintro ⟨nodup, spread⟩
    constructor
    · intro error last failed
      rw [run] at failed
      cases failed
    · intro others last returned
      rw [run] at returned
      cases returned
      intro chosen
      have same : chosen = _ := workers
      rw [same]
      refine ⟨?_, nodup, fun ball => ?_, fun later reordered permuted => ?_⟩
      · rw [List.length_map]
        exact le_antisymm length_team_le (Nat.not_lt.mp enough)
      · rcases spread with diverse | spread
        · exact crowd_team_le diverse ball
        · exact spread ball
      · exact runs later reordered (team_eq_of_perm distinct permuted)

theorem allOrNothing_refused (capped : Capped selector.escrowManager)
    (enough : ¬ (team blake3 selector task candidates currentEpoch).length < task.workerCount.toNat)
    (some : task.workerCount ≠ 0)
    (refused : ¬ Affords selector.escrowManager (perWorkerCollateral selector.config task)
      (ownersOf blake3 (team blake3 selector task candidates currentEpoch))) :
    AllOrNothing blake3 selector task currentEpoch now candidates ↔
      ∃ owner ∈ (ownersOf blake3 (team blake3 selector task candidates currentEpoch)).head?,
        ¬ units (perWorkerCollateral selector.config task) ≤ available selector.escrowManager owner ∧
        (((booksOf selector.escrowManager.balanceMgr).cache owner).isSome ∨
          (booksOf selector.escrowManager.balanceMgr).accounts.locked owner = AdicAmount.zero) := by
  obtain ⟨middle, kept, run⟩ := selectWorkers_escrow blake3 now enough some
  cases chosen : team blake3 selector task candidates currentEpoch with
  | nil =>
    rw [chosen] at refused
    exact absurd (fun _ member => absurd member List.not_mem_nil) refused
  | cons first rest =>
    rw [chosen] at run refused
    have whole : ∀ {error next}, selectWorkers blake3 now task candidates currentEpoch selector = .error error next →
        (AllOrNothing blake3 selector task currentEpoch now candidates ↔
          Untouched selector.escrowManager next.escrowManager) := by
      intro error next failed
      constructor
      · intro whole
        exact whole.failed error next failed
      · intro untouched
        constructor
        · intro other last again
          rw [failed] at again
          cases again
          exact untouched
        · intro assignments last returned
          rw [failed] at returned
          cases returned
    have head : ∀ owner ∈ (ownersOf blake3 (first :: rest)).head?,
        owner = AccountAddress.fromPublicKey blake3 first.worker := by
      intro owner listed
      exact (Option.some.inj listed).symm
    by_cases covered : units (perWorkerCollateral selector.config task) ≤
      available selector.escrowManager (AccountAddress.fromPublicKey blake3 first.worker)
    · rw [← kept] at capped refused covered
      obtain ⟨error, next, failed, _, more⟩ := escrowEach_refused 0 capped refused
      rw [whole (run.trans failed)]
      refine iff_of_false ?_ ?_
      · intro untouched
        have less := more _ rfl covered
        rw [untouched.held, kept] at less
        exact lt_irrefl _ less
      · rintro ⟨owner, listed, short, _⟩
        rw [head owner listed, ← kept] at short
        exact short covered
    · rw [← kept] at covered
      obtain ⟨error, escrow, failed, locks, loaded⟩ := @lock_refused _ _ _ middle.escrowManager
        (perWorkerCollateral selector.config task) (workerEscrow blake3 task first.worker) currentEpoch now covered
      rw [whole (run.trans (escrowEach_failed failed))]
      rw [kept] at locks loaded covered
      rw [untouched_load_iff locks loaded]
      constructor
      · intro harmless
        exact ⟨_, rfl, covered, harmless⟩
      · rintro ⟨owner, listed, _, harmless⟩
        rw [head owner listed] at harmless
        exact harmless

theorem worker_selection_iff (capped : Capped selector.escrowManager)
    (distinct : Set.InjOn (fun worker => (selector.rate blake3 task currentEpoch worker).selectionScore)
      {worker | worker ∈ candidates}) :
    AllOrNothing blake3 selector task currentEpoch now candidates ↔
      Collectable blake3 selector task currentEpoch candidates := by
  unfold Collectable
  by_cases short : (team blake3 selector task candidates currentEpoch).length < task.workerCount.toNat ∨
    task.workerCount = 0
  · exact iff_of_true (allOrNothing_short short) (Or.inl short)
  · have full := not_or.mp short
    dsimp only
    by_cases affords : Affords selector.escrowManager (perWorkerCollateral selector.config task)
      (ownersOf blake3 (team blake3 selector task candidates currentEpoch))
    · rw [allOrNothing_affords capped distinct full.1 full.2 affords]
      constructor
      · intro settled
        exact Or.inr (Or.inr ⟨affords, settled⟩)
      · rintro (few | ⟨owner, listed, uncovered, _⟩ | ⟨_, settled⟩)
        · exact absurd few short
        · exact absurd (affords_head affords listed) uncovered
        · exact settled
    · rw [allOrNothing_refused capped full.1 full.2 affords]
      constructor
      · intro settled
        exact Or.inr (Or.inl settled)
      · rintro (few | settled | ⟨covered, _⟩)
        · exact absurd few short
        · exact settled
        · exact absurd covered affords

end

namespace UnfundedWorker

theorem firstBytes_length (bytes : List UInt8) : ((bytes ++ List.replicate 32 0).take 32).length = 32 := by
  simp

def firstBytes (bytes : List UInt8) : Hash := ⟨(bytes ++ List.replicate 32 0).take 32, firstBytes_length bytes⟩

def worker (byte : UInt8) : PublicKey := ⟨Bytes32.replicate byte⟩

def workerAccount (byte : UInt8) : AccountAddress := ⟨Bytes32.replicate byte⟩

def escrowManager (second : AdicAmount) : EscrowManager MemoryStorage :=
  .new (.new { MemoryStorage.new with
    balances := ((∅ : BalanceMap).insert (workerAccount 1) ⟨100⟩).insert (workerAccount 2) second })

def tracker : AdicModel.Consensus.ReputationTracker :=
  ((AdicModel.Consensus.ReputationTracker.new (9 / 10)).setReputation (worker 1) 10000).setReputation (worker 2) 500

def selector (second : AdicAmount) : WorkerSelector MemoryStorage := .new tracker (escrowManager second) .default

def task : OfferedTask where
  taskId := Bytes32.replicate 7
  taskType := .compute .hashVerification ⟨1, 1⟩
  inputCid := "QmTest"
  sponsor := worker 9
  reward := ⟨100⟩
  collateralRequirement := ⟨50⟩
  deadlineEpoch := 100
  workerCount := 2
  status := .finalized
  finalityStatus := .f1Complete
  minReputation := 500

theorem capped {second : AdicAmount} (bounded : second ≤ AdicAmount.maxSupply) : Capped (escrowManager second) := by
  intro other
  show ((((∅ : BalanceMap).insert _ _).insert _ _).lookup other).getD AdicAmount.zero ≤ _
  rw [HashMap.lookup_insert_eq, HashMap.lookup_insert_eq]
  split
  · exact bounded
  · split
    · decide
    · exact amount_le.mpr (Nat.zero_le _)

theorem distinct (second : AdicAmount) : Set.InjOn
    (fun worker => ((selector second).rate firstBytes task 10 worker).selectionScore)
    {other | other ∈ [worker 1, worker 2]} := by
  have scores : ((selector ⟨0⟩).rate firstBytes task 10 (worker 1)).selectionScore ≠
      ((selector ⟨0⟩).rate firstBytes task 10 (worker 2)).selectionScore := by
    decide +kernel
  have cases : ∀ {other}, other ∈ [worker 1, worker 2] → other = worker 1 ∨ other = worker 2 := by
    intro other member
    simpa using member
  intro first member other member' same
  rcases cases member with rfl | rfl <;> rcases cases member' with rfl | rfl
  · rfl
  · exact absurd same scores
  · exact absurd same.symm scores
  · rfl

end UnfundedWorker

open UnfundedWorker in
theorem worker_selection_funded :
    AllOrNothing firstBytes (selector ⟨100⟩) task 10 0 [worker 1, worker 2] := by
  have bounded : Capped (selector ⟨100⟩).escrowManager := @capped ⟨100⟩ (by decide)
  refine (worker_selection_iff bounded (distinct ⟨100⟩)).mpr (Or.inr (Or.inr ⟨?_, ?_, Or.inl rfl⟩))
  · have owners : ownersOf firstBytes (team firstBytes (selector ⟨100⟩) task [worker 1, worker 2] 10) =
        [workerAccount 1, workerAccount 2] := by
      decide +kernel
    rw [owners]
    have enough : [workerAccount 1, workerAccount 2].all (fun owner =>
        units (perWorkerCollateral (selector ⟨100⟩).config task) *
          [workerAccount 1, workerAccount 2].count owner ≤ available (selector ⟨100⟩).escrowManager owner) = true := by
      decide +kernel
    intro owner member
    exact of_decide_eq_true (List.all_eq_true.mp enough owner member)
  · decide +kernel

open UnfundedWorker in
theorem collateral_kept_after_failure : Capped (escrowManager ⟨0⟩) ∧
    Set.InjOn (fun worker => ((selector ⟨0⟩).rate firstBytes task 10 worker).selectionScore)
      {other | other ∈ [worker 1, worker 2]} ∧
    ¬ AllOrNothing firstBytes (selector ⟨0⟩) task 10 0 [worker 1, worker 2] := by
  refine ⟨capped (by decide), distinct ⟨0⟩, fun whole => ?_⟩
  have locked : (match selectWorkers firstBytes 0 task [worker 1, worker 2] 10 (selector ⟨0⟩) with
      | .ok _ _ => none
      | .error _ next => some (held next.escrowManager (workerAccount 1)).locked) = some ⟨25⟩ := by
    decide +kernel
  split at locked
  · cases locked
  · next error next failed =>
    have same := (whole.failed error next failed).held (workerAccount 1)
    rw [same] at locked
    revert locked
    decide +kernel

end AdicProof.Pouw
