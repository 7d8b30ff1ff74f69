import AdicCore.AppCommon.Escrow
import AdicCore.Pouw.Executor

open AdicModel.AppCommon AdicModel.Economics HashMap

namespace AdicModel.Pouw

inductive TaskStatus where
  | submitted
  | finalized
  | assigned
  | inProgress
  | resultSubmitted
  | validating
  | challenging
  | completed
  | failed
  | disputed
  | slashed
  | expired
deriving DecidableEq

def TaskStatus.text : TaskStatus → String
  | submitted => "Submitted"
  | finalized => "Finalized"
  | assigned => "Assigned"
  | inProgress => "InProgress"
  | resultSubmitted => "ResultSubmitted"
  | validating => "Validating"
  | challenging => "Challenging"
  | completed => "Completed"
  | failed => "Failed"
  | disputed => "Disputed"
  | slashed => "Slashed"
  | expired => "Expired"

inductive FinalityStatus where
  | pending
  | f1Complete
  | f2Complete
deriving DecidableEq

/-- A task with what the manager reads and writes of it. -/
structure ManagedTask extends Task where
  sponsor : PublicKey
  reward : AdicAmount
  collateralRequirement : AdicAmount
  deadlineEpoch : UInt64
  workerCount : UInt8
  status : TaskStatus
  finalityStatus : FinalityStatus
deriving DecidableEq

/-- The collateral, the proof and the times of an assignment are left out. -/
structure WorkAssignment where
  assignmentId : Hash
  taskId : TaskId
  worker : PublicKey

structure TaskManagerConfig where
  minDeposit : AdicAmount
  maxTaskDurationEpochs : UInt64
  minSponsorReputation : ℚ
  challengeWindowEpochs : UInt64
  maxWorkersPerTask : UInt8

inductive TaskError where
  | insufficientReputation (required actual : ℚ)
  | deadlineExceeded (deadline current : UInt64)
  | invalidTaskInput (text : String)
  | other (text : String)
  | escrowError (error : AppError)
  | taskNotFound (id : String)
  | invalidTaskState (expected actual : String)
  | workerNotEligible (reason : String)
  | resultAlreadySubmitted (taskId : String)
  | panicked

/-- The receipts, which no operation here writes, are left out. -/
structure TaskManager (σ : Type) where
  escrowManager : EscrowManager σ
  tasks : Table TaskId ManagedTask
  workAssignments : Table TaskId (List WorkAssignment)
  workResults : Table TaskId (List WorkResult)
  validationReports : Table TaskId ValidationReport
  config : TaskManagerConfig

def idText (id : Hash) : String := hexEncode id.bytes

namespace TaskManager

variable {σ : Type}

def new (escrowManager : EscrowManager σ) (config : TaskManagerConfig) : TaskManager σ :=
  ⟨escrowManager, ∅, ∅, ∅, ∅, config⟩

def validateTask (task : ManagedTask) (currentEpoch : UInt64) (manager : TaskManager σ) : Except TaskError Unit :=
  let duration := task.deadlineEpoch - currentEpoch
  if task.deadlineEpoch ≤ currentEpoch then .error (.deadlineExceeded task.deadlineEpoch currentEpoch)
  else if duration > manager.config.maxTaskDurationEpochs then
    .error (.invalidTaskInput
      s!"Task duration {duration} epochs exceeds maximum {manager.config.maxTaskDurationEpochs}")
  else if task.workerCount = 0 then .error (.invalidTaskInput "Worker count must be at least 1")
  else if task.workerCount > manager.config.maxWorkersPerTask then
    .error (.invalidTaskInput s!"Worker count {task.workerCount} exceeds maximum {manager.config.maxWorkersPerTask}")
  else if task.reward ≤ AdicAmount.zero then .error (.invalidTaskInput "Task reward must be positive")
  else if task.collateralRequirement < AdicAmount.zero then
    .error (.invalidTaskInput "Collateral requirement cannot be negative")
  else if task.inputCid = "" then .error (.invalidTaskInput "Input CID cannot be empty")
  else .ok ()

def totalEscrow (reputation : ℚ) (task : ManagedTask) (currentEpoch : UInt64) (manager : TaskManager σ) :
    Except TaskError AdicAmount :=
  if reputation < manager.config.minSponsorReputation then
    .error (.insufficientReputation manager.config.minSponsorReputation reputation)
  else
    match manager.validateTask task currentEpoch with
    | .error error => .error error
    | .ok _ =>
      match task.reward.checkedAdd manager.config.minDeposit with
      | none => .error (.other "Escrow amount overflow")
      | some total => .ok total

/-- The first eight bytes of the id stand for a task. -/
def taskEscrow (blake3 : List UInt8 → Bytes32) (task : ManagedTask) : EscrowType :=
  .custom s!"pouw_task_{hexEncode (task.taskId.bytes.take 8)}" (AccountAddress.fromPublicKey blake3 task.sponsor)

section

variable [EconomicsStorage σ] (blake3 : List UInt8 → Bytes32)

/-- `reputation` is the sponsor's. A task that is stored under the id is replaced. -/
def submitTask (now : Int) (reputation : ℚ) (task : ManagedTask) (currentEpoch : UInt64) (manager : TaskManager σ) :
    Except TaskError TaskId × TaskManager σ :=
  match manager.totalEscrow reputation task currentEpoch with
  | .error error => (.error error, manager)
  | .ok total =>
    match EscrowManager.lock now (taskEscrow blake3 task) total currentEpoch manager.escrowManager with
    | .error error escrowManager => (.error (.escrowError error), { manager with escrowManager := escrowManager })
    | .ok _ escrowManager =>
      let stored := { task with status := .submitted, finalityStatus := .pending }
      (.ok task.taskId,
        { manager with escrowManager := escrowManager, tasks := manager.tasks.insert task.taskId stored })

end

def storeTask (taskId : TaskId) (task : ManagedTask) (manager : TaskManager σ) : TaskManager σ :=
  { manager with tasks := manager.tasks.insert taskId task }

def markTaskFinalized (taskId : TaskId) (manager : TaskManager σ) : Except TaskError Unit × TaskManager σ :=
  match manager.tasks.lookup taskId with
  | none => (.error (.taskNotFound (idText taskId)), manager)
  | some task =>
    if task.status ≠ .submitted then (.error (.invalidTaskState "Submitted" task.status.text), manager)
    else
      (.ok (), manager.storeTask taskId { task with status := .finalized, finalityStatus := .f1Complete })

def recordWorkerAssignments (taskId : TaskId) (assignments : List WorkAssignment) (manager : TaskManager σ) :
    Except TaskError Unit × TaskManager σ :=
  match manager.tasks.lookup taskId with
  | none => (.error (.taskNotFound (idText taskId)), manager)
  | some task =>
    if task.status ≠ .finalized then (.error (.invalidTaskState "Finalized" task.status.text), manager)
    else if assignments.length ≠ task.workerCount.toNat then
      (.error (.other s!"Worker count mismatch: expected {task.workerCount}, got {assignments.length}"), manager)
    else
      (.ok (),
        { manager.storeTask taskId { task with status := .assigned } with
          workAssignments := manager.workAssignments.insert taskId assignments })

def resultsOf (manager : TaskManager σ) (taskId : TaskId) : List WorkResult :=
  (manager.workResults.lookup taskId).getD []

def storeResults (taskId : TaskId) (results : List WorkResult) (manager : TaskManager σ) : TaskManager σ :=
  { manager with workResults := manager.workResults.insert taskId results }

/-- The first sixteen bytes of a text, which panics on a shorter one and inside of a letter. -/
def sliceable (text : String) : Bool := (String.Pos.Raw.mk 16).isValid text

/-- The log line at the end slices the name of the output, after the result is stored. -/
def submitWorkResult (result : WorkResult) (currentEpoch : UInt64) (manager : TaskManager σ) :
    Except TaskError Hash × TaskManager σ :=
  match manager.tasks.lookup result.taskId with
  | none => (.error (.taskNotFound (idText result.taskId)), manager)
  | some task =>
    if currentEpoch > task.deadlineEpoch then (.error (.deadlineExceeded task.deadlineEpoch currentEpoch), manager)
    else
      match manager.workAssignments.lookup result.taskId with
      | none => (.error (.other "Task not assigned"), manager)
      | some assignments =>
        if result.worker ∉ assignments.map WorkAssignment.worker then
          (.error (.workerNotEligible "Worker not assigned to this task"), manager)
        else if result.worker ∈ (manager.resultsOf result.taskId).map WorkResult.worker then
          (.error (.resultAlreadySubmitted (idText result.taskId)), manager)
        else
          let results := manager.resultsOf result.taskId ++ [result]
          let started := if task.status = .assigned then .inProgress else task.status
          let status := if results.length = task.workerCount.toNat then .resultSubmitted else started
          (if sliceable result.outputCid then .ok result.resultId else .error .panicked,
            (manager.storeTask result.taskId { task with status := status }).storeResults result.taskId results)

def recordValidationReport (report : ValidationReport) (manager : TaskManager σ) :
    Except TaskError Unit × TaskManager σ :=
  match manager.tasks.lookup report.taskId with
  | none => (.error (.taskNotFound (idText report.taskId)), manager)
  | some task =>
    if task.status ≠ .resultSubmitted then (.error (.invalidTaskState "ResultSubmitted" task.status.text), manager)
    else
      (.ok (),
        { manager.storeTask report.taskId { task with status := .validating } with
          validationReports := manager.validationReports.insert report.taskId report })

/-- The sum of the epochs wraps around in release builds. -/
def beginChallengePeriod (taskId : TaskId) (currentEpoch : UInt64) (manager : TaskManager σ) :
    Except TaskError UInt64 × TaskManager σ :=
  match manager.tasks.lookup taskId with
  | none => (.error (.taskNotFound (idText taskId)), manager)
  | some task =>
    if task.status ≠ .validating then (.error (.invalidTaskState "Validating" task.status.text), manager)
    else
      (.ok (currentEpoch + manager.config.challengeWindowEpochs),
        manager.storeTask taskId { task with status := .challenging })

end TaskManager

/-- A call, with the clock and the sponsor's reputation where they are read. -/
inductive TaskCall where
  | submit (now : Int) (reputation : ℚ) (task : ManagedTask) (currentEpoch : UInt64)
  | markFinalized (taskId : TaskId)
  | assign (taskId : TaskId) (assignments : List WorkAssignment)
  | result (submitted : WorkResult) (currentEpoch : UInt64)
  | report (recorded : ValidationReport)
  | challenge (taskId : TaskId) (currentEpoch : UInt64)

def TaskCall.next {σ : Type} [EconomicsStorage σ] (blake3 : List UInt8 → Bytes32) (manager : TaskManager σ) :
    TaskCall → TaskManager σ
  | submit now reputation task currentEpoch => (manager.submitTask blake3 now reputation task currentEpoch).2
  | markFinalized taskId => (manager.markTaskFinalized taskId).2
  | assign taskId assignments => (manager.recordWorkerAssignments taskId assignments).2
  | result submitted currentEpoch => (manager.submitWorkResult submitted currentEpoch).2
  | report recorded => (manager.recordValidationReport recorded).2
  | challenge taskId currentEpoch => (manager.beginChallengePeriod taskId currentEpoch).2

end AdicModel.Pouw
