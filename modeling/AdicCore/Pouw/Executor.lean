import AdicCore.Economics.Types

open AdicModel.Economics

namespace AdicModel.Pouw

abbrev Hash := Bytes32

abbrev TaskId := Hash

inductive ComputationType where
  | hashVerification
  | dataProcessing
  | modelInference
  | custom (computation : String)
deriving DecidableEq

structure ResourceRequirements where
  maxCpuMs : UInt64
  maxMemoryMb : UInt64
deriving DecidableEq

inductive TaskType where
  | compute (computationType : ComputationType) (resourceRequirements : ResourceRequirements)
  | validation (targetTaskId : TaskId) (validationCriteria : String)
  | storage (dataCid : String) (durationEpochs : UInt64) (redundancy : UInt8)
  | aggregation (sourceTaskIds : List TaskId) (aggregationFunction : String)
deriving DecidableEq

/-- What the execution of a task reads. -/
structure Task where
  taskId : TaskId
  taskType : TaskType
  inputCid : String
deriving DecidableEq

inductive ProofType where
  | merkleTree
  | stateTransition
  | zkProof
  | reExecution
deriving DecidableEq

structure ExecutionProof where
  proofType : ProofType
  merkleRoot : Hash
  intermediateStates : List Hash
  proofData : List UInt8
deriving DecidableEq

structure ExecutionMetrics where
  cpuTimeMs : UInt64
  memoryUsedMb : Nat
  storageUsedMb : Nat
  networkUsedKb : Nat
  startTime : DateTime
  endTime : DateTime
deriving DecidableEq

structure WorkResult where
  resultId : Hash
  taskId : TaskId
  worker : PublicKey
  outputCid : String
  executionProof : ExecutionProof
  executionMetrics : ExecutionMetrics
  workerSignature : List UInt8
  submittedAt : DateTime
deriving DecidableEq

inductive ValidationResult where
  | accepted
  | rejected
  | inconclusive
deriving DecidableEq

structure ValidationEvidence where
  validator : PublicKey
  vote : Bool
  reExecutionHash : Option Hash
  discrepancyDetails : Option String
  signature : List UInt8
deriving DecidableEq

structure ValidationReport where
  reportId : Hash
  taskId : TaskId
  resultId : Hash
  validators : List PublicKey
  votesFor : Nat
  votesAgainst : Nat
  thresholdBlsSig : List UInt8
  validationResult : ValidationResult
  validationEvidence : List ValidationEvidence
  finalizedAtEpoch : UInt64
  timestamp : DateTime
deriving DecidableEq

/-- `reExecutionFailed` is a failed validation with the text of the error. -/
inductive PoUWError where
  | resourceLimitExceeded (resource limit : String)
  | unsupportedTaskType (message : String)
  | invalidExecutionProof (reason : String)
  | taskNotFoundInStorage (id : String)
  | storageNotConfigured (message : String)
  | inputNotFound (hash : String)
  | reExecutionFailed (error : PoUWError)
  | reExecutionRequired (message : String)
  | quorumNotReached (required actual : Nat)
  | storage (message : String)
  | other (message : String)

/-- The effective limits are the full ones times the resource multiplier, as integers. -/
structure ExecutorConfig where
  effectiveCpuLimit : UInt64
  effectiveMemoryLimit : UInt64
  strictEnforcement : Bool
  maxConcurrentTasks : Nat

/-- The statistics are left out. -/
structure TaskExecutor where
  workerId : PublicKey
  sign : List UInt8 → List UInt8
  config : ExecutorConfig

/-- What an execution finds: the number of other tasks, and the clocks. -/
structure Execution where
  concurrentTasks : Nat
  startTime : DateTime
  endTime : DateTime
  elapsedMs : UInt64
  resultTime : DateTime
  submittedAt : DateTime

def utf8 (text : String) : List UInt8 := text.toUTF8.data.toList

namespace TaskExecutor

variable (blake3 : List UInt8 → Hash)

def concatStates (states : List Hash) : List UInt8 := states.flatMap Bytes32.bytes

def computeMerkleRoot (states : List Hash) : Hash :=
  if states = [] then Bytes32.replicate 0 else blake3 (concatStates states)

def generateProofData (states : List Hash) : List UInt8 := concatStates states

def shortId (id : Hash) : String := hexEncode (id.bytes.take 8)

def hashText (hash : Hash) : String := hexEncode hash.bytes

/-- The output and the intermediate states, without an await point: the timeout never fires. -/
def compute (inputData : List UInt8) : ComputationType → Except PoUWError (List UInt8 × List Hash)
  | .hashVerification =>
    let first := blake3 inputData
    let second := blake3 first.bytes
    let third := blake3 second.bytes
    let fourth := blake3 third.bytes
    .ok (fourth.bytes, [first, second, third, fourth])
  | .dataProcessing =>
    let transformed := inputData.map (· + 1)
    .ok (transformed, [blake3 (transformed.take (transformed.length / 2)), blake3 transformed])
  | .modelInference =>
    .error (.unsupportedTaskType
      "ML inference requires 'ml-inference' feature flag. This feature is experimental and requires integration with a real ML runtime (ONNX, TensorFlow Lite, or Candle) before production use.")
  | .custom computation =>
    let output := s!"custom_{computation}_{hexEncode inputData}"
    .ok (utf8 output, [blake3 (utf8 output)])

def doComputation (inputData : List UInt8) (computationType : ComputationType) :
    Except PoUWError (List UInt8 × ExecutionProof) := do
  let (outputData, intermediateStates) ← compute blake3 inputData computationType
  return (outputData,
    ⟨.merkleTree, computeMerkleRoot blake3 intermediateStates, intermediateStates,
      generateProofData intermediateStates⟩)

def executeValidationTask (task : Task) (inputData : List UInt8) (validationCriteria : String) :
    List UInt8 × ExecutionProof :=
  let validationResult := s!"validation_{validationCriteria}_{shortId task.taskId}_{hashText (blake3 inputData)}"
  let intermediateStates := [blake3 (utf8 validationResult)]
  (utf8 validationResult, ⟨.reExecution, computeMerkleRoot blake3 intermediateStates, intermediateStates, []⟩)

def executeStorageTask (task : Task) (inputData : List UInt8) (dataCid : String) : List UInt8 × ExecutionProof :=
  let computedHash := blake3 inputData
  let storageReceipt := s!"stored_{dataCid}_{shortId task.taskId}_{hashText computedHash}"
  let intermediateStates := [computedHash]
  (utf8 storageReceipt, ⟨.stateTransition, computeMerkleRoot blake3 intermediateStates, intermediateStates, []⟩)

def executeAggregationTask (task : Task) (inputData : List UInt8) (sourceTaskIds : List TaskId)
    (aggregationFunction : String) : List UInt8 × ExecutionProof :=
  let intermediateStates := sourceTaskIds.map fun sourceId => blake3 (sourceId.bytes ++ inputData)
  let aggregationResult := s!"aggregated_{aggregationFunction}_{shortId task.taskId}_{sourceTaskIds.length}"
  (utf8 aggregationResult, ⟨.merkleTree, computeMerkleRoot blake3 intermediateStates, intermediateStates, []⟩)

def executeByType (task : Task) (inputData : List UInt8) : Except PoUWError (List UInt8 × ExecutionProof) :=
  match task.taskType with
  | .compute computationType _ => doComputation blake3 inputData computationType
  | .validation _ validationCriteria => .ok (executeValidationTask blake3 task inputData validationCriteria)
  | .storage dataCid _ _ => .ok (executeStorageTask blake3 task inputData dataCid)
  | .aggregation sourceTaskIds aggregationFunction =>
    .ok (executeAggregationTask blake3 task inputData sourceTaskIds aggregationFunction)

def validateResourceRequirements (executor : TaskExecutor) (task : Task) : Except PoUWError Unit :=
  match task.taskType with
  | .compute _ resourceRequirements =>
    if resourceRequirements.maxCpuMs > executor.config.effectiveCpuLimit ∧ executor.config.strictEnforcement then
      .error (.resourceLimitExceeded "CPU time" s!"{executor.config.effectiveCpuLimit}ms")
    else if resourceRequirements.maxMemoryMb > executor.config.effectiveMemoryLimit ∧
        executor.config.strictEnforcement then
      .error (.resourceLimitExceeded "Memory" s!"{executor.config.effectiveMemoryLimit}MB")
    else .ok ()
  | _ => .ok ()

/-- One and a half times the output, in megabytes, and at least one. -/
def estimateMemoryUsage (outputData : List UInt8) : Nat := max (outputData.length * 3 / (2 * 1024 * 1024)) 1

def outputCid (outputData : List UInt8) : String := "Qm" ++ hexEncode ((blake3 outputData).bytes.take 20)

def generateResultId (executor : TaskExecutor) (task : Task) (now : DateTime) : Hash :=
  blake3 (task.taskId.bytes ++ executor.workerId.asBytes.bytes ++ toLeBytes now.timestamp)

def workResult (executor : TaskExecutor) (execution : Execution) (task : Task) (inputData outputData : List UInt8)
    (executionProof : ExecutionProof) : WorkResult :=
  let outputCid := outputCid blake3 outputData
  { resultId := executor.generateResultId blake3 task execution.resultTime
    taskId := task.taskId
    worker := executor.workerId
    outputCid
    executionProof
    executionMetrics := {
      cpuTimeMs := execution.elapsedMs
      memoryUsedMb := estimateMemoryUsage outputData
      storageUsedMb := outputData.length / (1024 * 1024)
      networkUsedKb := (inputData.length + outputData.length) / 1024
      startTime := execution.startTime
      endTime := execution.endTime }
    workerSignature := executor.sign (task.taskId.bytes ++ utf8 outputCid ++ executionProof.merkleRoot.bytes)
    submittedAt := execution.submittedAt }

def executeTask (executor : TaskExecutor) (execution : Execution) (task : Task) (inputData : List UInt8) :
    Except PoUWError WorkResult := do
  if execution.concurrentTasks ≥ executor.config.maxConcurrentTasks then
    throw (.resourceLimitExceeded "Concurrent tasks" s!"{executor.config.maxConcurrentTasks}")
  executor.validateResourceRequirements task
  let (outputData, executionProof) ← executeByType blake3 task inputData
  return executor.workResult blake3 execution task inputData outputData executionProof

end TaskExecutor

end AdicModel.Pouw
