import AdicCore.Pouw.Executor

open AdicModel.Economics HashMap

namespace AdicModel.Pouw

structure TaskStore where
  getTask : TaskId → Except PoUWError (Option Task)

/-- The content-addressed store, over what its backend keeps for a hash. -/
structure InputStore where
  getMetadata : Hash → Except PoUWError (Option (List UInt8))

namespace InputStore

variable (blake3 : List UInt8 → Hash)

def verifyHash (data : List UInt8) (expectedHash : Hash) : Bool := blake3 data = expectedHash

def getInput (store : InputStore) (inputHash : Hash) : Except PoUWError (Option (List UInt8)) :=
  match store.getMetadata inputHash with
  | .error error => .error error
  | .ok none => .ok none
  | .ok (some data) =>
    if verifyHash blake3 data inputHash then .ok (some data)
    else .error (.storage "Input data integrity check failed")

end InputStore

structure ValidatorConfig where
  minValidators : Nat
  acceptanceThreshold : ℚ
  requireReExecution : Bool

/-- `verify` takes the proof data, the public inputs and the verification key. -/
structure ZKProofVerifier where
  verify : List UInt8 → List UInt8 → Hash → Except PoUWError Bool

/-- What the validator is compiled with. -/
structure Build where
  release : Bool
  allowWeakValidation : Bool

/-- The cache of the reports is passed on its own. -/
structure ResultValidator where
  build : Build
  config : ValidatorConfig
  executor : Option TaskExecutor
  zkVerifier : Option ZKProofVerifier
  taskStore : Option TaskStore
  inputStore : Option InputStore

structure ValidationVote where
  validator : PublicKey
  vote : Bool
  reExecutionHash : Option Hash
  discrepancyDetails : Option String
  signature : List UInt8

structure ReExecutionResult where
  outputHash : Hash
  outputMatches : Bool

/-- A selected validator, and what its re-execution finds. -/
structure CommitteeMember where
  validator : PublicKey
  execution : Execution

/-- The results of the quorum selection and of the signature coordinator, and the clocks. -/
structure Surroundings where
  committee : Except PoUWError (List CommitteeMember)
  blsCoordinator : Option (List ValidationVote → Except PoUWError (List UInt8))
  reportTime : DateTime
  timestamp : DateTime

abbrev ValidationCache := Table Hash ValidationReport

def isBefore (first second : DateTime) : Bool :=
  first.timestamp < second.timestamp ∨ first.timestamp = second.timestamp ∧ first.nanos < second.nanos

def nanoseconds (instant : DateTime) : Int := instant.timestamp * 1000000000 + instant.nanos.toNat

/-- The whole seconds from one instant to another, towards zero. -/
def numSeconds (first second : DateTime) : Int := (nanoseconds second - nanoseconds first).tdiv 1000000000

namespace ResultValidator

variable (blake3 : List UInt8 → Hash)

def isZero (hash : Hash) : Bool := hash.bytes.all (· = 0)

def computeMerkleRoot (intermediateStates : List Hash) : List UInt8 :=
  if intermediateStates = [] then List.replicate 32 0
  else (blake3 (intermediateStates.flatMap Bytes32.bytes)).bytes

def verifyMerkleProof (proof : ExecutionProof) : Bool :=
  if isZero proof.merkleRoot then false
  else if proof.intermediateStates = [] then false
  else computeMerkleRoot blake3 proof.intermediateStates = proof.merkleRoot.bytes

def verifyStateTransitionProof (proof : ExecutionProof) : Bool :=
  if proof.intermediateStates = [] then false
  else proof.intermediateStates.all fun state => !isZero state

def verifyZkProof (validator : ResultValidator) (proof : ExecutionProof) : Except PoUWError Bool :=
  match validator.zkVerifier with
  | some verifier =>
    verifier.verify proof.proofData (proof.intermediateStates.flatMap Bytes32.bytes) proof.merkleRoot
  | none =>
    if validator.build.release then
      .error (.invalidExecutionProof
        "PRODUCTION SECURITY: ZK proof verification requires a cryptographic verifier. Configure a Halo2/Arkworks verifier or disable ZK proof type. Structural checks without cryptographic verification are NOT acceptable for production.")
    else if proof.proofData = [] then .ok false
    else .ok (64 ≤ proof.proofData.length)

def verifyReexecutionProof (proof : ExecutionProof) : Bool :=
  if proof.proofData = [] then false
  else if proof.intermediateStates = [] then false
  else computeMerkleRoot blake3 proof.intermediateStates = proof.merkleRoot.bytes

def verifyExecutionProof (validator : ResultValidator) (result : WorkResult) : Except PoUWError Bool :=
  match result.executionProof.proofType with
  | .merkleTree => .ok (verifyMerkleProof blake3 result.executionProof)
  | .stateTransition => .ok (verifyStateTransitionProof result.executionProof)
  | .zkProof => validator.verifyZkProof result.executionProof
  | .reExecution => .ok (verifyReexecutionProof blake3 result.executionProof)

/-- The check without an executor. -/
def checkProofData (result : WorkResult) : ReExecutionResult :=
  let expectedHash := blake3 (result.executionProof.proofData ++ result.executionProof.merkleRoot.bytes)
  let outputCidBytes := utf8 result.outputCid
  { outputHash := expectedHash
    outputMatches :=
      if (utf8 "Qm").isPrefixOf outputCidBytes then decide (10 ≤ outputCidBytes.length)
      else decide ((blake3 outputCidBytes).bytes.take 16 = expectedHash.bytes.take 16) }

/-- The hash of the text of the identifier. -/
def parseCidToHash (cid : String) : Hash := blake3 (utf8 cid)

/-- The first bytes of the proof data if there are enough, and else from the task. -/
def inputHash (result : WorkResult) (task : Task) : Hash :=
  if enough : 32 ≤ result.executionProof.proofData.length then
    ⟨result.executionProof.proofData.take 32, by simp [enough]⟩
  else parseCidToHash blake3 task.inputCid

def fetchTask (validator : ResultValidator) (taskId : TaskId) : Except PoUWError Task :=
  match validator.taskStore with
  | none => .error (.storageNotConfigured "TaskStore required for re-execution")
  | some store =>
    match store.getTask taskId with
    | .error error => .error error
    | .ok none => .error (.taskNotFoundInStorage (TaskExecutor.hashText taskId))
    | .ok (some task) => .ok task

def fetchInput (validator : ResultValidator) (inputHash : Hash) : Except PoUWError (List UInt8) :=
  match validator.inputStore with
  | none => .error (.storageNotConfigured "InputStore required for re-execution")
  | some store =>
    match store.getInput blake3 inputHash with
    | .error error => .error error
    | .ok none => .error (.inputNotFound (TaskExecutor.hashText inputHash))
    | .ok (some data) => .ok data

def reExecuteWithExecutor (validator : ResultValidator) (executor : TaskExecutor) (execution : Execution)
    (result : WorkResult) : Except PoUWError ReExecutionResult := do
  let task ← validator.fetchTask result.taskId
  let inputData ← validator.fetchInput blake3 (inputHash blake3 result task)
  let reExecResult ← (executor.executeTask blake3 execution task inputData).mapError .reExecutionFailed
  let reExecOutputHash := blake3 (utf8 reExecResult.outputCid)
  let claimedOutputHash := blake3 (utf8 result.outputCid)
  return ⟨reExecOutputHash, reExecOutputHash = claimedOutputHash⟩

def deterministicReExecution (validator : ResultValidator) (execution : Execution) (result : WorkResult) :
    Except PoUWError ReExecutionResult :=
  match validator.executor with
  | some executor => validator.reExecuteWithExecutor blake3 executor execution result
  | none =>
    if validator.build.release ∧ ¬ validator.build.allowWeakValidation then
      .error (.reExecutionRequired
        "Re-execution required in production. Configure TaskExecutor, TaskStore, and InputStore for full validation security.")
    else .ok (checkProofData blake3 result)

/-- At most ten seconds of computation for each whole second, and up to a terabyte of memory. -/
def verifyResourceClaims (metrics : ExecutionMetrics) : Bool :=
  if ¬ isBefore metrics.startTime metrics.endTime then false
  else if (metrics.cpuTimeMs / 1000).toNat > (numSeconds metrics.startTime metrics.endTime * 10 % 2 ^ 64).toNat then
    false
  else if metrics.memoryUsedMb = 0 ∨ metrics.memoryUsedMb > 1000000 then false
  else true

def signVote (vote : Bool) (resultId : Hash) : List UInt8 :=
  let hash := blake3 (resultId.bytes ++ [if vote then 1 else 0])
  hash.bytes ++ hash.bytes

/-- The re-execution hash, and whether the output matches. -/
def compareOutputs (validator : ResultValidator) (execution : Execution) (result : WorkResult) :
    Except PoUWError (Option Hash × Bool) :=
  if validator.config.requireReExecution then do
    let reExecResult ← validator.deterministicReExecution blake3 execution result
    return (some reExecResult.outputHash, reExecResult.outputMatches)
  else .ok (none, true)

def discrepancies (proofValid outputMatches resourcesValid : Bool) : List String :=
  (if proofValid then [] else ["Invalid execution proof"]) ++
    (if outputMatches then [] else ["Re-execution output mismatch"]) ++
    (if resourcesValid then [] else ["Resource usage claims invalid"])

def verifyWorkResult (validator : ResultValidator) (result : WorkResult) (member : CommitteeMember) :
    Except PoUWError ValidationVote := do
  let proofValid ← validator.verifyExecutionProof blake3 result
  let (reExecutionHash, outputMatches) ← validator.compareOutputs blake3 member.execution result
  let resourcesValid := verifyResourceClaims result.executionMetrics
  let voteAccepts := proofValid && outputMatches && resourcesValid
  return {
    validator := member.validator
    vote := voteAccepts
    reExecutionHash
    discrepancyDetails :=
      if voteAccepts then none
      else some ("; ".intercalate (discrepancies proofValid outputMatches resourcesValid))
    signature := signVote blake3 voteAccepts result.resultId }

def collectValidationVotes (validator : ResultValidator) (result : WorkResult) (members : List CommitteeMember) :
    Except PoUWError (List ValidationVote) := members.mapM (validator.verifyWorkResult blake3 result)

/-- The shares of no validators are not numbers, which pass no comparison. -/
def aggregateVotes (validator : ResultValidator) (votes : List ValidationVote) (totalValidators : Nat) :
    ValidationResult × Nat × Nat :=
  let votesFor := (votes.filter (·.vote)).length
  let votesAgainst := (votes.filter (!·.vote)).length
  let result : ValidationResult :=
    if totalValidators = 0 then .inconclusive
    else if (votesFor : ℚ) / totalValidators ≥ validator.config.acceptanceThreshold then .accepted
    else if (votesAgainst : ℚ) / totalValidators > 1 - validator.config.acceptanceThreshold then .rejected
    else .inconclusive
  (result, votesFor, votesAgainst)

def generateThresholdSignature (surroundings : Surroundings) (taskId : TaskId) (resultId : Hash)
    (votes : List ValidationVote) : Except PoUWError (List UInt8) :=
  match surroundings.blsCoordinator with
  | some coordinator => coordinator votes
  | none =>
    .ok (blake3 (taskId.bytes ++ resultId.bytes ++ votes.map fun vote => if vote.vote then 1 else 0)).bytes

def generateReportId (taskId : TaskId) (resultId : Hash) (now : DateTime) : Hash :=
  blake3 (taskId.bytes ++ resultId.bytes ++ toLeBytes now.timestamp)

def evidence (vote : ValidationVote) : ValidationEvidence :=
  ⟨vote.validator, vote.vote, vote.reExecutionHash, vote.discrepancyDetails, vote.signature⟩

def validateResult (validator : ResultValidator) (surroundings : Surroundings) (taskId : TaskId) (result : WorkResult)
    (currentEpoch : UInt64) (validationCache : ValidationCache) :
    Except PoUWError (ValidationReport × ValidationCache) :=
  match validationCache.lookup result.resultId with
  | some cached => .ok (cached, validationCache)
  | none => do
    let members ← surroundings.committee
    if members.length < validator.config.minValidators then
      throw (.quorumNotReached validator.config.minValidators members.length)
    let votes ← validator.collectValidationVotes blake3 result members
    let (validationResult, votesFor, votesAgainst) := validator.aggregateVotes votes members.length
    let thresholdBlsSig ← generateThresholdSignature blake3 surroundings taskId result.resultId votes
    let report : ValidationReport := {
      reportId := generateReportId blake3 taskId result.resultId surroundings.reportTime
      taskId
      resultId := result.resultId
      validators := members.map (·.validator)
      votesFor
      votesAgainst
      thresholdBlsSig
      validationResult
      validationEvidence := votes.map evidence
      finalizedAtEpoch := currentEpoch
      timestamp := surroundings.timestamp }
    return (report, validationCache.insert result.resultId report)

end ResultValidator

end AdicModel.Pouw
