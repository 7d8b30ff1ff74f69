import AdicCore.Library.Fallible
import AdicCore.Pouw.Validator

namespace AdicProof.Pouw

open AdicModel AdicModel.Economics AdicModel.Pouw AdicModel.Pouw.TaskExecutor AdicModel.Pouw.ResultValidator

section

variable {blake3 : List UInt8 → Hash} {executor : TaskExecutor} {execution : Execution} {task : Pouw.Task}
  {input data output : List UInt8} {proof : ExecutionProof} {work result : WorkResult} {validator : ResultValidator}
  {store : InputStore} {hash : Hash} {member : CommitteeMember} {vote : ValidationVote}

structure Admits (executor : TaskExecutor) (execution : Execution) (task : Pouw.Task) : Prop where
  slot : execution.concurrentTasks < executor.config.maxConcurrentTasks
  limits : executor.validateResourceRequirements task = .ok ()

theorem executeTask_ok_iff :
    executor.executeTask blake3 execution task input = .ok work ↔
      Admits executor execution task ∧ ∃ output proof, executeByType blake3 task input = .ok (output, proof) ∧
        work = executor.workResult blake3 execution task input output proof := by
  unfold executeTask
  by_cases slot : execution.concurrentTasks < executor.config.maxConcurrentTasks
  · rw [if_neg (Nat.not_le.mpr slot)]
    cases limits : executor.validateResourceRequirements task with
    | error error =>
      constructor
      · intro run
        cases run
      · intro admitted
        cases limits.symm.trans admitted.1.limits
    | ok checked =>
      cases executed : executeByType blake3 task input with
      | error error =>
        constructor
        · intro run
          cases run
        · rintro ⟨_, output, proof, produced, _⟩
          cases produced
      | ok produced =>
        obtain ⟨output, proof⟩ := produced
        constructor
        · intro run
          cases run
          exact ⟨⟨slot, limits⟩, output, proof, rfl, rfl⟩
        · rintro ⟨_, _, _, produced, rfl⟩
          cases produced
          rfl
  · rw [if_pos (Nat.not_lt.mp slot)]
    constructor
    · intro run
      cases run
    · intro admitted
      exact absurd admitted.1.slot slot

theorem outputCid_of_executeTask {other : TaskExecutor} {otherExecution : Execution} {otherWork : WorkResult}
    (run : executor.executeTask blake3 execution task input = .ok work)
    (again : other.executeTask blake3 otherExecution task input = .ok otherWork) :
    work.outputCid = otherWork.outputCid := by
  obtain ⟨_, output, proof, produced, rfl⟩ := executeTask_ok_iff.mp run
  obtain ⟨_, output', proof', produced', rfl⟩ := executeTask_ok_iff.mp again
  rw [produced] at produced'
  cases produced'
  rfl

theorem fetchInput_ok_iff :
    validator.fetchInput blake3 hash = .ok data ↔
      ∃ store, validator.inputStore = some store ∧ store.getInput blake3 hash = .ok (some data) := by
  unfold fetchInput
  cases validator.inputStore with
  | none => simp
  | some store =>
    cases found : store.getInput blake3 hash with
    | error error => simp [found]
    | ok stored => cases stored <;> simp [found]

theorem blake3_of_getInput (read : store.getInput blake3 hash = .ok (some data)) : blake3 data = hash := by
  unfold InputStore.getInput at read
  cases kept : store.getMetadata hash with
  | error error => simp [kept] at read
  | ok stored =>
    cases stored with
    | none => simp [kept] at read
    | some bytes =>
      by_cases checked : InputStore.verifyHash blake3 bytes hash = true
      · simp only [kept, checked, if_true, Except.ok.injEq, Option.some.injEq] at read
        rw [← read]
        exact of_decide_eq_true checked
      · simp [kept, checked] at read

theorem reExecuteWithExecutor_ok {reExecuted : ReExecutionResult}
    (run : validator.reExecuteWithExecutor blake3 executor execution result = .ok reExecuted) :
    ∃ task data work, validator.fetchTask result.taskId = .ok task ∧
      validator.fetchInput blake3 (inputHash blake3 result task) = .ok data ∧
      executor.executeTask blake3 execution task data = .ok work ∧
      (reExecuted.outputMatches = true → blake3 (utf8 work.outputCid) = blake3 (utf8 result.outputCid)) := by
  obtain ⟨task, fetched, run⟩ := Fallible.bind_ok run
  obtain ⟨data, read, run⟩ := Fallible.bind_ok run
  obtain ⟨work, executed, run⟩ := Fallible.bind_ok run
  refine ⟨task, data, work, fetched, read, ?_, ?_⟩
  · cases ran : executor.executeTask blake3 execution task data with
    | error error =>
      rw [ran] at executed
      cases executed
    | ok produced =>
      rw [ran] at executed
      cases executed
      rfl
  · cases run
    exact of_decide_eq_true

theorem reExecuteWithExecutor_of_run (fetched : validator.fetchTask result.taskId = .ok task)
    (read : validator.fetchInput blake3 (inputHash blake3 result task) = .ok data)
    (executed : executor.executeTask blake3 execution task data = .ok work) :
    validator.reExecuteWithExecutor blake3 executor execution result =
      .ok ⟨blake3 (utf8 work.outputCid), blake3 (utf8 work.outputCid) = blake3 (utf8 result.outputCid)⟩ := by
  simp only [reExecuteWithExecutor, fetched, bind, Except.bind, read, executed]
  rfl

theorem verifyWorkResult_accepts_iff (required : validator.config.requireReExecution = true)
    (configured : validator.executor = some executor) :
    (∃ vote, validator.verifyWorkResult blake3 result member = .ok vote ∧ vote.vote = true) ↔
      validator.verifyExecutionProof blake3 result = .ok true ∧
      (∃ reExecuted, validator.reExecuteWithExecutor blake3 executor member.execution result = .ok reExecuted ∧
        reExecuted.outputMatches = true) ∧ verifyResourceClaims result.executionMetrics = true := by
  have compared : validator.compareOutputs blake3 member.execution result =
      (validator.reExecuteWithExecutor blake3 executor member.execution result).map
        fun reExecuted => (some reExecuted.outputHash, reExecuted.outputMatches) := by
    simp only [compareOutputs, required, if_true, deterministicReExecution, configured]
    cases validator.reExecuteWithExecutor blake3 executor member.execution result <;> rfl
  constructor
  · rintro ⟨vote, verified, accepts⟩
    obtain ⟨proofValid, proved, verified⟩ := Fallible.bind_ok verified
    obtain ⟨⟨reExecutionHash, outputMatches⟩, matched, verified⟩ := Fallible.bind_ok verified
    cases verified
    rw [compared] at matched
    simp only [Bool.and_eq_true] at accepts
    cases ran : validator.reExecuteWithExecutor blake3 executor member.execution result with
    | error error =>
      rw [ran] at matched
      cases matched
    | ok reExecuted =>
      rw [ran] at matched
      cases matched
      refine ⟨?_, ⟨reExecuted, rfl, accepts.1.2⟩, accepts.2⟩
      rw [proved, accepts.1.1]
  · rintro ⟨proved, ⟨reExecuted, ran, matched⟩, claimed⟩
    simp only [verifyWorkResult, proved, compared, ran, Except.map, claimed, matched]
    exact ⟨_, rfl, rfl⟩

end

namespace Sample

def hashOf (digits : Nat) : Hash := ⟨(List.range 32).map fun i => UInt8.ofNat (digits / 256 ^ (31 - i)), by simp⟩

def input : List UInt8 := [1, 2, 3]

def task : Pouw.Task := ⟨Bytes32.replicate 1, .compute .hashVerification ⟨1000, 64⟩, "QmInput"⟩

def otherTask : TaskId := Bytes32.replicate 2

def first : Hash := hashOf 0xb177ec1bf26dfb3b7010d473e6d44713b29b765b99c6e60ecbfae742de496543

def second : Hash := hashOf 0x908e673c1c7fae16b2d5dfac899fa6286029046c67e117ce17edc7c455d79a8b

def third : Hash := hashOf 0x57e1d7a79072b21207806a0207250aaff1bf807caeadf20f6056dc467ecc3fa1

def fourth : Hash := hashOf 0x075691b54d68abaacf04aede5a76c16d11a14f9ce55e44c487b54b9a9498050f

def outputName : String := "Qmd97c222f8fb2bb6ced85d4caefbb5992f2fe87a5"

def resultId : Hash := hashOf 0x1b5c41219f839d08c37402d0a81a5e6487f981e14522e310152aeb8e570a5804

def hashes : List (List UInt8 × Hash) :=
  [(input, first), (first.bytes, second), (second.bytes, third), (third.bytes, fourth),
    (fourth.bytes, hashOf 0xd97c222f8fb2bb6ced85d4caefbb5992f2fe87a52d1a115c7496bca7e20159f6),
    (first.bytes ++ second.bytes ++ third.bytes ++ fourth.bytes,
      hashOf 0xaa53cbd0d17b254729935da1d0782e7cf5a070ced1a8343d7b19c7b3ed24397a),
    (task.taskId.bytes ++ List.replicate 32 7 ++ toLeBytes 1700000001, resultId),
    (utf8 outputName, hashOf 0x8fdff530698cd4acafecae89f8a45c373bcdaa8d9ae6fa4b812393d4882dc4f0),
    (resultId.bytes ++ [1], hashOf 0xbe5bd037a28f74428807298780b3b98177d4563212ead5dd46b204cb387df8d8),
    ([2], hashOf 0xab13bedf42e84bae0f7c62c7dd6a8ada571e8829bed6ea558217f0361b5e25d0),
    (utf8 "QmInput", hashOf 0xffdbc8872b8aadc51dbb92057b495bc9080fd07535aa3cd1caabaf2b60fbc9ff),
    (task.taskId.bytes ++ resultId.bytes ++ [1, 1, 1, 1, 1],
      hashOf 0xb8f6b2be7ee14aa540414a6966dda2604a2a3fca208a0604e895a09d8644b1ca),
    (task.taskId.bytes ++ resultId.bytes ++ toLeBytes 1700000002,
      hashOf 0x9766d6a6aaebdca318825e05495b950b8441a3dd94e0b84a7df83101bb9f95e1),
    (otherTask.bytes ++ resultId.bytes ++ [1, 1, 1, 1, 1],
      hashOf 0x7aa74f490010347cd926fc436bee1d1801b6a60f97ffc7656f7259d07b1e743e),
    (otherTask.bytes ++ resultId.bytes ++ toLeBytes 1700000002,
      hashOf 0x3064f254c5a8280a4c6f2e6904aae87e5559e8cb8820c1a287acd4fc27f411e5)]

def knownHash (known : List (List UInt8 × Hash)) (bytes : List UInt8) : Hash :=
  (known.lookup bytes).getD (Bytes32.replicate 0)

def executor : TaskExecutor := ⟨⟨Bytes32.replicate 7⟩, fun _ => List.replicate 64 0, ⟨60000, 8192, true, 4⟩⟩

def execution : Execution :=
  ⟨0, ⟨1700000000, 0⟩, ⟨1700000001, 0⟩, 1000, ⟨1700000001, 0⟩, ⟨1700000001, 0⟩⟩

def validator : ResultValidator where
  build := ⟨true, false⟩
  config := ⟨5, 67 / 100, true⟩
  executor := some executor
  zkVerifier := none
  taskStore := some ⟨fun taskId => .ok (if taskId = task.taskId then some task else none)⟩
  inputStore := some ⟨fun hash => .ok (if hash = first then some input else none)⟩

def result : WorkResult :=
  executor.workResult (knownHash hashes) execution task input fourth.bytes
    ⟨.merkleTree, computeMerkleRoot (knownHash hashes) [first, second, third, fourth], [first, second, third, fourth],
      concatStates [first, second, third, fourth]⟩

theorem result_executed : executor.executeTask (knownHash hashes) execution task input = .ok result := by
  have admitted : Admits executor execution task := ⟨by decide, rfl⟩
  have states : compute (knownHash hashes) input .hashVerification =
      .ok (fourth.bytes, [first, second, third, fourth]) := by
    have one : knownHash hashes input = first := by decide +kernel
    have two : knownHash hashes first.bytes = second := by decide +kernel
    have three : knownHash hashes second.bytes = third := by decide +kernel
    have four : knownHash hashes third.bytes = fourth := by decide +kernel
    simp only [compute, one, two, three, four]
  have executed : executeByType (knownHash hashes) task input = .ok (fourth.bytes,
      ⟨.merkleTree, computeMerkleRoot (knownHash hashes) [first, second, third, fourth],
        [first, second, third, fourth], concatStates [first, second, third, fourth]⟩) := by
    simp only [executeByType, task, doComputation, states]
    rfl
  exact executeTask_ok_iff.mpr ⟨admitted, _, _, executed, rfl⟩

end Sample

end AdicProof.Pouw
