import AdicCore.Library.Runs
import AdicCore.Pouw.ReExecution

namespace AdicProof.Pouw

open AdicModel AdicModel.Economics AdicModel.Pouw AdicModel.Pouw.TaskExecutor AdicModel.Pouw.ResultValidator

structure ValidationCall where
  surroundings : Surroundings
  taskId : TaskId
  result : WorkResult
  currentEpoch : UInt64

def ValidationCall.validate (call : ValidationCall) (blake3 : List UInt8 → Hash) (validator : ResultValidator)
    (cache : ValidationCache) : Except PoUWError (ValidationReport × ValidationCache) :=
  validator.validateResult blake3 call.surroundings call.taskId call.result call.currentEpoch cache

def step (blake3 : List UInt8 → Hash) (validator : ResultValidator) (cache : ValidationCache) (call : ValidationCall) :
    ValidationCache :=
  match call.validate blake3 validator cache with
  | .ok (_, next) => next
  | .error _ => cache

/-- The result is about the task, and has the output of an execution of the stored task on the input that it names. -/
structure OwnWork (blake3 : List UInt8 → Hash) (validator : ResultValidator) (named : String → Hash) (taskId : TaskId)
    (result : WorkResult) : Prop where
  sameTask : result.taskId = taskId
  sameOutput : ∃ task input, validator.fetchTask taskId = .ok task ∧
    validator.fetchInput blake3 (named task.inputCid) = .ok input ∧
    (∃ executor execution work, executeTask blake3 executor execution task input = .ok work) ∧
    ∀ executor execution work, executeTask blake3 executor execution task input = .ok work →
      result.outputCid = work.outputCid

structure Genuine (blake3 : List UInt8 → Hash) (validator : ResultValidator) (named : String → Hash)
    (before : List ValidationCall) (call : ValidationCall) : Prop where
  sameTask : call.result.taskId = call.taskId
  namedInput : ∀ task, validator.fetchTask call.taskId = .ok task →
    inputHash blake3 call.result task = named task.inputCid
  sameIdentifier : ∀ earlier ∈ before, earlier.result.resultId = call.result.resultId →
    earlier.taskId = call.taskId ∧ earlier.result.outputCid = call.result.outputCid
  positiveThreshold : 0 < validator.config.acceptanceThreshold

def comparedTexts (blake3 : List UInt8 → Hash) (validator : ResultValidator) (calls : List ValidationCall) :
    Set String :=
  {text | ∃ call ∈ calls, text = call.result.outputCid ∨
    ∃ task data output proof, validator.fetchTask call.result.taskId = .ok task ∧
      validator.fetchInput blake3 (inputHash blake3 call.result task) = .ok data ∧
      executeByType blake3 task data = .ok (output, proof) ∧ text = outputCid blake3 output}

section

variable {blake3 : List UInt8 → Hash} {validator : ResultValidator} {executor : TaskExecutor} {named : String → Hash}
  {cache next : ValidationCache} {report : ValidationReport} {call : ValidationCall} {calls before : List ValidationCall}

theorem vote_of_accepted {votes : List ValidationVote} {total : Nat}
    (positive : 0 < validator.config.acceptanceThreshold)
    (accepted : (validator.aggregateVotes votes total).1 = .accepted) : ∃ vote ∈ votes, vote.vote = true := by
  by_contra none
  simp only [not_exists, not_and, Bool.not_eq_true] at none
  have noVotes : votes.filter (·.vote) = [] := by
    rw [List.filter_eq_nil_iff]
    intro vote member
    rw [none vote member]
    decide
  simp only [aggregateVotes, noVotes, List.length_nil, Nat.cast_zero, zero_div] at accepted
  by_cases empty : total = 0
  · simp [empty] at accepted
  · rw [if_neg empty, if_neg (not_le.mpr positive)] at accepted
    split at accepted <;> cases accepted

theorem validate_ok (run : call.validate blake3 validator cache = .ok (report, next)) :
    cache.lookup call.result.resultId = some report ∧ next = cache ∨
      next = cache.insert call.result.resultId report ∧
        (0 < validator.config.acceptanceThreshold → report.validationResult = .accepted →
          ∃ member vote, validator.verifyWorkResult blake3 call.result member = .ok vote ∧ vote.vote = true) := by
  unfold ValidationCall.validate validateResult at run
  cases cached : cache.lookup call.result.resultId with
  | some kept =>
    rw [cached] at run
    cases run
    exact Or.inl ⟨rfl, rfl⟩
  | none =>
    rw [cached] at run
    obtain ⟨members, selected, run⟩ := Fallible.bind_ok run
    split at run
    · cases run
    obtain ⟨votes, collected, run⟩ := Fallible.bind_ok run
    obtain ⟨thresholdBlsSig, signed, run⟩ := Fallible.bind_ok run
    cases run
    refine Or.inr ⟨rfl, fun positive accepted => ?_⟩
    obtain ⟨vote, voted, accepts⟩ := vote_of_accepted positive accepted
    obtain ⟨member, _, verified⟩ := Fallible.mapM_ok collected voted
    exact ⟨member, vote, verified, accepts⟩

theorem own_of_vote {member : CommitteeMember} {vote : ValidationVote}
    (required : validator.config.requireReExecution = true) (configured : validator.executor = some executor)
    (injective : Set.InjOn (fun text => blake3 (utf8 text)) (comparedTexts blake3 validator calls))
    (listed : call ∈ calls) (genuine : Genuine blake3 validator named before call)
    (verified : validator.verifyWorkResult blake3 call.result member = .ok vote) (accepts : vote.vote = true) :
    OwnWork blake3 validator named call.taskId call.result := by
  obtain ⟨_, ⟨reExecuted, ran, matched⟩, _⟩ :=
    (verifyWorkResult_accepts_iff required configured).mp ⟨vote, verified, accepts⟩
  obtain ⟨task, data, work, fetched, read, executed, hashes⟩ := reExecuteWithExecutor_ok ran
  obtain ⟨_, output, proof, produced, shape⟩ := executeTask_ok_iff.mp executed
  have claimed : call.result.outputCid ∈ comparedTexts blake3 validator calls := ⟨call, listed, Or.inl rfl⟩
  have recomputed : work.outputCid ∈ comparedTexts blake3 validator calls := by
    rw [shape]
    exact ⟨call, listed, Or.inr ⟨task, data, output, proof, fetched, read, produced, rfl⟩⟩
  have same : work.outputCid = call.result.outputCid := injective recomputed claimed (hashes matched)
  rw [genuine.sameTask] at fetched
  rw [genuine.namedInput task fetched] at read
  refine ⟨genuine.sameTask, task, data, fetched, read, ⟨executor, member.execution, work, executed⟩, ?_⟩
  intro other execution otherWork run
  rw [← same]
  exact outputCid_of_executeTask executed run

theorem OwnWork.transfer {taskId : TaskId} {result other : WorkResult}
    (own : OwnWork blake3 validator named taskId result)
    (sameTask : other.taskId = taskId) (sameOutput : result.outputCid = other.outputCid) :
    OwnWork blake3 validator named taskId other := by
  refine ⟨sameTask, ?_⟩
  rw [← sameOutput]
  exact own.sameOutput

def CacheSound (blake3 : List UInt8 → Hash) (validator : ResultValidator) (named : String → Hash)
    (before : List ValidationCall) (cache : ValidationCache) : Prop :=
  ∀ resultId report, cache.lookup resultId = some report → report.validationResult = .accepted →
    ∃ earlier ∈ before, earlier.result.resultId = resultId ∧
      OwnWork blake3 validator named earlier.taskId earlier.result

section

variable (required : validator.config.requireReExecution = true) (configured : validator.executor = some executor)
  (injective : Set.InjOn (fun text => blake3 (utf8 text)) (comparedTexts blake3 validator calls))

include required configured injective

theorem own_of_validate (listed : call ∈ calls) (genuine : Genuine blake3 validator named before call)
    (sound : CacheSound blake3 validator named before cache)
    (run : call.validate blake3 validator cache = .ok (report, next)) (accepted : report.validationResult = .accepted) :
    OwnWork blake3 validator named call.taskId call.result := by
  rcases validate_ok run with ⟨cached, _⟩ | ⟨_, voted⟩
  · obtain ⟨earlier, member, identifier, own⟩ := sound _ report cached accepted
    obtain ⟨sameTask, sameOutput⟩ := genuine.sameIdentifier earlier member identifier
    rw [sameTask] at own
    exact own.transfer genuine.sameTask sameOutput
  · obtain ⟨member, vote, verified, accepts⟩ := voted genuine.positiveThreshold accepted
    exact own_of_vote required configured injective listed genuine verified accepts

theorem CacheSound.step (listed : call ∈ calls) (genuine : Genuine blake3 validator named before call)
    (sound : CacheSound blake3 validator named before cache) :
    CacheSound blake3 validator named (before ++ [call]) (step blake3 validator cache call) := by
  have earlier : CacheSound blake3 validator named (before ++ [call]) cache := by
    intro resultId report found accepted
    obtain ⟨earlier, member, own⟩ := sound resultId report found accepted
    exact ⟨earlier, List.mem_append_left [call] member, own⟩
  unfold Pouw.step
  cases run : call.validate blake3 validator cache with
  | error error => exact earlier
  | ok returned =>
    obtain ⟨report, next⟩ := returned
    rcases validate_ok run with ⟨_, rfl⟩ | ⟨rfl, _⟩
    · exact earlier
    intro resultId kept found accepted
    rw [HashMap.lookup_insert_eq] at found
    split at found
    · next same =>
      cases found
      have own := own_of_validate required configured injective listed genuine sound run accepted
      exact ⟨call, List.mem_append_right before List.mem_cons_self, same.symm, own⟩
    · exact earlier resultId kept found accepted

theorem cache_sound (genuine : ∀ before call, before ++ [call] <+: calls → Genuine blake3 validator named before call) :
    ∀ before, before <+: calls →
      CacheSound blake3 validator named before (Runs.after (step blake3 validator) ∅ before) := by
  refine Runs.forall_prefixes ?_ ?_
  · intro resultId report found
    cases found
  · intro before call part sound
    rw [Runs.after_snoc]
    have listed : call ∈ calls := part.subset (List.mem_append_right before List.mem_cons_self)
    exact CacheSound.step required configured injective listed (genuine before call part) sound

end

/-- In a run of genuine calls every accepted result is the own work of the task it was submitted for. -/
theorem accepted_work_is_own (blake3 : List UInt8 → Hash) (validator : ResultValidator) (executor : TaskExecutor)
    (named : String → Hash) (calls : List ValidationCall) (required : validator.config.requireReExecution = true)
    (configured : validator.executor = some executor)
    (injective : Set.InjOn (fun text => blake3 (utf8 text)) (comparedTexts blake3 validator calls))
    (genuine : ∀ before call, before ++ [call] <+: calls → Genuine blake3 validator named before call) :
    ∀ before call, before ++ [call] <+: calls → ∀ report next,
      call.validate blake3 validator (Runs.after (step blake3 validator) ∅ before) = .ok (report, next) →
      report.validationResult = .accepted → OwnWork blake3 validator named call.taskId call.result := by
  intro before call part report next run accepted
  have listed : call ∈ calls := part.subset (List.mem_append_right before List.mem_cons_self)
  have sound := cache_sound required configured injective genuine before
    ((List.prefix_append before [call]).trans part)
  exact own_of_validate required configured injective listed (genuine before call part) sound run accepted

end

namespace Sample

def surroundings : Surroundings where
  committee := .ok ((List.range 5).map fun index => ⟨⟨Bytes32.replicate (UInt8.ofNat (10 + index))⟩, execution⟩)
  blsCoordinator := none
  reportTime := ⟨1700000002, 0⟩
  timestamp := ⟨1700000002, 0⟩

def ownCall : ValidationCall := ⟨surroundings, task.taskId, result, 10⟩

theorem ownCall_accepted : ((ownCall.validate (knownHash hashes) validator ∅).toOption.map fun returned =>
    returned.1.validationResult) = some .accepted := by decide +kernel

theorem ownCall_texts : comparedTexts (knownHash hashes) validator [ownCall] ⊆ {outputName} := by
  rintro text ⟨call, listed, compared⟩
  rw [List.mem_singleton.mp listed] at compared
  rcases compared with claimed | ⟨stored, data, output, proof, fetched, read, executed, recomputed⟩
  · rw [claimed]
    decide +kernel
  · have fetchedTask : validator.fetchTask result.taskId = .ok task := by rfl
    cases fetchedTask.symm.trans fetched
    have hash : inputHash (knownHash hashes) result task = first := by decide +kernel
    change validator.fetchInput (knownHash hashes) (inputHash (knownHash hashes) result task) = _ at read
    rw [hash, fetchInput_ok_iff] at read
    obtain ⟨store, kept, read⟩ := read
    cases kept
    have same : data = input := by
      have value : InputStore.getInput (knownHash hashes)
          ⟨fun hash => .ok (if hash = first then some input else none)⟩ first = .ok (some input) := by
        have checked : InputStore.verifyHash (knownHash hashes) input first = true := by decide +kernel
        simp [InputStore.getInput, checked]
      rw [value] at read
      cases read
      rfl
    subst same
    obtain ⟨_, output', proof', produced, shape⟩ := executeTask_ok_iff.mp result_executed
    cases executed.symm.trans produced
    have name : result.outputCid = outputName := by decide +kernel
    rw [shape] at name
    exact recomputed.trans name

theorem ownCall_own : OwnWork (knownHash hashes) validator (fun _ => first) ownCall.taskId ownCall.result := by
  have injective : Set.InjOn (fun text => knownHash hashes (utf8 text))
      (comparedTexts (knownHash hashes) validator [ownCall]) :=
    (Set.injOn_singleton _ _).mono ownCall_texts
  have genuine : ∀ before call, before ++ [call] <+: [ownCall] →
      Genuine (knownHash hashes) validator (fun _ => first) before call := by
    rw [Runs.forall_steps_cons]
    refine ⟨⟨rfl, ?_, ?_, ?_⟩, Runs.forall_steps_nil⟩
    · intro stored fetched
      have fetchedTask : validator.fetchTask ownCall.taskId = .ok task := by rfl
      cases fetchedTask.symm.trans fetched
      decide +kernel
    · intro earlier member
      cases member
    · decide +kernel
  have accepted := ownCall_accepted
  cases run : ownCall.validate (knownHash hashes) validator ∅ with
  | error error =>
    rw [run] at accepted
    cases accepted
  | ok returned =>
    rw [run] at accepted
    exact accepted_work_is_own (knownHash hashes) validator executor (fun _ => first) [ownCall] rfl rfl injective genuine
      [] ownCall (List.prefix_refl _) returned.1 returned.2 run (Option.some.inj accepted)

def foreignCall : ValidationCall := ⟨surroundings, otherTask, result, 10⟩

theorem foreign_work_accepted :
    validator.config.requireReExecution = true ∧ validator.executor = some executor ∧
      ((foreignCall.validate (knownHash hashes) validator ∅).toOption.map fun returned =>
        returned.1.validationResult) = some .accepted ∧
      foreignCall.result.taskId ≠ foreignCall.taskId := by
  refine ⟨rfl, rfl, ?_, ?_⟩
  · decide +kernel
  · decide +kernel

end Sample

end AdicProof.Pouw
