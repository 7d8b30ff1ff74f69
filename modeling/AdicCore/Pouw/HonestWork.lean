import AdicCore.Pouw.ReExecution

namespace AdicProof.Pouw

open AdicModel AdicModel.Economics AdicModel.Pouw AdicModel.Pouw.TaskExecutor AdicModel.Pouw.ResultValidator

def digitValue (digit : Char) : UInt8 :=
  if digit.toNat < 58 then UInt8.ofNat (digit.toNat - 48) else UInt8.ofNat (digit.toNat - 87)

theorem digitValue_hexDigit (index : Fin 16) : digitValue (hexDigit (UInt8.ofNat index.val)) = UInt8.ofNat index.val := by
  revert index
  decide

theorem hexDigit_size (index : Fin 16) : (hexDigit (UInt8.ofNat index.val)).utf8Size = 1 := by
  revert index
  decide

theorem high_half (byte : UInt8) : ∃ index : Fin 16, byte / 16 = UInt8.ofNat index.val := by
  have bound : byte.toNat < 256 := byte.toNat_lt
  refine ⟨⟨byte.toNat / 16, by omega⟩, UInt8.toNat_inj.mp ?_⟩
  rw [UInt8.toNat_div, UInt8.toNat_ofNat']
  change byte.toNat / 16 = byte.toNat / 16 % 256
  omega

theorem low_half (byte : UInt8) : ∃ index : Fin 16, byte % 16 = UInt8.ofNat index.val := by
  refine ⟨⟨byte.toNat % 16, by omega⟩, UInt8.toNat_inj.mp ?_⟩
  rw [UInt8.toNat_mod, UInt8.toNat_ofNat']
  change byte.toNat % 16 = byte.toNat % 16 % 256
  omega

theorem hexDigits_injective {first second : UInt8} (high : hexDigit (first / 16) = hexDigit (second / 16))
    (low : hexDigit (first % 16) = hexDigit (second % 16)) : first = second := by
  have highs : first / 16 = second / 16 := by
    obtain ⟨i, hi⟩ := high_half first
    obtain ⟨j, hj⟩ := high_half second
    rw [hi, hj] at high ⊢
    have values := congrArg digitValue high
    rwa [digitValue_hexDigit, digitValue_hexDigit] at values
  have lows : first % 16 = second % 16 := by
    obtain ⟨i, hi⟩ := low_half first
    obtain ⟨j, hj⟩ := low_half second
    rw [hi, hj] at low ⊢
    have values := congrArg digitValue low
    rwa [digitValue_hexDigit, digitValue_hexDigit] at values
  have highNat := congrArg UInt8.toNat highs
  have lowNat := congrArg UInt8.toNat lows
  have sixteen : (16 : UInt8).toNat = 16 := rfl
  rw [UInt8.toNat_div, UInt8.toNat_div, sixteen] at highNat
  rw [UInt8.toNat_mod, UInt8.toNat_mod, sixteen] at lowNat
  apply UInt8.toNat_inj.mp
  omega

theorem hexEncode_injective {first second : List UInt8} (same : hexEncode first = hexEncode second) :
    first = second := by
  have digits := String.ofList_injective same
  clear same
  induction first generalizing second with
  | nil =>
    cases second with
    | nil => rfl
    | cons byte rest => simp at digits
  | cons byte rest ih =>
    cases second with
    | nil => simp at digits
    | cons other others =>
      simp only [List.flatMap_cons, List.cons_append, List.nil_append, List.cons.injEq] at digits
      rw [hexDigits_injective digits.1 digits.2.1, ih digits.2.2]

theorem utf8_injective {first second : String} (same : utf8 first = utf8 second) : first = second := by
  have arrays : first.toUTF8.data = second.toUTF8.data := Array.toList_inj.mp same
  exact String.toByteArray_inj.mp (ByteArray.ext arrays)

theorem length_utf8 (text : String) : (utf8 text).length = text.utf8ByteSize := rfl

theorem length_utf8_hexEncode (bytes : List UInt8) : (utf8 (hexEncode bytes)).length = 2 * bytes.length := by
  rw [length_utf8, hexEncode, String.utf8ByteSize_ofList]
  induction bytes with
  | nil => rfl
  | cons byte rest ih =>
    obtain ⟨i, hi⟩ := high_half byte
    obtain ⟨j, hj⟩ := low_half byte
    rw [List.flatMap_cons, String.utf8Len_append, ih, hi, hj]
    simp only [String.utf8Len_cons, String.utf8Len_nil, hexDigit_size, List.length_cons]
    omega

theorem length_utf8_append (first second : String) :
    (utf8 (first ++ second)).length = (utf8 first).length + (utf8 second).length := by
  rw [length_utf8, length_utf8, length_utf8, String.utf8ByteSize_append]

def digest (blake3 : List UInt8 → Hash) (data : List UInt8) : List UInt8 := (blake3 data).bytes.take 20

theorem digest_of_outputCid {blake3 : List UInt8 → Hash} {first second : List UInt8}
    (same : outputCid blake3 first = outputCid blake3 second) : digest blake3 first = digest blake3 second :=
  hexEncode_injective ((String.append_right_inj "Qm").mp same)

theorem hashText_injective {first second : Hash} (same : hashText first = hashText second) : first = second := by
  obtain ⟨first, _⟩ := first
  obtain ⟨second, _⟩ := second
  have bytes : first = second := hexEncode_injective same
  subst bytes
  rfl

def Accepts (blake3 : List UInt8 → Hash) (validator : ResultValidator) (result : WorkResult) (member : CommitteeMember) :
    Prop := ∃ vote, validator.verifyWorkResult blake3 result member = .ok vote ∧ vote.vote = true

def HasRoot (blake3 : List UInt8 → Hash) (task : Pouw.Task) (input : List UInt8) : Prop :=
  ∀ output proof, executeByType blake3 task input = .ok (output, proof) → isZero proof.merkleRoot = false

/-- The types and inputs whose proof data or identifier leads the validator to an equal output. -/
def Recoverable (blake3 : List UInt8 → Hash) (validator : ResultValidator) (task : Pouw.Task) (input : List UInt8) : Prop :=
  match task.taskType with
  | .compute .hashVerification _ => HasRoot blake3 task input
  | .compute .dataProcessing _ => input = [] ∧ HasRoot blake3 task input
  | .compute .modelInference _ => False
  | .compute (.custom _) _ => False
  | .validation _ _ => False
  | .storage _ _ _ => input = utf8 task.inputCid ∧ isZero (blake3 input) = false
  | .aggregation _ _ =>
    HasRoot blake3 task input ∧ ∃ data, validator.fetchInput blake3 (blake3 (utf8 task.inputCid)) = .ok data

/-- The executor takes the task, its claims of time and memory are within the limits, and the input is found. -/
structure Reproducible (blake3 : List UInt8 → Hash) (validator : ResultValidator) (executor : TaskExecutor)
    (member : CommitteeMember) (execution : Execution) (task : Pouw.Task) (input : List UInt8) : Prop where
  admitted : Admits executor member.execution task
  wholeSeconds : (execution.elapsedMs / 1000).toNat ≤
    (numSeconds execution.startTime execution.endTime * 10 % 2 ^ 64).toNat
  memory : ∀ output proof, executeByType blake3 task input = .ok (output, proof) →
    estimateMemoryUsage output ≤ 1000000
  recoverable : Recoverable blake3 validator task input

def hashedStrings (blake3 : List UInt8 → Hash) (task : Pouw.Task) (data : List UInt8) : Set (List UInt8) :=
  {text | text = data ∨ text = utf8 task.inputCid ∨ text = (data.map (· + 1)).take (data.length / 2) ∨
    ∃ output proof, executeByType blake3 task data = .ok (output, proof) ∧
      (text = output ∨ text = utf8 (outputCid blake3 output))}

def CollisionFree (blake3 : List UInt8 → Hash) (validator : ResultValidator) (task : Pouw.Task) (input : List UInt8)
    (result : WorkResult) : Prop :=
  Set.InjOn (digest blake3) {text | text ∈ hashedStrings blake3 task input ∨
    ∃ data, validator.fetchInput blake3 (inputHash blake3 result task) = .ok data ∧
      text ∈ hashedStrings blake3 task data}

section

variable {blake3 : List UInt8 → Hash} {worker executor : TaskExecutor} {execution : Execution} {member : CommitteeMember}
  {task : Pouw.Task} {input data output : List UInt8} {result : WorkResult} {validator : ResultValidator}
  {states : List Hash}

theorem merkleRoot_agrees : ResultValidator.computeMerkleRoot blake3 states =
    (TaskExecutor.computeMerkleRoot blake3 states).bytes := by
  unfold ResultValidator.computeMerkleRoot TaskExecutor.computeMerkleRoot
  split
  · rfl
  · rfl

theorem isZero_computeMerkleRoot_nil : isZero (TaskExecutor.computeMerkleRoot blake3 []) = true := rfl

theorem verifyMerkleProof_iff {proofData : List UInt8} :
    verifyMerkleProof blake3 ⟨.merkleTree, TaskExecutor.computeMerkleRoot blake3 states, states, proofData⟩ = true ↔
      isZero (TaskExecutor.computeMerkleRoot blake3 states) = false := by
  unfold verifyMerkleProof
  by_cases empty : states = []
  · subst empty
    simp [isZero_computeMerkleRoot_nil]
  · simp [merkleRoot_agrees, empty]

theorem inputHash_of_states {first : Hash} {rest : List Hash}
    (recorded : result.executionProof.proofData = generateProofData (first :: rest)) :
    inputHash blake3 result task = first := by
  have bytes : generateProofData (first :: rest) = first.bytes ++ concatStates rest := by
    simp [generateProofData, concatStates]
  have enough : 32 ≤ result.executionProof.proofData.length := by
    rw [recorded, bytes, List.length_append, first.size]
    omega
  have taken : result.executionProof.proofData.take 32 = first.bytes := by
    rw [recorded, bytes, List.take_left' first.size]
  unfold inputHash
  rw [dif_pos enough]
  obtain ⟨bytes, size⟩ := first
  congr

theorem inputHash_of_empty (recorded : result.executionProof.proofData = []) :
    inputHash blake3 result task = blake3 (utf8 task.inputCid) := by
  unfold inputHash parseCidToHash
  rw [dif_neg]
  rw [recorded]
  decide

theorem reExecution_matches_iff (stored : validator.fetchTask result.taskId = .ok task) :
    (∃ reExecuted, validator.reExecuteWithExecutor blake3 executor execution result = .ok reExecuted ∧
      reExecuted.outputMatches = true) ↔
      Admits executor execution task ∧ ∃ data output proof,
        validator.fetchInput blake3 (inputHash blake3 result task) = .ok data ∧
        executeByType blake3 task data = .ok (output, proof) ∧
        blake3 (utf8 (outputCid blake3 output)) = blake3 (utf8 result.outputCid) := by
  constructor
  · rintro ⟨reExecuted, ran, matched⟩
    obtain ⟨task', data, work, fetched, read, executed, hashes⟩ := reExecuteWithExecutor_ok ran
    cases stored.symm.trans fetched
    obtain ⟨admitted, output, proof, produced, shape⟩ := executeTask_ok_iff.mp executed
    have same := hashes matched
    rw [shape] at same
    exact ⟨admitted, data, output, proof, read, produced, same⟩
  · rintro ⟨admitted, data, output, proof, read, produced, same⟩
    have executed := executeTask_ok_iff.mpr ⟨admitted, output, proof, produced, rfl⟩
    exact ⟨_, reExecuteWithExecutor_of_run stored read executed, decide_eq_true same⟩

theorem verifyResourceClaims_iff (later : isBefore execution.startTime execution.endTime = true) :
    verifyResourceClaims (worker.workResult blake3 execution task input output result.executionProof).executionMetrics =
      true ↔
      (execution.elapsedMs / 1000).toNat ≤ (numSeconds execution.startTime execution.endTime * 10 % 2 ^ 64).toNat ∧
        estimateMemoryUsage output ≤ 1000000 := by
  have positive : estimateMemoryUsage output ≠ 0 := by
    unfold estimateMemoryUsage
    omega
  simp only [verifyResourceClaims, workResult, later, positive, not_true, if_false, false_or]
  constructor
  · intro claimed
    split at claimed
    · cases claimed
    · next cpu =>
      split at claimed
      · cases claimed
      · next memory => exact ⟨Nat.not_lt.mp cpu, Nat.not_lt.mp memory⟩
  · intro within
    rw [if_neg (Nat.not_lt.mpr within.1), if_neg (Nat.not_lt.mpr within.2)]

theorem doComputation_ok {computationType : ComputationType} {proof : ExecutionProof}
    (done : doComputation blake3 input computationType = .ok (output, proof)) :
    ∃ states, compute blake3 input computationType = .ok (output, states) ∧
      proof = ⟨.merkleTree, TaskExecutor.computeMerkleRoot blake3 states, states, generateProofData states⟩ := by
  obtain ⟨⟨output', states⟩, computed, done⟩ := Fallible.bind_ok done
  cases done
  exact ⟨states, computed, rfl⟩

structure Checked (blake3 : List UInt8 → Hash) (validator : ResultValidator) (task : Pouw.Task) (result : WorkResult) :
    Prop where
  proofValid : validator.verifyExecutionProof blake3 result = .ok true
  reproduced : ∃ data output proof, validator.fetchInput blake3 (inputHash blake3 result task) = .ok data ∧
    executeByType blake3 task data = .ok (output, proof) ∧
    blake3 (utf8 (outputCid blake3 output)) = blake3 (utf8 result.outputCid)

theorem verifyExecutionProof_merkle (kind : result.executionProof.proofType = .merkleTree)
    (root : result.executionProof.merkleRoot =
      TaskExecutor.computeMerkleRoot blake3 result.executionProof.intermediateStates) :
    validator.verifyExecutionProof blake3 result = .ok true ↔ isZero result.executionProof.merkleRoot = false := by
  have shape : result.executionProof = ⟨.merkleTree,
      TaskExecutor.computeMerkleRoot blake3 result.executionProof.intermediateStates,
      result.executionProof.intermediateStates, result.executionProof.proofData⟩ := by
    rw [← root, ← kind]
  simp only [verifyExecutionProof, kind, Except.ok.injEq]
  rw [shape]
  exact verifyMerkleProof_iff

theorem checked_of_recoverable (executed : executeByType blake3 task input = .ok (output, result.executionProof))
    (name : result.outputCid = outputCid blake3 output)
    (held : validator.fetchInput blake3 (blake3 input) = .ok input)
    (recoverable : Recoverable blake3 validator task input) : Checked blake3 validator task result := by
  unfold Recoverable at recoverable
  have again : inputHash blake3 result task = blake3 input →
      ∃ data output proof, validator.fetchInput blake3 (inputHash blake3 result task) = .ok data ∧
        executeByType blake3 task data = .ok (output, proof) ∧
        blake3 (utf8 (outputCid blake3 output)) = blake3 (utf8 result.outputCid) := by
    intro same
    rw [same, name]
    exact ⟨input, output, _, held, executed, rfl⟩
  have ran := executed
  unfold executeByType at ran
  cases kind : task.taskType with
  | compute computationType resourceRequirements =>
    rw [kind] at recoverable ran
    obtain ⟨states, computed, shape⟩ := doComputation_ok ran
    have recorded := congrArg ExecutionProof.proofData shape
    have valid := @verifyExecutionProof_merkle blake3 result validator (by rw [shape]) (by rw [shape])
    cases computationType with
    | hashVerification =>
      cases computed
      exact ⟨valid.mpr (recoverable _ _ executed), again (inputHash_of_states recorded)⟩
    | dataProcessing =>
      obtain ⟨rfl, root⟩ := recoverable
      cases computed
      exact ⟨valid.mpr (root _ _ executed), again (inputHash_of_states recorded)⟩
    | modelInference => exact recoverable.elim
    | custom computation => exact recoverable.elim
  | validation targetTaskId validationCriteria =>
    rw [kind] at recoverable
    exact recoverable.elim
  | storage dataCid durationEpochs redundancy =>
    rw [kind] at recoverable ran
    obtain ⟨sameInput, nonzero⟩ := recoverable
    have shape : result.executionProof = (executeStorageTask blake3 task input dataCid).2 :=
      (congrArg Prod.snd (Except.ok.inj ran)).symm
    refine ⟨?_, again ?_⟩
    · simp only [verifyExecutionProof, shape, executeStorageTask, verifyStateTransitionProof]
      simp [nonzero]
    · rw [inputHash_of_empty (by rw [shape]; rfl), ← sameInput]
  | aggregation sourceTaskIds aggregationFunction =>
    rw [kind] at recoverable ran
    obtain ⟨root, data, found⟩ := recoverable
    have shape : result.executionProof =
        (executeAggregationTask blake3 task input sourceTaskIds aggregationFunction).2 :=
      (congrArg Prod.snd (Except.ok.inj ran)).symm
    have outputs : output = (executeAggregationTask blake3 task input sourceTaskIds aggregationFunction).1 :=
      (congrArg Prod.fst (Except.ok.inj ran)).symm
    have valid := @verifyExecutionProof_merkle blake3 result validator (by rw [shape]; rfl) (by rw [shape]; rfl)
    refine ⟨valid.mpr (root output _ executed), data, output,
      (executeAggregationTask blake3 task data sourceTaskIds aggregationFunction).2, ?_, ?_, ?_⟩
    · rw [inputHash_of_empty (by rw [shape]; rfl)]
      exact found
    · rw [executeByType, kind, outputs]
      rfl
    · rw [name]

theorem hasRoot_of_executed (executed : executeByType blake3 task input = .ok (output, result.executionProof))
    (nonzero : isZero result.executionProof.merkleRoot = false) : HasRoot blake3 task input := by
  intro other proof again
  cases executed.symm.trans again
  exact nonzero

theorem data_of_hash {text : List UInt8} (free : CollisionFree blake3 validator task input result)
    (fetched : validator.fetchInput blake3 (inputHash blake3 result task) = .ok data)
    (listed : text ∈ hashedStrings blake3 task input) (hash : inputHash blake3 result task = blake3 text) :
    data = text := by
  have fetchedHash : blake3 data = inputHash blake3 result task := by
    obtain ⟨store, kept, read⟩ := fetchInput_ok_iff.mp fetched
    exact blake3_of_getInput read
  apply free (Or.inr ⟨data, fetched, Or.inl rfl⟩) (Or.inl listed)
  unfold digest
  rw [fetchedHash, hash]

theorem output_of_checked {other : List UInt8} {proof : ExecutionProof}
    (free : CollisionFree blake3 validator task input result)
    (executed : executeByType blake3 task input = .ok (output, result.executionProof))
    (name : result.outputCid = outputCid blake3 output)
    (fetched : validator.fetchInput blake3 (inputHash blake3 result task) = .ok data)
    (again : executeByType blake3 task data = .ok (other, proof))
    (same : blake3 (utf8 (outputCid blake3 other)) = blake3 (utf8 result.outputCid)) : other = output := by
  have names : utf8 (outputCid blake3 other) = utf8 (outputCid blake3 output) := by
    apply free (Or.inr ⟨data, fetched, Or.inr (Or.inr (Or.inr ⟨other, proof, again, Or.inr rfl⟩))⟩)
      (Or.inl (Or.inr (Or.inr (Or.inr ⟨output, _, executed, Or.inr rfl⟩))))
    rw [name] at same
    unfold digest
    rw [same]
  apply free (Or.inr ⟨data, fetched, Or.inr (Or.inr (Or.inr ⟨other, proof, again, Or.inl rfl⟩))⟩)
    (Or.inl (Or.inr (Or.inr (Or.inr ⟨output, _, executed, Or.inl rfl⟩))))
  exact digest_of_outputCid (utf8_injective names)

theorem length_custom {computation : String}
    (computed : compute blake3 input (.custom computation) = .ok (output, states)) :
    output.length = 8 + (utf8 computation).length + 2 * input.length := by
  cases computed
  change (utf8 ("custom_" ++ computation ++ "_" ++ hexEncode input)).length = _
  rw [length_utf8_append, length_utf8_append, length_utf8_append, length_utf8_hexEncode]
  have start : (utf8 "custom_").length = 7 := by decide
  have separator : (utf8 "_").length = 1 := by decide
  omega

theorem hash_of_receipt {dataCid : String}
    (same : (executeStorageTask blake3 task data dataCid).1 = (executeStorageTask blake3 task input dataCid).1) :
    blake3 data = blake3 input := by
  have texts := utf8_injective same
  exact hashText_injective ((String.append_right_inj _).mp texts)

theorem recoverable_of_checked (executed : executeByType blake3 task input = .ok (output, result.executionProof))
    (name : result.outputCid = outputCid blake3 output) (free : CollisionFree blake3 validator task input result)
    (checked : Checked blake3 validator task result) : Recoverable blake3 validator task input := by
  obtain ⟨proofValid, data, other, proof, fetched, again, same⟩ := checked
  have outputs := output_of_checked free executed name fetched again same
  subst outputs
  have ran := executed
  have reran := again
  unfold executeByType at ran reran
  unfold Recoverable
  cases kind : task.taskType with
  | compute computationType resourceRequirements =>
    rw [kind] at ran reran
    obtain ⟨states, computed, shape⟩ := doComputation_ok ran
    obtain ⟨restates, recomputed, _⟩ := doComputation_ok reran
    have recorded := congrArg ExecutionProof.proofData shape
    have valid := @verifyExecutionProof_merkle blake3 result validator (by rw [shape]) (by rw [shape])
    have root := hasRoot_of_executed executed (valid.mp proofValid)
    cases computationType with
    | hashVerification => exact root
    | dataProcessing =>
      refine ⟨?_, root⟩
      have half : data = (input.map (· + 1)).take (input.length / 2) := by
        apply data_of_hash free fetched (Or.inr (Or.inr (Or.inl rfl)))
        cases computed
        rw [inputHash_of_states recorded, List.length_map]
      have lengths : data.length = input.length := by
        cases computed
        have transformed := congrArg (fun done => (Prod.fst done).length) (Except.ok.inj recomputed)
        simpa using transformed
      rw [half, List.length_take, List.length_map] at lengths
      apply List.eq_nil_of_length_eq_zero
      omega
    | modelInference => cases computed
    | custom computation =>
      have outputData : data = other := by
        apply data_of_hash free fetched (Or.inr (Or.inr (Or.inr ⟨other, _, executed, Or.inl rfl⟩)))
        cases computed
        exact inputHash_of_states recorded
      have length := length_custom computed
      have relength := length_custom recomputed
      rw [outputData] at relength
      omega
  | validation targetTaskId validationCriteria =>
    rw [kind] at ran
    have shape : result.executionProof = (executeValidationTask blake3 task input validationCriteria).2 :=
      (congrArg Prod.snd (Except.ok.inj ran)).symm
    simp [verifyExecutionProof, shape, executeValidationTask, verifyReexecutionProof] at proofValid
  | storage dataCid durationEpochs redundancy =>
    rw [kind] at ran reran
    have shape : result.executionProof = (executeStorageTask blake3 task input dataCid).2 :=
      (congrArg Prod.snd (Except.ok.inj ran)).symm
    have receipts := (congrArg Prod.fst (Except.ok.inj reran)).trans (congrArg Prod.fst (Except.ok.inj ran)).symm
    have named : data = utf8 task.inputCid :=
      data_of_hash free fetched (Or.inr (Or.inl rfl)) (inputHash_of_empty (by rw [shape]; rfl))
    have sameInput : data = input := by
      apply free (Or.inr ⟨data, fetched, Or.inl rfl⟩) (Or.inl (Or.inl rfl))
      unfold digest
      rw [hash_of_receipt receipts]
    refine ⟨sameInput.symm.trans named, ?_⟩
    simpa [verifyExecutionProof, shape, executeStorageTask, verifyStateTransitionProof] using proofValid
  | aggregation sourceTaskIds aggregationFunction =>
    rw [kind] at ran
    have shape : result.executionProof =
        (executeAggregationTask blake3 task input sourceTaskIds aggregationFunction).2 :=
      (congrArg Prod.snd (Except.ok.inj ran)).symm
    have valid := @verifyExecutionProof_merkle blake3 result validator (by rw [shape]; rfl) (by rw [shape]; rfl)
    rw [inputHash_of_empty (by rw [shape]; rfl)] at fetched
    exact ⟨hasRoot_of_executed executed (valid.mp proofValid), data, fetched⟩

theorem accepts_iff_checked
    (shape : result = worker.workResult blake3 execution task input output result.executionProof)
    (later : isBefore execution.startTime execution.endTime = true)
    (required : validator.config.requireReExecution = true) (configured : validator.executor = some executor)
    (heldTask : validator.fetchTask task.taskId = .ok task) :
    Accepts blake3 validator result member ↔
      Checked blake3 validator task result ∧ Admits executor member.execution task ∧
        (execution.elapsedMs / 1000).toNat ≤ (numSeconds execution.startTime execution.endTime * 10 % 2 ^ 64).toNat ∧
        estimateMemoryUsage output ≤ 1000000 := by
  have stored : validator.fetchTask result.taskId = .ok task := by
    rw [shape]
    exact heldTask
  have resources := @verifyResourceClaims_iff blake3 worker execution task input output result later
  rw [← shape] at resources
  unfold Accepts
  rw [verifyWorkResult_accepts_iff required configured, reExecution_matches_iff stored, resources]
  constructor
  · rintro ⟨proofValid, ⟨admitted, reproduced⟩, within⟩
    exact ⟨⟨proofValid, reproduced⟩, admitted, within⟩
  · rintro ⟨⟨proofValid, reproduced⟩, admitted, within⟩
    exact ⟨proofValid, ⟨admitted, reproduced⟩, within⟩

/-- A validator votes for the result of an honest execution if it is reproducible, and without collisions only then. -/
theorem honest_work_accepted_iff (blake3 : List UInt8 → Hash) (worker executor : TaskExecutor) (execution : Execution)
    (member : CommitteeMember) (task : Pouw.Task) (input : List UInt8) (result : WorkResult) (validator : ResultValidator)
    (executed : worker.executeTask blake3 execution task input = .ok result)
    (later : isBefore execution.startTime execution.endTime = true)
    (required : validator.config.requireReExecution = true) (configured : validator.executor = some executor)
    (heldTask : validator.fetchTask task.taskId = .ok task)
    (heldInput : validator.fetchInput blake3 (blake3 input) = .ok input) :
    (Reproducible blake3 validator executor member execution task input → Accepts blake3 validator result member) ∧
      (CollisionFree blake3 validator task input result → Accepts blake3 validator result member →
        Reproducible blake3 validator executor member execution task input) := by
  obtain ⟨_, output, proof, produced, shape⟩ := executeTask_ok_iff.mp executed
  have proofs : proof = result.executionProof := by
    rw [shape]
    rfl
  have name : result.outputCid = outputCid blake3 output := by
    rw [shape]
    rfl
  subst proofs
  rw [accepts_iff_checked shape later required configured heldTask]
  constructor
  · intro reproducible
    have checked := checked_of_recoverable produced name heldInput reproducible.recoverable
    exact ⟨checked, reproducible.admitted, reproducible.wholeSeconds, reproducible.memory output _ produced⟩
  · rintro free ⟨checked, admitted, wholeSeconds, memory⟩
    refine ⟨admitted, wholeSeconds, ?_, recoverable_of_checked produced name free checked⟩
    intro other proof again
    cases produced.symm.trans again
    exact memory

end

namespace Sample

def member : CommitteeMember := ⟨⟨Bytes32.replicate 10⟩, execution⟩

def strings : List (List UInt8) := [input, utf8 "QmInput", [2], fourth.bytes, utf8 outputName]

theorem hashedStrings_subset : hashedStrings (knownHash hashes) task input ⊆ {text | text ∈ strings} := by
  obtain ⟨_, output, proof, produced, shape⟩ := executeTask_ok_iff.mp result_executed
  have outputs : output = fourth.bytes ∧ outputCid (knownHash hashes) output = outputName := by
    have name : result.outputCid = outputName := by decide +kernel
    rw [shape] at name
    refine ⟨?_, name⟩
    have computed : (executeByType (knownHash hashes) task input).toOption.map Prod.fst = some fourth.bytes := by
      decide +kernel
    rw [produced] at computed
    exact Option.some.inj computed
  rintro text (rfl | rfl | rfl | ⟨other, otherProof, again, listed⟩)
  · simp [strings]
  · simp [strings, task]
  · simp [strings, input]
  · cases produced.symm.trans again
    rw [outputs.2, outputs.1] at listed
    rcases listed with rfl | rfl
    · simp [strings]
    · simp [strings]

theorem strings_distinct : ∀ first ∈ strings, ∀ second ∈ strings,
    digest (knownHash hashes) first = digest (knownHash hashes) second → first = second := by decide +kernel

theorem heldInput : validator.fetchInput (knownHash hashes) first = .ok input := by
  have checked : InputStore.verifyHash (knownHash hashes) input first = true := by decide +kernel
  simp [fetchInput, validator, InputStore.getInput, checked]

theorem result_accepted : CollisionFree (knownHash hashes) validator task input result ∧
    Reproducible (knownHash hashes) validator executor member execution task input ∧
    Accepts (knownHash hashes) validator result member := by
  have inputName : knownHash hashes input = first := by decide +kernel
  have read : inputHash (knownHash hashes) result task = first := by decide +kernel
  have free : CollisionFree (knownHash hashes) validator task input result := by
    intro one listed two listed' same
    have known : ∀ text, text ∈ hashedStrings (knownHash hashes) task input ∨
        (∃ data, validator.fetchInput (knownHash hashes) (inputHash (knownHash hashes) result task) = .ok data ∧
          text ∈ hashedStrings (knownHash hashes) task data) → text ∈ strings := by
      rintro text (here | ⟨data, fetched, here⟩)
      · exact hashedStrings_subset here
      · rw [read, heldInput] at fetched
        cases fetched
        exact hashedStrings_subset here
    exact strings_distinct one (known one listed) two (known two listed') same
  have root : HasRoot (knownHash hashes) task input := by
    obtain ⟨_, output, proof, produced, shape⟩ := executeTask_ok_iff.mp result_executed
    intro other otherProof again
    cases produced.symm.trans again
    have nonzero : isZero result.executionProof.merkleRoot = false := by decide +kernel
    rw [shape] at nonzero
    exact nonzero
  have memory : ∀ output proof, executeByType (knownHash hashes) task input = .ok (output, proof) →
      estimateMemoryUsage output ≤ 1000000 := by
    obtain ⟨_, output, proof, produced, shape⟩ := executeTask_ok_iff.mp result_executed
    intro other otherProof again
    cases produced.symm.trans again
    have within : result.executionMetrics.memoryUsedMb ≤ 1000000 := by decide +kernel
    rw [shape] at within
    exact within
  have reproducible : Reproducible (knownHash hashes) validator executor member execution task input :=
    ⟨⟨by decide, rfl⟩, by decide +kernel, memory, root⟩
  have held : validator.fetchInput (knownHash hashes) (knownHash hashes input) = .ok input := by
    rw [inputName]
    exact heldInput
  exact ⟨free, reproducible, (honest_work_accepted_iff (knownHash hashes) executor executor execution member task input
    result validator result_executed (by decide) rfl rfl rfl held).1 reproducible⟩

def dataTask : Pouw.Task := ⟨Bytes32.replicate 3, .compute .dataProcessing ⟨1000, 64⟩, "QmInput"⟩

def dataHashes : List (List UInt8 × Hash) :=
  [(input, first), ([2], hashOf 0xab13bedf42e84bae0f7c62c7dd6a8ada571e8829bed6ea558217f0361b5e25d0),
    ([2, 3, 4], hashOf 0xf8309d5fcf79aa4a88735cae0dbda4c2ed743cab907842bb2ce53c4301a393ba),
    ((hashOf 0xab13bedf42e84bae0f7c62c7dd6a8ada571e8829bed6ea558217f0361b5e25d0).bytes ++
      (hashOf 0xf8309d5fcf79aa4a88735cae0dbda4c2ed743cab907842bb2ce53c4301a393ba).bytes,
      hashOf 0x3a154b5836154bf8d74ceff7324d713fac923eddec25a241124af130e28c5707),
    (dataTask.taskId.bytes ++ List.replicate 32 7 ++ toLeBytes 1700000001,
      hashOf 0xa40e9e5ea8a285dab19ca0aaeabe6cae4b19e76aa2bfc68b757e2e1ba06e81c7)]

def dataValidator : ResultValidator where
  build := ⟨true, false⟩
  config := ⟨5, 67 / 100, true⟩
  executor := some executor
  zkVerifier := none
  taskStore := some ⟨fun taskId => .ok (if taskId = dataTask.taskId then some dataTask else none)⟩
  inputStore := some ⟨fun hash => .ok (if hash = first then some input else none)⟩

/-- The validator looks for the first half of the processed data, not for the input. -/
theorem data_work_not_accepted : dataValidator.config.requireReExecution = true ∧
    isBefore execution.startTime execution.endTime = true ∧ ∃ result,
    executor.executeTask (knownHash dataHashes) execution dataTask input = .ok result ∧
    dataValidator.fetchTask dataTask.taskId = .ok dataTask ∧
    dataValidator.fetchInput (knownHash dataHashes) (knownHash dataHashes input) = .ok input ∧
    ¬ Accepts (knownHash dataHashes) dataValidator result member := by
  have fails : ((executor.executeTask (knownHash dataHashes) execution dataTask input).toOption.bind fun result =>
      (dataValidator.verifyWorkResult (knownHash dataHashes) result member).toOption) = none := by decide +kernel
  have held : dataValidator.fetchInput (knownHash dataHashes) (knownHash dataHashes input) = .ok input := by
    have checked : InputStore.verifyHash (knownHash dataHashes) input first = true := by decide +kernel
    have inputName : knownHash dataHashes input = first := by decide +kernel
    rw [inputName]
    simp [fetchInput, dataValidator, InputStore.getInput, checked]
  have admitted : Admits executor execution dataTask := ⟨by decide, rfl⟩
  have returns : ∃ result, executor.executeTask (knownHash dataHashes) execution dataTask input = .ok result :=
    ⟨_, executeTask_ok_iff.mpr ⟨admitted, _, _, rfl, rfl⟩⟩
  obtain ⟨result, executed⟩ := returns
  refine ⟨rfl, by decide, result, executed, rfl, held, ?_⟩
  rintro ⟨vote, verified, _⟩
  rw [executed] at fails
  change (dataValidator.verifyWorkResult (knownHash dataHashes) _ member).toOption = none at fails
  rw [verified] at fails
  cases fails

end Sample

end AdicProof.Pouw
