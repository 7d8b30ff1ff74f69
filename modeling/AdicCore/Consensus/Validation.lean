import AdicCore.Library.Runs
import AdicCore.Crypto.UltrametricSecurity
import AdicCore.Types.MessageIdentity

namespace AdicModel.Crypto

/-- The signature library: a key is read from its bytes. -/
structure Ed25519 where
  VerifyingKey : Type
  fromBytes : Bytes32 → Option VerifyingKey
  verify : VerifyingKey → ByteArray → List UInt8 → Bool

/-- The cache of the keys by their bytes returns what reading the bytes again would. -/
def CryptoEngine.verifySignature (ed25519 : Ed25519) (messageBytes : ByteArray) (publicKey : PublicKey)
    (signature : Signature) : Except AdicError Bool :=
  match ed25519.fromBytes publicKey.asBytes with
  | none => .error .signatureVerification
  | some verifyingKey =>
    if signature.asBytes.length ≠ 64 then .ok false
    else .ok (ed25519.verify verifyingKey messageBytes signature.asBytes)

end AdicModel.Crypto

open AdicModel.Crypto

namespace AdicModel.Consensus

structure ValidationResult where
  isValid : Bool
  errors : List String
  warnings : List String
deriving DecidableEq

namespace ValidationResult

def valid : ValidationResult := ⟨true, [], []⟩

def addError (error : String) (result : ValidationResult) : ValidationResult :=
  { result with errors := result.errors ++ [error], isValid := false }

def addWarning (warning : String) (result : ValidationResult) : ValidationResult :=
  { result with warnings := result.warnings ++ [warning] }

def addErrorIf (condition : Prop) [Decidable condition] (error : String) (result : ValidationResult) :
    ValidationResult :=
  if condition then result.addError error else result

end ValidationResult

/-- What a validator reads besides the message. -/
structure ValidationContext where
  now : DateTime
  timestampText : DateTime → String
  order : AxesOrder
  toString : Json.Value → String
  blake3 : ByteArray → Bytes32
  ed25519 : Ed25519

structure MessageValidator where
  maxTimestampDrift : Int
  maxPayloadSize : Nat
  validationCache : HashMap.Table MessageId ValidationResult
  cacheQueue : List MessageId
  maxCacheSize : Nat

namespace MessageValidator

def new : MessageValidator := ⟨300, 1024 * 1024, ∅, [], 10000⟩

def withCacheSize (size : Nat) : MessageValidator := { new with maxCacheSize := size }

variable (context : ValidationContext) (validator : MessageValidator) (message : AdicMessage)

def verifySignature (result : ValidationResult) : ValidationResult :=
  if message.signature.asBytes.isEmpty then result.addError "Message signature is empty"
  else
    match Crypto.CryptoEngine.verifySignature context.ed25519 (message.toBytes context.timestampText context.order context.toString)
      message.proposerPk message.signature with
    | .ok isValid => if isValid then result else result.addError "Invalid message signature"
    | .error e => result.addError s!"Signature verification error: {e.display}"

/-- The signature is checked only where the id is right. -/
def validateStructure (result : ValidationResult) : ValidationResult :=
  if !message.verifyId context.timestampText context.order context.toString context.blake3 then
    result.addError "Message ID does not match computed hash"
  else verifySignature context message result

def numSeconds (later earlier : DateTime) : Int :=
  ((later.timestamp - earlier.timestamp) * 1000000000 + (later.nanos.toNat - earlier.nanos.toNat)).tdiv 1000000000

def validateTimestamp (result : ValidationResult) : ValidationResult :=
  let drift := |numSeconds context.now message.metadata.timestamp|
  result.addErrorIf (drift > validator.maxTimestampDrift)
    s!"Timestamp drift {drift} exceeds maximum {validator.maxTimestampDrift}"

def validateParents (result : ValidationResult) : ValidationResult :=
  let result := result.addErrorIf (message.parents.isEmpty && !message.isGenesis) "Non-genesis message has no parents"
  let result := result.addErrorIf (message.parents.toFinset.card ≠ message.parents.length)
    "Message contains duplicate parents"
  result.addErrorIf (message.id ∈ message.parents) "Message references itself as parent"

def validatePayload (result : ValidationResult) : ValidationResult :=
  let result := result.addErrorIf (message.data.length > validator.maxPayloadSize)
    s!"Payload size {message.data.length} exceeds maximum {validator.maxPayloadSize}"
  if message.data.isEmpty then result.addWarning "Message has empty payload" else result

def validateAxes : List AxisPhi → Finset AxisId → ValidationResult → ValidationResult
  | [], _, result => result
  | phi :: phis, seenAxes, result =>
    let result := result.addErrorIf (phi.axis ∈ seenAxes) s!"Duplicate axis {phi.axis.index} in features"
    let result := result.addErrorIf phi.qpDigits.digits.isEmpty s!"Axis {phi.axis.index} has empty digits"
    validateAxes phis (insert phi.axis seenAxes) result

def validateFeatures (result : ValidationResult) : ValidationResult :=
  validateAxes message.features.phi ∅
    (result.addErrorIf (message.features.dimension = 0) "Message has no feature dimensions")

def validateTransfer (result : ValidationResult) : ValidationResult :=
  match message.getTransfer with
  | none => result
  | some transfer =>
    let result :=
      if transfer.isValid then result
      else
        let result := result.addError "Invalid value transfer"
        let result := result.addErrorIf (transfer.amount = 0) "Transfer amount must be greater than zero"
        let result := result.addErrorIf (transfer.sender = transfer.recipient)
          "Transfer sender and recipient must be different"
        let result := result.addErrorIf (transfer.sender.length ≠ 32)
          s!"Transfer sender address must be 32 bytes, got {transfer.sender.length}"
        result.addErrorIf (transfer.recipient.length ≠ 32)
          s!"Transfer recipient address must be 32 bytes, got {transfer.recipient.length}"
    if transfer.nonce = 0 then result.addWarning "Transfer has zero nonce, potential replay vulnerability"
    else result

def validateMessage : ValidationResult :=
  let result := validateStructure context message .valid
  let result := validateTimestamp context validator message result
  let result := validateParents message result
  let result := validatePayload validator message result
  let result := validateFeatures message result
  validateTransfer message result

/-- A full cache drops its oldest id. -/
def evict : MessageValidator :=
  if validator.validationCache.keys.length ≥ validator.maxCacheSize then
    match validator.cacheQueue with
    | [] => validator
    | oldId :: queue =>
      { validator with validationCache := validator.validationCache.erase oldId, cacheQueue := queue }
  else validator

def store (id : MessageId) (result : ValidationResult) : MessageValidator :=
  { validator with
    validationCache := validator.validationCache.insert id result
    cacheQueue := validator.cacheQueue ++ [id] }

/-- The instants in the cache are never read. -/
def validateMessageCached : ValidationResult × MessageValidator :=
  match validator.validationCache.lookup message.id with
  | some cachedResult => (cachedResult, validator)
  | none =>
    let result := validateMessage context validator message
    (result, validator.evict.store message.id result)

end MessageValidator

end AdicModel.Consensus

open AdicModel AdicModel.Consensus

namespace AdicProof.Consensus

section

variable {context : ValidationContext} {validator : MessageValidator} {message : AdicMessage} {result : ValidationResult}

@[simp] theorem addErrorIf_valid {condition : Prop} [Decidable condition] {error : String} :
    (result.addErrorIf condition error).isValid = true ↔ ¬condition ∧ result.isValid = true := by
  unfold ValidationResult.addErrorIf
  split
  · next holds => simp [holds, ValidationResult.addError]
  · next fails => simp [fails]

theorem validateTransfer_valid (valid : (MessageValidator.validateTransfer message result).isValid = true) :
    result.isValid = true := by
  unfold MessageValidator.validateTransfer at valid
  split at valid
  · exact valid
  · next transfer _ =>
    have kept : (if transfer.isValid = true then result else ((((((result.addError "Invalid value transfer")).addErrorIf
        (transfer.amount = 0) "Transfer amount must be greater than zero").addErrorIf
        (transfer.sender = transfer.recipient) "Transfer sender and recipient must be different").addErrorIf
        (transfer.sender.length ≠ 32) s!"Transfer sender address must be 32 bytes, got {transfer.sender.length}").addErrorIf
        (transfer.recipient.length ≠ 32)
          s!"Transfer recipient address must be 32 bytes, got {transfer.recipient.length}")).isValid = true := by
      dsimp only at valid
      split at valid
      · exact valid
      · exact valid
    split at kept
    · exact kept
    · simp [ValidationResult.addError] at kept

theorem validateAxes_valid {phis : List AxisPhi} {seenAxes : Finset AxisId}
    (valid : (MessageValidator.validateAxes phis seenAxes result).isValid = true) : result.isValid = true := by
  induction phis generalizing seenAxes result with
  | nil => exact valid
  | cons phi phis ih =>
    have later := ih valid
    exact (addErrorIf_valid.mp (addErrorIf_valid.mp later).2).2

theorem validatePayload_valid (valid : (MessageValidator.validatePayload validator message result).isValid = true) :
    result.isValid = true := by
  have kept : (result.addErrorIf (message.data.length > validator.maxPayloadSize)
      s!"Payload size {message.data.length} exceeds maximum {validator.maxPayloadSize}").isValid = true := by
    unfold MessageValidator.validatePayload at valid
    dsimp only at valid
    split at valid
    · exact valid
    · exact valid
  exact (addErrorIf_valid.mp kept).2

theorem validateStructure_valid
    (valid : (MessageValidator.validateStructure context message .valid).isValid = true) :
    Crypto.CryptoEngine.verifySignature context.ed25519
      (message.toBytes context.timestampText context.order context.toString) message.proposerPk message.signature =
        .ok true := by
  unfold MessageValidator.validateStructure at valid
  split at valid
  · cases valid
  · unfold MessageValidator.verifySignature at valid
    split at valid
    · cases valid
    · split at valid
      · next isValid verified =>
        cases isValid with
        | false => cases valid
        | true => exact verified
      · cases valid

theorem validateMessage_valid (valid : (validator.validateMessage context message).isValid = true) :
    Crypto.CryptoEngine.verifySignature context.ed25519
        (message.toBytes context.timestampText context.order context.toString) message.proposerPk message.signature =
          .ok true ∧
      message.id ∉ message.parents := by
  have featured := validateTransfer_valid valid
  have paid := (addErrorIf_valid.mp (validateAxes_valid featured)).2
  have parented := validatePayload_valid paid
  have others := addErrorIf_valid.mp parented
  have timed := (addErrorIf_valid.mp (addErrorIf_valid.mp others.2).2).2
  exact ⟨validateStructure_valid (addErrorIf_valid.mp timed).2, others.1⟩

end

variable (context : ValidationContext)

def plainResult (message : AdicMessage) : ValidationResult := MessageValidator.new.validateMessage context message

def cachedCall (validator : MessageValidator) (message : AdicMessage) : MessageValidator :=
  (validator.validateMessageCached context message).2

def validatorAfter (size : Nat) (messages : List AdicMessage) : MessageValidator :=
  Runs.after (cachedCall context) (MessageValidator.withCacheSize size) messages

def CachedAgrees (size : Nat) (messages : List AdicMessage) : Prop :=
  ∀ before message, before ++ [message] <+: messages →
    ((validatorAfter context size before).validateMessageCached context message).1 =
      (validatorAfter context size before).validateMessage context message

def SameIdsValidateAlike (messages : List AdicMessage) : Prop :=
  ∀ first ∈ messages, ∀ second ∈ messages, first.id = second.id → plainResult context first = plainResult context second

structure SameLimits (size : Nat) (validator : MessageValidator) : Prop where
  drift : validator.maxTimestampDrift = MessageValidator.new.maxTimestampDrift
  payload : validator.maxPayloadSize = MessageValidator.new.maxPayloadSize
  cache : validator.maxCacheSize = size

variable {context} {size : Nat} {validator : MessageValidator} {message : AdicMessage}

theorem validateMessage_sameLimits (same : SameLimits size validator) (message : AdicMessage) :
    validator.validateMessage context message = plainResult context message := by
  unfold plainResult MessageValidator.validateMessage MessageValidator.validateTimestamp MessageValidator.validatePayload
  rw [same.drift, same.payload]

variable {result : ValidationResult}

theorem cachedCall_hit (hit : validator.validationCache.lookup message.id = some result) :
    validator.validateMessageCached context message = (result, validator) := by
  simp [MessageValidator.validateMessageCached, hit]

theorem cachedCall_miss (miss : validator.validationCache.lookup message.id = none) :
    validator.validateMessageCached context message = (validator.validateMessage context message,
      validator.evict.store message.id (validator.validateMessage context message)) := by
  simp [MessageValidator.validateMessageCached, miss]

theorem evict_sameLimits (same : SameLimits size validator) : SameLimits size validator.evict := by
  unfold MessageValidator.evict
  split
  · split
    · exact same
    · exact ⟨same.drift, same.payload, same.cache⟩
  · exact same

theorem cachedCall_sameLimits (same : SameLimits size validator) (message : AdicMessage) :
    SameLimits size (cachedCall context validator message) := by
  unfold cachedCall
  cases found : validator.validationCache.lookup message.id with
  | some result =>
    rw [cachedCall_hit found]
    exact same
  | none =>
    rw [cachedCall_miss found]
    have evicted := evict_sameLimits same
    exact ⟨evicted.drift, evicted.payload, evicted.cache⟩

theorem validatorAfter_snoc (before : List AdicMessage) (message : AdicMessage) :
    validatorAfter context size (before ++ [message]) = cachedCall context (validatorAfter context size before) message :=
  Runs.after_snoc before message

theorem validatorAfter_sameLimits (messages : List AdicMessage) :
    SameLimits size (validatorAfter context size messages) := by
  apply Runs.invariant_of_kept
  · exact ⟨rfl, rfl, rfl⟩
  · exact fun _ message same => cachedCall_sameLimits same message

theorem lookup_evict {id : MessageId}
    (found : validator.evict.validationCache.lookup id = some result) :
    validator.validationCache.lookup id = some result := by
  unfold MessageValidator.evict at found
  split at found
  · split at found
    · exact found
    · dsimp only at found
      rw [HashMap.lookup_erase_eq] at found
      split at found
      · cases found
      · exact found
  · exact found

theorem lookup_validatorAfter {id : MessageId} (messages : List AdicMessage)
    (found : (validatorAfter context size messages).validationCache.lookup id = some result) :
    ∃ message ∈ messages, message.id = id ∧ plainResult context message = result := by
  induction messages using List.reverseRecOn with
  | nil => cases found
  | append_singleton before message ih =>
    have same : SameLimits size (validatorAfter context size before) := validatorAfter_sameLimits before
    rw [validatorAfter_snoc, cachedCall] at found
    cases earlier : (validatorAfter context size before).validationCache.lookup message.id with
    | some cached =>
      rw [cachedCall_hit earlier] at found
      obtain ⟨source, member, sourceId, validated⟩ := ih found
      exact ⟨source, List.mem_append_left _ member, sourceId, validated⟩
    | none =>
      rw [cachedCall_miss earlier, validateMessage_sameLimits same] at found
      dsimp only [MessageValidator.store] at found
      rw [HashMap.lookup_insert_eq] at found
      split at found
      · next equal =>
        cases found
        exact ⟨message, by simp, equal.symm, rfl⟩
      · obtain ⟨source, member, sourceId, validated⟩ := ih (lookup_evict found)
        exact ⟨source, List.mem_append_left _ member, sourceId, validated⟩

theorem cachedAgrees_of_alike {messages : List AdicMessage} (alike : SameIdsValidateAlike context messages) :
    CachedAgrees context size messages := by
  intro before message part
  have same : SameLimits size (validatorAfter context size before) := validatorAfter_sameLimits before
  rw [validateMessage_sameLimits same]
  cases found : (validatorAfter context size before).validationCache.lookup message.id with
  | none =>
    rw [cachedCall_miss found]
    exact validateMessage_sameLimits same message
  | some result =>
    rw [cachedCall_hit found]
    obtain ⟨source, member, sourceId, validated⟩ := lookup_validatorAfter before found
    have sourceMember : source ∈ messages := part.subset (List.mem_append_left _ member)
    have messageMember : message ∈ messages := part.subset (by simp)
    rw [← validated]
    exact alike source sourceMember message messageMember sourceId

structure Filled (context : ValidationContext) (before : List AdicMessage) (validator : MessageValidator) : Prop where
  count : validator.validationCache.keys.length ≤ before.length
  results : ∀ message ∈ before, validator.validationCache.lookup message.id = some (plainResult context message)

theorem cachedCall_filled {before : List AdicMessage} (same : SameLimits size validator)
    (filled : Filled context before validator) (room : before.length < size)
    (agrees : (validator.validateMessageCached context message).1 = validator.validateMessage context message) :
    Filled context (before ++ [message]) (cachedCall context validator message) := by
  rw [validateMessage_sameLimits same] at agrees
  unfold cachedCall
  cases found : validator.validationCache.lookup message.id with
  | some result =>
    rw [cachedCall_hit found] at agrees ⊢
    constructor
    · have count := filled.count
      simp only [List.length_append, List.length_singleton]
      omega
    · intro other member
      rcases List.mem_append.mp member with member | member
      · exact filled.results other member
      · rw [List.mem_singleton.mp member, found, ← agrees]
  | none =>
    have kept : validator.evict = validator := by
      have count := filled.count
      apply if_neg
      rw [same.cache]
      omega
    rw [cachedCall_miss found, kept, validateMessage_sameLimits same]
    dsimp only [MessageValidator.store]
    constructor
    · have count := filled.count
      have fresh : message.id ∉ validator.validationCache.keys := AList.lookup_eq_none.mp found
      rw [AList.keys_insert, List.erase_of_not_mem fresh]
      simp only [List.length_append, List.length_cons]
      omega
    · intro other member
      rw [HashMap.lookup_insert_eq]
      split
      · next equal =>
        rcases List.mem_append.mp member with member | member
        · have earlier := filled.results other member
          rw [equal, found] at earlier
          cases earlier
        · rw [List.mem_singleton.mp member]
      · next different =>
        rcases List.mem_append.mp member with member | member
        · exact filled.results other member
        · exact absurd (congrArg AdicMessage.id (List.mem_singleton.mp member)) different

theorem validatorAfter_filled {messages : List AdicMessage} (agrees : CachedAgrees context messages.length messages) :
    ∀ before, before <+: messages → Filled context before (validatorAfter context messages.length before) := by
  refine Runs.forall_prefixes ⟨Nat.le_refl 0, by simp⟩ ?_
  intro before message part filled
  have room : before.length < messages.length := by
    have bound := part.length_le
    simp only [List.length_append, List.length_singleton] at bound
    omega
  have stepped := cachedCall_filled (validatorAfter_sameLimits before) filled room (agrees before message part)
  rw [validatorAfter_snoc]
  exact stepped

/-- The cached validation agrees with the plain one exactly if messages with one id validate alike. -/
theorem cached_validation_iff (context : ValidationContext) (messages : List AdicMessage) :
    (∀ size, CachedAgrees context size messages) ↔ SameIdsValidateAlike context messages := by
  constructor
  · intro agrees first firstMember second secondMember same
    have filled := validatorAfter_filled (agrees messages.length) messages (List.prefix_refl messages)
    have firstFound := filled.results first firstMember
    have secondFound := filled.results second secondMember
    rw [same, secondFound] at firstFound
    exact (Option.some.inj firstFound).symm
  · intro alike size
    exact cachedAgrees_of_alike alike

def oneSignature : ValidationContext where
  now := ⟨0, 0⟩
  timestampText := fun _ => ""
  order := byKey
  toString := fun _ => ""
  blake3 := fun _ => .replicate 0
  ed25519 := ⟨Bytes32, some, fun _ _ signature => signature = List.replicate 64 1⟩

def signedMessage : AdicMessage where
  id := ⟨.replicate 0⟩
  parents := [⟨.replicate 1⟩]
  features := ⟨[⟨⟨0⟩, ⟨[1], 3⟩⟩]⟩
  metadata := .new ⟨0, 0⟩
  proposerPk := ⟨.replicate 2⟩
  signature := ⟨List.replicate 64 1⟩
  transfer := none
  data := [1]

def unsignedMessage : AdicMessage := { signedMessage with signature := .empty }

theorem cached_validation_unsigned : ¬ ∀ context size messages, CachedAgrees context size messages := by
  intro agrees
  have returned := agrees oneSignature 10000 [signedMessage, unsignedMessage] [signedMessage] unsignedMessage
    (List.prefix_refl _)
  have accepted : ((validatorAfter oneSignature 10000 [signedMessage]).validateMessageCached oneSignature
      unsignedMessage).1.isValid = true := by
    decide +kernel
  have refused : ((validatorAfter oneSignature 10000 [signedMessage]).validateMessage oneSignature
      unsignedMessage).isValid = false := by
    decide +kernel
  rw [returned, refused] at accepted
  cases accepted

end AdicProof.Consensus
