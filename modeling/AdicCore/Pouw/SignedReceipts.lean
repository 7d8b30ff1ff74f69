import AdicCore.Pouw.CertificateSigning
import AdicCore.Pouw.ReceiptValidator

open AdicModel AdicModel.Crypto AdicModel.Economics AdicModel.Pouw AdicModel.Pouw.ReceiptValidator

namespace AdicProof.Pouw

structure SignedPart where
  hookId : Hash
  epochId : UInt64
  outputs : List (Hash × PublicKey)
  refusals : List (UInt64 × PublicKey)

def signedPart (receipt : PoUWReceipt) : SignedPart where
  hookId := receipt.hookId
  epochId := receipt.epochId
  outputs := receipt.accepted.map fun acceptance => (acceptance.outputHash, acceptance.workerPk)
  refusals := receipt.rejected.map fun rejection => (rejection.chunkId, rejection.workerPk)

def outputBytes (output : Hash × PublicKey) : List UInt8 := output.1.bytes ++ output.2.asBytes.bytes

def refusalBytes (refusal : UInt64 × PublicKey) : List UInt8 :=
  toLeBytes refusal.1.toNat ++ refusal.2.asBytes.bytes

theorem outputBytes_length (output : Hash × PublicKey) : (outputBytes output).length = 64 := by
  unfold outputBytes
  rw [List.length_append, output.1.size, output.2.asBytes.size]

theorem refusalBytes_length (refusal : UInt64 × PublicKey) : (refusalBytes refusal).length = 40 := by
  unfold refusalBytes
  rw [List.length_append, Economics.toLeBytes_length, refusal.2.asBytes.size]

theorem outputBytes_injective : Function.Injective outputBytes := by
  intro first second same
  obtain ⟨hashes, workers⟩ := List.append_inj same (first.1.size.trans second.1.size.symm)
  exact Prod.ext (bytes_injective hashes) (keyBytes_injective workers)

theorem refusalBytes_injective : Function.Injective refusalBytes := by
  intro first second same
  obtain ⟨chunks, workers⟩ :=
    List.append_inj same ((Economics.toLeBytes_length _).trans (Economics.toLeBytes_length _).symm)
  exact Prod.ext (toLeBytes_injective chunks) (keyBytes_injective workers)

theorem countBytes_length (count : Nat) : (countBytes count).length = 4 := by
  unfold countBytes
  rw [List.length_take, Economics.toLeBytes_length]
  rfl

theorem countBytes_mod {first second : Nat} (same : countBytes first = countBytes second) :
    first % 2 ^ 32 = second % 2 ^ 32 := by
  have digit : ∀ place < 4, (first : Int) / 256 ^ place % 256 = (second : Int) / 256 ^ place % 256 := by
    intro place inside
    have bytes := congrArg (fun bytes => bytes[place]?) same
    dsimp only [countBytes] at bytes
    rw [List.getElem?_take_of_lt inside, List.getElem?_take_of_lt inside,
      Economics.toLeBytes_digit _ (show place < 8 by omega), Economics.toLeBytes_digit _ (show place < 8 by omega)] at bytes
    have digits := congrArg UInt8.toNat (Option.some.inj bytes)
    rw [UInt8.toNat_ofNat', UInt8.toNat_ofNat'] at digits
    omega
  have first0 := digit 0 (by decide)
  have first1 := digit 1 (by decide)
  have first2 := digit 2 (by decide)
  have first3 := digit 3 (by decide)
  norm_num at first0 first1 first2 first3
  omega

section

variable {receipt other : PoUWReceipt}

theorem message_eq (receipt : PoUWReceipt) :
    buildReceiptMessage receipt =
      receipt.hookId.bytes ++ (toLeBytes receipt.epochId.toNat ++ (countBytes receipt.accepted.length ++
        (countBytes receipt.rejected.length ++
          ((signedPart receipt).outputs.flatMap outputBytes ++ (signedPart receipt).refusals.flatMap refusalBytes)))) := by
  unfold buildReceiptMessage signedPart outputBytes refusalBytes
  simp only [List.append_assoc, List.flatMap_map]

theorem message_counts (same : buildReceiptMessage receipt = buildReceiptMessage other)
    (near : receipt.accepted.length < other.accepted.length + 5 * 2 ^ 32)
    (near' : other.accepted.length < receipt.accepted.length + 5 * 2 ^ 32) :
    receipt.accepted.length = other.accepted.length := by
  rw [message_eq, message_eq] at same
  obtain ⟨_, same⟩ := List.append_inj same (receipt.hookId.size.trans other.hookId.size.symm)
  obtain ⟨_, same⟩ := List.append_inj same ((Economics.toLeBytes_length _).trans (Economics.toLeBytes_length _).symm)
  obtain ⟨accepted, same⟩ := List.append_inj same ((countBytes_length _).trans (countBytes_length _).symm)
  obtain ⟨rejected, same⟩ := List.append_inj same ((countBytes_length _).trans (countBytes_length _).symm)
  have acceptedMod := countBytes_mod accepted
  have rejectedMod := countBytes_mod rejected
  have lengths := congrArg List.length same
  rw [List.length_append, List.length_append, ByteKeys.records_length outputBytes_length,
    ByteKeys.records_length outputBytes_length, ByteKeys.records_length refusalBytes_length,
    ByteKeys.records_length refusalBytes_length] at lengths
  simp only [signedPart, List.length_map] at lengths
  omega

theorem message_injective (same : buildReceiptMessage receipt = buildReceiptMessage other)
    (counts : receipt.accepted.length = other.accepted.length) : signedPart receipt = signedPart other := by
  rw [message_eq, message_eq] at same
  obtain ⟨hooks, same⟩ := List.append_inj same (receipt.hookId.size.trans other.hookId.size.symm)
  obtain ⟨epochs, same⟩ :=
    List.append_inj same ((Economics.toLeBytes_length _).trans (Economics.toLeBytes_length _).symm)
  obtain ⟨_, same⟩ := List.append_inj same ((countBytes_length _).trans (countBytes_length _).symm)
  obtain ⟨_, same⟩ := List.append_inj same ((countBytes_length _).trans (countBytes_length _).symm)
  have lengths : ((signedPart receipt).outputs.flatMap outputBytes).length =
      ((signedPart other).outputs.flatMap outputBytes).length := by
    rw [ByteKeys.records_length outputBytes_length, ByteKeys.records_length outputBytes_length]
    simp only [signedPart, List.length_map, counts]
  obtain ⟨accepted, rejected⟩ := List.append_inj same lengths
  have outputs := ByteKeys.records_injective (by decide) outputBytes_length outputBytes_injective accepted
  have refusals := ByteKeys.records_injective (by decide) refusalBytes_length refusalBytes_injective rejected
  have hookIds : receipt.hookId = other.hookId := bytes_injective hooks
  have epochIds : receipt.epochId = other.epochId := toLeBytes_injective epochs
  calc
    signedPart receipt = ⟨receipt.hookId, receipt.epochId, (signedPart receipt).outputs, (signedPart receipt).refusals⟩ := rfl
    _ = ⟨other.hookId, other.epochId, (signedPart other).outputs, (signedPart other).refusals⟩ := by
      rw [hookIds, epochIds, outputs, refusals]
    _ = signedPart other := rfl

theorem message_of_signedPart (same : signedPart receipt = signedPart other) :
    buildReceiptMessage receipt = buildReceiptMessage other := by
  have hooks : receipt.hookId = other.hookId := congrArg SignedPart.hookId same
  have epochs : receipt.epochId = other.epochId := congrArg SignedPart.epochId same
  have accepted : receipt.accepted.length = other.accepted.length := by
    simpa [signedPart] using congrArg (fun part => part.outputs.length) same
  have rejected : receipt.rejected.length = other.rejected.length := by
    simpa [signedPart] using congrArg (fun part => part.refusals.length) same
  rw [message_eq, message_eq, hooks, epochs, accepted, rejected, same]

theorem message_iff (near : receipt.accepted.length < other.accepted.length + 5 * 2 ^ 32)
    (near' : other.accepted.length < receipt.accepted.length + 5 * 2 ^ 32) :
    buildReceiptMessage receipt = buildReceiptMessage other ↔ signedPart receipt = signedPart other :=
  ⟨fun same => message_injective same (message_counts same near near'), message_of_signedPart⟩

end

section

variable {PublicKeySet Signature SignatureShare : Type} {env : Environment PublicKeySet Signature SignatureShare}

theorem receipt_verified {validator : ReceiptValidator} {receipt : PoUWReceipt} {keySet : PublicKeySet}
    (decodes : env.decodeKeySet receipt.aggPk = .ok keySet)
    (verified : validator.verifyBlsSignature env receipt = .ok true) :
    ∃ signature decoded, receipt.sigQk = some signature ∧ signature.toTcSignature env.crypto = .ok decoded ∧
      env.crypto.verify keySet decoded (prefixedMessage dstPouwReceipt (buildReceiptMessage receipt)) = true := by
  unfold ReceiptValidator.verifyBlsSignature at verified
  split at verified
  · split at verified <;> cases verified
  · split at verified
    · split at verified <;> cases verified
    next signature isSignature =>
      split at verified
      · cases verified
      · rw [decodes] at verified
        dsimp only at verified
        split at verified
        next valid =>
          unfold verifySignature at valid
          split at valid
          · cases valid
          next decoded isDecoded => exact ⟨signature, decoded, isSignature, isDecoded, Except.ok.inj valid⟩
        · cases verified
        · cases verified

theorem receipts_one_message {keySet : PublicKeySet} {threshold : Nat} (scheme : IdealScheme env.crypto keySet threshold)
    {validator : ReceiptValidator} {receipt other : PoUWReceipt} (same : receipt.sigQk = other.sigQk)
    (decodes : env.decodeKeySet receipt.aggPk = .ok keySet) (decodes' : env.decodeKeySet other.aggPk = .ok keySet)
    (verified : validator.verifyBlsSignature env receipt = .ok true)
    (verified' : validator.verifyBlsSignature env other = .ok true) :
    buildReceiptMessage receipt = buildReceiptMessage other := by
  obtain ⟨signature, decoded, isSignature, isDecoded, valid⟩ := receipt_verified decodes verified
  obtain ⟨signature', decoded', isSignature', isDecoded', valid'⟩ := receipt_verified decodes' verified'
  rw [same, isSignature'] at isSignature
  cases isSignature
  rw [isDecoded] at isDecoded'
  cases isDecoded'
  have isUnique := scheme.unique _ decoded valid
  rw [isUnique, scheme.verify_iff] at valid'
  exact List.append_cancel_left valid'

end

/-- The message tells hook, epoch, outputs and refused chunks, and no two receipts that differ there share a
    signature. -/
theorem receipt_message_binds (receipt other : PoUWReceipt)
    (near : receipt.accepted.length < other.accepted.length + 5 * 2 ^ 32)
    (near' : other.accepted.length < receipt.accepted.length + 5 * 2 ^ 32) :
    (buildReceiptMessage receipt = buildReceiptMessage other ↔ signedPart receipt = signedPart other) ∧
      ∀ (PublicKeySet Signature SignatureShare : Type) (env : Environment PublicKeySet Signature SignatureShare)
        (keySet : PublicKeySet) (threshold : Nat), IdealScheme env.crypto keySet threshold →
          ∀ validator : ReceiptValidator, receipt.sigQk = other.sigQk →
            env.decodeKeySet receipt.aggPk = .ok keySet → env.decodeKeySet other.aggPk = .ok keySet →
              validator.verifyBlsSignature env receipt = .ok true → validator.verifyBlsSignature env other = .ok true →
                signedPart receipt = signedPart other := by
  refine ⟨message_iff near near', fun _ _ _ env keySet threshold scheme validator same decodes decodes' verified verified' => ?_⟩
  exact (message_iff near near').mp (receipts_one_message scheme same decodes decodes' verified verified')

section

def earlierReceipt : PoUWReceipt where
  version := 1
  hookId := Bytes32.replicate 3
  epochId := 7
  receiptSeq := 0
  prevReceiptHash := Bytes32.replicate 0
  accepted := [⟨0, signerKey 1, Bytes32.replicate 9⟩]
  rejected := [⟨1, signerKey 2, "late"⟩]
  aggPk := [1]
  sigQk := none

def laterReceipt : PoUWReceipt :=
  { earlierReceipt with
    version := 2
    receiptSeq := 1
    prevReceiptHash := Bytes32.replicate 5
    accepted := [⟨4, signerKey 1, Bytes32.replicate 9⟩]
    rejected := [⟨1, signerKey 2, "wrong output"⟩] }

theorem receipt_message_binds_later :
    buildReceiptMessage earlierReceipt = buildReceiptMessage laterReceipt ↔
      signedPart earlierReceipt = signedPart laterReceipt :=
  (receipt_message_binds earlierReceipt laterReceipt (by decide) (by decide)).1

def receiptSignature (receipt : PoUWReceipt) : BLSSignature :=
  .fromTcSignature echoCrypto (echoScheme.signature (prefixedMessage dstPouwReceipt (buildReceiptMessage receipt)))

def sealed (receipt : PoUWReceipt) : PoUWReceipt := { receipt with sigQk := some (receiptSignature earlierReceipt) }

/-- One signature verifies two receipts with other versions, numbers, predecessors, chunks and reasons. -/
theorem receipts_share_signature :
    buildReceiptMessage (sealed earlierReceipt) = buildReceiptMessage (sealed laterReceipt) ∧
      (sealed earlierReceipt).sigQk = (sealed laterReceipt).sigQk ∧
      ((ReceiptValidator.new 5).withBlsVerification true).verifyBlsSignature
        ⟨fun _ => Bytes32.replicate 0, fun _ => .ok (), echoCrypto⟩ (sealed earlierReceipt) = .ok true ∧
      ((ReceiptValidator.new 5).withBlsVerification true).verifyBlsSignature
        ⟨fun _ => Bytes32.replicate 0, fun _ => .ok (), echoCrypto⟩ (sealed laterReceipt) = .ok true ∧
      (sealed earlierReceipt).version ≠ (sealed laterReceipt).version ∧
      (sealed earlierReceipt).receiptSeq ≠ (sealed laterReceipt).receiptSeq ∧
      (sealed earlierReceipt).prevReceiptHash ≠ (sealed laterReceipt).prevReceiptHash ∧
      (sealed earlierReceipt).accepted ≠ (sealed laterReceipt).accepted ∧
      (sealed earlierReceipt).rejected ≠ (sealed laterReceipt).rejected := by
  refine ⟨by decide +kernel, rfl, by decide +kernel, by decide +kernel, ?_⟩
  decide

end

end AdicProof.Pouw
