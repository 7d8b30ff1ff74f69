import AdicCore.Economics.Amounts
import AdicCore.Library.ByteKeys
import AdicCore.Pouw.ThresholdRobustness
import AdicCore.Vrf.Service
import Mathlib.Data.List.Sort

open AdicModel.Crypto AdicModel.Economics AdicModel.Vrf HashMap

namespace AdicModel.Pouw

/-- The quorum configuration is part of the selection. -/
structure CommitteeCertConfig where
  requireSignatures : Bool
  minCommitteeReputation : ℚ

/-- The axis statistics, which nothing reads, are left out. -/
structure ODCCommitteeCert where
  epochId : UInt64
  randomness : Bytes32
  members : List PublicKey
  thresholdSignature : Option BLSSignature

/-- `vrfError` and `quorumError` end in their cause, `insufficientReputation` in its numbers. -/
inductive CertificateError where
  | vrfError (text : String) (cause : VRFError)
  | quorumError (text cause : String)
  | insufficientReputation (memberText : String) (reputation minimum : ℚ)
  | blsError (error : BLSError)
deriving DecidableEq

structure EligibleNode where
  publicKey : PublicKey
  reputation : ℚ
  axisBalls : List (List UInt8)

/-- The selection returns the keys of its members, and may read the network metadata. `dkgComplete` tells the epochs
    with keys. -/
structure CommitteeCertGenerator where
  vrfService : VRFService
  selectCommittee : UInt64 → List EligibleNode → Except String (List PublicKey)
  reputation : PublicKey → ℚ
  dkgComplete : Option (UInt64 → Bool)
  config : CommitteeCertConfig

section

variable (blake3 : List UInt8 → Bytes32)

def memberBytes (members : List PublicKey) : List UInt8 := members.flatMap fun member => member.asBytes.bytes

def messageData (epochId : UInt64) (randomness : Bytes32) (members : List PublicKey) : List UInt8 :=
  toLeBytes epochId.toNat ++ randomness.bytes ++ memberBytes members

def certRequestId (epochId : UInt64) (randomness : Bytes32) (members : List PublicKey) : SigningRequestId :=
  .new "committee-cert" epochId (blake3 (messageData epochId randomness members)).bytes

namespace CommitteeCertGenerator

variable {PublicKeySet Signature SignatureShare : Type}

def requestSignatures (now : Nat) (epochId : UInt64) (randomness : Bytes32) (members : List PublicKey)
    (coordinator : BLSCoordinator PublicKeySet) : Except SigningError SigningRequest × BLSCoordinator PublicKeySet :=
  coordinator.initiateSigning now (certRequestId blake3 epochId randomness members)
    (messageData epochId randomness members) dstCommitteeCert members

def checkReputations (generator : CommitteeCertGenerator) : List PublicKey → Except CertificateError Unit
  | [] => .ok ()
  | member :: members =>
    if generator.reputation member < generator.config.minCommitteeReputation then
      .error (.insufficientReputation (hexEncode (member.asBytes.bytes.take 8)) (generator.reputation member)
        generator.config.minCommitteeReputation)
    else generator.checkReputations members

def checkThreshold (generator : CommitteeCertGenerator) (epochId : UInt64) (members : List PublicKey) :
    Except CertificateError Unit :=
  match generator.dkgComplete with
  | none => .ok ()
  | some isComplete =>
    if isComplete epochId then .ok ()
    else
      match ThresholdConfig.new members.length (members.length * 2 / 3 + 1) with
      | .ok _ => .ok ()
      | .error error => .error (.blsError error)

def selectMembers (generator : CommitteeCertGenerator) (epochId : UInt64) (eligibleNodes : List EligibleNode) :
    Except CertificateError (Bytes32 × List PublicKey) := do
  match generator.vrfService.getCanonicalRandomness epochId with
  | .error error => throw (.vrfError "VRF randomness not available: " error)
  | .ok randomness =>
    match generator.selectCommittee epochId eligibleNodes with
    | .error error => throw (.quorumError "Committee selection failed: " error)
    | .ok members =>
      generator.checkReputations members
      generator.checkThreshold epochId members
      return (randomness, members)

/-- A request that fails leaves the certificate without a signature too. -/
def generateCertificate (now : Nat) (epochId : UInt64) (eligibleNodes : List EligibleNode)
    (coordinator : Option (BLSCoordinator PublicKeySet)) (generator : CommitteeCertGenerator) :
    Except CertificateError ODCCommitteeCert × Option (BLSCoordinator PublicKeySet) :=
  match generator.selectMembers epochId eligibleNodes with
  | .error error => (.error error, coordinator)
  | .ok (randomness, members) =>
    let cert : ODCCommitteeCert := ⟨epochId, randomness, members, none⟩
    if generator.config.requireSignatures then
      (.ok cert, coordinator.map fun signing => (requestSignatures blake3 now epochId randomness members signing).2)
    else (.ok cert, coordinator)

/-- A signature that is present is not looked at. -/
def verifyCertificate (cert : ODCCommitteeCert) (generator : CommitteeCertGenerator) : Except CertificateError Bool :=
  match generator.vrfService.getCanonicalRandomness cert.epochId with
  | .error error => .error (.vrfError "VRF verification failed: " error)
  | .ok expectedRandomness => .ok (cert.randomness = expectedRandomness)

def sortedMembers (members : List PublicKey) : List PublicKey :=
  members.insertionSort fun first second => first.asBytes.bytes ≤ second.asBytes.bytes

def reconstructCertMessage (cert : ODCCommitteeCert) : List UInt8 :=
  (blake3 (toLeBytes cert.epochId.toNat ++ cert.randomness.bytes ++ memberBytes (sortedMembers cert.members))).bytes

variable (crypto : ThresholdCrypto PublicKeySet Signature SignatureShare)

def verifyWithPublicKeySet (cert : ODCCommitteeCert) (publicKeySet : PublicKeySet)
    (generator : CommitteeCertGenerator) : Except CertificateError Bool :=
  match generator.verifyCertificate cert with
  | .ok true =>
    match cert.thresholdSignature with
    | none => .ok true
    | some signature =>
      match signature.toTcSignature crypto with
      | .error error => .error (.blsError error)
      | .ok decoded =>
        .ok (crypto.verify publicKeySet decoded (prefixedMessage dstCommitteeCert (reconstructCertMessage blake3 cert)))
  | _ => .ok false

def addSignature (cert : ODCCommitteeCert) (signature : BLSSignature) : ODCCommitteeCert :=
  { cert with thresholdSignature := some signature }

end CommitteeCertGenerator

end

end AdicModel.Pouw

open AdicModel AdicModel.Crypto AdicModel.Economics AdicModel.Pouw AdicModel.Pouw.CommitteeCertGenerator HashMap

namespace AdicProof.Pouw

theorem toLeBytes_injective {first second : UInt64} (same : toLeBytes first.toNat = toLeBytes second.toNat) :
    first = second := by
  rw [Economics.toLeBytes_inj] at same
  have boundFirst := first.toNat_lt
  have boundSecond := second.toNat_lt
  apply UInt64.toNat_inj.mp
  omega

theorem bytes_injective : Function.Injective Bytes32.bytes := by
  intro first second same
  rcases first with ⟨bytes, size⟩
  rcases second with ⟨bytes', size'⟩
  cases same
  rfl

theorem keyBytes_injective {first second : PublicKey} (same : first.asBytes.bytes = second.asBytes.bytes) :
    first = second := by
  rcases first with ⟨bytes⟩
  rcases second with ⟨bytes'⟩
  rw [show bytes = bytes' from bytes_injective same]

theorem memberBytes_injective : Function.Injective memberBytes := by
  apply ByteKeys.records_injective (show 0 < 32 by decide) fun member => member.asBytes.size
  intro first second same
  exact keyBytes_injective same

def certInput (cert : ODCCommitteeCert) : List UInt8 :=
  toLeBytes cert.epochId.toNat ++ cert.randomness.bytes ++ memberBytes (sortedMembers cert.members)

structure SameContent (cert other : ODCCommitteeCert) : Prop where
  epochId : cert.epochId = other.epochId
  randomness : cert.randomness = other.randomness
  members : cert.members.Perm other.members

theorem certInput_injective {cert other : ODCCommitteeCert} (same : certInput cert = certInput other) :
    SameContent cert other := by
  have parts : (toLeBytes cert.epochId.toNat ++ cert.randomness.bytes).length =
      (toLeBytes other.epochId.toNat ++ other.randomness.bytes).length := by
    rw [List.length_append, List.length_append, Economics.toLeBytes_length, Economics.toLeBytes_length, cert.randomness.size,
      other.randomness.size]
  obtain ⟨fixed, members⟩ := List.append_inj same parts
  obtain ⟨epochs, randomness⟩ := List.append_inj fixed ((Economics.toLeBytes_length _).trans (Economics.toLeBytes_length _).symm)
  refine ⟨toLeBytes_injective epochs, ?_, ?_⟩
  · exact bytes_injective randomness
  · calc
      cert.members.Perm (sortedMembers cert.members) := (List.perm_insertionSort _ _).symm
      _ = sortedMembers other.members := memberBytes_injective members
      _ |>.Perm other.members := List.perm_insertionSort _ _

section

variable {PublicKeySet Signature SignatureShare : Type} {crypto : ThresholdCrypto PublicKeySet Signature SignatureShare}
  {keySet : PublicKeySet} {threshold : Nat} (blake3 : List UInt8 → Bytes32)

def certMessage (cert : ODCCommitteeCert) : List UInt8 :=
  prefixedMessage dstCommitteeCert (reconstructCertMessage blake3 cert)

def Collide (cert other : ODCCommitteeCert) : Prop :=
  certInput cert ≠ certInput other ∧ blake3 (certInput cert) = blake3 (certInput other)

def SignedOver (scheme : IdealScheme crypto keySet threshold) (cert : ODCCommitteeCert) : Prop :=
  ∃ signature, cert.thresholdSignature = some signature ∧
    signature.toTcSignature crypto = .ok (scheme.signature (certMessage blake3 cert)) ∧
      ∀ other, crypto.verify keySet (scheme.signature (certMessage blake3 cert)) (certMessage blake3 other) = true →
        SameContent cert other ∨ Collide blake3 cert other

section

variable {blake3} {scheme : IdealScheme crypto keySet threshold} {generator verifier : CommitteeCertGenerator}
  {cert : ODCCommitteeCert}

theorem certMessage_same {other : ODCCommitteeCert} (same : certMessage blake3 cert = certMessage blake3 other) :
    SameContent cert other ∨ Collide blake3 cert other := by
  have hashes : blake3 (certInput cert) = blake3 (certInput other) :=
    bytes_injective (List.append_cancel_left same)
  by_cases inputs : certInput cert = certInput other
  · exact .inl (certInput_injective inputs)
  · exact .inr ⟨inputs, hashes⟩

theorem verified_signature {signature : BLSSignature} (signed : cert.thresholdSignature = some signature)
    (verified : verifyWithPublicKeySet blake3 crypto cert keySet verifier = .ok true) :
    ValidSignature crypto keySet (certMessage blake3 cert) signature := by
  unfold verifyWithPublicKeySet at verified
  split at verified
  · rw [signed] at verified
    dsimp only at verified
    split at verified
    · cases verified
    next decoded isDecoded => exact ⟨decoded, isDecoded, Except.ok.inj verified⟩
  · cases verified

theorem verified_signedOver (scheme : IdealScheme crypto keySet threshold)
    (signed : cert.thresholdSignature.isSome = true)
    (verified : verifyWithPublicKeySet blake3 crypto cert keySet verifier = .ok true) :
    SignedOver blake3 scheme cert := by
  obtain ⟨signature, isSignature⟩ := Option.isSome_iff_exists.mp signed
  obtain ⟨decoded, isDecoded, valid⟩ := verified_signature isSignature verified
  have isUnique := scheme.unique _ decoded valid
  refine ⟨signature, isSignature, isUnique ▸ isDecoded, fun other otherVerified => ?_⟩
  exact certMessage_same ((scheme.verify_iff _ _).mp otherVerified)

theorem signedMessage_ne_certMessage {epochId : UInt64} {randomness : Bytes32} {members : List PublicKey} {now : Nat}
    {coordinator : BLSCoordinator PublicKeySet} {request : SigningRequest} (cert : ODCCommitteeCert)
    (requested : (requestSignatures blake3 now epochId randomness members coordinator).1 = .ok request) :
    signedMessage request ≠ certMessage blake3 cert := by
  have fields : request.dst = dstCommitteeCert ∧ request.message = messageData epochId randomness members := by
    unfold requestSignatures BLSCoordinator.initiateSigning at requested
    split at requested
    · cases requested
    · cases requested
      exact ⟨rfl, rfl⟩
  intro same
  unfold signedMessage certMessage prefixedMessage at same
  rw [fields.1, fields.2] at same
  have lengths := congrArg List.length (List.append_cancel_left same)
  have hashed : (reconstructCertMessage blake3 cert).length = 32 := Bytes32.size _
  have fixed := Economics.toLeBytes_length epochId.toNat
  have random := randomness.size
  unfold messageData at lengths
  rw [List.length_append, List.length_append] at lengths
  omega

theorem verified_unsigned (unsigned : cert.thresholdSignature = none)
    (canonical : verifier.vrfService.getCanonicalRandomness cert.epochId = .ok cert.randomness) :
    verifyWithPublicKeySet blake3 crypto cert keySet verifier = .ok true := by
  have certified : verifier.verifyCertificate cert = .ok true := by
    unfold verifyCertificate
    rw [canonical]
    exact congrArg Except.ok (decide_eq_true rfl)
  unfold verifyWithPublicKeySet
  rw [certified, unsigned]

theorem verified_canonical (verified : verifyWithPublicKeySet blake3 crypto cert keySet verifier = .ok true) :
    verifier.vrfService.getCanonicalRandomness cert.epochId = .ok cert.randomness := by
  unfold verifyWithPublicKeySet at verified
  split at verified
  next certified =>
    unfold verifyCertificate at certified
    split at certified
    · cases certified
    next randomness isRandomness =>
      rw [isRandomness, of_decide_eq_true (Except.ok.inj certified)]
  · cases verified

end

/-- No certificate verifies by its signature. What verifies is signed exactly if it has one or cannot verify. -/
theorem certificate_signatures (scheme : IdealScheme crypto keySet threshold)
    (generator verifier : CommitteeCertGenerator) :
    (∀ now epochId eligibleNodes (coordinator : BLSCoordinator PublicKeySet) cert request signature,
      (generateCertificate blake3 now epochId eligibleNodes (some coordinator) generator).1 = .ok cert →
        (requestSignatures blake3 now cert.epochId cert.randomness cert.members coordinator).1 = .ok request →
          ValidSignature crypto keySet (signedMessage request) signature →
            verifyWithPublicKeySet blake3 crypto (addSignature cert signature) keySet verifier ≠ .ok true) ∧
      ∀ cert : ODCCommitteeCert,
        (verifyWithPublicKeySet blake3 crypto cert keySet verifier = .ok true → SignedOver blake3 scheme cert) ↔
          cert.thresholdSignature.isSome = true ∨
            verifier.vrfService.getCanonicalRandomness cert.epochId ≠ .ok cert.randomness := by
  constructor
  · intro now epochId eligibleNodes coordinator cert request signature _ requested valid verified
    obtain ⟨decoded, isDecoded, isValid⟩ := valid
    have checked : ValidSignature crypto keySet (certMessage blake3 (addSignature cert signature)) signature :=
      verified_signature rfl verified
    obtain ⟨other, isOther, isValid'⟩ := checked
    rw [isDecoded] at isOther
    cases isOther
    rw [scheme.unique _ decoded isValid, scheme.verify_iff] at isValid'
    exact signedMessage_ne_certMessage _ requested isValid'
  · intro cert
    constructor
    · intro sound
      by_contra neither
      rw [not_or, not_not] at neither
      have unsigned : cert.thresholdSignature = none := by simpa using neither.1
      obtain ⟨signature, isSignature, _⟩ := sound (verified_unsigned unsigned neither.2)
      rw [unsigned] at isSignature
      cases isSignature
    · rintro (signed | wrong) verified
      · exact verified_signedOver scheme signed verified
      · exact absurd (verified_canonical verified) wrong

section

def lengthHash (bytes : List UInt8) : Bytes32 := Bytes32.replicate (UInt8.ofNat bytes.length)

def pairGenerator : CommitteeCertGenerator where
  vrfService :=
    { Vrf.VRFService.new Vrf.VRFConfig.default with
      states := (∅ : Table UInt64 Vrf.VRFState).insert 1 ((Vrf.VRFState.new 1).finalize (Bytes32.replicate 5)) }
  selectCommittee _ _ := .ok [signerKey 1, signerKey 2]
  reputation _ := 60
  dkgComplete := none
  config := ⟨true, 50⟩

def pairCert : ODCCommitteeCert := ⟨1, Bytes32.replicate 5, [signerKey 1, signerKey 2], none⟩

def pairRequest : SigningRequest :=
  ⟨certRequestId lengthHash 1 (Bytes32.replicate 5) pairCert.members,
    messageData 1 (Bytes32.replicate 5) pairCert.members, dstCommitteeCert, pairCert.members, 2, 60⟩

def pairSignature : BLSSignature := .fromTcSignature echoCrypto (echoScheme.signature (signedMessage pairRequest))

theorem pairSignature_valid : ValidSignature echoCrypto () (signedMessage pairRequest) pairSignature :=
  ⟨_, echoScheme.decode_encode _, (echoScheme.verify_iff _ _).mpr rfl⟩

theorem certificate_signatures_pair :
    verifyWithPublicKeySet lengthHash echoCrypto (addSignature pairCert pairSignature) () pairGenerator ≠ .ok true :=
  (certificate_signatures lengthHash echoScheme pairGenerator pairGenerator).1 0 1 [] signingStart pairCert pairRequest
    pairSignature rfl rfl pairSignature_valid

/-- A certificate with its committee's signature is rejected, and without any signature it is accepted. -/
theorem signed_certificate_rejected :
    (generateCertificate lengthHash 0 1 [] (some signingStart) pairGenerator).1 = .ok pairCert ∧
      (requestSignatures lengthHash 0 1 pairCert.randomness pairCert.members signingStart).1 = .ok pairRequest ∧
        ValidSignature echoCrypto () (signedMessage pairRequest) pairSignature ∧
          verifyWithPublicKeySet lengthHash echoCrypto (addSignature pairCert pairSignature) () pairGenerator =
            .ok false ∧
            verifyWithPublicKeySet lengthHash echoCrypto pairCert () pairGenerator = .ok true := by
  refine ⟨rfl, rfl, pairSignature_valid, ?_, rfl⟩
  decide +kernel

end

end

end AdicProof.Pouw
