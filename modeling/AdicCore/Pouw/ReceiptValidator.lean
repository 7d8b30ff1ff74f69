import AdicCore.Pouw.BlsCoordinator

open AdicModel.Crypto AdicModel.Economics HashMap

namespace AdicModel.Challenges

/-- What the handling of a fraud proof reads. -/
structure FraudProof where
  id : MessageId
  evidenceCid : String

inductive ChallengeStructureError where
  | invalidProof (text : String)

def ChallengeStructureError.text : ChallengeStructureError → String
  | invalidProof text => s!"Invalid fraud proof: {text}"

def FraudProof.verifyStructure (proof : FraudProof) : Except ChallengeStructureError Unit :=
  if proof.evidenceCid = "" then .error (.invalidProof "Evidence CID is empty") else .ok ()

inductive DisputeRuling where
  | challengerWins
  | subjectWins
  | partly
  | inconclusive
deriving DecidableEq

/-- The quorum and the votes are left out. -/
structure AdjudicationResult where
  fraudProofId : MessageId
  ruling : DisputeRuling

end AdicModel.Challenges

open AdicModel.Challenges

namespace AdicModel.Pouw

structure ChunkAcceptance where
  chunkId : UInt64
  workerPk : PublicKey
  outputHash : Hash
deriving DecidableEq

structure ChunkRejection where
  chunkId : UInt64
  workerPk : PublicKey
  rejectionReason : String
deriving DecidableEq

structure PoUWReceipt where
  version : UInt8
  hookId : Hash
  epochId : UInt64
  receiptSeq : UInt32
  prevReceiptHash : Hash
  accepted : List ChunkAcceptance
  rejected : List ChunkRejection
  aggPk : List UInt8
  sigQk : Option BLSSignature
deriving DecidableEq

inductive ValidationStatus where
  | pendingChallenge
  | underDispute
  | valid
  | invalid
  | finalizedValid
deriving DecidableEq

structure ReceiptValidationResult where
  receiptId : Hash
  isValid : Bool
  fraudProofsCount : Nat
  upheldFraudProofs : List MessageId
  rejectedFraudProofs : List MessageId
  validationStatus : ValidationStatus

def dstPouwReceipt : List UInt8 := utf8 "ADIC-PoUW-RECEIPT-v1"

/-- A work result fraud proof stands for its fraud proof. -/
structure ReceiptValidator where
  challengeWindow : UInt64
  pendingProofs : Table Hash (List FraudProof)
  adjudicationResults : Table MessageId AdjudicationResult
  hasBlsSigner : Bool
  enforceBls : Bool

/-- The length of a vector is cast to 32 bits. -/
def countBytes (count : Nat) : List UInt8 := (toLeBytes count).take 4

def buildReceiptMessage (receipt : PoUWReceipt) : List UInt8 :=
  receipt.hookId.bytes ++ toLeBytes receipt.epochId.toNat ++ countBytes receipt.accepted.length ++
    countBytes receipt.rejected.length ++
    (receipt.accepted.flatMap fun acceptance => acceptance.outputHash.bytes ++ acceptance.workerPk.asBytes.bytes) ++
    receipt.rejected.flatMap fun rejection => toLeBytes rejection.chunkId.toNat ++ rejection.workerPk.asBytes.bytes

namespace ReceiptValidator

/-- The canonical hash, the decoding of a public key set, and the threshold cryptography. -/
structure Environment (PublicKeySet Signature SignatureShare : Type) where
  canonicalHash : PoUWReceipt → Hash
  decodeKeySet : List UInt8 → Except String PublicKeySet
  crypto : ThresholdCrypto PublicKeySet Signature SignatureShare

def new (challengeWindow : UInt64) : ReceiptValidator := ⟨challengeWindow, ∅, ∅, false, false⟩

def withBlsVerification (enforce : Bool) (validator : ReceiptValidator) : ReceiptValidator :=
  { validator with hasBlsSigner := true, enforceBls := enforce }

/-- The sum wraps around in release builds. -/
def windowEnd (validator : ReceiptValidator) (receipt : PoUWReceipt) : UInt64 :=
  receipt.epochId + validator.challengeWindow

variable {PublicKeySet Signature SignatureShare : Type} (env : Environment PublicKeySet Signature SignatureShare)

def proofsOf (validator : ReceiptValidator) (receiptHash : Hash) : List FraudProof :=
  (validator.pendingProofs.lookup receiptHash).getD []

/-- The escalation to arbitrators, whose failure is only logged, is left out. -/
def submitFraudProof (receipt : PoUWReceipt) (fraudProof : FraudProof) (currentEpoch : UInt64)
    (validator : ReceiptValidator) : Except String Unit × ReceiptValidator :=
  if currentEpoch > validator.windowEnd receipt then
    (.error s!"Challenge window expired for receipt at epoch {receipt.epochId}", validator)
  else
    match fraudProof.verifyStructure with
    | .error error => (.error s!"Invalid fraud proof structure: {error.text}", validator)
    | .ok _ =>
      let receiptHash := env.canonicalHash receipt
      (.ok (),
        { validator with
          pendingProofs := validator.pendingProofs.insert receiptHash (validator.proofsOf receiptHash ++ [fraudProof]) })

def verifyBlsSignature (receipt : PoUWReceipt) (validator : ReceiptValidator) : Except String Bool :=
  if validator.hasBlsSigner = false then
    if validator.enforceBls then .error "BLS signer not configured but BLS enforcement enabled" else .ok false
  else
    match receipt.sigQk with
    | none => if validator.enforceBls then .error "Receipt missing required BLS signature" else .ok false
    | some signature =>
      if receipt.aggPk = [] then .error "Receipt missing aggregated public key"
      else
        match env.decodeKeySet receipt.aggPk with
        | .error text => .error s!"Invalid aggregated public key: {text}"
        | .ok keySet =>
          match verifySignature env.crypto keySet (buildReceiptMessage receipt) dstPouwReceipt signature with
          | .ok true => .ok true
          | .ok false => .error "BLS signature verification failed"
          | .error error => .error s!"BLS signature verification error: {error.text}"

def ruled (ruling : DisputeRuling) (fraudProofs : List FraudProof) (validator : ReceiptValidator) : List MessageId :=
  (fraudProofs.filter fun proof =>
    (validator.adjudicationResults.lookup proof.id).any fun result => result.ruling = ruling).map FraudProof.id

def validationStatus (fraudProofs : List FraudProof) (upheld : List MessageId) (expired : Bool) : ValidationStatus :=
  if upheld ≠ [] then .invalid
  else if fraudProofs = [] ∧ expired then .finalizedValid
  else if fraudProofs ≠ [] ∧ upheld = [] then
    if expired then .finalizedValid else .underDispute
  else if expired = false then .pendingChallenge
  else .valid

def validateReceipt (receipt : PoUWReceipt) (currentEpoch : UInt64) (validator : ReceiptValidator) :
    ReceiptValidationResult :=
  let receiptHash := env.canonicalHash receipt
  if (validator.verifyBlsSignature env receipt).toOption = none ∧ validator.enforceBls then
    ⟨receiptHash, false, 0, [], [], .invalid⟩
  else
    let fraudProofs := validator.proofsOf receiptHash
    let upheld := validator.ruled .challengerWins fraudProofs
    let rejected := validator.ruled .subjectWins fraudProofs
    let status := validationStatus fraudProofs upheld (currentEpoch > validator.windowEnd receipt)
    ⟨receiptHash, status = .valid ∨ status = .finalizedValid ∨ status = .pendingChallenge, fraudProofs.length, upheld,
      rejected, status⟩

def recordAdjudication (result : AdjudicationResult) (validator : ReceiptValidator) : ReceiptValidator :=
  { validator with adjudicationResults := validator.adjudicationResults.insert result.fraudProofId result }

def cleanupFinalized (receipt : PoUWReceipt) (currentEpoch : UInt64) (validator : ReceiptValidator) :
    ReceiptValidator :=
  if currentEpoch > validator.windowEnd receipt then
    { validator with pendingProofs := validator.pendingProofs.erase (env.canonicalHash receipt) }
  else validator

end ReceiptValidator

inductive ValidatorCall where
  | submit (receipt : PoUWReceipt) (fraudProof : FraudProof) (currentEpoch : UInt64)
  | record (result : AdjudicationResult)
  | cleanup (receipt : PoUWReceipt) (currentEpoch : UInt64)
  | validate (receipt : PoUWReceipt) (currentEpoch : UInt64)

def ValidatorCall.next {PublicKeySet Signature SignatureShare : Type}
    (env : ReceiptValidator.Environment PublicKeySet Signature SignatureShare) (validator : ReceiptValidator) :
    ValidatorCall → ReceiptValidator
  | submit receipt fraudProof currentEpoch => (validator.submitFraudProof env receipt fraudProof currentEpoch).2
  | record result => validator.recordAdjudication result
  | cleanup receipt currentEpoch => validator.cleanupFinalized env receipt currentEpoch
  | validate _ _ => validator

end AdicModel.Pouw
