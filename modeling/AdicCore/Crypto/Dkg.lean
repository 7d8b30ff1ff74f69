import Mathlib.Algebra.Field.Defs
import Mathlib.Data.List.Basic
import AdicCore.Library.HashMap
import AdicCore.Library.Runs

namespace AdicModel.Crypto

inductive BLSError where
  | invalidThreshold (threshold total : Nat)
  | thresholdCryptoError (text : String)
  | serializationError (text : String)
  | hexError (text : String)
deriving DecidableEq

def BLSError.text : BLSError → String
  | invalidThreshold threshold total => s!"Invalid threshold: t={threshold} must be <= n={total}"
  | thresholdCryptoError text => s!"Threshold crypto error: {text}"
  | serializationError text => s!"Serialization error: {text}"
  | hexError text => s!"Hex decode error: {text}"

structure BLSSignature where
  hex : String
deriving DecidableEq

structure BLSSignatureShare where
  participantId : Nat
  signatureHex : String
deriving DecidableEq

structure ThresholdConfig where
  totalParticipants : Nat
  threshold : Nat
deriving DecidableEq

def ThresholdConfig.new (total threshold : Nat) : Except BLSError ThresholdConfig :=
  let minThreshold := (total + 1) / 2
  if threshold > total then .error (.invalidThreshold threshold total)
  else if threshold < minThreshold then .error (.invalidThreshold threshold total)
  else .ok ⟨total, threshold⟩

/-- What the code uses of `threshold_crypto`, with the encodings of its values. -/
structure ThresholdCrypto (PublicKeySet Signature SignatureShare : Type) where
  combineSignatures : PublicKeySet → List (Nat × SignatureShare) → Except String Signature
  verify : PublicKeySet → Signature → List UInt8 → Bool
  encodeSignature : Signature → String
  decodeSignature : String → Except BLSError Signature
  decodeShare : String → Except BLSError SignatureShare

section

variable {PublicKeySet Signature SignatureShare : Type} (crypto : ThresholdCrypto PublicKeySet Signature SignatureShare)

def BLSSignature.fromTcSignature (signature : Signature) : BLSSignature := ⟨crypto.encodeSignature signature⟩

def BLSSignature.toTcSignature (signature : BLSSignature) : Except BLSError Signature :=
  crypto.decodeSignature signature.hex

def BLSSignatureShare.toTcSignatureShare (share : BLSSignatureShare) : Except BLSError SignatureShare :=
  crypto.decodeShare share.signatureHex

def prefixedMessage (dst message : List UInt8) : List UInt8 := dst ++ message

/-- `BLSThresholdSigner::verify`, which reads nothing of the signer. -/
def verifySignature (publicKeySet : PublicKeySet) (message dst : List UInt8) (signature : BLSSignature) :
    Except BLSError Bool :=
  match signature.toTcSignature crypto with
  | .error error => .error error
  | .ok decoded => .ok (crypto.verify publicKeySet decoded (prefixedMessage dst message))

end

end AdicModel.Crypto

open HashMap

namespace AdicModel.Crypto

inductive DKGState where
  | initialized
  | collectingCommitments
  | exchangingShares
  | verifying
  | completed
  | failed (reason : String)
deriving DecidableEq

structure DKGCommitment where
  participantId : Nat
  commitmentsHex : List String

structure DKGShare where
  fromId : Nat
  toId : Nat
  pubKeyShareHex : String

inductive DKGError where
  | bls (error : BLSError)
  | panicked
deriving DecidableEq

/-- The coefficients of its polynomial. The commitments determine them. -/
abbrev SecretKeySet (F : Type) := List F

abbrev PublicKeySet (F : Type) := List F

/-- The encodings of `bincode` and `hex` together. -/
structure KeyCodec (F : Type) where
  encodeKeySet : PublicKeySet F → String
  decodeKeySet : String → Except BLSError (PublicKeySet F)
  encodeShare : F → String
  decodeShare : String → Except BLSError F

structure DKGResult (F : Type) where
  secretKeyShare : F
  publicKeySet : PublicKeySet F
  participantId : Nat
deriving DecidableEq

structure DKGCeremony (F : Type) where
  config : ThresholdConfig
  participantId : Nat
  state : DKGState
  localPolynomial : Option (SecretKeySet F)
  commitments : Table Nat DKGCommitment
  receivedShares : Table Nat DKGShare
  mySecretShare : Option F
  publicKeySet : Option (PublicKeySet F)

def dkgFailure (text : String) : DKGError := .bls (.thresholdCryptoError text)

section

variable {F : Type} [Field F] [DecidableEq F]

def evaluate (keySet : List F) (point : F) : F := keySet.foldr (fun coefficient rest => coefficient + point * rest) 0

/-- The share of a participant belongs to the point after its index. -/
def keyShare (keySet : List F) (participantId : Nat) : F := evaluate keySet (participantId + 1)

variable (codec : KeyCodec F)

def publicCommitment (participantId : Nat) (secretKeySet : SecretKeySet F) : DKGCommitment :=
  ⟨participantId, [codec.encodeKeySet secretKeySet]⟩

/-- The first encoding of a commitment, which may be missing. -/
def decodeCommitment (commitment : DKGCommitment) : Except DKGError (PublicKeySet F) :=
  match commitment.commitmentsHex with
  | [] => .error .panicked
  | text :: _ => (codec.decodeKeySet text).mapError .bls

namespace DKGCeremony

def new (config : ThresholdConfig) (participantId : Nat) : DKGCeremony F :=
  ⟨config, participantId, .initialized, none, ∅, ∅, none, none⟩

def start (ceremony : DKGCeremony F) : DKGCeremony F := { ceremony with state := .collectingCommitments }

/-- `drawn` is the random polynomial, with as many coefficients as the threshold. -/
def generateCommitment (drawn : SecretKeySet F) (ceremony : DKGCeremony F) :
    Except DKGError DKGCommitment × DKGCeremony F :=
  if ceremony.state ≠ .collectingCommitments then (.error (dkgFailure "Not in commitment phase"), ceremony)
  else if ceremony.config.threshold = 0 then (.error .panicked, ceremony)
  else (.ok (publicCommitment codec ceremony.participantId drawn), { ceremony with localPolynomial := some drawn })

def addCommitment (commitment : DKGCommitment) (ceremony : DKGCeremony F) : Except DKGError Unit × DKGCeremony F :=
  if ceremony.state ≠ .collectingCommitments ∧ ceremony.state ≠ .exchangingShares then
    (.error (dkgFailure "Not accepting commitments in current state"), ceremony)
  else
    let commitments := ceremony.commitments.insert commitment.participantId commitment
    (.ok (),
      { ceremony with
        commitments := commitments
        state := if (pairs commitments).length = ceremony.config.totalParticipants then .exchangingShares
          else ceremony.state })

def shareFor (secretKeySet : SecretKeySet F) (fromId toId : Nat) : DKGShare :=
  ⟨fromId, toId, codec.encodeShare (keyShare secretKeySet toId)⟩

def generateShares (ceremony : DKGCeremony F) : Except DKGError (List DKGShare) :=
  if ceremony.state ≠ .exchangingShares then .error (dkgFailure "Not in share exchange phase")
  else
    match ceremony.localPolynomial with
    | none => .error (dkgFailure "Polynomial not generated yet")
    | some secretKeySet =>
      .ok (((List.range ceremony.config.totalParticipants).filter (· ≠ ceremony.participantId)).map
        (shareFor codec secretKeySet ceremony.participantId))

/-- The check of a share against the commitment of its sender. -/
def verifyShare (share : DKGShare) (ceremony : DKGCeremony F) : Except DKGError Unit :=
  match ceremony.commitments.lookup share.fromId with
  | none => .error (dkgFailure s!"No commitment from participant {share.fromId}")
  | some commitment =>
    match decodeCommitment codec commitment with
    | .error error => .error error
    | .ok keySet =>
      match codec.decodeShare share.pubKeyShareHex with
      | .error error => .error (.bls error)
      | .ok received =>
        if keyShare keySet ceremony.participantId ≠ received then
          .error (dkgFailure
            s!"Share verification failed: received share from {share.fromId} does not match Feldman commitment")
        else .ok ()

def addShare (share : DKGShare) (ceremony : DKGCeremony F) : Except DKGError Unit × DKGCeremony F :=
  if ceremony.state ≠ .exchangingShares ∧ ceremony.state ≠ .verifying then
    (.error (dkgFailure "Not accepting shares in current state"), ceremony)
  else if share.toId ≠ ceremony.participantId then (.error (dkgFailure "Share not intended for us"), ceremony)
  else
    match ceremony.verifyShare codec share with
    | .error error => (.error error, ceremony)
    | .ok _ =>
      let receivedShares := ceremony.receivedShares.insert share.fromId share
      (.ok (),
        { ceremony with
          receivedShares := receivedShares
          state := if (pairs receivedShares).length = ceremony.config.totalParticipants - 1 then .verifying
            else ceremony.state })

/-- The stored commitments in the order in which their map yields them. -/
def commitmentValues (order : Order) (ceremony : DKGCeremony F) : List DKGCommitment :=
  (order.iterate (pairs ceremony.commitments)).map Prod.snd

/-- The first key set stands for their combination. -/
def finalizeKeys (order : Order) (ceremony : DKGCeremony F) : Except DKGError (DKGResult F) :=
  if ceremony.state ≠ .verifying then .error (dkgFailure "Cannot finalize in current state")
  else
    match ceremony.localPolynomial with
    | none => .error (dkgFailure "Local polynomial not generated")
    | some secretKeySet =>
      match (ceremony.commitmentValues order).mapM (decodeCommitment codec) with
      | .error error => .error error
      | .ok [] => .error (dkgFailure "No public key sets available")
      | .ok (keySet :: _) => .ok ⟨keyShare secretKeySet ceremony.participantId, keySet, ceremony.participantId⟩

def finalize (order : Order) (ceremony : DKGCeremony F) : Except DKGError (DKGResult F) × DKGCeremony F :=
  match ceremony.finalizeKeys codec order with
  | .error error => (.error error, ceremony)
  | .ok result =>
    (.ok result,
      { ceremony with
        mySecretShare := some result.secretKeyShare
        publicKeySet := some result.publicKeySet
        state := .completed })

end DKGCeremony

inductive DKGCall (F : Type) where
  | start
  | generateCommitment (drawn : SecretKeySet F)
  | addCommitment (commitment : DKGCommitment)
  | generateShares
  | addShare (share : DKGShare)
  | finalize (order : Order)

def DKGCall.next (ceremony : DKGCeremony F) : DKGCall F → DKGCeremony F
  | start => ceremony.start
  | generateCommitment drawn => (ceremony.generateCommitment codec drawn).2
  | addCommitment commitment => (ceremony.addCommitment commitment).2
  | generateShares => ceremony
  | addShare share => (ceremony.addShare codec share).2
  | finalize order => (ceremony.finalize codec order).2

end

/-- The ceremonies of all participants, and the messages they sent. -/
structure DKGNetwork (F : Type) (n : Nat) where
  ceremonies : Fin n → DKGCeremony F
  commitmentOf : Fin n → Option DKGCommitment
  sharesOf : Fin n → List DKGShare

/-- What happens among honest participants. Each starts its ceremony once. -/
inductive DKGStep (n : Nat) where
  | begin (participant : Fin n)
  | deliverCommitment (sender receiver : Fin n)
  | send (participant : Fin n)
  | deliverShare (sender receiver : Fin n)
  | finalize (participant : Fin n) (order : Order)

namespace DKGNetwork

variable {F : Type} [Field F] [DecidableEq F] {n : Nat} (codec : KeyCodec F)

def new (config : ThresholdConfig) : DKGNetwork F n :=
  ⟨fun participant => DKGCeremony.new config participant, fun _ => none, fun _ => []⟩

def update (participant : Fin n) (ceremony : DKGCeremony F) (network : DKGNetwork F n) : DKGNetwork F n :=
  { network with ceremonies := Function.update network.ceremonies participant ceremony }

def beginCeremony (drawn : SecretKeySet F) (participant : Fin n) (network : DKGNetwork F n) : DKGNetwork F n :=
  if (network.ceremonies participant).state = .initialized then
    match (network.ceremonies participant).start.generateCommitment codec drawn with
    | (.error _, ceremony) => network.update participant ceremony
    | (.ok commitment, ceremony) =>
      { network.update participant ceremony with
        commitmentOf := Function.update network.commitmentOf participant (some commitment) }
  else network

def deliverCommitment (sender receiver : Fin n) (network : DKGNetwork F n) : DKGNetwork F n :=
  match network.commitmentOf sender with
  | none => network
  | some commitment => network.update receiver ((network.ceremonies receiver).addCommitment commitment).2

def send (participant : Fin n) (network : DKGNetwork F n) : DKGNetwork F n :=
  match (network.ceremonies participant).generateShares codec with
  | .error _ => network
  | .ok shares => { network with sharesOf := Function.update network.sharesOf participant shares }

def deliverShare (sender receiver : Fin n) (network : DKGNetwork F n) : DKGNetwork F n :=
  match (network.sharesOf sender).find? (·.toId = receiver.val) with
  | none => network
  | some share => network.update receiver ((network.ceremonies receiver).addShare codec share).2

def next (polynomials : Fin n → SecretKeySet F) (network : DKGNetwork F n) : DKGStep n → DKGNetwork F n
  | .begin participant => network.beginCeremony codec (polynomials participant) participant
  | .deliverCommitment sender receiver => network.deliverCommitment sender receiver
  | .send participant => network.send codec participant
  | .deliverShare sender receiver => network.deliverShare codec sender receiver
  | .finalize participant order =>
    network.update participant ((network.ceremonies participant).finalize codec order).2

def after (polynomials : Fin n → SecretKeySet F) (config : ThresholdConfig) (steps : List (DKGStep n)) :
    DKGNetwork F n := Runs.after (next codec polynomials) (new config) steps

end DKGNetwork

end AdicModel.Crypto
