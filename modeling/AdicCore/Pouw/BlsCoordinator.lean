import AdicCore.Crypto.Dkg
import AdicCore.Pouw.Executor

open AdicModel.Crypto AdicModel.Economics HashMap

namespace AdicModel.Pouw

def dstCommitteeCert : List UInt8 := utf8 "ADIC-PoUW-COMMITTEE-v1"

/-- Times are numbers of one clock. -/
structure BLSCoordinatorConfig where
  collectionTimeout : Nat
  threshold : Nat
  totalMembers : Nat

structure SigningRequestId where
  id : String
deriving DecidableEq

/-- The first eight bytes of the hash stand in the identifier. -/
def SigningRequestId.new (name : String) (epoch : UInt64) (dataHash : List UInt8) : SigningRequestId :=
  ⟨s!"{name}-{epoch}-{hexEncode (dataHash.take 8)}"⟩

structure SigningRequest where
  requestId : SigningRequestId
  message : List UInt8
  dst : List UInt8
  committeeMembers : List PublicKey
  threshold : Nat
  deadline : Nat

structure CollectionSession where
  request : SigningRequest
  shares : Table PublicKey BLSSignatureShare
  createdAt : Nat
  completed : Bool

inductive SigningError where
  | insufficientCommitteeSize (required actual : Nat)
  | signingRequestNotFound (id : String)
  | signingSessionCompleted (id : String)
  | signingDeadlineExpired (id : String)
  | unauthorizedSigner (signer id : String)
  | blsError (error : BLSError)

structure BLSCoordinator (PublicKeySet : Type) where
  config : BLSCoordinatorConfig
  publicKeySet : Option PublicKeySet
  sessions : Table SigningRequestId CollectionSession

namespace BLSCoordinator

variable {PublicKeySet Signature SignatureShare : Type}

def new (config : BLSCoordinatorConfig) : BLSCoordinator PublicKeySet := ⟨config, none, ∅⟩

def setPublicKeySet (keySet : PublicKeySet) (coordinator : BLSCoordinator PublicKeySet) : BLSCoordinator PublicKeySet :=
  { coordinator with publicKeySet := some keySet }

/-- A session that is there is replaced. -/
def initiateSigning (now : Nat) (requestId : SigningRequestId) (message dst : List UInt8)
    (committeeMembers : List PublicKey) (coordinator : BLSCoordinator PublicKeySet) :
    Except SigningError SigningRequest × BLSCoordinator PublicKeySet :=
  if committeeMembers.length < coordinator.config.threshold then
    (.error (.insufficientCommitteeSize coordinator.config.threshold committeeMembers.length), coordinator)
  else
    let request : SigningRequest :=
      ⟨requestId, message, dst, committeeMembers, coordinator.config.threshold, now + coordinator.config.collectionTimeout⟩
    (.ok request, { coordinator with sessions := coordinator.sessions.insert requestId ⟨request, ∅, now, false⟩ })

variable (crypto : ThresholdCrypto PublicKeySet Signature SignatureShare)

def decodeShare (share : BLSSignatureShare) : Except SigningError (Nat × SignatureShare) :=
  match share.toTcSignatureShare crypto with
  | .ok decoded => .ok (share.participantId, decoded)
  | .error error => .error (.blsError error)

def aggregateShares (shares : List BLSSignatureShare) (coordinator : BLSCoordinator PublicKeySet) :
    Except SigningError BLSSignature := do
  match coordinator.publicKeySet with
  | none => throw (.blsError (.thresholdCryptoError "PublicKeySet not configured - run DKG first"))
  | some keySet =>
    let decoded ← shares.mapM (decodeShare crypto)
    match crypto.combineSignatures keySet decoded with
    | .error text => throw (.blsError (.thresholdCryptoError s!"Failed to aggregate signatures: {text}"))
    | .ok signature => return BLSSignature.fromTcSignature crypto signature

def collectedShares (order : Order) (session : CollectionSession) : List BLSSignatureShare :=
  order.iterate (pairs session.shares) |>.map Prod.snd

/-- A share whose aggregation fails stays in the session. -/
def submitShare (order : Order) (now : Nat) (requestId : SigningRequestId) (signer : PublicKey)
    (share : BLSSignatureShare) (coordinator : BLSCoordinator PublicKeySet) :
    Except SigningError (Option BLSSignature) × BLSCoordinator PublicKeySet :=
  match coordinator.sessions.lookup requestId with
  | none => (.error (.signingRequestNotFound requestId.id), coordinator)
  | some session =>
    if session.completed then (.error (.signingSessionCompleted requestId.id), coordinator)
    else if now > session.request.deadline then (.error (.signingDeadlineExpired requestId.id), coordinator)
    else if signer ∉ session.request.committeeMembers then
      (.error (.unauthorizedSigner (hexEncode signer.asBytes.bytes) requestId.id), coordinator)
    else if (session.shares.lookup signer).isSome then (.ok none, coordinator)
    else
      let session := { session with shares := session.shares.insert signer share }
      let keep (session : CollectionSession) : BLSCoordinator PublicKeySet :=
        { coordinator with sessions := coordinator.sessions.insert requestId session }
      if (pairs session.shares).length ≥ session.request.threshold then
        match coordinator.aggregateShares crypto (collectedShares order session) with
        | .error error => (.error error, keep session)
        | .ok aggregated => (.ok (some aggregated), keep { session with completed := true })
      else (.ok none, keep session)

def getAggregatedSignature (order : Order) (requestId : SigningRequestId) (coordinator : BLSCoordinator PublicKeySet) :
    Except SigningError (Option BLSSignature) :=
  match coordinator.sessions.lookup requestId with
  | none => .error (.signingRequestNotFound requestId.id)
  | some session =>
    if session.completed then (coordinator.aggregateShares crypto (collectedShares order session)).map some
    else .ok none

end BLSCoordinator

inductive SigningCall where
  | initiate (now : Nat) (requestId : SigningRequestId) (message dst : List UInt8) (committeeMembers : List PublicKey)
  | submit (order : Order) (now : Nat) (requestId : SigningRequestId) (signer : PublicKey) (share : BLSSignatureShare)
  | get (order : Order) (requestId : SigningRequestId)

section

variable {PublicKeySet Signature SignatureShare : Type} (crypto : ThresholdCrypto PublicKeySet Signature SignatureShare)

def SigningCall.next (coordinator : BLSCoordinator PublicKeySet) : SigningCall → BLSCoordinator PublicKeySet
  | initiate now requestId message dst committeeMembers =>
    (coordinator.initiateSigning now requestId message dst committeeMembers).2
  | submit order now requestId signer share => (coordinator.submitShare crypto order now requestId signer share).2
  | get _ _ => coordinator

def SigningCall.returned (coordinator : BLSCoordinator PublicKeySet) :
    SigningCall → Option (SigningRequestId × BLSSignature)
  | initiate _ _ _ _ _ => none
  | submit order now requestId signer share =>
    match (coordinator.submitShare crypto order now requestId signer share).1 with
    | .ok (some signature) => some (requestId, signature)
    | _ => none
  | get order requestId =>
    match coordinator.getAggregatedSignature crypto order requestId with
    | .ok (some signature) => some (requestId, signature)
    | _ => none

end

end AdicModel.Pouw
