import AdicCore.Economics.Balance

open AdicModel.Economics

namespace AdicModel.StorageMarket

abbrev Hash := Bytes32

/-- The weight is a double, a rational here. -/
inductive FinalityStatus where
  | pending
  | f1Complete (k depth : UInt32) (repWeight : ℚ)
  | f2Complete (homologyStable : Bool)

def FinalityStatus.isFinalized : FinalityStatus → Bool
  | .pending => false
  | _ => true

inductive StorageDealStatus where
  | published
  | pendingActivation
  | active
  | completed
  | failed
  | terminated
deriving DecidableEq

def StorageDealStatus.canTransitionTo : StorageDealStatus → StorageDealStatus → Bool
  | .published, .pendingActivation => true
  | .published, .failed => true
  | .pendingActivation, .active => true
  | .pendingActivation, .failed => true
  | .pendingActivation, .terminated => true
  | .active, .completed => true
  | .active, .failed => true
  | .active, .terminated => true
  | _, _ => false

/-- The name that the error texts show. -/
def StorageDealStatus.debug : StorageDealStatus → String
  | .published => "Published"
  | .pendingActivation => "PendingActivation"
  | .active => "Active"
  | .completed => "Completed"
  | .failed => "Failed"
  | .terminated => "Terminated"

/-- The text of an economics error, which may wrap a ledger error. -/
inductive EconomicsText where
  | ledger (error : EconomicsError)
  | text (message : String)
deriving DecidableEq

/-- Amounts stand for the texts that show them. -/
inductive StorageMarketError where
  | invalidMessage (message : String)
  | offeredPriceExceeds (offered maximum : AdicAmount)
  | finalityNotReached (message : String)
  | intentExpired (expiresAt : Int64)
  | insufficientFunds (required available : AdicAmount)
  | insufficientReputation (required actual : ℚ)
  | activationDeadlineExceeded (deadline current : UInt64)
  | proofVerificationFailed (message : String)
  | dealNotFound (dealId : UInt64)
  | invalidStateTransition (source target : String)
  | insufficientCollateral (required provided : AdicAmount)
  | economicsError (text : EconomicsText)
  | challengeError (message : String)
  | other (message : String)
  /-- The thread panics: a division by zero. -/
  | panicked
deriving DecidableEq

/-- The preferences for the settlement and the other protocol fields are read by nothing here. -/
structure StorageDealIntent where
  deposit : AdicAmount
  timestamp : Int64
  intentId : Hash
  client : AccountAddress
  dataCid : Bytes32
  dataSize : UInt64
  durationEpochs : UInt64
  maxPricePerEpoch : AdicAmount
  requiredRedundancy : UInt8
  expiresAt : Int64
  finalityStatus : FinalityStatus
  finalizedAtEpoch : Option UInt64

namespace StorageDealIntent

def new (blake3 : List UInt8 → Bytes32) (now : Int64) (client : AccountAddress) (dataCid : Bytes32)
    (dataSize durationEpochs : UInt64) (maxPricePerEpoch : AdicAmount) (requiredRedundancy : UInt8) :
    StorageDealIntent where
  deposit := AdicAmount.zero
  timestamp := now
  intentId := blake3 (dataCid.bytes ++ toLeBytes dataSize.toNat ++ toLeBytes durationEpochs.toNat ++
    toLeBytes now.toInt)
  client := client
  dataCid := dataCid
  dataSize := dataSize
  durationEpochs := durationEpochs
  maxPricePerEpoch := maxPricePerEpoch
  requiredRedundancy := requiredRedundancy
  expiresAt := now + 86400
  finalityStatus := .pending
  finalizedAtEpoch := none

def isExpired (now : Int64) (intent : StorageDealIntent) : Bool := now > intent.expiresAt

def isFinalized (intent : StorageDealIntent) : Bool := intent.finalityStatus.isFinalized

end StorageDealIntent

structure ProviderAcceptance where
  deposit : AdicAmount
  timestamp : Int64
  acceptanceId : Hash
  refIntent : Hash
  provider : AccountAddress
  offeredPricePerEpoch : AdicAmount
  collateralCommitment : AdicAmount
  providerReputation : ℚ
  finalityStatus : FinalityStatus
  finalizedAtEpoch : Option UInt64

namespace ProviderAcceptance

def isFinalized (acceptance : ProviderAcceptance) : Bool := acceptance.finalityStatus.isFinalized

end ProviderAcceptance

structure StorageDeal where
  dealId : UInt64
  refIntent : Hash
  refAcceptance : Hash
  client : AccountAddress
  provider : AccountAddress
  dataCid : Bytes32
  dataSize : UInt64
  dealDurationEpochs : UInt64
  pricePerEpoch : AdicAmount
  providerCollateral : AdicAmount
  clientPaymentEscrow : AdicAmount
  proofMerkleRoot : Option Bytes32
  startEpoch : Option UInt64
  activationDeadline : UInt64
  status : StorageDealStatus

namespace StorageDeal

/-- The product and the sum wrap around. -/
def fromIntentAndAcceptance (intent : StorageDealIntent) (acceptance : ProviderAcceptance)
    (dealId currentEpoch activationGraceEpochs : UInt64) : StorageDeal where
  dealId := dealId
  refIntent := intent.intentId
  refAcceptance := acceptance.acceptanceId
  client := intent.client
  provider := acceptance.provider
  dataCid := intent.dataCid
  dataSize := intent.dataSize
  dealDurationEpochs := intent.durationEpochs
  pricePerEpoch := acceptance.offeredPricePerEpoch
  providerCollateral := acceptance.collateralCommitment
  clientPaymentEscrow := ⟨acceptance.offeredPricePerEpoch.baseUnits * intent.durationEpochs⟩
  proofMerkleRoot := none
  startEpoch := none
  activationDeadline := currentEpoch + activationGraceEpochs
  status := .published

def transitionTo (newStatus : StorageDealStatus) (deal : StorageDeal) : Except StorageMarketError StorageDeal :=
  if deal.status.canTransitionTo newStatus then .ok { deal with status := newStatus }
  else .error (.invalidStateTransition deal.status.debug newStatus.debug)

end StorageDeal

/-- The activation epoch and the number of chunks are read by nothing here. -/
structure DealActivation where
  refDeal : UInt64
  provider : AccountAddress
  dataMerkleRoot : Bytes32

structure MerkleProof where
  chunkIndex : UInt64
  chunkData : List UInt8
  siblingHashes : List Bytes32

namespace MerkleProof

variable (blake3 : List UInt8 → Bytes32)

/-- One step of the loop over the siblings. -/
def combine : Bytes32 × UInt64 → Bytes32 → Bytes32 × UInt64
  | (currentHash, index), sibling =>
    let combined :=
      if index % 2 = 0 then blake3 (currentHash.bytes ++ sibling.bytes)
      else blake3 (sibling.bytes ++ currentHash.bytes)
    (combined, index / 2)

def verify (root : Bytes32) (proof : MerkleProof) : Bool :=
  (proof.siblingHashes.foldl (combine blake3) (blake3 proof.chunkData, proof.chunkIndex)).1 = root

end MerkleProof

structure StorageProof where
  timestamp : Int64
  dealId : UInt64
  provider : AccountAddress
  proofEpoch : UInt64
  challengeIndices : List UInt64
  merkleProofs : List MerkleProof

/-- The calls of the balance manager that the market uses. -/
structure Ledger (L : Type) where
  getBalance : AccountAddress → Call L AdicAmount
  credit : AccountAddress → AdicAmount → Call L Unit
  debit : AccountAddress → AdicAmount → Call L Unit
  transferWithReason : AccountAddress → AccountAddress → AdicAmount → Call L Unit

/-- The balance manager at the time `now`. -/
def Ledger.ofBalanceManager {σ : Type} [EconomicsStorage σ] (blake3 : List UInt8 → Bytes32) (now : Int) :
    Ledger (BalanceManager σ) where
  getBalance := BalanceManager.getBalance now
  credit := BalanceManager.credit now
  debit := BalanceManager.debit now
  transferWithReason sender recipient amount := discard (BalanceManager.transfer blake3 now sender recipient amount)

structure Funded (M L : Type) where
  manager : M
  ledger : L

abbrev MarketCall (M L α : Type) : Type := EStateM StorageMarketError (Funded M L) α

variable {M L α : Type}

def onLedger (call : Call L α) : MarketCall M L α := fun state =>
  match call state.ledger with
  | .ok value ledger => .ok value { state with ledger := ledger }
  | .error error ledger => .error (.economicsError (.ledger error)) { state with ledger := ledger }

def getManager : MarketCall M L M := return (← get).manager

def modifyManager (change : M → M) : MarketCall M L Unit :=
  modify fun state => { state with manager := change state.manager }

def checked (result : Except StorageMarketError α) : MarketCall M L α :=
  match result with
  | .ok value => return value
  | .error error => throw error

end AdicModel.StorageMarket
