import AdicCore.StorageMarket.Proof

open AdicModel.Economics

namespace AdicModel.StorageMarket

structure JitcaConfig where
  minCollateralRatio : ℚ
  maxCompilationWindow : UInt64
  activationDeadline : UInt64
  requireF1Finality : Bool

/-- The deals are stored under the ids of their intents. -/
structure JitcaCompiler where
  config : JitcaConfig
  deals : HashMap.Table Hash StorageDeal
  nextDealId : UInt64

namespace JitcaCompiler

def new (config : JitcaConfig) : JitcaCompiler := ⟨config, ∅, 1⟩

def validateCompatibility (intent : StorageDealIntent) (acceptance : ProviderAcceptance) :
    Except StorageMarketError Unit :=
  if acceptance.refIntent ≠ intent.intentId then
    .error (.invalidMessage "Acceptance does not reference the intent")
  else if intent.maxPricePerEpoch < acceptance.offeredPricePerEpoch then
    .error (.offeredPriceExceeds acceptance.offeredPricePerEpoch intent.maxPricePerEpoch)
  else .ok ()

def validateFinality (config : JitcaConfig) (intent : StorageDealIntent) (acceptance : ProviderAcceptance) :
    Except StorageMarketError Unit :=
  if ¬config.requireF1Finality then .ok ()
  else if ¬intent.isFinalized then .error (.finalityNotReached "Intent has not reached F1 finality")
  else if ¬acceptance.isFinalized then .error (.finalityNotReached "Acceptance has not reached F1 finality")
  else .ok ()

def validateCompilationWindow (config : JitcaConfig) (acceptance : ProviderAcceptance) (currentEpoch : UInt64) :
    Except StorageMarketError Unit :=
  match acceptance.finalizedAtEpoch with
  | none => .ok ()
  | some finalizedEpoch =>
    let elapsed := saturatingSub currentEpoch finalizedEpoch
    if elapsed > config.maxCompilationWindow then
      .error (.other s!"Compilation window exceeded: {elapsed} epochs since finality")
    else .ok ()

def calculateTotalPayment (intent : StorageDealIntent) (acceptance : ProviderAcceptance) :
    Except StorageMarketError AdicAmount :=
  let priceBase := acceptance.offeredPricePerEpoch.baseUnits
  if priceBase.toNat * intent.durationEpochs.toNat < 2 ^ 64 then .ok ⟨priceBase * intent.durationEpochs⟩
  else .error (.other "Payment calculation overflow")

def calculateRequiredCollateral (scale : Scale) (config : JitcaConfig) (totalPayment : AdicAmount) : AdicAmount :=
  ⟨scale totalPayment.baseUnits config.minCollateralRatio⟩

/-- What is checked before the funds move, and the total payment. -/
def validate (scale : Scale) (config : JitcaConfig) (intent : StorageDealIntent) (acceptance : ProviderAcceptance)
    (currentEpoch : UInt64) : Except StorageMarketError AdicAmount := do
  validateCompatibility intent acceptance
  validateFinality config intent acceptance
  validateCompilationWindow config acceptance currentEpoch
  let totalPayment ← calculateTotalPayment intent acceptance
  let requiredCollateral := calculateRequiredCollateral scale config totalPayment
  if acceptance.collateralCommitment < requiredCollateral then
    throw (.insufficientCollateral requiredCollateral acceptance.collateralCommitment)
  else return totalPayment

section

variable {L : Type} (ledger : Ledger L) (scale : Scale)

def takeDealId : MarketCall JitcaCompiler L UInt64 := do
  let current := (← getManager).nextDealId
  modifyManager fun compiler => { compiler with nextDealId := current + 1 }
  return current

/-- A debit of the client stands when that of the provider fails. -/
def compile (intent : StorageDealIntent) (acceptance : ProviderAcceptance) (currentEpoch : UInt64) :
    MarketCall JitcaCompiler L StorageDeal := do
  let config := (← getManager).config
  let totalPayment ← checked (validate scale config intent acceptance currentEpoch)
  onLedger (ledger.debit intent.client totalPayment)
  onLedger (ledger.debit acceptance.provider acceptance.collateralCommitment)
  let dealId ← takeDealId
  let deal := StorageDeal.fromIntentAndAcceptance intent acceptance dealId currentEpoch config.activationDeadline
  let deal ← checked (deal.transitionTo .pendingActivation)
  modifyManager fun compiler => { compiler with deals := compiler.deals.insert intent.intentId deal }
  return deal

end

def findDeal (order : HashMap.Order) (compiler : JitcaCompiler) (dealId : UInt64) : Option (Hash × StorageDeal) :=
  (order.iterate (HashMap.pairs compiler.deals)).find? fun entry => entry.2.dealId = dealId

def activated (deal : StorageDeal) (currentEpoch : UInt64) : Except StorageMarketError StorageDeal := do
  if deal.status ≠ .pendingActivation then throw (.invalidStateTransition deal.status.debug "Active")
  else if currentEpoch > deal.activationDeadline then
    throw (.activationDeadlineExceeded deal.activationDeadline currentEpoch)
  else
    let deal ← deal.transitionTo .active
    return { deal with startEpoch := some currentEpoch }

def activateDeal (order : HashMap.Order) (dealId currentEpoch : UInt64) (compiler : JitcaCompiler) :
    Except StorageMarketError JitcaCompiler :=
  match compiler.findDeal order dealId with
  | none => .error (.dealNotFound dealId)
  | some (intentId, deal) => do
    let deal ← activated deal currentEpoch
    return { compiler with deals := compiler.deals.insert intentId deal }

end JitcaCompiler

end AdicModel.StorageMarket
