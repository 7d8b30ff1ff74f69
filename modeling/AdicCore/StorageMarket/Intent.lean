import AdicCore.StorageMarket.Ledger

open AdicModel.Economics

namespace AdicModel.StorageMarket

structure IntentConfig where
  minDeposit : AdicAmount
  minClientReputation : ℚ
  maxIntentDuration : Int64
  maxIntentsPerClient : Nat

structure IntentManager where
  config : IntentConfig
  intents : HashMap.Table Hash StorageDealIntent
  acceptances : HashMap.Table Hash ProviderAcceptance
  intentAcceptances : HashMap.Table Hash (List Hash)
  clientIntents : HashMap.Table AccountAddress (List Hash)

namespace IntentManager

def new (config : IntentConfig) : IntentManager := ⟨config, ∅, ∅, ∅, ∅⟩

/-- `entry(key).or_insert_with(Vec::new).push(id)`. -/
def push {κ : Type} [DecidableEq κ] (key : κ) (id : Hash) (table : HashMap.Table κ (List Hash)) :
    HashMap.Table κ (List Hash) :=
  table.insert key ((table.lookup key).getD [] ++ [id])

section

variable (reputation : AccountAddress → ℚ)

def validateReputation (config : IntentConfig) (address : AccountAddress) : Except StorageMarketError Unit :=
  if reputation address < config.minClientReputation then
    .error (.insufficientReputation config.minClientReputation (reputation address))
  else .ok ()

def validateDeposit (config : IntentConfig) (deposit : AdicAmount) : Except StorageMarketError Unit :=
  if deposit < config.minDeposit then .error (.insufficientFunds config.minDeposit deposit) else .ok ()

def validateRateLimit (manager : IntentManager) (client : AccountAddress) : Except StorageMarketError Unit :=
  match manager.clientIntents.lookup client with
  | none => .ok ()
  | some intents =>
    if intents.length ≥ manager.config.maxIntentsPerClient then
      .error (.other
        s!"Client has too many active intents: {intents.length} >= {manager.config.maxIntentsPerClient}")
    else .ok ()

/-- The difference wraps around. -/
def validateDuration (config : IntentConfig) (intent : StorageDealIntent) : Except StorageMarketError Unit :=
  let duration := intent.expiresAt - intent.timestamp
  if duration > config.maxIntentDuration then
    .error (.other s!"Intent duration too long: {duration.toInt} > {config.maxIntentDuration.toInt}")
  else .ok ()

/-- The intent must exist, be final and not be expired. -/
def validateRefIntent (now : Int64) (manager : IntentManager) (refIntent : Hash) : Except StorageMarketError Unit :=
  match manager.intents.lookup refIntent with
  | none => .error (.other "Referenced intent not found")
  | some intent =>
    if ¬intent.isFinalized then .error (.finalityNotReached "Intent must be finalized before acceptance")
    else if intent.isExpired now then .error (.intentExpired intent.expiresAt)
    else .ok ()

variable {L : Type} (ledger : Ledger L)

/-- An intent that is stored under the id is replaced. -/
def publishIntent (intent : StorageDealIntent) : MarketCall IntentManager L Hash := do
  let manager ← getManager
  checked (validateReputation reputation manager.config intent.client)
  checked (validateDeposit manager.config intent.deposit)
  checked (validateRateLimit manager intent.client)
  checked (validateDuration manager.config intent)
  onLedger (ledger.debit intent.client intent.deposit)
  modifyManager fun manager =>
    { manager with
      intents := manager.intents.insert intent.intentId intent
      clientIntents := push intent.client intent.intentId manager.clientIntents }
  return intent.intentId

/-- The refund after a new status, for every final status, also after another one. -/
def refundOnFinality (status : FinalityStatus) (owner : AccountAddress) (deposit : AdicAmount) :
    MarketCall IntentManager L Unit :=
  if status.isFinalized then onLedger (ledger.credit owner deposit) else return ()

def updateIntentFinality (intentId : Hash) (finalityStatus : FinalityStatus) (finalizedAtEpoch : UInt64) :
    MarketCall IntentManager L Unit := do
  match (← getManager).intents.lookup intentId with
  | none => throw (.other "Intent not found")
  | some intent =>
    let updated := { intent with finalityStatus := finalityStatus, finalizedAtEpoch := some finalizedAtEpoch }
    modifyManager fun manager => { manager with intents := manager.intents.insert intentId updated }
    refundOnFinality ledger finalityStatus intent.client intent.deposit

def submitAcceptance (now : Int64) (acceptance : ProviderAcceptance) : MarketCall IntentManager L Hash := do
  let manager ← getManager
  checked (validateRefIntent now manager acceptance.refIntent)
  checked (validateReputation reputation manager.config acceptance.provider)
  checked (validateDeposit manager.config acceptance.deposit)
  onLedger (ledger.debit acceptance.provider acceptance.deposit)
  let updated := { acceptance with providerReputation := reputation acceptance.provider }
  modifyManager fun manager =>
    { manager with
      acceptances := manager.acceptances.insert acceptance.acceptanceId updated
      intentAcceptances := push acceptance.refIntent acceptance.acceptanceId manager.intentAcceptances }
  return acceptance.acceptanceId

def updateAcceptanceFinality (acceptanceId : Hash) (finalityStatus : FinalityStatus) (finalizedAtEpoch : UInt64) :
    MarketCall IntentManager L Unit := do
  match (← getManager).acceptances.lookup acceptanceId with
  | none => throw (.other "Acceptance not found")
  | some acceptance =>
    let updated := { acceptance with finalityStatus := finalityStatus, finalizedAtEpoch := some finalizedAtEpoch }
    modifyManager fun manager => { manager with acceptances := manager.acceptances.insert acceptanceId updated }
    refundOnFinality ledger finalityStatus acceptance.provider acceptance.deposit

end

def removeIntent (manager : IntentManager) (intentId : Hash) : IntentManager :=
  match manager.intents.lookup intentId with
  | none => manager
  | some intent =>
    { manager with
      intents := manager.intents.erase intentId
      clientIntents :=
        match manager.clientIntents.lookup intent.client with
        | none => manager.clientIntents
        | some ids => manager.clientIntents.insert intent.client (ids.filter fun id => id ≠ intentId)
      intentAcceptances := manager.intentAcceptances.erase intentId }

def expired (order : HashMap.Order) (now : Int64) (manager : IntentManager) : List Hash :=
  ((order.iterate (HashMap.pairs manager.intents)).filter fun entry => entry.2.isExpired now).map Prod.fst

/-- No deposit is paid back. -/
def cleanupExpiredIntents (order : HashMap.Order) (now : Int64) (manager : IntentManager) : Nat × IntentManager :=
  let ids := expired order now manager
  (ids.length, ids.foldl removeIntent manager)

end IntentManager

end AdicModel.StorageMarket
