import AdicCore.Economics.TreasuryCalls

namespace AdicModel.Economics

inductive TransferReason where
  | genesis
  | emission
  | deposit
  | depositRefund
  | depositSlash
  | treasuryTransfer
  | poUWReward
  | standard
  | faucet
  | messageTransfer
  | slashing

structure TransferEvent where
  sender : AccountAddress
  recipient : AccountAddress
  amount : AdicAmount
  timestamp : Int
  reason : TransferReason

structure SupplyMetrics where
  totalSupply : AdicAmount
  circulatingSupply : AdicAmount
  treasuryBalance : AdicAmount
  liquidityBalance : AdicAmount
  genesisBalance : AdicAmount
  burnedAmount : AdicAmount
  emissionIssued : AdicAmount

def SupplyMetrics.default : SupplyMetrics :=
  ⟨AdicAmount.zero, AdicAmount.zero, AdicAmount.zero, AdicAmount.zero, AdicAmount.zero, AdicAmount.zero, AdicAmount.zero⟩

structure TokenSupply where
  metrics : SupplyMetrics
  transferHistory : List TransferEvent

namespace TokenSupply

def new : TokenSupply := ⟨SupplyMetrics.default, []⟩

def setMetrics (change : SupplyMetrics → SupplyMetrics) : Call TokenSupply Unit :=
  modify fun supply => { supply with metrics := change supply.metrics }

def mintGenesis (amount : AdicAmount) : Call TokenSupply Unit := do
  let metrics := (← get).metrics
  if metrics.totalSupply ≠ AdicAmount.zero then throw .genesisMinted
  else if amount ≠ AdicAmount.genesisSupply then throw (.invalidGenesisAmount AdicAmount.genesisSupply amount)
  else setMetrics fun metrics => { metrics with totalSupply := amount }

def mintEmission (amount : AdicAmount) : Call TokenSupply Unit := do
  match (← get).metrics.totalSupply.checkedAdd amount with
  | none => throw .supplyOverflow
  | some newSupply =>
    if AdicAmount.maxSupply < newSupply then throw (.exceedsMaxMint AdicAmount.maxSupply)
    else setMetrics fun metrics => { metrics with
      totalSupply := newSupply
      emissionIssued := metrics.emissionIssued.saturatingAdd amount
      circulatingSupply := metrics.circulatingSupply.saturatingAdd amount }

/-- The total supply stays. -/
def burn (amount : AdicAmount) : Call TokenSupply Unit := do
  if (← get).metrics.circulatingSupply < amount then throw .burnsMoreThanCirculates
  else setMetrics fun metrics => { metrics with
    circulatingSupply := metrics.circulatingSupply.saturatingSub amount
    burnedAmount := metrics.burnedAmount.saturatingAdd amount }

def updateTreasuryBalance (balance : AdicAmount) : Call TokenSupply Unit :=
  setMetrics fun metrics => { metrics with treasuryBalance := balance }

def updateLiquidityBalance (balance : AdicAmount) : Call TokenSupply Unit :=
  setMetrics fun metrics => { metrics with liquidityBalance := balance }

def updateGenesisBalance (balance : AdicAmount) : Call TokenSupply Unit :=
  setMetrics fun metrics => { metrics with genesisBalance := balance }

def updateCirculatingSupply (amount : AdicAmount) : Call TokenSupply Unit :=
  setMetrics fun metrics => { metrics with circulatingSupply := amount }

/-- Of more than ten thousand events the first thousand are dropped. -/
def addTransferEvent (event : TransferEvent) : Call TokenSupply Unit :=
  modify fun supply =>
    let history := supply.transferHistory ++ [event]
    { supply with transferHistory := if history.length > 10000 then history.drop 1000 else history }

def canMint (supply : TokenSupply) (amount : AdicAmount) : Bool :=
  match supply.metrics.totalSupply.checkedAdd amount with
  | some newSupply => newSupply ≤ AdicAmount.maxSupply
  | none => false

def remainingMintable (supply : TokenSupply) : AdicAmount :=
  AdicAmount.maxSupply.saturatingSub supply.metrics.totalSupply

end TokenSupply

structure GenesisAllocation where
  treasuryAmount : AdicAmount
  liquidityAmount : AdicAmount
  genesisAmount : AdicAmount
  timestamp : Int
  executed : Bool

/-- A share is the product of an amount and a percentage in floating point. -/
structure AllocationConfig where
  treasuryShare : AdicAmount → AdicAmount
  liquidityShare : AdicAmount → AdicAmount
  genesisShare : AdicAmount → AdicAmount
  treasuryMultisigThreshold : UInt32
  treasuryMultisigKeys : List AccountAddress

/-- The floating point emission for a supply, the seconds since the start and those since the last one. -/
structure EmissionSchedule where
  calculateEmissionAmount : AdicAmount → Int → Int → AdicAmount
  startTimestamp : Int
  lastEmissionTimestamp : Int

structure EmissionMetrics where
  totalEmitted : AdicAmount
  lastEmission : Int

/-- The managers share the balances, which are those of the treasury here. -/
structure EconomicsEngine (σ : Type) where
  supply : TokenSupply
  treasury : TreasuryManager σ
  allocation : Option GenesisAllocation
  config : AllocationConfig
  schedule : EmissionSchedule
  metrics : EmissionMetrics

namespace EconomicsEngine

variable {σ α : Type}

def new (storage : σ) (config : AllocationConfig) (schedule : EmissionSchedule) (now : Int) : EconomicsEngine σ where
  supply := TokenSupply.new
  treasury := TreasuryManager.new (BalanceManager.new storage)
  allocation := none
  config := config
  schedule := schedule
  metrics := ⟨AdicAmount.zero, now⟩

def onSupply (call : Call TokenSupply α) : Call (EconomicsEngine σ) α := fun engine =>
  match call engine.supply with
  | .ok value supply => .ok value { engine with supply := supply }
  | .error error supply => .error error { engine with supply := supply }

def onTreasury (call : Call (TreasuryManager σ) α) : Call (EconomicsEngine σ) α := fun engine =>
  match call engine.treasury with
  | .ok value treasury => .ok value { engine with treasury := treasury }
  | .error error treasury => .error error { engine with treasury := treasury }

def onBalances (call : Call (BalanceManager σ) α) : Call (EconomicsEngine σ) α :=
  onTreasury (TreasuryManager.onBalances call)

variable [EconomicsStorage σ] (blake3 : List UInt8 → Bytes32) (now : Int)

def recordGenesis (recipient : AccountAddress) (amount : AdicAmount) (txHash : String) :
    Call (EconomicsEngine σ) Unit := do
  let _ ← attempt (onBalances (BalanceManager.onStorage (EconomicsStorage.recordTransaction
    ⟨AccountAddress.zero, recipient, amount, ⟨now, 0⟩, txHash, "confirmed"⟩)))
  onSupply (TokenSupply.addTransferEvent ⟨AccountAddress.zero, recipient, amount, now, .genesis⟩)

def allocateGenesis : Call (EconomicsEngine σ) Unit := do
  if (← get).allocation.isSome then throw .genesisAllocated
  else
    onSupply (TokenSupply.mintGenesis AdicAmount.genesisSupply)
    let config := (← get).config
    let total := AdicAmount.genesisSupply
    let treasuryAmount := config.treasuryShare total
    let liquidityAmount := config.liquidityShare total
    let genesisAmount := config.genesisShare total
    match (treasuryAmount.checkedAdd liquidityAmount).bind fun sum => sum.checkedAdd genesisAmount with
    | none => throw .allocationOverflow
    | some allocated =>
      if total < allocated then throw .allocationExceeds
      else
        onBalances (BalanceManager.credit now AccountAddress.treasury treasuryAmount)
        onSupply (TokenSupply.updateTreasuryBalance treasuryAmount)
        onTreasury (TreasuryManager.initializeMultisig config.treasuryMultisigKeys config.treasuryMultisigThreshold)
        recordGenesis now AccountAddress.treasury treasuryAmount "genesis_treasury"
        onBalances (BalanceManager.credit now AccountAddress.liquidityPool liquidityAmount)
        onSupply (TokenSupply.updateLiquidityBalance liquidityAmount)
        recordGenesis now AccountAddress.liquidityPool liquidityAmount "genesis_liquidity"
        onBalances (BalanceManager.credit now AccountAddress.genesisPool genesisAmount)
        onSupply (TokenSupply.updateGenesisBalance genesisAmount)
        recordGenesis now AccountAddress.genesisPool genesisAmount "genesis_pool"
        let faucetAmount : AdicAmount := ⟨10000000 * 1000000000⟩
        onSupply (TokenSupply.mintEmission faucetAmount)
        onBalances (BalanceManager.credit now AccountAddress.faucet faucetAmount)
        recordGenesis now AccountAddress.faucet faucetAmount "genesis_faucet"
        onSupply (TokenSupply.updateCirculatingSupply allocated)
        modify fun engine => { engine with
          allocation := some ⟨treasuryAmount, liquidityAmount, genesisAmount, now, true⟩ }

def releaseGenesisTokens (recipient : AccountAddress) (amount : AdicAmount) : Call (EconomicsEngine σ) Unit := do
  if (← get).allocation.isNone then throw .genesisNotAllocated
  else
    let genesisBalance ← onBalances (BalanceManager.getBalance now AccountAddress.genesisPool)
    if genesisBalance < amount then throw .insufficientGenesisPool
    else
      let _ ← onBalances (BalanceManager.transfer blake3 now AccountAddress.genesisPool recipient amount)
      onSupply (TokenSupply.updateGenesisBalance (genesisBalance.saturatingSub amount))
      let currentCirculating := (← get).supply.metrics.circulatingSupply
      onSupply (TokenSupply.updateCirculatingSupply (currentCirculating.saturatingAdd amount))

def noteEmission (amount : AdicAmount) : Call (EconomicsEngine σ) Unit :=
  modify fun engine => { engine with
    schedule := { engine.schedule with lastEmissionTimestamp := now }
    metrics := ⟨engine.metrics.totalEmitted.saturatingAdd amount, now⟩ }

def mintAndDistribute (amount : AdicAmount) (recipient : AccountAddress) : Call (EconomicsEngine σ) AdicAmount := do
  onSupply (TokenSupply.mintEmission amount)
  onBalances (BalanceManager.credit now recipient amount)
  onSupply (TokenSupply.addTransferEvent ⟨AccountAddress.zero, recipient, amount, now, .emission⟩)
  noteEmission now amount
  return amount

def processEmission (recipient : AccountAddress) : Call (EconomicsEngine σ) AdicAmount := do
  let engine ← get
  let timeSinceLast := now - engine.schedule.lastEmissionTimestamp
  if timeSinceLast < 60 then throw (.emissionTooFrequent (60 - timeSinceLast))
  else
    let emissionAmount := engine.schedule.calculateEmissionAmount engine.supply.metrics.totalSupply
      (now - engine.schedule.startTimestamp) timeSinceLast
    if !engine.supply.canMint emissionAmount then
      let remaining := engine.supply.remainingMintable
      if remaining = AdicAmount.zero then throw .maxSupplyReached
      else mintAndDistribute now remaining recipient
    else mintAndDistribute now emissionAmount recipient

/-- A reward that is funded by a sponsor is an emission of the usual amount. -/
def processPouwReward (validator : AccountAddress) (baseReward : AdicAmount) (sponsorFunded : Bool) :
    Call (EconomicsEngine σ) AdicAmount := do
  if sponsorFunded then
    if (← get).supply.canMint baseReward then processEmission now validator
    else return baseReward
  else
    let treasuryBalance ← onBalances (BalanceManager.getBalance now AccountAddress.treasury)
    let matchedAmount := if baseReward ≤ treasuryBalance then baseReward else treasuryBalance
    if AdicAmount.zero < matchedAmount then
      let _ ← onBalances (BalanceManager.transfer blake3 now AccountAddress.treasury validator matchedAmount)
      onSupply (TokenSupply.addTransferEvent ⟨AccountAddress.treasury, validator, matchedAmount, now, .poUWReward⟩)
      return matchedAmount
    else return matchedAmount

end EconomicsEngine

end AdicModel.Economics
