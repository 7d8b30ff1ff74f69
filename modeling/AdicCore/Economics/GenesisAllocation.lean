import AdicCore.Economics.GenesisSteps

namespace AdicModel.Economics

namespace AdicAmount

/-- The fraction is dropped. What is negative or no number gives zero, what is too large the largest amount. -/
def fromAdic (adic : Float) : AdicAmount := ⟨(adic * 1000000000.0).toUInt64⟩

def toAdic (amount : AdicAmount) : Float := amount.baseUnits.toFloat / 1000000000.0

end AdicAmount

/-- The configuration as it is written. -/
structure AllocationPercentages where
  treasuryPercent : Float
  liquidityPercent : Float
  genesisPercent : Float
  treasuryMultisigThreshold : UInt32
  treasuryMultisigKeys : List AccountAddress

inductive AllocationConfigError where
  | percentagesSum (percent : Float)
  | treasuryPercentage (percent : Float)
  | liquidityPercentage (percent : Float)
  | genesisPercentage (percent : Float)
  | notEnoughKeys

namespace AllocationPercentages

def default : AllocationPercentages := ⟨0.20, 0.30, 0.50, 2, []⟩

/-- A comparison with what is not a number is false. -/
def validateConfig (config : AllocationPercentages) : Except AllocationConfigError Unit := do
  let total := config.treasuryPercent + config.liquidityPercent + config.genesisPercent
  if (total - 1.0).abs > 0.001 then throw (.percentagesSum (total * 100.0))
  else if config.treasuryPercent < 0.0 ∨ config.treasuryPercent > 1.0 then
    throw (.treasuryPercentage config.treasuryPercent)
  else if config.liquidityPercent < 0.0 ∨ config.liquidityPercent > 1.0 then
    throw (.liquidityPercentage config.liquidityPercent)
  else if config.genesisPercent < 0.0 ∨ config.genesisPercent > 1.0 then
    throw (.genesisPercentage config.genesisPercent)
  else if config.treasuryMultisigKeys.length < config.treasuryMultisigThreshold.toNat then throw .notEnoughKeys
  else return ()

def share (percent : Float) (total : AdicAmount) : AdicAmount := AdicAmount.fromAdic (total.toAdic * percent)

def allocationConfig (config : AllocationPercentages) : AllocationConfig where
  treasuryShare := share config.treasuryPercent
  liquidityShare := share config.liquidityPercent
  genesisShare := share config.genesisPercent
  treasuryMultisigThreshold := config.treasuryMultisigThreshold
  treasuryMultisigKeys := config.treasuryMultisigKeys

end AllocationPercentages

end AdicModel.Economics

open AdicModel AdicModel.Economics Calls

namespace AdicProof.Economics

section

variable {σ : Type} [EconomicsStorage σ] [WritableStorage σ] {engine : EconomicsEngine σ} {address : AccountAddress}

def RoomAfter (writes : Nat) (engine : EconomicsEngine σ) (address : AccountAddress) (amount : AdicAmount) : Prop :=
  Room ((heldBy engine.treasury.balances).1, (heldBy engine.treasury.balances).2.drop writes) address amount

def faucetAmount : AdicAmount := ⟨10000000 * 1000000000⟩

def treasuryShare (engine : EconomicsEngine σ) : AdicAmount := engine.config.treasuryShare AdicAmount.genesisSupply

def liquidityShare (engine : EconomicsEngine σ) : AdicAmount := engine.config.liquidityShare AdicAmount.genesisSupply

def genesisShare (engine : EconomicsEngine σ) : AdicAmount := engine.config.genesisShare AdicAmount.genesisSupply

structure Settles (engine : EconomicsEngine σ) : Prop where
  shares : units (treasuryShare engine) + units (liquidityShare engine) + units (genesisShare engine) ≤
    units AdicAmount.genesisSupply
  treasury : RoomAfter 0 engine AccountAddress.treasury (treasuryShare engine)
  signers : SignersAccepted engine.config.treasuryMultisigKeys engine.config.treasuryMultisigThreshold
  unsigned : engine.treasury.multisig = none
  liquidity : RoomAfter (writes (treasuryShare engine)) engine AccountAddress.liquidityPool (liquidityShare engine)
  genesisPool : RoomAfter (writes (treasuryShare engine) + writes (liquidityShare engine)) engine
    AccountAddress.genesisPool (genesisShare engine)
  faucet : RoomAfter (writes (treasuryShare engine) + writes (liquidityShare engine) + writes (genesisShare engine))
    engine AccountAddress.faucet faucetAmount

theorem roomAfter_iff {held : Ledger × List Bool} {count : Nat} {amount : AdicAmount}
    (same : held.1 address = (heldBy engine.treasury.balances).1 address)
    (faults : held.2 = (heldBy engine.treasury.balances).2.drop count) :
    Room held address amount ↔ RoomAfter count engine address amount := by
  unfold RoomAfter Room
  rw [same, faults]

theorem treasury_room : Room (heldBy engine.treasury.balances) AccountAddress.treasury (treasuryShare engine) ↔
    RoomAfter 0 engine AccountAddress.treasury (treasuryShare engine) := roomAfter_iff rfl rfl

def treasuryPaid (engine : EconomicsEngine σ) : Ledger × List Bool :=
  paid (heldBy engine.treasury.balances) AccountAddress.treasury (treasuryShare engine)

def liquidityPaid (engine : EconomicsEngine σ) : Ledger × List Bool :=
  paid (treasuryPaid engine) AccountAddress.liquidityPool (liquidityShare engine)

def genesisPaid (engine : EconomicsEngine σ) : Ledger × List Bool :=
  paid (liquidityPaid engine) AccountAddress.genesisPool (genesisShare engine)

theorem liquidity_room : Room (treasuryPaid engine) AccountAddress.liquidityPool (liquidityShare engine) ↔
    RoomAfter (writes (treasuryShare engine)) engine AccountAddress.liquidityPool (liquidityShare engine) := by
  have apart : AccountAddress.liquidityPool ≠ AccountAddress.treasury := by decide
  exact roomAfter_iff (paid_other _ apart _) (paid_faults _ _ _)

theorem genesisPool_room : Room (liquidityPaid engine) AccountAddress.genesisPool (genesisShare engine) ↔
    RoomAfter (writes (treasuryShare engine) + writes (liquidityShare engine)) engine AccountAddress.genesisPool
      (genesisShare engine) := by
  have fromTreasury : AccountAddress.genesisPool ≠ AccountAddress.treasury := by decide
  have fromLiquidity : AccountAddress.genesisPool ≠ AccountAddress.liquidityPool := by decide
  refine roomAfter_iff ((paid_other _ fromLiquidity _).trans (paid_other _ fromTreasury _)) ?_
  unfold liquidityPaid treasuryPaid
  rw [paid_faults, paid_faults, List.drop_drop]

theorem faucet_room : Room (genesisPaid engine) AccountAddress.faucet faucetAmount ↔
    RoomAfter (writes (treasuryShare engine) + writes (liquidityShare engine) + writes (genesisShare engine)) engine
      AccountAddress.faucet faucetAmount := by
  have fromTreasury : AccountAddress.faucet ≠ AccountAddress.treasury := by decide
  have fromLiquidity : AccountAddress.faucet ≠ AccountAddress.liquidityPool := by decide
  have fromGenesis : AccountAddress.faucet ≠ AccountAddress.genesisPool := by decide
  refine roomAfter_iff ((paid_other _ fromGenesis _).trans
    ((paid_other _ fromLiquidity _).trans (paid_other _ fromTreasury _))) ?_
  unfold genesisPaid liquidityPaid treasuryPaid
  rw [paid_faults, paid_faults, paid_faults, List.drop_drop, List.drop_drop, Nat.add_assoc]

omit [EconomicsStorage σ] [WritableStorage σ] in
theorem shares_cases (engine : EconomicsEngine σ) :
    (∃ allocated, ((treasuryShare engine).checkedAdd (liquidityShare engine)).bind
        (fun sum => sum.checkedAdd (genesisShare engine)) = some allocated ∧ ¬ AdicAmount.genesisSupply < allocated) ↔
      units (treasuryShare engine) + units (liquidityShare engine) + units (genesisShare engine) ≤
        units AdicAmount.genesisSupply := by
  constructor
  · rintro ⟨allocated, sum, within⟩
    rcases Option.bind_eq_some_iff.mp sum with ⟨first, firstSum, wholeSum⟩
    rw [checkedAdd_eq_some] at firstSum wholeSum
    rw [amount_lt, not_lt] at within
    omega
  · intro within
    have bound := units_lt AdicAmount.genesisSupply
    cases firstSum : (treasuryShare engine).checkedAdd (liquidityShare engine) with
    | none =>
      have tooMuch := checkedAdd_eq_none.mp firstSum
      omega
    | some first =>
      have firstTotal := checkedAdd_eq_some.mp firstSum
      cases wholeSum : first.checkedAdd (genesisShare engine) with
      | none =>
        have tooMuch := checkedAdd_eq_none.mp wholeSum
        omega
      | some allocated =>
        have total := checkedAdd_eq_some.mp wholeSum
        refine ⟨allocated, wholeSum, ?_⟩
        rw [amount_lt, not_lt]
        omega

theorem mintGenesis_ok (unminted : engine.supply.metrics.totalSupply = AdicAmount.zero) :
    ∃ minted, EconomicsEngine.onSupply (TokenSupply.mintGenesis AdicAmount.genesisSupply) engine = .ok () minted ∧
      genesisView minted = ⟨heldBy engine.treasury.balances, engine.treasury.multisig, AdicAmount.genesisSupply⟩ ∧
      minted.config = engine.config := by
  have run : TokenSupply.mintGenesis AdicAmount.genesisSupply engine.supply = .ok () { engine.supply with
      metrics := { engine.supply.metrics with totalSupply := AdicAmount.genesisSupply } } := by
    unfold TokenSupply.mintGenesis
    rw [bind_get]
    dsimp only
    rw [if_neg (not_not.mpr unminted), if_neg (not_not.mpr rfl)]
    rfl
  exact ⟨_, onSupply_ok run, rfl, rfl⟩

theorem allocateGenesis_ok_iff (now : Int) (unallocated : engine.allocation = none)
    (unminted : engine.supply.metrics.totalSupply = AdicAmount.zero) :
    (∃ last, EconomicsEngine.allocateGenesis now engine = .ok () last) ↔ Settles engine := by
  rcases mintGenesis_ok unminted with ⟨minted, mints, mintedSeen, sameConfig⟩
  unfold EconomicsEngine.allocateGenesis TokenSupply.updateTreasuryBalance TokenSupply.updateLiquidityBalance
    TokenSupply.updateGenesisBalance TokenSupply.updateCirculatingSupply
  rw [bind_get, unallocated, Option.isSome_none, if_neg Bool.false_ne_true, bind_ok mints, bind_get]
  dsimp only
  generalize tokens : (⟨10000000 * 1000000000⟩ : AdicAmount) = faucet
  have fits := shares_cases engine
  unfold treasuryShare liquidityShare genesisShare at fits
  rw [sameConfig]
  cases sum : ((engine.config.treasuryShare AdicAmount.genesisSupply).checkedAdd
      (engine.config.liquidityShare AdicAmount.genesisSupply)).bind fun sum =>
        sum.checkedAdd (engine.config.genesisShare AdicAmount.genesisSupply) with
  | none =>
    refine ⟨fun ⟨last, run⟩ => (nomatch run), fun settles => ?_⟩
    rcases fits.mpr settles.shares with ⟨allocated, other, _⟩
    rw [sum] at other
    cases other
  | some allocated =>
    dsimp only
    by_cases exceeds : AdicAmount.genesisSupply < allocated
    · rw [if_pos exceeds]
      refine ⟨fun ⟨last, run⟩ => (nomatch run), fun settles => ?_⟩
      rcases fits.mpr settles.shares with ⟨known, other, within⟩
      rw [sum] at other
      cases other
      exact (within exceeds).elim
    · rw [if_neg exceeds]
      refine Iff.trans (treasuryPool_iff mintedSeen now _ _ _ _ _ (by intro metrics; rfl) fun first firstSeen =>
        pool_iff firstSeen now _ _ _ (by intro metrics; rfl) fun second secondSeen =>
          pool_iff secondSeen now _ _ _ (by intro metrics; rfl) fun third thirdSeen =>
            faucet_iff thirdSeen now _ _ _ (by intro metrics; rfl) _) ?_
      subst tokens
      constructor
      · rintro ⟨treasury, ⟨signers, unsigned⟩, liquidity, genesisPool, _, faucet⟩
        exact ⟨fits.mp ⟨allocated, sum, exceeds⟩, treasury_room.mp treasury, signers, unsigned,
          liquidity_room.mp liquidity, genesisPool_room.mp genesisPool, faucet_room.mp faucet⟩
      · intro settles
        exact ⟨treasury_room.mpr settles.treasury, ⟨settles.signers, settles.unsigned⟩,
          liquidity_room.mpr settles.liquidity, genesisPool_room.mpr settles.genesisPool, by decide,
          faucet_room.mpr settles.faucet⟩

section

omit [EconomicsStorage σ] [WritableStorage σ]

def Minted (engine : EconomicsEngine σ) : Prop := engine.supply.metrics.totalSupply ≠ AdicAmount.zero

theorem onTreasury_minted {α : Type} (call : Call (TreasuryManager σ) α) :
    Triple (@Minted σ) (EconomicsEngine.onTreasury call) (fun _ => Minted) Minted := by
  intro state minted
  unfold EconomicsEngine.onTreasury
  cases call state.treasury with
  | ok value next => exact minted
  | error error next => exact minted

theorem setMetrics_minted {change : SupplyMetrics → SupplyMetrics}
    (keeps : ∀ metrics, (change metrics).totalSupply = metrics.totalSupply) :
    Triple (@Minted σ) (EconomicsEngine.onSupply (TokenSupply.setMetrics change)) (fun _ => Minted) Minted := by
  intro state minted
  show (change state.supply.metrics).totalSupply ≠ AdicAmount.zero
  rw [keeps]
  exact minted

theorem mintEmission_minted (amount : AdicAmount) :
    Triple (@Minted σ) (EconomicsEngine.onSupply (TokenSupply.mintEmission amount)) (fun _ => Minted) Minted := by
  intro state minted
  unfold Minted at minted
  rw [ne_eq, ← units_eq_zero] at minted
  rcases mintEmission_cases state.supply amount with ⟨bounded, next, run, seen⟩ | ⟨_, error, run⟩
  · rw [onSupply_ok run]
    have total := checkedAdd_eq_some.mp seen
    show next.metrics.totalSupply ≠ AdicAmount.zero
    rw [ne_eq, ← units_eq_zero]
    omega
  · rw [onSupply_error run]
    show state.supply.metrics.totalSupply ≠ AdicAmount.zero
    rw [ne_eq, ← units_eq_zero]
    exact minted

end

variable {now : Int}

omit [WritableStorage σ] in
theorem recordGenesis_minted (recipient : AccountAddress) (amount : AdicAmount) (txHash : String) :
    Triple (@Minted σ) (EconomicsEngine.recordGenesis now recipient amount txHash) (fun _ => Minted) Minted := by
  unfold EconomicsEngine.recordGenesis
  refine ((attempt_triple (onTreasury_minted _)).weaken (fun _ minted => minted) ?_ fun _ minted => minted).bind
    fun _ => fun _ minted => minted
  intro result next kept
  cases result with
  | ok value => exact kept
  | error error => exact kept

theorem allocateGenesis_minted : Triple (fun engine : EconomicsEngine σ =>
      engine.allocation = none ∧ engine.supply.metrics.totalSupply = AdicAmount.zero)
    (EconomicsEngine.allocateGenesis now) (fun _ => Minted) Minted := by
  unfold EconomicsEngine.allocateGenesis TokenSupply.updateTreasuryBalance TokenSupply.updateLiquidityBalance
    TokenSupply.updateGenesisBalance TokenSupply.updateCirculatingSupply
  refine Triple.get_met fun current fresh => ?_
  rw [fresh.1, Option.isSome_none, if_neg Bool.false_ne_true]
  have mints : Triple (fun engine : EconomicsEngine σ =>
      engine.allocation = none ∧ engine.supply.metrics.totalSupply = AdicAmount.zero)
      (EconomicsEngine.onSupply (TokenSupply.mintGenesis AdicAmount.genesisSupply)) (fun _ => Minted) Minted := by
    rintro engine ⟨_, unminted⟩
    rcases mintGenesis_ok unminted with ⟨minted, run, seen, _⟩
    rw [run]
    have total : minted.supply.metrics.totalSupply = AdicAmount.genesisSupply := congrArg GenesisView.total seen
    show minted.supply.metrics.totalSupply ≠ AdicAmount.zero
    rw [total]
    decide
  refine mints.bind fun _ => Triple.get_any fun current => ?_
  dsimp only
  generalize (⟨10000000 * 1000000000⟩ : AdicAmount) = faucet
  cases ((current.config.treasuryShare AdicAmount.genesisSupply).checkedAdd
      (current.config.liquidityShare AdicAmount.genesisSupply)).bind fun sum =>
        sum.checkedAdd (current.config.genesisShare AdicAmount.genesisSupply) with
  | none => exact triple_throw fun _ minted => minted
  | some allocated =>
    refine triple_ite (fun _ => triple_throw fun _ minted => minted) fun _ => ?_
    refine (onTreasury_minted _).bind fun _ => ?_
    refine (setMetrics_minted (by intro metrics; rfl)).bind fun _ => ?_
    refine (onTreasury_minted _).bind fun _ => ?_
    refine (recordGenesis_minted _ _ _).bind fun _ => ?_
    refine (onTreasury_minted _).bind fun _ => ?_
    refine (setMetrics_minted (by intro metrics; rfl)).bind fun _ => ?_
    refine (recordGenesis_minted _ _ _).bind fun _ => ?_
    refine (onTreasury_minted _).bind fun _ => ?_
    refine (setMetrics_minted (by intro metrics; rfl)).bind fun _ => ?_
    refine (recordGenesis_minted _ _ _).bind fun _ => ?_
    refine (mintEmission_minted _).bind fun _ => ?_
    refine (onTreasury_minted _).bind fun _ => ?_
    refine (recordGenesis_minted _ _ _).bind fun _ => ?_
    refine (setMetrics_minted (by intro metrics; rfl)).bind fun _ => ?_
    exact triple_modify fun _ minted => minted

structure Restored (before after : EconomicsEngine σ) : Prop where
  totalSupply : after.supply.metrics.totalSupply = before.supply.metrics.totalSupply
  balances : (heldBy after.treasury.balances).1 = (heldBy before.treasury.balances).1
  stored : (WritableStorage.held after.treasury.balances.storage).1 =
    (WritableStorage.held before.treasury.balances.storage).1
  multisig : after.treasury.multisig = before.treasury.multisig

def CanSucceed (engine : EconomicsEngine σ) : Prop :=
  ∃ (config : AllocationPercentages) (later : Int), config.validateConfig = .ok () ∧
    ∃ last, EconomicsEngine.allocateGenesis later { engine with config := config.allocationConfig } = .ok () last

/-- An allocation that fails changes nothing, and takes no chance from a later one. -/
def AllOrNothing (now : Int) (engine : EconomicsEngine σ) : Prop :=
  ∀ error next, EconomicsEngine.allocateGenesis now engine = .error error next →
    Restored engine next ∧ (CanSucceed engine → CanSucceed next)

theorem settles_of_allOrNothing (unallocated : engine.allocation = none)
    (unminted : engine.supply.metrics.totalSupply = AdicAmount.zero) (whole : AllOrNothing now engine) :
    Settles engine := by
  rw [← allocateGenesis_ok_iff now unallocated unminted]
  have minted := @allocateGenesis_minted σ _ _ now engine ⟨unallocated, unminted⟩
  cases run : EconomicsEngine.allocateGenesis now engine with
  | ok value next => exact ⟨next, rfl⟩
  | error error next =>
    rw [run] at minted
    have kept := (whole error next run).1.totalSupply
    rw [unminted] at kept
    exact (minted kept).elim

theorem allOrNothing_of_unchanged
    (fails : ∃ error, EconomicsEngine.allocateGenesis now engine = .error error engine) : AllOrNothing now engine := by
  rcases fails with ⟨error, failed⟩
  intro other next run
  rw [failed] at run
  cases run
  exact ⟨⟨rfl, rfl, rfl, rfl⟩, id⟩

omit [WritableStorage σ] in
theorem mintGenesis_error (unallocated : engine.allocation = none)
    (minted : engine.supply.metrics.totalSupply ≠ AdicAmount.zero) :
    EconomicsEngine.allocateGenesis now engine = .error .genesisMinted engine := by
  unfold EconomicsEngine.allocateGenesis
  rw [bind_get, unallocated, Option.isSome_none, if_neg Bool.false_ne_true]
  refine bind_error (onSupply_error ?_)
  unfold TokenSupply.mintGenesis
  rw [bind_get, if_pos minted]
  rfl

theorem genesis_all_or_nothing_iff (now : Int) (engine : EconomicsEngine σ) :
    AllOrNothing now engine ↔ engine.allocation.isSome ∨
      engine.supply.metrics.totalSupply ≠ AdicAmount.zero ∨ Settles engine := by
  cases allocation : engine.allocation with
  | some known =>
    refine ⟨fun _ => .inl rfl, fun _ => allOrNothing_of_unchanged ⟨.genesisAllocated, ?_⟩⟩
    unfold EconomicsEngine.allocateGenesis
    rw [bind_get, allocation]
    rfl
  | none =>
    by_cases unminted : engine.supply.metrics.totalSupply = AdicAmount.zero
    · constructor
      · intro whole
        exact .inr (.inr (settles_of_allOrNothing allocation unminted whole))
      · rintro (isSome | minted | settles)
        · cases isSome
        · exact (minted unminted).elim
        · rcases (allocateGenesis_ok_iff now allocation unminted).mpr settles with ⟨last, run⟩
          intro error next failed
          rw [run] at failed
          cases failed
    · exact ⟨fun _ => .inr (.inl unminted), fun _ =>
        allOrNothing_of_unchanged ⟨.genesisMinted, mintGenesis_error allocation unminted⟩⟩

end

def idleSchedule : EmissionSchedule := ⟨fun _ _ _ => AdicAmount.zero, 0, 0⟩

def defaultEngine : EconomicsEngine MemoryStorage :=
  EconomicsEngine.new MemoryStorage.new AllocationPercentages.default.allocationConfig idleSchedule 0

/-- The default configuration has no signers, which is found out after the mint. -/
theorem default_genesis_half_done :
    ¬ ∀ (config : AllocationPercentages) (engine : EconomicsEngine MemoryStorage) (now : Int),
      config.validateConfig = .ok () ∨ config = AllocationPercentages.default →
        engine.config = config.allocationConfig → AllOrNothing now engine := by
  intro claim
  have whole := claim AllocationPercentages.default defaultEngine 0 (.inr rfl) rfl
  exact (settles_of_allOrNothing rfl rfl whole).signers.some_signer rfl

end AdicProof.Economics
