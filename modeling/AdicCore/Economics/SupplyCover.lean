import AdicCore.Economics.BoundedBalances
import AdicCore.Economics.Engine
import AdicCore.Economics.RocksBooks

open AdicModel AdicModel.Economics Calls

namespace AdicProof.Economics

section

variable {σ α : Type}

def balancesOf (engine : EconomicsEngine σ) : BalanceManager σ := engine.treasury.balances

def supplyOf (engine : EconomicsEngine σ) : Nat := units engine.supply.metrics.totalSupply

variable [EconomicsStorage σ] [FallibleStorage σ] {slack : Nat} {address recipient : AccountAddress}
  {amount : AdicAmount} (blake3 : List UInt8 → Bytes32) (now : Int)

def Covered (slack : Nat) (engine : EconomicsEngine σ) : Prop :=
  (∃ bound, bound + slack ≤ supplyOf engine ∧ Within bound (balancesOf engine)) ∧ supplyOf engine ≤ 10 ^ 18

theorem Covered.less {less : Nat} {engine : EconomicsEngine σ} (covered : Covered slack engine) (smaller : less ≤ slack) :
    Covered less engine := by
  rcases covered with ⟨⟨bound, room, within⟩, capped⟩
  exact ⟨⟨bound, by omega, within⟩, capped⟩

theorem Covered.base {engine : EconomicsEngine σ} (covered : Covered slack engine) : Covered 0 engine :=
  covered.less (Nat.zero_le _)

theorem covered_less {call : Call (EconomicsEngine σ) α} {post : α → EconomicsEngine σ → Prop}
    {failed : EconomicsEngine σ → Prop} (less : Nat) (smaller : less ≤ slack)
    (triple : Triple (Covered less) call post failed) : Triple (Covered slack) call post failed :=
  triple.weaken (fun _ covered => covered.less smaller) (fun _ _ holds => holds) fun _ holds => holds

omit [EconomicsStorage σ] [FallibleStorage σ] in
theorem supplyOf_congr {engine next : EconomicsEngine σ} (same : next.supply = engine.supply) :
    supplyOf next = supplyOf engine := by
  unfold supplyOf
  rw [same]

variable {call : Call (TreasuryManager σ) α}

omit [EconomicsStorage σ] [FallibleStorage σ] in
theorem onTreasury_triple {pre : TreasuryManager σ → Prop}
    {post : α → TreasuryManager σ → Prop} {failed : TreasuryManager σ → Prop} (triple : Triple pre call post failed)
    (supply : TokenSupply) :
    Triple (fun engine => pre engine.treasury ∧ engine.supply = supply) (EconomicsEngine.onTreasury call)
      (fun value engine => post value engine.treasury ∧ engine.supply = supply)
      (fun engine => failed engine.treasury ∧ engine.supply = supply) := by
  rintro engine ⟨holds, same⟩
  have result := triple engine.treasury holds
  unfold EconomicsEngine.onTreasury
  cases run : call engine.treasury with
  | ok value next =>
    rw [run] at result
    exact ⟨result, same⟩
  | error error next =>
    rw [run] at result
    exact ⟨result, same⟩

theorem onTreasury_covered {grows : Nat}
    (triple : ∀ bound, Triple (TreasuryWithin bound) call (fun _ => TreasuryWithin (bound + grows)) (TreasuryWithin bound)) :
    Triple (@Covered σ _ _ (grows + slack)) (EconomicsEngine.onTreasury call) (fun _ => Covered slack) (Covered 0) := by
  rintro engine ⟨⟨bound, room, within⟩, capped⟩
  refine (onTreasury_triple (triple bound) engine.supply).weaken (fun _ holds => holds) ?_ ?_ engine ⟨within, rfl⟩
  · rintro _ next ⟨kept, same⟩
    have total := supplyOf_congr same
    exact ⟨⟨bound + grows, by omega, kept⟩, total.trans_le capped⟩
  · rintro next ⟨kept, same⟩
    have total := supplyOf_congr same
    exact ⟨⟨bound, by omega, kept⟩, total.trans_le capped⟩

theorem keepsTreasury_covered
    (triple : ∀ bound, Triple (TreasuryWithin bound) call (fun _ => TreasuryWithin bound) (TreasuryWithin bound)) :
    Triple (@Covered σ _ _ slack) (EconomicsEngine.onTreasury call) (fun _ => Covered slack) (Covered 0) :=
  covered_less (0 + slack) (Nat.zero_add slack).le (onTreasury_covered triple)

theorem credit_covered : Triple (@Covered σ _ _ (units amount + slack))
    (EconomicsEngine.onBalances (BalanceManager.credit now address amount)) (fun _ => Covered slack) (Covered 0) :=
  onTreasury_covered fun _ => onBalances_triple (credit_within now)

theorem onSupply_covered {call : Call TokenSupply α}
    (keeps : ∀ supply, (stateAfter call supply).metrics.totalSupply = supply.metrics.totalSupply) :
    Triple (@Covered σ _ _ slack) (EconomicsEngine.onSupply call) (fun _ => Covered slack) (Covered 0) := by
  rintro engine ⟨⟨bound, room, within⟩, capped⟩
  have same := keeps engine.supply
  unfold stateAfter at same
  unfold EconomicsEngine.onSupply
  cases run : call engine.supply with
  | ok value next =>
    rw [run] at same
    have total : supplyOf { engine with supply := next } = supplyOf engine := congrArg units same
    exact ⟨⟨bound, by omega, within⟩, total.trans_le capped⟩
  | error error next =>
    rw [run] at same
    have total : supplyOf { engine with supply := next } = supplyOf engine := congrArg units same
    exact ⟨⟨bound, by omega, within⟩, total.trans_le capped⟩

theorem mintGenesis_covered : Triple (@Covered σ _ _ 0)
    (EconomicsEngine.onSupply (TokenSupply.mintGenesis AdicAmount.genesisSupply))
    (fun _ => Covered (units AdicAmount.genesisSupply)) (Covered 0) := by
  rintro engine ⟨⟨bound, room, within⟩, capped⟩
  by_cases minted : engine.supply.metrics.totalSupply = AdicAmount.zero
  · have run : TokenSupply.mintGenesis AdicAmount.genesisSupply engine.supply = .ok () { engine.supply with
        metrics := { engine.supply.metrics with totalSupply := AdicAmount.genesisSupply } } := by
      show (if engine.supply.metrics.totalSupply ≠ AdicAmount.zero then _ else _ : Call TokenSupply Unit) engine.supply = _
      rw [if_neg (not_not.mpr minted), if_neg (not_not.mpr rfl)]
      rfl
    have empty : supplyOf engine = 0 := by
      unfold supplyOf
      rw [minted, units_zero]
    unfold EconomicsEngine.onSupply
    rw [run]
    refine ⟨⟨bound, ?_, within⟩, ?_⟩
    · show bound + units AdicAmount.genesisSupply ≤ units AdicAmount.genesisSupply
      omega
    · show units AdicAmount.genesisSupply ≤ 10 ^ 18
      decide
  · have run : TokenSupply.mintGenesis AdicAmount.genesisSupply engine.supply = .error .genesisMinted engine.supply := by
      show (if engine.supply.metrics.totalSupply ≠ AdicAmount.zero then _ else _ : Call TokenSupply Unit) engine.supply = _
      rw [if_pos minted]
      rfl
    unfold EconomicsEngine.onSupply
    rw [run]
    exact ⟨⟨bound, room, within⟩, capped⟩

theorem mintEmission_triple (supply : TokenSupply) : Triple (fun state => state = supply) (TokenSupply.mintEmission amount)
    (fun _ next => units next.metrics.totalSupply = units supply.metrics.totalSupply + units amount ∧
      units next.metrics.totalSupply ≤ 10 ^ 18) (fun next => next = supply) := by
  unfold TokenSupply.mintEmission
  refine Triple.get fun current same => ?_
  subst same
  cases sum : current.metrics.totalSupply.checkedAdd amount with
  | none => exact triple_throw fun _ same => same
  | some newSupply =>
    rw [checkedAdd_eq_some] at sum
    refine triple_ite (fun _ => triple_throw fun _ same => same) fun capped => ?_
    rw [amount_lt, units_maxSupply, not_lt] at capped
    exact triple_modify fun _ _ => ⟨sum, capped⟩

theorem mintEmission_covered : Triple (@Covered σ _ _ slack) (EconomicsEngine.onSupply (TokenSupply.mintEmission amount))
    (fun _ => Covered (units amount + slack)) (Covered 0) := by
  rintro engine covered
  have ⟨⟨bound, room, within⟩, capped⟩ := covered
  have result := @mintEmission_triple amount engine.supply engine.supply rfl
  unfold EconomicsEngine.onSupply
  cases run : TokenSupply.mintEmission amount engine.supply with
  | ok value next =>
    rw [run] at result
    have total : supplyOf { engine with supply := next } = supplyOf engine + units amount := result.1
    exact ⟨⟨bound, by omega, within⟩, result.2⟩
  | error error next =>
    rw [run] at result
    subst result
    exact covered.base

theorem recordGenesis_covered (txHash : String) : Triple (@Covered σ _ _ slack)
    (EconomicsEngine.recordGenesis now recipient amount txHash) (fun _ => Covered slack) (Covered 0) := by
  unfold EconomicsEngine.recordGenesis
  have recorded : Triple (@Covered σ _ _ slack) (EconomicsEngine.onBalances (BalanceManager.onStorage
      (EconomicsStorage.recordTransaction ⟨AccountAddress.zero, recipient, amount, ⟨now, 0⟩, txHash, "confirmed"⟩)))
      (fun _ => Covered slack) (Covered slack) := by
    rintro engine ⟨⟨bound, room, within⟩, capped⟩
    refine (onTreasury_triple (onBalances_triple (recordTransaction_within _)) engine.supply).weaken
      (fun _ holds => holds) ?_ ?_ engine ⟨within, rfl⟩
    · rintro _ next ⟨kept, same⟩
      have total := supplyOf_congr same
      exact ⟨⟨bound, by omega, kept⟩, total.trans_le capped⟩
    · rintro next ⟨kept, same⟩
      have total := supplyOf_congr same
      exact ⟨⟨bound, by omega, kept⟩, total.trans_le capped⟩
  refine ((attempt_triple recorded).weaken (fun _ covered => covered) ?_ fun _ covered => covered).bind
    fun _ => onSupply_covered fun _ => rfl
  intro result next kept
  cases result with
  | ok value => exact kept
  | error error => exact kept

theorem allocateGenesis_covered : Triple (@Covered σ _ _ 0) (EconomicsEngine.allocateGenesis now)
    (fun _ => Covered 0) (Covered 0) := by
  unfold EconomicsEngine.allocateGenesis
  refine Triple.get_any fun current => triple_ite (fun _ => triple_throw fun _ covered => covered) fun _ => ?_
  refine mintGenesis_covered.bind fun _ => Triple.get_any fun current => ?_
  dsimp only
  generalize (⟨10000000 * 1000000000⟩ : AdicAmount) = faucetAmount
  cases sum : ((current.config.treasuryShare AdicAmount.genesisSupply).checkedAdd
      (current.config.liquidityShare AdicAmount.genesisSupply)).bind fun sum =>
        sum.checkedAdd (current.config.genesisShare AdicAmount.genesisSupply) with
  | none => exact triple_throw fun _ covered => covered.base
  | some allocated =>
    refine triple_ite (fun _ => triple_throw fun _ covered => covered.base) fun enough => ?_
    rcases Option.bind_eq_some_iff.mp sum with ⟨first, firstSum, wholeSum⟩
    rw [checkedAdd_eq_some] at firstSum wholeSum
    rw [amount_lt, not_lt] at enough
    -- The slack is what is still to be credited.
    refine covered_less (units (current.config.treasuryShare AdicAmount.genesisSupply) +
      (units (current.config.liquidityShare AdicAmount.genesisSupply) +
        (units (current.config.genesisShare AdicAmount.genesisSupply) + 0))) (by omega) ?_
    refine (credit_covered now).bind fun _ => ?_
    refine (onSupply_covered fun _ => rfl).bind fun _ => ?_
    refine (keepsTreasury_covered fun _ => initializeMultisig_within _ _).bind fun _ => ?_
    refine (recordGenesis_covered now _).bind fun _ => ?_
    refine (credit_covered now).bind fun _ => ?_
    refine (onSupply_covered fun _ => rfl).bind fun _ => ?_
    refine (recordGenesis_covered now _).bind fun _ => ?_
    refine (credit_covered now).bind fun _ => ?_
    refine (onSupply_covered fun _ => rfl).bind fun _ => ?_
    refine (recordGenesis_covered now _).bind fun _ => ?_
    refine mintEmission_covered.bind fun _ => ?_
    refine (credit_covered now).bind fun _ => ?_
    refine (recordGenesis_covered now _).bind fun _ => ?_
    refine (onSupply_covered fun _ => rfl).bind fun _ => ?_
    exact triple_modify fun _ covered => covered

theorem releaseGenesisTokens_covered : Triple (@Covered σ _ _ 0)
    (EconomicsEngine.releaseGenesisTokens blake3 now recipient amount) (fun _ => Covered 0) (Covered 0) := by
  unfold EconomicsEngine.releaseGenesisTokens
  refine Triple.get_any fun _ => triple_ite (fun _ => triple_throw fun _ covered => covered) fun _ => ?_
  refine (keepsTreasury_covered fun _ => onBalances_triple (getBalance_within now)).bind fun _ => ?_
  refine triple_ite (fun _ => triple_throw fun _ covered => covered) fun _ => ?_
  refine (keepsTreasury_covered fun _ => onBalances_triple (transfer_within blake3 now)).bind fun _ => ?_
  refine (onSupply_covered fun _ => rfl).bind fun _ => Triple.get_any fun _ => ?_
  exact onSupply_covered fun _ => rfl

theorem noteEmission_covered : Triple (@Covered σ _ _ slack) (EconomicsEngine.noteEmission now amount)
    (fun _ => Covered slack) (Covered slack) := triple_modify fun _ covered => covered

theorem mintAndDistribute_covered : Triple (@Covered σ _ _ 0) (EconomicsEngine.mintAndDistribute now amount recipient)
    (fun _ => Covered 0) (Covered 0) := by
  unfold EconomicsEngine.mintAndDistribute
  refine mintEmission_covered.bind fun _ => ?_
  refine (credit_covered now).bind fun _ => ?_
  refine (onSupply_covered fun _ => rfl).bind fun _ => ?_
  exact (noteEmission_covered now).bind fun _ => triple_pure fun _ covered => covered

theorem processEmission_covered : Triple (@Covered σ _ _ 0) (EconomicsEngine.processEmission now recipient)
    (fun _ => Covered 0) (Covered 0) := by
  unfold EconomicsEngine.processEmission
  refine Triple.get_any fun _ => triple_ite (fun _ => triple_throw fun _ covered => covered) fun _ => ?_
  refine triple_ite (fun _ => ?_) fun _ => mintAndDistribute_covered now
  exact triple_ite (fun _ => triple_throw fun _ covered => covered) fun _ => mintAndDistribute_covered now

theorem processPouwReward_covered (baseReward : AdicAmount) (sponsorFunded : Bool) : Triple (@Covered σ _ _ 0)
    (EconomicsEngine.processPouwReward blake3 now recipient baseReward sponsorFunded) (fun _ => Covered 0) (Covered 0) := by
  unfold EconomicsEngine.processPouwReward
  refine triple_ite (fun _ => Triple.get_any fun _ => ?_) fun _ => ?_
  · exact triple_ite (fun _ => processEmission_covered now) fun _ => triple_pure fun _ covered => covered
  · refine (keepsTreasury_covered fun _ => onBalances_triple (getBalance_within now)).bind fun _ => ?_
    refine triple_ite (fun _ => ?_) fun _ => triple_pure fun _ covered => covered
    refine (keepsTreasury_covered fun _ => onBalances_triple (transfer_within blake3 now)).bind fun _ => ?_
    exact (onSupply_covered fun _ => rfl).bind fun _ => triple_pure fun _ covered => covered

theorem burn_covered : Triple (@Covered σ _ _ 0) (EconomicsEngine.onSupply (TokenSupply.burn amount))
    (fun _ => Covered 0) (Covered 0) := by
  refine onSupply_covered fun supply => ?_
  unfold stateAfter
  by_cases more : supply.metrics.circulatingSupply < amount
  · have run : TokenSupply.burn amount supply = .error .burnsMoreThanCirculates supply := by
      show (if supply.metrics.circulatingSupply < amount then _ else _ : Call TokenSupply Unit) supply = _
      rw [if_pos more]
      rfl
    rw [run]
  · have run : TokenSupply.burn amount supply = .ok () { supply with metrics := { supply.metrics with
        circulatingSupply := supply.metrics.circulatingSupply.saturatingSub amount
        burnedAmount := supply.metrics.burnedAmount.saturatingAdd amount } } := by
      show (if supply.metrics.circulatingSupply < amount then _ else _ : Call TokenSupply Unit) supply = _
      rw [if_neg more]
      rfl
    rw [run]

theorem mintAndDistribute_adds {engine next : EconomicsEngine σ} {minted : AdicAmount} {holdings : Holdings}
    (has : Has holdings (balancesOf engine))
    (run : EconomicsEngine.mintAndDistribute now amount recipient engine = .ok minted next) :
    minted = amount ∧ supplyOf next = supplyOf engine + units amount ∧
      (amount = AdicAmount.zero ∧ Has holdings (balancesOf next) ∨
        ∃ newBalance, amount ≠ AdicAmount.zero ∧ units newBalance = units (holdings.read recipient) + units amount ∧
          Has ((holdings.load recipient).put recipient newBalance) (balancesOf next)) := by
  let Added : EconomicsEngine σ → Prop := fun state => supplyOf state = supplyOf engine + units amount ∧
    (amount = AdicAmount.zero ∧ Has holdings (balancesOf state) ∨
      ∃ newBalance, amount ≠ AdicAmount.zero ∧ units newBalance = units (holdings.read recipient) + units amount ∧
        Has ((holdings.load recipient).put recipient newBalance) (balancesOf state))
  have adds : Triple (fun state => state = engine) (EconomicsEngine.mintAndDistribute now amount recipient)
      (fun minted state => minted = amount ∧ Added state) (fun _ => True) := by
    unfold EconomicsEngine.mintAndDistribute
    have mints : Triple (fun state => state = engine) (EconomicsEngine.onSupply (TokenSupply.mintEmission amount))
        (fun _ state => supplyOf state = supplyOf engine + units amount ∧ Has holdings (balancesOf state))
        (fun _ => True) := by
      rintro state rfl
      have result := @mintEmission_triple amount state.supply state.supply rfl
      unfold EconomicsEngine.onSupply
      cases run : TokenSupply.mintEmission amount state.supply with
      | ok value next =>
        rw [run] at result
        exact ⟨result.1, has⟩
      | error error next => trivial
    refine mints.bind fun _ => ?_
    have credits : Triple
        (fun state : EconomicsEngine σ => supplyOf state = supplyOf engine + units amount ∧ Has holdings (balancesOf state))
        (EconomicsEngine.onBalances (BalanceManager.credit now recipient amount)) (fun _ => Added) (fun _ => True) := by
      rintro state ⟨total, has⟩
      refine (onTreasury_triple (onBalances_triple (credit_triple now)) state.supply).weaken (fun _ holds => holds) ?_
        (fun _ _ => trivial) state ⟨has, rfl⟩
      rintro _ next ⟨credited, same⟩
      exact ⟨(supplyOf_congr same).trans total, credited⟩
    refine credits.bind fun _ => ?_
    have event : Triple Added (EconomicsEngine.onSupply (TokenSupply.addTransferEvent
        ⟨AccountAddress.zero, recipient, amount, now, .emission⟩)) (fun _ => Added) (fun _ => True) := fun _ added => added
    refine event.bind fun _ => ?_
    have done : Triple Added (EconomicsEngine.noteEmission now amount) (fun _ => Added) (fun _ => True) :=
      triple_modify fun _ added => added
    exact done.bind fun _ => triple_pure fun _ added => ⟨rfl, added⟩
  have result := adds engine rfl
  rw [run] at result
  exact result

end

inductive EngineOperation where
  | allocateGenesis
  | processEmission (recipient : AccountAddress)
  | processPouwReward (validator : AccountAddress) (baseReward : AdicAmount) (sponsorFunded : Bool)
  | releaseGenesisTokens (recipient : AccountAddress) (amount : AdicAmount)
  | burn (amount : AdicAmount)
  | transfer (sender recipient : AccountAddress) (amount : AdicAmount)
  | initializeMultisig (signers : List AccountAddress) (threshold : UInt32)
  | updateMultisig (newSigners : List AccountAddress) (newThreshold : UInt32) (approver : AccountAddress)
  | proposeTransfer (recipient : AccountAddress) (amount : AdicAmount) (reason : String) (proposer : AccountAddress)
  | approveProposal (proposalId : Bytes32) (approver : AccountAddress)
  | rejectProposal (proposalId : Bytes32) (rejector : AccountAddress)

section

variable {σ : Type} [EconomicsStorage σ] (blake3 : List UInt8 → Bytes32)

def nextEngine (engine : EconomicsEngine σ) : EngineOperation × Int → EconomicsEngine σ
  | (.allocateGenesis, now) => stateAfter (EconomicsEngine.allocateGenesis now) engine
  | (.processEmission recipient, now) => stateAfter (EconomicsEngine.processEmission now recipient) engine
  | (.processPouwReward validator baseReward sponsorFunded, now) =>
    stateAfter (EconomicsEngine.processPouwReward blake3 now validator baseReward sponsorFunded) engine
  | (.releaseGenesisTokens recipient amount, now) =>
    stateAfter (EconomicsEngine.releaseGenesisTokens blake3 now recipient amount) engine
  | (.burn amount, _) => stateAfter (EconomicsEngine.onSupply (TokenSupply.burn amount)) engine
  | (.transfer sender recipient amount, now) =>
    stateAfter (EconomicsEngine.onBalances (BalanceManager.transfer blake3 now sender recipient amount)) engine
  | (.initializeMultisig signers threshold, _) =>
    stateAfter (EconomicsEngine.onTreasury (TreasuryManager.initializeMultisig signers threshold)) engine
  | (.updateMultisig newSigners newThreshold approver, _) =>
    stateAfter (EconomicsEngine.onTreasury (TreasuryManager.updateMultisig newSigners newThreshold approver)) engine
  | (.proposeTransfer recipient amount reason proposer, now) => stateAfter
    (EconomicsEngine.onTreasury (TreasuryManager.proposeTransfer blake3 now recipient amount reason proposer)) engine
  | (.approveProposal proposalId approver, now) =>
    stateAfter (EconomicsEngine.onTreasury (TreasuryManager.approveProposal blake3 now proposalId approver)) engine
  | (.rejectProposal proposalId rejector, _) =>
    stateAfter (EconomicsEngine.onTreasury (TreasuryManager.rejectProposal proposalId rejector)) engine

variable [FallibleStorage σ]

theorem nextEngine_covered {engine : EconomicsEngine σ} (covered : Covered 0 engine) (call : EngineOperation × Int) :
    Covered 0 (nextEngine blake3 engine call) := by
  obtain ⟨operation, now⟩ := call
  unfold nextEngine
  cases operation with
  | allocateGenesis => exact (allocateGenesis_covered now).stateAfter covered
  | processEmission recipient => exact (processEmission_covered now).stateAfter covered
  | processPouwReward validator baseReward sponsorFunded =>
    exact (processPouwReward_covered blake3 now baseReward sponsorFunded).stateAfter covered
  | releaseGenesisTokens recipient amount => exact (releaseGenesisTokens_covered blake3 now).stateAfter covered
  | burn amount => exact burn_covered.stateAfter covered
  | transfer sender recipient amount =>
    exact (keepsTreasury_covered fun _ => onBalances_triple (transfer_within blake3 now)).stateAfter covered
  | initializeMultisig signers threshold =>
    exact (keepsTreasury_covered fun _ => initializeMultisig_within signers threshold).stateAfter covered
  | updateMultisig newSigners newThreshold approver =>
    exact (keepsTreasury_covered fun _ => updateMultisig_within newSigners newThreshold approver).stateAfter covered
  | proposeTransfer recipient amount reason proposer =>
    exact (keepsTreasury_covered fun _ => proposeTransfer_within blake3 now amount reason proposer).stateAfter covered
  | approveProposal proposalId approver =>
    exact (keepsTreasury_covered fun _ => approveProposal_within blake3 now proposalId approver).stateAfter covered
  | rejectProposal proposalId rejector =>
    exact (keepsTreasury_covered fun _ => rejectProposal_within proposalId rejector).stateAfter covered

def engineAfter (engine : EconomicsEngine σ) (calls : List (EngineOperation × Int)) : EconomicsEngine σ :=
  Runs.after (nextEngine blake3) engine calls

noncomputable def storedSum (engine : EconomicsEngine σ) : Nat :=
  ledgerSum (FallibleStorage.balance (balancesOf engine).storage)

def SupplyCovers (engine : EconomicsEngine σ) : Prop :=
  storedSum engine ≤ supplyOf engine ∧ engine.supply.metrics.totalSupply ≤ AdicAmount.maxSupply

def RaisesEqually (engine next : EconomicsEngine σ) : Prop :=
  ∃ raise, supplyOf next = supplyOf engine + raise ∧ storedSum next = storedSum engine + raise

def ReadsStored (engine : EconomicsEngine σ) (address : AccountAddress) : Prop :=
  (cachedOf (balancesOf engine) address).getD (FallibleStorage.balance (balancesOf engine).storage address) =
    FallibleStorage.balance (balancesOf engine).storage address

def scheduledEmission (engine : EconomicsEngine σ) (now : Int) : AdicAmount :=
  engine.schedule.calculateEmissionAmount engine.supply.metrics.totalSupply (now - engine.schedule.startTimestamp)
    (now - engine.schedule.lastEmissionTimestamp)

omit [FallibleStorage σ] in
theorem processEmission_mints {engine next : EconomicsEngine σ} {now : Int} {recipient : AccountAddress}
    {minted : AdicAmount} (run : EconomicsEngine.processEmission now recipient engine = .ok minted next)
    (capped : supplyOf engine ≤ 10 ^ 18) :
    ∃ amount, EconomicsEngine.mintAndDistribute now amount recipient engine = .ok minted next ∧
      (amount = AdicAmount.zero ↔ scheduledEmission engine now = AdicAmount.zero) := by
  change (if now - engine.schedule.lastEmissionTimestamp < 60 then
      throw (.emissionTooFrequent (60 - (now - engine.schedule.lastEmissionTimestamp)))
    else if !engine.supply.canMint (scheduledEmission engine now) then
      if engine.supply.remainingMintable = AdicAmount.zero then throw .maxSupplyReached
      else EconomicsEngine.mintAndDistribute now engine.supply.remainingMintable recipient
    else EconomicsEngine.mintAndDistribute now (scheduledEmission engine now) recipient :
    Call (EconomicsEngine σ) AdicAmount) engine = .ok minted next at run
  split at run
  · cases run
  · split at run
    · next unmintable =>
      split at run
      · cases run
      · next remains =>
        refine ⟨_, run, iff_of_false remains fun nothing => ?_⟩
        have sum : engine.supply.metrics.totalSupply.checkedAdd AdicAmount.zero = some engine.supply.metrics.totalSupply :=
          checkedAdd_eq_some.mpr (by simp)
        have capped : engine.supply.metrics.totalSupply ≤ AdicAmount.maxSupply := by
          rw [amount_le, units_maxSupply]
          exact capped
        unfold TokenSupply.canMint at unmintable
        rw [nothing, sum] at unmintable
        simp [capped] at unmintable
    · exact ⟨_, run, Iff.rfl⟩

/-- The supply covers the balances after every run. An emission raises both equally exactly if its recipient reads as
    stored or nothing is emitted. -/
theorem supply_covers_ledger (storage : σ) (empty : ∀ address, FallibleStorage.balance storage address = AdicAmount.zero)
    (config : AllocationConfig) (schedule : EmissionSchedule) (started : Int) (calls : List (EngineOperation × Int)) :
    SupplyCovers (engineAfter blake3 (EconomicsEngine.new storage config schedule started) calls) ∧
    (∀ recipient now minted next, EconomicsEngine.processEmission now recipient
        (engineAfter blake3 (EconomicsEngine.new storage config schedule started) calls) = .ok minted next →
      (RaisesEqually (engineAfter blake3 (EconomicsEngine.new storage config schedule started) calls) next ↔
        ReadsStored (engineAfter blake3 (EconomicsEngine.new storage config schedule started) calls) recipient ∨
          scheduledEmission (engineAfter blake3 (EconomicsEngine.new storage config schedule started) calls) now =
            AdicAmount.zero)) ∧
    (¬ Faulty σ → ∀ recipient,
      ReadsStored (engineAfter blake3 (EconomicsEngine.new storage config schedule started) calls) recipient) := by
  have start : Covered 0 (EconomicsEngine.new storage config schedule started) := by
    refine ⟨⟨0, Nat.zero_le _, ⟨FallibleStorage.balance storage, fun _ => none⟩, ⟨rfl, rfl⟩, ?_, fun _ _ => rfl⟩, ?_⟩
    · refine (Finset.sum_eq_zero fun address _ => ?_).le
      unfold Holdings.exposure Holdings.read
      simp [empty address]
    · show 0 ≤ 10 ^ 18
      omega
  have covered : Covered 0 (engineAfter blake3 (EconomicsEngine.new storage config schedule started) calls) :=
    Runs.invariant_of_kept start (fun _ call kept => nextEngine_covered blake3 kept call) calls
  generalize engineAfter blake3 (EconomicsEngine.new storage config schedule started) calls = engine at covered
  rcases covered with ⟨⟨bound, room, holdings, has, exposed, fresh⟩, capped⟩
  have stored : FallibleStorage.balance (balancesOf engine).storage = holdings.stored := has.1
  have reads : ∀ address, ReadsStored engine address ↔ holdings.read address = holdings.stored address := by
    intro address
    unfold ReadsStored Holdings.read
    rw [stored, has.2]
  refine ⟨⟨?_, ?_⟩, ?_, fun sound recipient => (reads recipient).mpr (fresh sound recipient)⟩
  · have below : storedSum engine ≤ holdings.exposed := by
      unfold storedSum
      rw [stored]
      exact Holdings.ledgerSum_le
    omega
  · rw [amount_le, units_maxSupply]
    exact capped
  · intro recipient now minted next run
    rcases processEmission_mints run capped with ⟨amount, mints, nothing⟩
    rcases mintAndDistribute_adds now has mints with ⟨_, total, added⟩
    rw [reads, ← nothing]
    rcases added with ⟨zero, kept⟩ | ⟨newBalance, positive, sum, kept⟩
    · refine iff_of_true ⟨0, ?_, ?_⟩ (.inr zero)
      · rw [total, zero, units_zero]
      · unfold storedSum
        rw [kept.1, stored, add_zero]
    · have change := @Holdings.ledgerSum_credit holdings recipient newBalance
      have before : storedSum engine = ledgerSum holdings.stored := congrArg ledgerSum stored
      have after : storedSum next = ledgerSum ((holdings.load recipient).put recipient newBalance).stored :=
        congrArg ledgerSum kept.1
      rw [← before, ← after] at change
      constructor
      · rintro ⟨raise, supplyRaise, sumRaise⟩
        refine .inl (units_injective ?_)
        omega
      · rintro (same | zero)
        · refine ⟨units amount, total, ?_⟩
          rw [same] at sum
          omega
        · exact absurd zero positive

end

def genesisConfig : AllocationConfig where
  treasuryShare := fun total => ⟨total.baseUnits / 5⟩
  liquidityShare := fun total => ⟨total.baseUnits / 10 * 3⟩
  genesisShare := fun total => ⟨total.baseUnits / 2⟩
  treasuryMultisigThreshold := 2
  treasuryMultisigKeys := [⟨Bytes32.replicate 0xAA⟩, ⟨Bytes32.replicate 0xBB⟩, ⟨Bytes32.replicate 0xCC⟩]

def steadySchedule : EmissionSchedule := ⟨fun _ _ _ => ⟨1000000000⟩, 0, 0⟩

theorem supply_covers_ledger_genesis : SupplyCovers (engineAfter (fun _ => Bytes32.replicate 0)
    (EconomicsEngine.new MemoryStorage.new genesisConfig steadySchedule 0)
    [(.allocateGenesis, 0), (.processEmission (account 1), 60)]) :=
  (supply_covers_ledger _ MemoryStorage.new (fun _ => rfl) genesisConfig steadySchedule 0
    [(.allocateGenesis, 0), (.processEmission (account 1), 60)]).1

def halfReleased [RecordJson] : EconomicsEngine RocksDbStorage :=
  engineAfter (fun _ => Bytes32.replicate 0)
    (EconomicsEngine.new { RocksDbStorage.new with faults := List.replicate 9 false ++ [true] } genesisConfig
      steadySchedule 0)
    [(.allocateGenesis, 0), (.releaseGenesisTokens (account 1) ⟨5⟩, 0)]

def laterEmission [RecordJson] : EStateM.Result EconomicsError (EconomicsEngine RocksDbStorage) AdicAmount :=
  EconomicsEngine.processEmission 60 AccountAddress.genesisPool halfReleased

def LaterEmissionUnequal [RecordJson] : Prop :=
  ∃ minted next, laterEmission = .ok minted next ∧ ¬ RaisesEqually halfReleased next

def totals (engine : EconomicsEngine RocksDbStorage) : Nat × Nat :=
  (supplyOf engine, HashMap.total units (balancesOf engine).storage.cfBalances)

/-- What the release has taken from the pool comes back from the cache. -/
theorem later_emission_unequal : @LaterEmissionUnequal sampleJson := by
  let json := sampleJson
  have before : totals halfReleased = (310000000000000000, 309999999999999995) := by decide +kernel
  have after : (match laterEmission with
    | .ok _ next => some (totals next)
    | .error _ _ => none) = some (310000001000000000, 310000001000000000) := by decide +kernel
  cases run : laterEmission with
  | error error next =>
    rw [run] at after
    cases after
  | ok minted next =>
    rw [run] at after
    refine ⟨minted, next, run, ?_⟩
    rintro ⟨raise, supply, stored⟩
    have sums : ∀ engine : EconomicsEngine RocksDbStorage, storedSum engine = (totals engine).2 :=
      fun engine => ledgerSum_mapLedger _
    have supplies : ∀ engine : EconomicsEngine RocksDbStorage, supplyOf engine = (totals engine).1 := fun _ => rfl
    rw [sums, sums, Option.some.inj after, before] at stored
    rw [supplies, supplies, Option.some.inj after, before] at supply
    omega

end AdicProof.Economics
