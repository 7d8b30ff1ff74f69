import AdicCore.Economics.Engine
import AdicCore.Economics.FallibleBalances
import AdicCore.Economics.RocksBooks

open AdicModel AdicModel.Economics Calls

namespace AdicProof.Economics

theorem checkedAdd_value {a b c : AdicAmount} (sum : a.checkedAdd b = some c) : c = ⟨a.baseUnits + b.baseUnits⟩ := by
  unfold AdicAmount.checkedAdd at sum
  split at sum
  · exact (Option.some.inj sum).symm
  · cases sum

theorem mintEmission_cases (supply : TokenSupply) (amount : AdicAmount) :
    units supply.metrics.totalSupply + units amount ≤ 10 ^ 18 ∧
        (∃ next, TokenSupply.mintEmission amount supply = .ok () next ∧
          supply.metrics.totalSupply.checkedAdd amount = some next.metrics.totalSupply) ∨
      10 ^ 18 < units supply.metrics.totalSupply + units amount ∧
        ∃ error, TokenSupply.mintEmission amount supply = .error error supply := by
  unfold TokenSupply.mintEmission
  rw [bind_get]
  cases sum : supply.metrics.totalSupply.checkedAdd amount with
  | none =>
    have tooMuch := checkedAdd_eq_none.mp sum
    exact .inr ⟨by omega, _, rfl⟩
  | some newSupply =>
    have total := checkedAdd_eq_some.mp sum
    dsimp only
    by_cases above : AdicAmount.maxSupply < newSupply
    · rw [if_pos above]
      rw [amount_lt, units_maxSupply] at above
      exact .inr ⟨by omega, _, rfl⟩
    · rw [if_neg above]
      rw [amount_lt, units_maxSupply] at above
      exact .inl ⟨by omega, _, rfl, rfl⟩

section

variable {σ : Type} [EconomicsStorage σ]

/-- A storage that reads what it holds. A write fails, and changes nothing, if its fault says so. -/
class WritableStorage (σ : Type) [EconomicsStorage σ] where
  held : σ → Ledger × List Bool
  getBalance : ∀ address (storage : σ),
    EconomicsStorage.getBalance address storage = .ok ((held storage).1 address) storage
  setBalance : ∀ address amount (storage : σ), faulty (held storage).2 0 = false →
    Returns held (EconomicsStorage.setBalance address amount) storage ()
      (Function.update (held storage).1 address amount, (held storage).2.tail)
  setBalance_fails : ∀ address amount (storage : σ), faulty (held storage).2 0 = true →
    ∃ error next, EconomicsStorage.setBalance address amount storage = .error error next
  recordTransaction : ∀ tx (storage : σ),
    held (stateAfter (EconomicsStorage.recordTransaction tx) storage) = ((held storage).1, (held storage).2.tail)

theorem memory_getBalance (address : AccountAddress) (storage : MemoryStorage) :
    EconomicsStorage.getBalance address storage = .ok (mapLedger storage.balances address) storage := rfl

theorem memory_setBalance (address : AccountAddress) (amount : AdicAmount) (storage : MemoryStorage) :
    faulty [] 0 = false → Returns (fun storage : MemoryStorage => (mapLedger storage.balances, ([] : List Bool)))
      (EconomicsStorage.setBalance address amount) storage ()
      (Function.update (mapLedger storage.balances) address amount, []) :=
  fun _ => ⟨_, rfl, Prod.ext (HashMap.getD_store storage.balances address amount AdicAmount.zero) rfl⟩

theorem memory_unfaulty (address : AccountAddress) (amount : AdicAmount) (storage : MemoryStorage) :
    faulty [] 0 = true → ∃ error next, EconomicsStorage.setBalance address amount storage = .error error next := by
  intro breaks
  cases breaks

theorem memory_recordTransaction (tx : TransactionRecord) (storage : MemoryStorage) :
    (mapLedger (stateAfter (EconomicsStorage.recordTransaction tx) storage).balances, ([] : List Bool)) =
      (mapLedger storage.balances, []) := rfl

instance writableMemory : WritableStorage MemoryStorage where
  held storage := (mapLedger storage.balances, [])
  getBalance := memory_getBalance
  setBalance := memory_setBalance
  setBalance_fails := memory_unfaulty
  recordTransaction := memory_recordTransaction

theorem write_cases (change : RocksDbStorage → RocksDbStorage) (storage : RocksDbStorage) :
    faulty storage.faults 0 = false ∧
        RocksDbStorage.write change storage = .ok () (change { storage with faults := storage.faults.tail }) ∨
      faulty storage.faults 0 = true ∧
        ∃ error, RocksDbStorage.write change storage = .error error { storage with faults := storage.faults.tail } := by
  rcases storage with ⟨cfBalances, cfLocked, cfNonces, db, faults⟩
  cases faults with
  | nil => exact .inl ⟨rfl, rfl⟩
  | cons first rest =>
    cases first with
    | false => exact .inl ⟨rfl, rfl⟩
    | true => exact .inr ⟨rfl, _, rfl⟩

instance writableRocks [RecordJson] : WritableStorage RocksDbStorage where
  held storage := (mapLedger storage.cfBalances, storage.faults)
  getBalance _ _ := rfl
  setBalance address amount storage works := by
    show Returns _ (RocksDbStorage.setBalance address amount) _ _ _
    unfold RocksDbStorage.setBalance
    rcases write_cases _ storage with ⟨_, run⟩ | ⟨breaks, _⟩
    · exact ⟨_, run, Prod.ext (HashMap.getD_store storage.cfBalances address amount AdicAmount.zero) rfl⟩
    · rw [works] at breaks
      cases breaks
  setBalance_fails address amount storage breaks := by
    show ∃ error next, RocksDbStorage.setBalance address amount storage = _
    unfold RocksDbStorage.setBalance
    rcases write_cases _ storage with ⟨works, _⟩ | ⟨_, error, run⟩
    · rw [works] at breaks
      cases breaks
    · exact ⟨error, _, run⟩
  recordTransaction tx storage := by
    show (fun state : RocksDbStorage => (mapLedger state.cfBalances, state.faults))
      (stateAfter (RocksDbStorage.recordTransaction tx) storage) = _
    unfold RocksDbStorage.recordTransaction
    unfold stateAfter
    rcases write_cases (fun storage => { storage with db := _ }) storage with ⟨_, run⟩ | ⟨_, error, run⟩
    · rw [run]
    · rw [run]

structure Decides {ε τ υ : Type} (view : τ → υ) (call : EStateM ε τ Unit) (state : τ) (condition : Prop) (after : υ) :
    Prop where
  returns : condition → Returns view call state () after
  needs : ∀ next, call state = .ok () next → condition

section

variable {ε τ υ : Type} {view : τ → υ} {call : EStateM ε τ Unit} {state : τ} {condition remaining : Prop} {after : υ}

theorem Decides.of_returns (returns : Returns view call state () after) : Decides view call state True after :=
  ⟨fun _ => returns, fun _ _ => trivial⟩

theorem Decides.of_fails (fails : ∃ error last, call state = .error error last) (absurd : ¬ condition) :
    Decides view call state condition after := by
  rcases fails with ⟨error, last, failed⟩
  refine ⟨fun holds => (absurd holds).elim, fun next run => ?_⟩
  rw [failed] at run
  cases run

theorem Decides.bind {rest : Unit → EStateM ε τ Unit} (first : Decides view call state condition after)
    (second : ∀ next, view next = after → ((∃ last, rest () next = .ok () last) ↔ remaining)) :
    (∃ last, (call >>= rest) state = .ok () last) ↔ condition ∧ remaining := by
  constructor
  · rintro ⟨last, run⟩
    cases called : call state with
    | ok value next =>
      have holds := first.needs next called
      rcases first.returns holds with ⟨known, knownRun, seen⟩
      rw [bind_ok knownRun] at run
      exact ⟨holds, (second known seen).mp ⟨last, run⟩⟩
    | error error next =>
      rw [bind_error called] at run
      cases run
  · rintro ⟨holds, others⟩
    rcases first.returns holds with ⟨next, run, seen⟩
    rw [bind_ok run]
    exact (second next seen).mpr others

end

variable [WritableStorage σ]

def heldBy (manager : BalanceManager σ) : Ledger × List Bool :=
  (fun address => (cachedOf manager address).getD ((WritableStorage.held manager.storage).1 address),
    (WritableStorage.held manager.storage).2)

def Room (held : Ledger × List Bool) (address : AccountAddress) (amount : AdicAmount) : Prop :=
  amount ≠ AdicAmount.zero → units (held.1 address) + units amount ≤ 10 ^ 18 ∧ faulty held.2 0 = false

def credited (held : Ledger × List Bool) (address : AccountAddress) (amount : AdicAmount) : Ledger × List Bool :=
  if amount = AdicAmount.zero then held
  else (Function.update held.1 address ⟨(held.1 address).baseUnits + amount.baseUnits⟩, held.2.tail)

variable {manager : BalanceManager σ} {address : AccountAddress}

theorem heldBy_insert (manager : BalanceManager σ) (address : AccountAddress) (info : AccountInfo) :
    heldBy { manager with cache := manager.cache.insert address info } =
      (Function.update (heldBy manager).1 address info.balance, (heldBy manager).2) := by
  unfold heldBy
  congr 1
  funext other
  rw [cachedOf_insert, Function.update_apply, Function.update_apply]
  split <;> rfl

theorem getBalance_held (now : Int) :
    Returns heldBy (BalanceManager.getBalance now address) manager ((heldBy manager).1 address) (heldBy manager) := by
  unfold BalanceManager.getBalance
  apply Returns.get
  cases found : manager.cache.lookup address with
  | some info =>
    have same : (heldBy manager).1 address = info.balance := by
      show (cachedOf manager address).getD _ = _
      unfold cachedOf
      rw [found]
      rfl
    rw [same]
    exact returns_pure rfl
  | none =>
    have same : (heldBy manager).1 address = (WritableStorage.held manager.storage).1 address := by
      show (cachedOf manager address).getD _ = _
      unfold cachedOf
      rw [found]
      rfl
    have read : BalanceManager.onStorage (EconomicsStorage.getBalance address) manager =
        .ok ((heldBy manager).1 address) manager := by
      unfold BalanceManager.onStorage
      rw [WritableStorage.getBalance address manager.storage, same]
    refine Returns.bind_of_run read (Returns.bind_of_run rfl (returns_pure ?_))
    rw [heldBy_insert, Function.update_eq_self]

variable {error : EconomicsError}

omit [EconomicsStorage σ] [WritableStorage σ] in
theorem onStorage_error {call : Call σ Unit} {next : σ}
    (run : call manager.storage = .error error next) :
    BalanceManager.onStorage call manager = .error error { manager with storage := next } := by
  simp only [BalanceManager.onStorage, run]

omit [EconomicsStorage σ] [WritableStorage σ] in
theorem onStorage_ok {call : Call σ Unit} {next : σ} (run : call manager.storage = .ok () next) :
    BalanceManager.onStorage call manager = .ok () { manager with storage := next } := by
  simp only [BalanceManager.onStorage, run]

theorem setBalance_held (address : AccountAddress) (amount : AdicAmount)
    (works : faulty (heldBy manager).2 0 = false) :
    ∃ next, BalanceManager.onStorage (EconomicsStorage.setBalance address amount) manager =
        .ok () { manager with storage := next } ∧
      WritableStorage.held next = (Function.update (WritableStorage.held manager.storage).1 address amount,
        (heldBy manager).2.tail) := by
  rcases WritableStorage.setBalance address amount manager.storage works with ⟨next, run, seen⟩
  exact ⟨next, onStorage_ok run, seen⟩

theorem cacheBalance_held (now : Int) (address : AccountAddress) (amount : AdicAmount) :
    Returns heldBy (BalanceManager.cacheBalance now address amount) manager ()
      (Function.update (heldBy manager).1 address amount, (heldBy manager).2) := by
  unfold BalanceManager.cacheBalance
  apply Returns.get
  cases found : manager.cache.lookup address with
  | some info => exact ⟨_, rfl, heldBy_insert manager address _⟩
  | none => exact ⟨_, rfl, heldBy_insert manager address _⟩

theorem writeBalance_held (now : Int) (address : AccountAddress) (amount : AdicAmount)
    (works : faulty (heldBy manager).2 0 = false) :
    Returns heldBy (do
      BalanceManager.onStorage (EconomicsStorage.setBalance address amount)
      BalanceManager.cacheBalance now address amount) manager ()
      (Function.update (heldBy manager).1 address amount, (heldBy manager).2.tail) := by
  rcases setBalance_held address amount works with ⟨next, run, seen⟩
  refine Returns.bind_of_run run ?_
  have cached := @cacheBalance_held σ _ _ { manager with storage := next } now address amount
  convert cached using 1
  unfold heldBy
  rw [seen]
  congr 1
  funext other
  by_cases same : other = address
  · rw [same, Function.update_self, Function.update_self]
  · rw [Function.update_of_ne same, Function.update_of_ne same]
    show _ = (cachedOf _ other).getD (Function.update (WritableStorage.held manager.storage).1 address amount other)
    rw [Function.update_of_ne same]
    rfl

theorem credit_decides (now : Int) (address : AccountAddress) (amount : AdicAmount) :
    Decides heldBy (BalanceManager.credit now address amount) manager (Room (heldBy manager) address amount)
      (credited (heldBy manager) address amount) := by
  unfold BalanceManager.credit Room credited
  by_cases nothing : amount = AdicAmount.zero
  · rw [if_pos nothing, if_pos nothing]
    exact ⟨fun _ => returns_pure rfl, fun _ _ positive => (positive nothing).elim⟩
  rw [if_neg nothing, if_neg nothing]
  rcases @getBalance_held σ _ _ manager address now with ⟨loaded, read, seen⟩
  cases sum : ((heldBy manager).1 address).checkedAdd amount with
  | none =>
    refine Decides.of_fails ⟨.balanceOverflow address, loaded, ?_⟩ fun room => ?_
    · rw [bind_ok read, sum]
      rfl
    · have tooMuch := checkedAdd_eq_none.mp sum
      have bounded := (room nothing).1
      omega
  | some newBalance =>
    have total := checkedAdd_eq_some.mp sum
    have newUnits := checkedAdd_value sum
    by_cases above : AdicAmount.maxSupply < newBalance
    · refine Decides.of_fails ⟨.exceedsMaxSupply, loaded, ?_⟩ fun room => ?_
      · rw [bind_ok read, sum]
        dsimp only
        rw [if_pos above]
        rfl
      · rw [amount_lt, units_maxSupply] at above
        have bounded := (room nothing).1
        omega
    rw [amount_lt, units_maxSupply, not_lt] at above
    by_cases works : faulty (heldBy manager).2 0 = false
    · rw [← newUnits, ← seen]
      refine ⟨fun _ => Returns.bind_of_run read ?_, fun _ _ _ => ⟨by rw [seen]; omega, by rw [seen]; exact works⟩⟩
      rw [sum]
      dsimp only
      rw [if_neg (by rw [amount_lt, units_maxSupply]; omega)]
      exact writeBalance_held now address newBalance (by rw [seen]; exact works)
    · have breaks : faulty (WritableStorage.held loaded.storage).2 0 = true := by
        show faulty (heldBy loaded).2 0 = true
        rw [seen]
        exact Bool.not_eq_false _ |>.mp works
      rcases WritableStorage.setBalance_fails address newBalance loaded.storage breaks with ⟨error, next, failed⟩
      refine Decides.of_fails ⟨error, { loaded with storage := next }, ?_⟩ fun room => works (room nothing).2
      rw [bind_ok read, sum]
      dsimp only
      rw [if_neg (by rw [amount_lt, units_maxSupply]; omega)]
      exact bind_error (onStorage_error failed)

structure GenesisView where
  held : Ledger × List Bool
  multisig : Option MultisigConfig
  total : AdicAmount

def genesisView (engine : EconomicsEngine σ) : GenesisView :=
  ⟨heldBy engine.treasury.balances, engine.treasury.multisig, engine.supply.metrics.totalSupply⟩

variable {engine : EconomicsEngine σ}

omit [EconomicsStorage σ] [WritableStorage σ] in
theorem onSupply_ok {call : Call TokenSupply Unit} {next : TokenSupply} (run : call engine.supply = .ok () next) :
    EconomicsEngine.onSupply call engine = .ok () { engine with supply := next } := by
  simp only [EconomicsEngine.onSupply, run]

omit [EconomicsStorage σ] [WritableStorage σ] in
theorem onSupply_error {call : Call TokenSupply Unit} {next : TokenSupply}
    (run : call engine.supply = .error error next) :
    EconomicsEngine.onSupply call engine = .error error { engine with supply := next } := by
  simp only [EconomicsEngine.onSupply, run]

omit [EconomicsStorage σ] [WritableStorage σ] in
theorem onTreasury_ok {call : Call (TreasuryManager σ) Unit} {next : TreasuryManager σ}
    (run : call engine.treasury = .ok () next) :
    EconomicsEngine.onTreasury call engine = .ok () { engine with treasury := next } := by
  simp only [EconomicsEngine.onTreasury, run]

omit [EconomicsStorage σ] [WritableStorage σ] in
theorem onTreasury_error {call : Call (TreasuryManager σ) Unit} {next : TreasuryManager σ}
    (run : call engine.treasury = .error error next) :
    EconomicsEngine.onTreasury call engine = .error error { engine with treasury := next } := by
  simp only [EconomicsEngine.onTreasury, run]

variable {call : Call (BalanceManager σ) Unit}

omit [EconomicsStorage σ] [WritableStorage σ] in
theorem onBalances_ok {next : BalanceManager σ}
    (run : call engine.treasury.balances = .ok () next) :
    EconomicsEngine.onBalances call engine =
      .ok () { engine with treasury := { engine.treasury with balances := next } } :=
  onTreasury_ok (by simp only [TreasuryManager.onBalances, run])

omit [EconomicsStorage σ] [WritableStorage σ] in
theorem onBalances_error {next : BalanceManager σ}
    (run : call engine.treasury.balances = .error error next) :
    EconomicsEngine.onBalances call engine =
      .error error { engine with treasury := { engine.treasury with balances := next } } :=
  onTreasury_error (by simp only [TreasuryManager.onBalances, run])

theorem onBalances_decides {condition : Prop} {after : Ledger × List Bool}
    (decides : Decides heldBy call engine.treasury.balances condition after) :
    Decides genesisView (EconomicsEngine.onBalances call) engine condition
      ⟨after, engine.treasury.multisig, engine.supply.metrics.totalSupply⟩ := by
  constructor
  · intro holds
    rcases decides.returns holds with ⟨next, run, seen⟩
    refine ⟨_, onBalances_ok run, ?_⟩
    rw [← seen]
    rfl
  · intro last run
    cases called : call engine.treasury.balances with
    | ok value next => exact decides.needs next called
    | error error next =>
      rw [onBalances_error called] at run
      cases run

structure SignersAccepted (signers : List AccountAddress) (threshold : UInt32) : Prop where
  some_signer : signers ≠ []
  positive : 0 < threshold
  reachable : threshold ≤ UInt32.ofNat signers.length
  distinct : signers.Nodup

theorem signersAccepted_iff {signers : List AccountAddress} {threshold : UInt32} :
    SignersAccepted signers threshold ↔ ¬ signers.isEmpty ∧
      ¬ (threshold = 0 ∨ threshold > UInt32.ofNat signers.length) ∧ ¬ signers.toFinset.card ≠ signers.length := by
  have positive : 0 < threshold ↔ threshold ≠ 0 := UInt32.pos_iff_ne_zero
  have reachable : ¬ threshold > UInt32.ofNat signers.length ↔ threshold ≤ UInt32.ofNat signers.length :=
    UInt32.not_lt
  have distinct : signers.toFinset.card = signers.length ↔ signers.Nodup :=
    Multiset.toFinset_card_eq_card_iff_nodup (m := (signers : Multiset AccountAddress))
  rw [not_or, reachable, not_not, distinct, List.isEmpty_iff]
  constructor
  · intro accepted
    exact ⟨accepted.some_signer, ⟨positive.mp accepted.positive, accepted.reachable⟩, accepted.distinct⟩
  · rintro ⟨some, ⟨nonzero, enough⟩, distinct⟩
    exact ⟨some, positive.mpr nonzero, enough, distinct⟩

theorem initializeMultisig_decides (signers : List AccountAddress) (threshold : UInt32) :
    Decides genesisView (EconomicsEngine.onTreasury (TreasuryManager.initializeMultisig signers threshold)) engine
      (SignersAccepted signers threshold ∧ engine.treasury.multisig = none)
      ⟨heldBy engine.treasury.balances, some ⟨signers, threshold⟩, engine.supply.metrics.totalSupply⟩ := by
  rw [signersAccepted_iff]
  unfold TreasuryManager.initializeMultisig
  split_ifs with empty invalid repeated
  · exact Decides.of_fails ⟨_, _, rfl⟩ fun accepted => accepted.1.1 empty
  · exact Decides.of_fails ⟨_, _, rfl⟩ fun accepted => accepted.1.2.1 invalid
  · exact Decides.of_fails ⟨_, _, rfl⟩ fun accepted => accepted.1.2.2 repeated
  · cases multisig : engine.treasury.multisig with
    | none =>
      have run : (MonadState.get >>= fun manager : TreasuryManager σ =>
          if manager.multisig.isSome then throw .multisigInitialized
          else modify fun manager => { manager with multisig := some ⟨signers, threshold⟩ } :
            Call (TreasuryManager σ) Unit) engine.treasury =
          .ok () { engine.treasury with multisig := some ⟨signers, threshold⟩ } := by
        rw [bind_get, multisig]
        rfl
      exact ⟨fun _ => ⟨_, onTreasury_ok run, rfl⟩, fun _ _ => ⟨⟨empty, invalid, repeated⟩, rfl⟩⟩
    | some config =>
      have run : (MonadState.get >>= fun manager : TreasuryManager σ =>
          if manager.multisig.isSome then throw .multisigInitialized
          else modify fun manager => { manager with multisig := some ⟨signers, threshold⟩ } :
            Call (TreasuryManager σ) Unit) engine.treasury = .error .multisigInitialized engine.treasury := by
        rw [bind_get, multisig]
        rfl
      exact Decides.of_fails ⟨_, _, onTreasury_error run⟩ fun accepted => by cases accepted.2

theorem recordGenesis_held (now : Int) (recipient : AccountAddress) (amount : AdicAmount) (txHash : String) :
    Decides genesisView (EconomicsEngine.recordGenesis now recipient amount txHash) engine True
      ⟨((heldBy engine.treasury.balances).1, (heldBy engine.treasury.balances).2.tail), engine.treasury.multisig,
        engine.supply.metrics.totalSupply⟩ := by
  refine Decides.of_returns ?_
  unfold EconomicsEngine.recordGenesis
  generalize record : (⟨AccountAddress.zero, recipient, amount, ⟨now, 0⟩, txHash, "confirmed"⟩ : TransactionRecord) = tx
  have kept := WritableStorage.recordTransaction tx engine.treasury.balances.storage
  have stored : ∃ result next, WritableStorage.held next = ((WritableStorage.held engine.treasury.balances.storage).1,
        (WritableStorage.held engine.treasury.balances.storage).2.tail) ∧
      attempt (EconomicsEngine.onBalances (BalanceManager.onStorage (EconomicsStorage.recordTransaction tx))) engine =
        .ok result { engine with
          treasury := { engine.treasury with balances := { engine.treasury.balances with storage := next } } } := by
    unfold stateAfter at kept
    cases run : (EconomicsStorage.recordTransaction tx : Call σ Unit) engine.treasury.balances.storage with
    | ok value next =>
      rw [run] at kept
      refine ⟨.ok (), next, kept, ?_⟩
      rw [attempt, onBalances_ok (onStorage_ok run)]
    | error error next =>
      rw [run] at kept
      refine ⟨.error error, next, kept, ?_⟩
      rw [attempt, onBalances_error (onStorage_error run)]
  rcases stored with ⟨result, next, seen, run⟩
  refine Returns.bind_of_run run ⟨_, rfl, ?_⟩
  unfold genesisView heldBy
  rw [seen]
  rfl

theorem mintEmission_decides (amount : AdicAmount) :
    Decides genesisView (EconomicsEngine.onSupply (TokenSupply.mintEmission amount)) engine
      (units engine.supply.metrics.totalSupply + units amount ≤ 10 ^ 18)
      ⟨heldBy engine.treasury.balances, engine.treasury.multisig,
        ⟨engine.supply.metrics.totalSupply.baseUnits + amount.baseUnits⟩⟩ := by
  rcases mintEmission_cases engine.supply amount with ⟨bounded, next, run, seen⟩ | ⟨above, error, run⟩
  · refine ⟨fun _ => ⟨_, onSupply_ok run, ?_⟩, fun _ _ => bounded⟩
    rw [← checkedAdd_value seen]
    rfl
  · exact Decides.of_fails ⟨error, _, onSupply_error run⟩ (not_le.mpr above)

def writes (amount : AdicAmount) : Nat := if amount = AdicAmount.zero then 1 else 2

def paid (held : Ledger × List Bool) (address : AccountAddress) (amount : AdicAmount) : Ledger × List Bool :=
  ((credited held address amount).1, (credited held address amount).2.tail)

omit [EconomicsStorage σ] [WritableStorage σ] in
theorem paid_faults (held : Ledger × List Bool) (address : AccountAddress) (amount : AdicAmount) :
    (paid held address amount).2 = held.2.drop (writes amount) := by
  unfold paid credited writes
  split
  · rw [List.drop_one]
  · cases held.2 with
    | nil => rfl
    | cons first rest => exact List.drop_one.symm

omit [EconomicsStorage σ] [WritableStorage σ] in
theorem paid_other (held : Ledger × List Bool) {address other : AccountAddress} (different : other ≠ address)
    (amount : AdicAmount) : (paid held address amount).1 other = held.1 other := by
  unfold paid credited
  split
  · rfl
  · exact Function.update_of_ne different _ _

section

variable {held : Ledger × List Bool} {multisig : Option MultisigConfig} {total : AdicAmount}
  {change : SupplyMetrics → SupplyMetrics}

theorem supplyChange_decides (seen : genesisView engine = ⟨held, multisig, total⟩)
    (keeps : ∀ metrics, (change metrics).totalSupply = metrics.totalSupply) :
    Decides genesisView (EconomicsEngine.onSupply (TokenSupply.setMetrics change)) engine True
      ⟨held, multisig, total⟩ := by
  refine Decides.of_returns ⟨_, rfl, ?_⟩
  rw [← seen]
  unfold genesisView
  rw [← keeps engine.supply.metrics]

theorem creditPool_decides (seen : genesisView engine = ⟨held, multisig, total⟩) (now : Int)
    (address : AccountAddress) (amount : AdicAmount) :
    Decides genesisView (EconomicsEngine.onBalances (BalanceManager.credit now address amount)) engine
      (Room held address amount) ⟨credited held address amount, multisig, total⟩ := by
  cases seen
  exact onBalances_decides (credit_decides now address amount)

theorem recordGenesis_decides (seen : genesisView engine = ⟨held, multisig, total⟩) (now : Int)
    (recipient : AccountAddress) (amount : AdicAmount) (txHash : String) :
    Decides genesisView (EconomicsEngine.recordGenesis now recipient amount txHash) engine True
      ⟨(held.1, held.2.tail), multisig, total⟩ := by
  cases seen
  exact recordGenesis_held now recipient amount txHash

theorem recordPaid_decides {address : AccountAddress} {amount : AdicAmount}
    (seen : genesisView engine = ⟨credited held address amount, multisig, total⟩) (now : Int) (txHash : String) :
    Decides genesisView (EconomicsEngine.recordGenesis now address amount txHash) engine True
      ⟨paid held address amount, multisig, total⟩ := recordGenesis_decides seen now address amount txHash

theorem pool_iff (seen : genesisView engine = ⟨held, multisig, total⟩) (now : Int) (address : AccountAddress)
    (amount : AdicAmount) (txHash : String)
    (keeps : ∀ metrics, (change metrics).totalSupply = metrics.totalSupply) {rest : Call (EconomicsEngine σ) Unit}
    {remaining : Prop} (others : ∀ next : EconomicsEngine σ,
      genesisView next = ⟨paid held address amount, multisig, total⟩ →
        ((∃ last, rest next = .ok () last) ↔ remaining)) :
    (∃ last, (do
      EconomicsEngine.onBalances (BalanceManager.credit now address amount)
      EconomicsEngine.onSupply (TokenSupply.setMetrics change)
      EconomicsEngine.recordGenesis now address amount txHash
      rest : Call (EconomicsEngine σ) Unit) engine = .ok () last) ↔ Room held address amount ∧ remaining := by
  refine (creditPool_decides seen now address amount).bind fun creditedTo creditedSeen => ?_
  refine ((supplyChange_decides creditedSeen keeps).bind fun changed changedSeen => ?_).trans
    (iff_of_eq (true_and remaining))
  exact ((recordPaid_decides changedSeen now txHash).bind others).trans (iff_of_eq (true_and remaining))

theorem treasuryPool_iff (seen : genesisView engine = ⟨held, multisig, total⟩) (now : Int) (address : AccountAddress)
    (amount : AdicAmount) (txHash : String) (signers : List AccountAddress) (threshold : UInt32)
    (keeps : ∀ metrics, (change metrics).totalSupply = metrics.totalSupply)
    {rest : Call (EconomicsEngine σ) Unit} {remaining : Prop} (others : ∀ next : EconomicsEngine σ,
      genesisView next = ⟨paid held address amount, some ⟨signers, threshold⟩, total⟩ →
        ((∃ last, rest next = .ok () last) ↔ remaining)) :
    (∃ last, (do
      EconomicsEngine.onBalances (BalanceManager.credit now address amount)
      EconomicsEngine.onSupply (TokenSupply.setMetrics change)
      EconomicsEngine.onTreasury (TreasuryManager.initializeMultisig signers threshold)
      EconomicsEngine.recordGenesis now address amount txHash
      rest : Call (EconomicsEngine σ) Unit) engine = .ok () last) ↔
      Room held address amount ∧ (SignersAccepted signers threshold ∧ multisig = none) ∧ remaining := by
  refine (creditPool_decides seen now address amount).bind fun creditedTo creditedSeen => ?_
  refine ((supplyChange_decides creditedSeen keeps).bind fun changed changedSeen => ?_).trans (iff_of_eq (true_and _))
  have signs := @initializeMultisig_decides σ _ _ changed signers threshold
  have unsigned : changed.treasury.multisig = multisig := congrArg GenesisView.multisig changedSeen
  rw [show heldBy changed.treasury.balances = _ from congrArg GenesisView.held changedSeen, unsigned,
    show changed.supply.metrics.totalSupply = _ from congrArg GenesisView.total changedSeen] at signs
  refine signs.bind fun signed signedSeen => ?_
  exact ((recordPaid_decides signedSeen now txHash).bind others).trans (iff_of_eq (true_and remaining))

theorem faucet_iff (seen : genesisView engine = ⟨held, multisig, total⟩) (now : Int) (address : AccountAddress)
    (amount : AdicAmount) (txHash : String)
    (keeps : ∀ metrics, (change metrics).totalSupply = metrics.totalSupply)
    (finish : EconomicsEngine σ → EconomicsEngine σ) :
    (∃ last, (do
      EconomicsEngine.onSupply (TokenSupply.mintEmission amount)
      EconomicsEngine.onBalances (BalanceManager.credit now address amount)
      EconomicsEngine.recordGenesis now address amount txHash
      EconomicsEngine.onSupply (TokenSupply.setMetrics change)
      modify finish : Call (EconomicsEngine σ) Unit) engine = .ok () last) ↔
      units total + units amount ≤ 10 ^ 18 ∧ Room held address amount := by
  have mints := @mintEmission_decides σ _ _ engine amount
  rw [show heldBy engine.treasury.balances = _ from congrArg GenesisView.held seen,
    show engine.treasury.multisig = _ from congrArg GenesisView.multisig seen,
    show engine.supply.metrics.totalSupply = _ from congrArg GenesisView.total seen] at mints
  refine mints.bind fun minted mintedSeen => ?_
  refine ((creditPool_decides mintedSeen now address amount).bind fun creditedTo creditedSeen => ?_).trans
    (iff_of_eq (and_true _))
  refine ((recordPaid_decides creditedSeen now txHash).bind fun recorded recordedSeen => ?_).trans
    (iff_of_eq (true_and True))
  refine ((supplyChange_decides recordedSeen keeps).bind fun changed changedSeen => ?_).trans (iff_of_eq (true_and True))
  exact ⟨fun _ => trivial, fun _ => ⟨_, rfl⟩⟩

end

end

end AdicProof.Economics
