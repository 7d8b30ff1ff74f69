import AdicCore.Economics.Amounts
import AdicCore.Economics.Balance
import AdicCore.Library.Calls

open AdicModel AdicModel.Economics Calls

namespace AdicProof.Economics

abbrev Ledger : Type := AccountAddress → AdicAmount

/-- A storage whose calls may fail. A failed write changes nothing. A rollback changes nothing or restores what was
    saved. -/
class FallibleStorage (σ : Type) [EconomicsStorage σ] where
  balance : σ → Ledger
  saved : σ → Option Ledger
  getBalance : ∀ address kept backup, Triple (fun state : σ => balance state = kept ∧ saved state = backup)
    (EconomicsStorage.getBalance address)
    (fun amount next => amount = kept address ∧ balance next = kept ∧ saved next = backup)
    (fun next => balance next = kept ∧ saved next = backup)
  setBalance : ∀ address amount kept backup, Triple (fun state : σ => balance state = kept ∧ saved state = backup)
    (EconomicsStorage.setBalance address amount)
    (fun _ next => balance next = Function.update kept address amount ∧ saved next = backup)
    (fun next => balance next = kept ∧ saved next = backup)
  beginTransaction : ∀ kept, Triple (fun state : σ => balance state = kept) EconomicsStorage.beginTransaction
    (fun _ next => balance next = kept ∧ ∀ backup, saved next = some backup → backup = kept)
    (fun next => balance next = kept)
  commitTransaction : ∀ kept, Triple (fun state : σ => balance state = kept) EconomicsStorage.commitTransaction
    (fun _ next => balance next = kept) (fun next => balance next = kept)
  rollbackTransaction : ∀ kept backup, Triple (fun state : σ => balance state = kept ∧ saved state = backup)
    EconomicsStorage.rollbackTransaction (fun _ next => balance next = kept ∨ backup = some (balance next))
    (fun next => balance next = kept ∨ backup = some (balance next))
  recordTransaction : ∀ tx kept, Triple (fun state : σ => balance state = kept) (EconomicsStorage.recordTransaction tx)
    (fun _ next => balance next = kept) (fun next => balance next = kept)

def Faulty (σ : Type) [EconomicsStorage σ] : Prop :=
  ∃ address amount, ∃ storage : σ, ∃ error next, EconomicsStorage.setBalance address amount storage = .error error next

section

def mapLedger (balances : BalanceMap) : Ledger := fun address => (balances.lookup address).getD AdicAmount.zero

instance : FallibleStorage MemoryStorage where
  balance storage := mapLedger storage.balances
  saved storage := storage.transactionBackup.map fun backup => mapLedger backup.1
  getBalance address kept backup := by
    rintro storage ⟨same, saved⟩
    exact ⟨congrFun same address, same, saved⟩
  setBalance address amount kept backup := by
    rintro storage ⟨rfl, saved⟩
    exact ⟨HashMap.getD_store storage.balances address amount AdicAmount.zero, saved⟩
  beginTransaction kept := by
    rintro storage rfl
    refine ⟨rfl, fun backup saved => ?_⟩
    cases saved
    rfl
  commitTransaction kept storage same := same
  rollbackTransaction kept backup := by
    rintro storage ⟨same, saved⟩
    show mapLedger (match storage.transactionBackup with
      | some (balances, locked) =>
        { storage with balances := balances, lockedBalances := locked, transactionBackup := none }
      | none => storage).balances = kept ∨ backup = some (mapLedger (match storage.transactionBackup with
      | some (balances, locked) =>
        { storage with balances := balances, lockedBalances := locked, transactionBackup := none }
      | none => storage).balances)
    cases held : storage.transactionBackup with
    | none => exact .inl same
    | some maps =>
      rw [held] at saved
      exact .inr saved.symm
  recordTransaction tx kept storage same := same

theorem write_triple {change : RocksDbStorage → RocksDbStorage} {kept written : BalanceMap}
    (changes : ∀ storage : RocksDbStorage, storage.cfBalances = kept → (change storage).cfBalances = written) :
    Triple (fun storage => storage.cfBalances = kept) (RocksDbStorage.write change)
      (fun _ next => next.cfBalances = written) (fun next => next.cfBalances = kept) := by
  intro storage same
  unfold RocksDbStorage.write
  cases storage.faults with
  | nil => exact changes storage same
  | cons fails faults =>
    cases fails with
    | true => exact same
    | false => exact changes _ same

instance [RecordJson] : FallibleStorage RocksDbStorage where
  balance storage := mapLedger storage.cfBalances
  saved _ := none
  getBalance address kept backup := by
    rintro storage ⟨same, saved⟩
    exact ⟨congrFun same address, same, saved⟩
  setBalance address amount kept backup := by
    rintro storage ⟨rfl, rfl⟩
    have written : Triple (fun state : RocksDbStorage => state.cfBalances = storage.cfBalances)
        (RocksDbStorage.setBalance address amount)
        (fun _ next => next.cfBalances = if amount = AdicAmount.zero then storage.cfBalances.erase address
          else storage.cfBalances.insert address amount)
        (fun next => next.cfBalances = storage.cfBalances) := write_triple fun _ same => by rw [same]
    refine written.weaken (fun _ same => same) (fun _ next same => ⟨?_, rfl⟩)
      (fun _ same => ⟨congrArg mapLedger same, rfl⟩) storage rfl
    rw [same]
    exact HashMap.getD_store storage.cfBalances address amount AdicAmount.zero
  beginTransaction kept := by
    rintro storage same
    exact ⟨same, fun backup saved => nomatch saved⟩
  commitTransaction kept := by
    rintro storage rfl
    have flushed : Triple (fun state : RocksDbStorage => state.cfBalances = storage.cfBalances)
        RocksDbStorage.commitTransaction (fun _ next => next.cfBalances = storage.cfBalances)
        (fun next => next.cfBalances = storage.cfBalances) := write_triple fun _ same => same
    exact flushed.weaken (fun _ same => same) (fun _ _ same => congrArg mapLedger same)
      (fun _ same => congrArg mapLedger same) storage rfl
  rollbackTransaction kept backup := by
    rintro storage ⟨same, _⟩
    exact .inl same
  recordTransaction tx kept := by
    rintro storage rfl
    have recorded : Triple (fun state : RocksDbStorage => state.cfBalances = storage.cfBalances)
        (RocksDbStorage.recordTransaction tx) (fun _ next => next.cfBalances = storage.cfBalances)
        (fun next => next.cfBalances = storage.cfBalances) := write_triple fun _ same => same
    exact recorded.weaken (fun _ same => same) (fun _ _ same => congrArg mapLedger same)
      (fun _ same => congrArg mapLedger same) storage rfl

end

structure Holdings where
  stored : Ledger
  cached : AccountAddress → Option AdicAmount

namespace Holdings

variable (holdings : Holdings) (address : AccountAddress) (amount : AdicAmount)

def read : AdicAmount := (holdings.cached address).getD (holdings.stored address)

def cache : Holdings := { holdings with cached := Function.update holdings.cached address (some amount) }

def load : Holdings := holdings.cache address (holdings.read address)

def store : Holdings := { holdings with stored := Function.update holdings.stored address amount }

end Holdings

inductive Transferred (faulty : Prop) (holdings : Holdings) (sender recipient : AccountAddress) (amount : AdicAmount) :
    Holdings → Prop
  | refused : Transferred faulty holdings sender recipient amount holdings
  | halved (fault : faulty) (enough : amount ≤ holdings.stored sender) :
    Transferred faulty holdings sender recipient amount
      (holdings.store sender ((holdings.stored sender).saturatingSub amount))
  | moved (different : sender ≠ recipient) (enough : amount ≤ holdings.stored sender) (received : AdicAmount)
      (sum : units received = units (holdings.stored recipient) + units amount) :
    Transferred faulty holdings sender recipient amount
      ((((holdings.store sender ((holdings.stored sender).saturatingSub amount)).store recipient received).cache sender
        ((holdings.stored sender).saturatingSub amount)).cache recipient received)

section

variable {σ α : Type}

def cachedOf (manager : BalanceManager σ) (address : AccountAddress) : Option AdicAmount :=
  (manager.cache.lookup address).map AccountInfo.balance

variable [EconomicsStorage σ] [FallibleStorage σ]

def Has (holdings : Holdings) (manager : BalanceManager σ) : Prop :=
  FallibleStorage.balance manager.storage = holdings.stored ∧ cachedOf manager = holdings.cached

def HasSaved (holdings : Holdings) (backup : Option Ledger) (manager : BalanceManager σ) : Prop :=
  Has holdings manager ∧ FallibleStorage.saved manager.storage = backup

variable {holdings : Holdings} {backup : Option Ledger} {address sender recipient : AccountAddress} {amount : AdicAmount}
  {call : Call σ α} {pre : σ → Prop} {post : α → σ → Prop} {failed : σ → Prop}

omit [EconomicsStorage σ] [FallibleStorage σ] in
theorem onStorage_triple (triple : Triple pre call post failed) (cached : AccountAddress → Option AdicAmount) :
    Triple (fun manager => pre manager.storage ∧ cachedOf manager = cached) (BalanceManager.onStorage call)
      (fun value manager => post value manager.storage ∧ cachedOf manager = cached)
      (fun manager => failed manager.storage ∧ cachedOf manager = cached) := by
  rintro manager ⟨holds, same⟩
  have result := triple manager.storage holds
  unfold BalanceManager.onStorage
  cases run : call manager.storage with
  | ok value next =>
    rw [run] at result
    exact ⟨result, same⟩
  | error error next =>
    rw [run] at result
    exact ⟨result, same⟩

omit [EconomicsStorage σ] [FallibleStorage σ] in
theorem attempt_triple {τ : Type} {call : Call τ α} {pre : τ → Prop} {post : α → τ → Prop} {failed never : τ → Prop}
    (triple : Triple pre call post failed) :
    Triple pre (attempt call) (fun result state => match result with
      | .ok value => post value state
      | .error _ => failed state) never := by
  intro state holds
  have result := triple state holds
  unfold attempt
  cases run : call state with
  | ok value next =>
    rw [run] at result
    exact result
  | error error next =>
    rw [run] at result
    exact result

omit [EconomicsStorage σ] [FallibleStorage σ] in
theorem cachedOf_insert (manager : BalanceManager σ) (address : AccountAddress) (info : AccountInfo) :
    cachedOf { manager with cache := manager.cache.insert address info } =
      Function.update (cachedOf manager) address (some info.balance) := by
  funext other
  unfold cachedOf
  rw [HashMap.lookup_insert_eq, Function.update_apply]
  split <;> rfl

theorem cacheInsert_triple (info : AccountInfo) (failed : BalanceManager σ → Prop) :
    Triple (Has holdings) (BalanceManager.cacheInsert address info) (fun _ => Has (holdings.cache address info.balance))
      failed := by
  rintro manager ⟨stored, cached⟩
  refine ⟨stored, ?_⟩
  rw [cachedOf_insert, cached]
  rfl

theorem cached_of_has {manager : BalanceManager σ} (has : Has holdings manager) :
    holdings.cached address = (manager.cache.lookup address).map AccountInfo.balance := (congrFun has.2 address).symm

theorem storedBalance_triple : Triple (@HasSaved σ _ _ holdings backup)
    (BalanceManager.onStorage (EconomicsStorage.getBalance address))
    (fun value manager => value = holdings.stored address ∧ HasSaved holdings backup manager)
    (HasSaved holdings backup) := by
  refine (onStorage_triple (FallibleStorage.getBalance address holdings.stored backup) holdings.cached).weaken ?_ ?_ ?_
  · rintro manager ⟨⟨stored, cached⟩, saved⟩
    exact ⟨⟨stored, saved⟩, cached⟩
  · rintro value manager ⟨⟨same, stored, saved⟩, cached⟩
    exact ⟨same, ⟨stored, cached⟩, saved⟩
  · rintro manager ⟨⟨stored, saved⟩, cached⟩
    exact ⟨⟨stored, cached⟩, saved⟩

theorem storeBalance_triple : Triple (@HasSaved σ _ _ holdings backup)
    (BalanceManager.onStorage (EconomicsStorage.setBalance address amount))
    (fun _ => HasSaved (holdings.store address amount) backup)
    (fun manager => Faulty σ ∧ HasSaved holdings backup manager) := by
  have faults : Triple (fun state : σ => FallibleStorage.balance state = holdings.stored ∧
        FallibleStorage.saved state = backup) (EconomicsStorage.setBalance address amount)
      (fun _ next => FallibleStorage.balance next = Function.update holdings.stored address amount ∧
        FallibleStorage.saved next = backup)
      (fun next => Faulty σ ∧ FallibleStorage.balance next = holdings.stored ∧ FallibleStorage.saved next = backup) := by
    intro state holds
    have result := FallibleStorage.setBalance address amount holdings.stored backup state holds
    cases run : (EconomicsStorage.setBalance address amount : Call σ Unit) state with
    | ok value next =>
      rw [run] at result
      exact result
    | error error next =>
      rw [run] at result
      exact ⟨⟨address, amount, state, error, next, run⟩, result⟩
  refine (onStorage_triple faults holdings.cached).weaken ?_ ?_ ?_
  · rintro manager ⟨⟨stored, cached⟩, saved⟩
    exact ⟨⟨stored, saved⟩, cached⟩
  · rintro value manager ⟨⟨stored, saved⟩, cached⟩
    exact ⟨⟨stored, cached⟩, saved⟩
  · rintro manager ⟨⟨fault, stored, saved⟩, cached⟩
    exact ⟨fault, ⟨stored, cached⟩, saved⟩

theorem getBalance_triple (now : Int) : Triple (@Has σ _ _ holdings) (BalanceManager.getBalance now address)
    (fun value manager => value = holdings.read address ∧ Has (holdings.load address) manager)
    (Has holdings) := by
  unfold BalanceManager.getBalance
  refine Triple.get fun manager has => ?_
  have cached : holdings.cached address = (manager.cache.lookup address).map AccountInfo.balance := cached_of_has has
  cases found : manager.cache.lookup address with
  | some info =>
    rw [found] at cached
    have value : holdings.read address = info.balance := by
      unfold Holdings.read
      rw [cached]
      rfl
    have loaded : holdings.load address = holdings := by
      unfold Holdings.load Holdings.cache
      rw [value]
      congr 1
      exact Function.update_eq_self_iff.mpr cached.symm
    refine triple_pure ?_
    rintro state rfl
    exact ⟨value.symm, loaded.symm ▸ has⟩
  | none =>
    rw [found] at cached
    have value : holdings.read address = holdings.stored address := by
      unfold Holdings.read
      rw [cached]
      rfl
    have stored : Triple (fun state : BalanceManager σ => state = manager)
        (BalanceManager.onStorage (EconomicsStorage.getBalance address))
        (fun amount next => amount = holdings.stored address ∧ Has holdings next) (Has holdings) := by
      rintro state rfl
      exact storedBalance_triple.weaken (fun _ holds => holds) (fun _ _ holds => ⟨holds.1, holds.2.1⟩)
        (fun _ holds => holds.1) state ⟨has, rfl⟩
    refine stored.bind fun amount => ?_
    have inserted : Triple (fun next : BalanceManager σ => amount = holdings.stored address ∧ Has holdings next)
        (BalanceManager.cacheInsert address ⟨address, amount, 0, AdicAmount.zero, now⟩)
        (fun _ next => amount = holdings.stored address ∧ Has (holdings.cache address amount) next) (Has holdings) := by
      rintro state ⟨same, kept⟩
      exact ⟨same, cacheInsert_triple _ (Has holdings) state kept⟩
    refine inserted.bind fun _ => triple_pure ?_
    rintro state ⟨same, kept⟩
    subst same
    unfold Holdings.load
    rw [value]
    exact ⟨rfl, kept⟩

theorem cacheBalance_triple (now : Int) (failed : BalanceManager σ → Prop) :
    Triple (Has holdings) (BalanceManager.cacheBalance now address amount) (fun _ => Has (holdings.cache address amount))
      failed := by
  unfold BalanceManager.cacheBalance
  refine Triple.get_any fun manager => ?_
  cases manager.cache.lookup address with
  | some info => exact cacheInsert_triple _ failed
  | none => exact cacheInsert_triple _ failed

theorem storeLoaded_triple {manager : BalanceManager σ} (has : Has (holdings.load address) manager)
    (newBalance : AdicAmount) :
    Triple (fun state => state = manager) (BalanceManager.onStorage (EconomicsStorage.setBalance address newBalance))
      (fun _ => Has ((holdings.load address).store address newBalance))
      (fun next => Has holdings next ∨ Has (holdings.load address) next) := by
  rintro state rfl
  exact storeBalance_triple.weaken (fun _ holds => holds) (fun _ _ holds => holds.1) (fun _ holds => .inr holds.2.1)
    state ⟨has, rfl⟩

theorem credit_triple (now : Int) : Triple (@Has σ _ _ holdings) (BalanceManager.credit now address amount)
    (fun _ next => amount = AdicAmount.zero ∧ Has holdings next ∨
      ∃ newBalance, amount ≠ AdicAmount.zero ∧ units newBalance = units (holdings.read address) + units amount ∧
        Has (((holdings.load address).store address newBalance).cache address newBalance) next)
    (fun next => Has holdings next ∨ Has (holdings.load address) next) := by
  unfold BalanceManager.credit
  refine triple_ite (fun zero => triple_pure fun _ has => .inl ⟨zero, has⟩) fun positive => ?_
  refine ((getBalance_triple now).weaken (fun _ has => has) (fun _ _ has => has) fun _ has => .inl has).bind
    fun current => ?_
  cases sum : current.checkedAdd amount with
  | none => exact triple_throw fun _ has => .inr has.2
  | some newBalance =>
    rw [checkedAdd_eq_some] at sum
    dsimp only
    refine triple_ite (fun _ => triple_throw fun _ has => .inr has.2) fun _ => ?_
    intro manager has
    obtain ⟨same, has⟩ := has
    subst same
    refine ((storeLoaded_triple has newBalance).bind fun _ => ?_) manager rfl
    exact (cacheBalance_triple now _).weaken (fun _ has => has) (fun _ _ has => .inr ⟨newBalance, positive, sum, has⟩)
      fun _ has => has

theorem debit_triple (now : Int) : Triple (@Has σ _ _ holdings) (BalanceManager.debit now address amount)
    (fun _ next => amount = AdicAmount.zero ∧ Has holdings next ∨
      ∃ rest, amount ≠ AdicAmount.zero ∧ units (holdings.read address) = units amount + units rest ∧
        Has (((holdings.load address).store address rest).cache address rest) next)
    (fun next => Has holdings next ∨ Has (holdings.load address) next) := by
  unfold BalanceManager.debit
  refine triple_ite (fun zero => triple_pure fun _ has => .inl ⟨zero, has⟩) fun positive => ?_
  refine ((getBalance_triple now).weaken (fun _ has => has) (fun _ _ has => has) fun _ has => .inl has).bind
    fun current => ?_
  cases left : current.checkedSub amount with
  | none => exact triple_throw fun _ has => .inr has.2
  | some rest =>
    rw [checkedSub_eq_some] at left
    intro manager has
    obtain ⟨same, has⟩ := has
    subst same
    refine ((storeLoaded_triple has rest).bind fun _ => ?_) manager rfl
    refine Triple.get fun stored has => ?_
    have cached := @cached_of_has _ _ _ _ address _ has
    cases found : stored.cache.lookup address with
    | none =>
      rw [found] at cached
      have loaded : ((holdings.load address).store address rest).cached address = some (holdings.read address) :=
        Function.update_self ..
      rw [loaded] at cached
      cases cached
    | some info =>
      rintro next rfl
      exact .inr ⟨rest, positive, left, cacheInsert_triple _ (fun _ => False) next has⟩

theorem transferInternal_triple (blake3 : List UInt8 → Bytes32) (now : Int) (different : sender ≠ recipient) :
    Triple (@HasSaved σ _ _ holdings backup) (BalanceManager.transferInternal blake3 now sender recipient amount)
      (fun _ next => ∃ after, Transferred (Faulty σ) holdings sender recipient amount after ∧ Has after next)
      (fun next => (HasSaved holdings backup next ∨ Faulty σ ∧ amount ≤ holdings.stored sender ∧
        HasSaved (holdings.store sender ((holdings.stored sender).saturatingSub amount)) backup next)) := by
  unfold BalanceManager.transferInternal
  refine (storedBalance_triple.weaken (fun _ has => has) (fun _ _ has => has) fun _ has => .inl has).bind
    fun fromBalance => ?_
  refine triple_ite (fun _ => triple_throw fun _ has => .inl has.2) fun enough => ?_
  intro manager has
  obtain ⟨same, has⟩ := has
  subst same
  rw [amount_lt, not_lt, ← amount_le] at enough
  refine ((storedBalance_triple.weaken (fun _ has => has) (fun _ _ has => has) fun _ has => .inl has).bind
    fun toBalance => ?_) manager has
  intro manager has
  obtain ⟨same, has⟩ := has
  subst same
  cases sum : (holdings.stored recipient).checkedAdd amount with
  | none => exact .inl has
  | some received =>
    rw [checkedAdd_eq_some] at sum
    refine ((storeBalance_triple.weaken (fun _ has => has) (fun _ _ has => has) fun _ has => .inl has.2).bind
      fun _ => ?_) manager has
    refine (storeBalance_triple.weaken (fun _ has => has) (fun _ _ has => has)
      fun _ has => .inr ⟨has.1, enough, has.2⟩).bind fun _ => ?_
    refine ((cacheBalance_triple now _).weaken (fun _ has => has.1) (fun _ _ has => has) fun _ has => has).bind fun _ => ?_
    refine ((cacheBalance_triple now _).weaken (fun _ has => has) (fun _ _ has => has) fun _ has => has).bind fun _ => ?_
    exact triple_pure fun _ has => ⟨_, Transferred.moved different enough received sum, has⟩

theorem begin_triple : Triple (@Has σ _ _ holdings) (BalanceManager.onStorage EconomicsStorage.beginTransaction)
    (fun _ next => ∃ backup, HasSaved holdings backup next ∧ ∀ ledger, backup = some ledger → ledger = holdings.stored)
    (Has holdings) := by
  refine (onStorage_triple (FallibleStorage.beginTransaction holdings.stored) holdings.cached).weaken ?_ ?_ ?_
  · exact fun _ has => has
  · rintro _ manager ⟨⟨stored, saved⟩, cached⟩
    exact ⟨_, ⟨⟨stored, cached⟩, rfl⟩, saved⟩
  · exact fun _ has => has

theorem commit_triple : Triple (@Has σ _ _ holdings) (BalanceManager.onStorage EconomicsStorage.commitTransaction)
    (fun _ => Has holdings) (Has holdings) :=
  (onStorage_triple (FallibleStorage.commitTransaction holdings.stored) holdings.cached).weaken (fun _ has => has)
    (fun _ _ has => has) fun _ has => has

theorem rollback_triple : Triple (@HasSaved σ _ _ holdings backup)
    (BalanceManager.onStorage EconomicsStorage.rollbackTransaction)
    (fun _ next => Has holdings next ∨ ∃ ledger, backup = some ledger ∧ Has { holdings with stored := ledger } next)
    (fun next => Has holdings next ∨ ∃ ledger, backup = some ledger ∧ Has { holdings with stored := ledger } next) := by
  refine (onStorage_triple (FallibleStorage.rollbackTransaction holdings.stored backup) holdings.cached).weaken ?_ ?_ ?_
  · rintro manager ⟨⟨stored, cached⟩, saved⟩
    exact ⟨⟨stored, saved⟩, cached⟩
  · rintro _ manager ⟨kept | restored, cached⟩
    · exact .inl ⟨kept, cached⟩
    · exact .inr ⟨_, restored, rfl, cached⟩
  · rintro manager ⟨kept | restored, cached⟩
    · exact .inl ⟨kept, cached⟩
    · exact .inr ⟨_, restored, rfl, cached⟩

theorem recordTransaction_triple (tx : TransactionRecord) : Triple (@Has σ _ _ holdings)
    (BalanceManager.onStorage (EconomicsStorage.recordTransaction tx)) (fun _ => Has holdings) (Has holdings) :=
  (onStorage_triple (FallibleStorage.recordTransaction tx holdings.stored) holdings.cached).weaken (fun _ has => has)
    (fun _ _ has => has) fun _ has => has

theorem recordTransfer_triple (now : Int) (txHash : String) (failed : BalanceManager σ → Prop) :
    Triple (Has holdings) (BalanceManager.recordTransfer now sender recipient amount txHash) (fun _ => Has holdings)
      failed := by
  unfold BalanceManager.recordTransfer
  refine (attempt_triple (recordTransaction_triple _)).bind fun result => triple_pure ?_
  intro manager has
  cases result with
  | ok value => exact has
  | error error => exact has

def HasTransferred (holdings : Holdings) (sender recipient : AccountAddress) (amount : AdicAmount)
    (manager : BalanceManager σ) : Prop :=
  ∃ after, Transferred (Faulty σ) holdings sender recipient amount after ∧ Has after manager

theorem transfer_triple (blake3 : List UInt8 → Bytes32) (now : Int) : Triple (@Has σ _ _ holdings)
    (BalanceManager.transfer blake3 now sender recipient amount)
    (fun _ => HasTransferred holdings sender recipient amount) (HasTransferred holdings sender recipient amount) := by
  have refused : ∀ manager : BalanceManager σ, Has holdings manager →
      HasTransferred holdings sender recipient amount manager := fun manager has => ⟨_, .refused, has⟩
  unfold BalanceManager.transfer
  refine triple_ite (fun _ => triple_pure refused) fun _ => ?_
  refine triple_ite (fun _ => triple_throw refused) fun different => ?_
  refine (begin_triple.weaken (fun _ has => has) (fun _ _ has => has) refused).bind fun _ => ?_
  rintro manager ⟨backup, has, saved⟩
  refine ((attempt_triple (transferInternal_triple blake3 now different)).bind fun result => ?_) manager has
  cases result with
  | ok txHash =>
    rintro manager ⟨after, transferred, has⟩
    have done : ∀ manager : BalanceManager σ, Has after manager →
        HasTransferred holdings sender recipient amount manager := fun manager has => ⟨after, transferred, has⟩
    refine ((commit_triple.weaken (fun _ has => has) (fun _ _ has => has) done).bind fun _ => ?_) manager has
    refine ((recordTransfer_triple now txHash _).weaken (fun _ has => has) (fun _ _ has => has) done).bind fun _ => ?_
    exact triple_pure done
  | error error =>
    -- Whatever the rollback does, the holdings are the old ones or those after the first write.
    have undone : ∀ kept : Holdings, kept.cached = holdings.cached →
        Transferred (Faulty σ) holdings sender recipient amount kept → ∀ manager : BalanceManager σ,
        (Has kept manager ∨ ∃ ledger, backup = some ledger ∧ Has { kept with stored := ledger } manager) →
        HasTransferred holdings sender recipient amount manager := by
      rintro kept cached transferred manager (has | ⟨ledger, restored, has⟩)
      · exact ⟨kept, transferred, has⟩
      · rw [saved ledger restored, cached] at has
        exact ⟨holdings, .refused, has⟩
    rintro manager (has | ⟨fault, enough, has⟩)
    · refine ((rollback_triple.weaken (fun _ has => has) (fun _ _ has => has)
        (undone holdings rfl .refused)).bind fun _ => ?_) manager has
      exact triple_throw (undone holdings rfl .refused)
    · have half := undone (holdings.store sender ((holdings.stored sender).saturatingSub amount)) rfl
        (.halved fault enough)
      refine ((rollback_triple.weaken (fun _ has => has) (fun _ _ has => has) half).bind fun _ => ?_) manager has
      exact triple_throw half

end

end AdicProof.Economics
