import AdicCore.Library.Calls
import AdicCore.Economics.Balance

open AdicModel AdicModel.Economics Calls

namespace AdicProof.Economics

@[ext] structure Accounts where
  balance : AccountAddress → AdicAmount
  locked : AccountAddress → AdicAmount
  nonce : AccountAddress → UInt64

def Accounts.setBalance (accounts : Accounts) (address : AccountAddress) (amount : AdicAmount) : Accounts :=
  { accounts with balance := Function.update accounts.balance address amount }

def Accounts.setLocked (accounts : Accounts) (address : AccountAddress) (amount : AdicAmount) : Accounts :=
  { accounts with locked := Function.update accounts.locked address amount }

def Accounts.setNonce (accounts : Accounts) (address : AccountAddress) (nonce : UInt64) : Accounts :=
  { accounts with nonce := Function.update accounts.nonce address nonce }

/-- A storage whose calls succeed and keep what is written. A rollback without writes in between restores the accounts. -/
class LawfulStorage (σ : Type) [EconomicsStorage σ] where
  accounts : σ → Accounts
  getBalance : ∀ address (storage : σ),
    EconomicsStorage.getBalance address storage = .ok ((accounts storage).balance address) storage
  getLockedBalance : ∀ address (storage : σ),
    EconomicsStorage.getLockedBalance address storage = .ok ((accounts storage).locked address) storage
  getNonce : ∀ address (storage : σ),
    EconomicsStorage.getNonce address storage = .ok ((accounts storage).nonce address) storage
  setBalance : ∀ address amount (storage : σ),
    Returns accounts (EconomicsStorage.setBalance address amount) storage () ((accounts storage).setBalance address amount)
  setLockedBalance : ∀ address amount (storage : σ),
    Returns accounts (EconomicsStorage.setLockedBalance address amount) storage ()
      ((accounts storage).setLocked address amount)
  setNonce : ∀ address nonce (storage : σ),
    Returns accounts (EconomicsStorage.setNonce address nonce) storage () ((accounts storage).setNonce address nonce)
  beginTransaction : ∀ storage : σ, ∃ next, EconomicsStorage.beginTransaction storage = .ok () next ∧
    accounts next = accounts storage ∧
    Returns accounts EconomicsStorage.rollbackTransaction next () (accounts storage)
  commitTransaction : ∀ storage : σ,
    Returns accounts EconomicsStorage.commitTransaction storage () (accounts storage)
  recordTransaction : ∀ tx (storage : σ),
    Returns accounts (EconomicsStorage.recordTransaction tx) storage () (accounts storage)

def memoryAccounts (storage : MemoryStorage) : Accounts where
  balance address := (storage.balances.lookup address).getD AdicAmount.zero
  locked address := (storage.lockedBalances.lookup address).getD AdicAmount.zero
  nonce address := (storage.nonces.lookup address).getD 0

instance : LawfulStorage MemoryStorage where
  accounts := memoryAccounts
  getBalance _ _ := rfl
  getLockedBalance _ _ := rfl
  getNonce _ _ := rfl
  setBalance address amount storage := by
    refine ⟨_, rfl, ?_⟩
    simp only [Accounts.setBalance, memoryAccounts]
    rw [← HashMap.getD_store]
    rfl
  setLockedBalance address amount storage := by
    refine ⟨_, rfl, ?_⟩
    simp only [Accounts.setLocked, memoryAccounts]
    rw [← HashMap.getD_store]
    rfl
  setNonce address nonce storage := by
    refine ⟨_, rfl, ?_⟩
    simp only [Accounts.setNonce, memoryAccounts]
    rw [← HashMap.getD_store]
  beginTransaction storage := ⟨_, rfl, rfl, _, rfl, rfl⟩
  commitTransaction storage := ⟨_, rfl, rfl⟩
  recordTransaction tx storage := ⟨_, rfl, rfl⟩

structure Entry where
  balance : AdicAmount
  locked : AdicAmount
  nonce : UInt64

structure Books where
  accounts : Accounts
  cache : AccountAddress → Option Entry

def entryOf (info : AccountInfo) : Entry := ⟨info.balance, info.lockedBalance, info.nonce⟩

def booksOf {σ : Type} [EconomicsStorage σ] [LawfulStorage σ] (manager : BalanceManager σ) : Books where
  accounts := LawfulStorage.accounts manager.storage
  cache address := (manager.cache.lookup address).map entryOf

namespace Books

def cachedLocked (books : Books) (address : AccountAddress) : AdicAmount :=
  ((books.cache address).map Entry.locked).getD AdicAmount.zero

def cachedNonce (books : Books) (address : AccountAddress) : UInt64 :=
  ((books.cache address).map Entry.nonce).getD 0

def entry (books : Books) (address : AccountAddress) : Entry where
  balance := ((books.cache address).map Entry.balance).getD (books.accounts.balance address)
  locked := books.cachedLocked address
  nonce := books.cachedNonce address

def setEntry (books : Books) (address : AccountAddress) (entry : Entry) : Books :=
  { books with cache := Function.update books.cache address (some entry) }

def load (books : Books) (address : AccountAddress) : Books := books.setEntry address (books.entry address)

def write (books : Books) (address : AccountAddress) (amount : AdicAmount) : Books :=
  { books with accounts := books.accounts.setBalance address amount }.setEntry address
    ⟨amount, books.cachedLocked address, books.cachedNonce address⟩

theorem entry_cached {books : Books} {address : AccountAddress} {entry : Entry}
    (cached : books.cache address = some entry) : books.entry address = entry := by
  unfold Books.entry cachedLocked cachedNonce
  rw [cached]
  rfl

theorem load_cached {books : Books} {address : AccountAddress} {entry : Entry}
    (cached : books.cache address = some entry) : books.load address = books := by
  unfold load setEntry
  rw [entry_cached cached, ← cached, Function.update_eq_self]

@[simp] theorem accounts_setEntry (books : Books) (address : AccountAddress) (entry : Entry) :
    (books.setEntry address entry).accounts = books.accounts := rfl

@[simp] theorem cache_load (books : Books) (address : AccountAddress) :
    (books.load address).cache address = some (books.entry address) := by
  simp [load, setEntry]

@[simp] theorem accounts_load (books : Books) (address : AccountAddress) :
    (books.load address).accounts = books.accounts := rfl

@[simp] theorem entry_load (books : Books) (address : AccountAddress) :
    (books.load address).entry address = books.entry address := entry_cached (books.cache_load address)

@[simp] theorem cachedNonce_load (books : Books) (address : AccountAddress) :
    (books.load address).cachedNonce address = books.cachedNonce address := by
  simp [cachedNonce, Books.entry]

end Books

section

variable {σ : Type} [EconomicsStorage σ] [LawfulStorage σ] {manager : BalanceManager σ} {address : AccountAddress}

theorem accounts_booksOf : (booksOf manager).accounts = LawfulStorage.accounts manager.storage := rfl

theorem cache_booksOf : (booksOf manager).cache address = (manager.cache.lookup address).map entryOf := rfl

theorem booksOf_insert (manager : BalanceManager σ) (address : AccountAddress) (info : AccountInfo) :
    booksOf { manager with cache := manager.cache.insert address info } =
      (booksOf manager).setEntry address (entryOf info) := by
  unfold booksOf Books.setEntry
  congr 1
  funext other
  rw [HashMap.lookup_insert_eq, Function.update_apply]
  split <;> rfl

theorem cacheInsert_returns (info : AccountInfo) :
    Returns booksOf (BalanceManager.cacheInsert address info) manager ()
      ((booksOf manager).setEntry address (entryOf info)) :=
  ⟨_, rfl, booksOf_insert manager address info⟩

theorem onStorage_returns {α : Type} {call : Call σ α} {value : α} {after : Accounts}
    (returns : Returns LawfulStorage.accounts call manager.storage value after) :
    Returns booksOf (BalanceManager.onStorage call) manager value { booksOf manager with accounts := after } := by
  rcases returns with ⟨next, run, seen⟩
  refine ⟨{ manager with storage := next }, ?_, ?_⟩
  · simp only [BalanceManager.onStorage, run]
  · rw [← seen]
    rfl

theorem getBalance_stored :
    Returns booksOf (BalanceManager.onStorage (EconomicsStorage.getBalance address)) manager
      ((booksOf manager).accounts.balance address) (booksOf manager) :=
  onStorage_returns ⟨_, LawfulStorage.getBalance address manager.storage, rfl⟩

theorem setBalance_stored (amount : AdicAmount) :
    Returns booksOf (BalanceManager.onStorage (EconomicsStorage.setBalance address amount)) manager ()
      { booksOf manager with accounts := (booksOf manager).accounts.setBalance address amount } :=
  onStorage_returns (LawfulStorage.setBalance address amount manager.storage)

theorem setLocked_stored (amount : AdicAmount) :
    Returns booksOf (BalanceManager.onStorage (EconomicsStorage.setLockedBalance address amount)) manager ()
      { booksOf manager with accounts := (booksOf manager).accounts.setLocked address amount } :=
  onStorage_returns (LawfulStorage.setLockedBalance address amount manager.storage)

theorem setNonce_stored (nonce : UInt64) :
    Returns booksOf (BalanceManager.onStorage (EconomicsStorage.setNonce address nonce)) manager ()
      { booksOf manager with accounts := (booksOf manager).accounts.setNonce address nonce } :=
  onStorage_returns (LawfulStorage.setNonce address nonce manager.storage)

theorem getBalance_returns (now : Int) :
    Returns booksOf (BalanceManager.getBalance now address) manager ((booksOf manager).entry address).balance
      ((booksOf manager).load address) := by
  unfold BalanceManager.getBalance
  apply Returns.get
  cases found : manager.cache.lookup address with
  | some info =>
    have cached : (booksOf manager).cache address = some (entryOf info) := by rw [cache_booksOf, found]; rfl
    rw [Books.load_cached cached, Books.entry_cached cached]
    exact returns_pure rfl
  | none =>
    have absent : (booksOf manager).cache address = none := by rw [cache_booksOf, found]; rfl
    have loaded : (booksOf manager).entry address = ⟨(booksOf manager).accounts.balance address, AdicAmount.zero, 0⟩ := by
      unfold Books.entry Books.cachedLocked Books.cachedNonce
      rw [absent]
      rfl
    refine getBalance_stored.bind fun next seen => (cacheInsert_returns _).bind fun last lastSeen => ?_
    rw [seen] at lastSeen
    rw [Books.load, loaded]
    exact returns_pure lastSeen

theorem cacheBalance_returns (now : Int) (amount : AdicAmount) :
    Returns booksOf (BalanceManager.cacheBalance now address amount) manager ()
      ((booksOf manager).setEntry address
        ⟨amount, (booksOf manager).cachedLocked address, (booksOf manager).cachedNonce address⟩) := by
  unfold BalanceManager.cacheBalance Books.cachedLocked Books.cachedNonce
  apply Returns.get
  rw [cache_booksOf]
  cases found : manager.cache.lookup address with
  | some info => exact cacheInsert_returns _
  | none => exact cacheInsert_returns _

def Books.lockEntry (books : Books) (address : AccountAddress) : Entry :=
  (books.cache address).getD ⟨AdicAmount.zero, AdicAmount.zero, 0⟩

def Books.setLocked (books : Books) (address : AccountAddress) (entry : Entry) (amount : AdicAmount) : Books :=
  { books with accounts := books.accounts.setLocked address amount }.setEntry address { entry with locked := amount }

theorem entryOf_lock (now : Int) :
    entryOf ((manager.cache.lookup address).getD ⟨address, AdicAmount.zero, 0, AdicAmount.zero, now⟩) =
      (booksOf manager).lockEntry address := by
  rw [Books.lockEntry, cache_booksOf]
  cases manager.cache.lookup address <;> rfl

theorem getLockedBalance_cached {entry : Entry} (cached : (booksOf manager).cache address = some entry) :
    Returns booksOf (BalanceManager.getLockedBalance address) manager entry.locked (booksOf manager) := by
  rw [cache_booksOf] at cached
  rcases Option.map_eq_some_iff.mp cached with ⟨info, found, rfl⟩
  unfold BalanceManager.getLockedBalance
  apply Returns.get
  simp only [found]
  exact returns_pure rfl

theorem getLockedBalance_returns : ∃ value,
    Returns booksOf (BalanceManager.getLockedBalance address) manager value (booksOf manager) := by
  unfold BalanceManager.getLockedBalance
  cases found : manager.cache.lookup address with
  | some info =>
    refine ⟨info.lockedBalance, Returns.get ?_⟩
    simp only [found]
    exact returns_pure rfl
  | none =>
    refine ⟨(booksOf manager).accounts.locked address, Returns.get ?_⟩
    simp only [found]
    exact onStorage_returns ⟨_, LawfulStorage.getLockedBalance address manager.storage, rfl⟩

def Books.currentNonce (books : Books) (address : AccountAddress) : UInt64 :=
  ((books.cache address).map Entry.nonce).getD (books.accounts.nonce address)

theorem storedNonce_returns :
    Returns booksOf (BalanceManager.storedNonce address) manager ((booksOf manager).accounts.nonce address)
      (booksOf manager) := by
  unfold BalanceManager.storedNonce
  have read : (BalanceManager.onStorage (EconomicsStorage.getNonce address) : Call (BalanceManager σ) UInt64) manager =
      .ok ((booksOf manager).accounts.nonce address) manager := by
    simp only [BalanceManager.onStorage, LawfulStorage.getNonce]
    rfl
  have attempted : Returns booksOf (attempt (BalanceManager.onStorage (EconomicsStorage.getNonce address))) manager
      (.ok ((booksOf manager).accounts.nonce address)) (booksOf manager) := by
    refine ⟨manager, ?_, rfl⟩
    rw [attempt, read]
  exact attempted.bind fun next seen => returns_pure seen

theorem getNonce_returns :
    Returns booksOf (BalanceManager.getNonce address) manager ((booksOf manager).currentNonce address)
      (booksOf manager) := by
  unfold BalanceManager.getNonce
  apply Returns.get
  rw [Books.currentNonce, cache_booksOf]
  cases found : manager.cache.lookup address with
  | some info => exact returns_pure rfl
  | none =>
    refine storedNonce_returns.bind fun next seen => Returns.get ?_
    have absent : (booksOf next).cache address = none := by rw [seen, cache_booksOf, found]; rfl
    rw [cache_booksOf, Option.map_eq_none_iff] at absent
    simp only [absent]
    exact returns_pure seen

end

end AdicProof.Economics
