import AdicCore.Economics.Nonces

open AdicModel AdicModel.Economics Calls

namespace AdicProof.Economics

def rocksAccounts (storage : RocksDbStorage) : Accounts where
  balance address := (storage.cfBalances.lookup address).getD AdicAmount.zero
  locked address := (storage.cfLocked.lookup address).getD AdicAmount.zero
  nonce address := (storage.cfNonces.lookup address).getD 0

def faulty (faults : List Bool) (index : Nat) : Bool := faults.getD index false

theorem faulty_tail (faults : List Bool) (index : Nat) : faulty faults.tail index = faulty faults (index + 1) := by
  cases faults <;> rfl

def rocksBooks (manager : BalanceManager RocksDbStorage) : Books × List Bool :=
  (⟨rocksAccounts manager.storage, fun address => (manager.cache.lookup address).map entryOf⟩, manager.storage.faults)

section

variable {manager : BalanceManager RocksDbStorage} {books : Books} {faults : List Bool}
  {address sender recipient : AccountAddress} {amount : AdicAmount}

section

variable (seen : rocksBooks manager = (books, faults))

include seen

theorem rocksBooks_insert (address : AccountAddress) (info : AccountInfo) :
    Returns rocksBooks (BalanceManager.cacheInsert address info) manager ()
      (books.setEntry address (entryOf info), faults) := by
  refine ⟨{ manager with cache := manager.cache.insert address info }, rfl, ?_⟩
  cases seen
  unfold rocksBooks Books.setEntry
  congr 2
  funext other
  rw [HashMap.lookup_insert_eq, Function.update_apply]
  split <;> rfl

theorem write_returns {change : RocksDbStorage → RocksDbStorage} {accounts : Accounts} (works : faulty faults 0 = false)
    (keeps : ∀ storage, (change storage).faults = storage.faults)
    (changed : ∀ storage, rocksAccounts storage = books.accounts → rocksAccounts (change storage) = accounts) :
    Returns rocksBooks (BalanceManager.onStorage (RocksDbStorage.write change)) manager ()
      ({ books with accounts := accounts }, faults.tail) := by
  cases seen
  cases pending : manager.storage.faults with
  | nil =>
    refine ⟨{ manager with storage := change manager.storage }, ?_, ?_⟩
    · simp only [BalanceManager.onStorage, RocksDbStorage.write, pending]
    · unfold rocksBooks
      simp only [keeps, pending, changed manager.storage rfl, List.tail_nil]
  | cons first rest =>
    rw [pending] at works
    change first = false at works
    subst works
    refine ⟨{ manager with storage := change { manager.storage with faults := rest } }, ?_, ?_⟩
    · simp only [BalanceManager.onStorage, RocksDbStorage.write, pending]
    · unfold rocksBooks
      simp only [keeps, changed { manager.storage with faults := rest } rfl, List.tail_cons]

theorem write_fails {change : RocksDbStorage → RocksDbStorage} (breaks : faulty faults 0 = true) :
    Fails rocksBooks (BalanceManager.onStorage (RocksDbStorage.write change)) manager (books, faults.tail) := by
  cases seen
  cases pending : manager.storage.faults with
  | nil =>
    rw [pending] at breaks
    cases breaks
  | cons first rest =>
    rw [pending] at breaks
    change first = true at breaks
    subst breaks
    refine ⟨.storage "write failed", { manager with storage := { manager.storage with faults := rest } }, ?_, rfl⟩
    simp only [BalanceManager.onStorage, RocksDbStorage.write, pending]

theorem cached_rocks (address : AccountAddress) : books.cache address = (manager.cache.lookup address).map entryOf := by
  cases seen
  rfl

theorem cacheBalance_rocks (now : Int) (amount : AdicAmount) :
    Returns rocksBooks (BalanceManager.cacheBalance now address amount) manager ()
      (books.setEntry address ⟨amount, books.cachedLocked address, books.cachedNonce address⟩, faults) := by
  unfold BalanceManager.cacheBalance Books.cachedLocked Books.cachedNonce
  apply Returns.get
  rw [cached_rocks seen]
  cases found : manager.cache.lookup address with
  | some info => exact rocksBooks_insert seen _ _
  | none => exact rocksBooks_insert seen _ _

end

variable [RecordJson]

section

variable (seen : rocksBooks manager = (books, faults))

include seen

theorem setBalance_rocks (works : faulty faults 0 = false) :
    Returns rocksBooks (BalanceManager.onStorage (EconomicsStorage.setBalance address amount)) manager ()
      ({ books with accounts := books.accounts.setBalance address amount }, faults.tail) := by
  show Returns rocksBooks (BalanceManager.onStorage (RocksDbStorage.setBalance address amount)) _ _ _
  unfold RocksDbStorage.setBalance
  refine write_returns seen works ?_ fun storage same => ?_
  · intro storage
    rfl
  rw [← same]
  simp only [Accounts.setBalance, rocksAccounts]
  rw [← HashMap.getD_store]

theorem setNonce_rocks {nonce : UInt64} (works : faulty faults 0 = false) :
    Returns rocksBooks (BalanceManager.onStorage (EconomicsStorage.setNonce address nonce)) manager ()
      ({ books with accounts := books.accounts.setNonce address nonce }, faults.tail) := by
  show Returns rocksBooks (BalanceManager.onStorage (RocksDbStorage.setNonce address nonce)) _ _ _
  unfold RocksDbStorage.setNonce
  refine write_returns seen works ?_ fun storage same => ?_
  · intro storage
    rfl
  rw [← same]
  simp only [Accounts.setNonce, rocksAccounts]
  rw [← HashMap.getD_store]

theorem commit_rocks (works : faulty faults 0 = false) :
    Returns rocksBooks (BalanceManager.onStorage EconomicsStorage.commitTransaction) manager () (books, faults.tail) :=
  write_returns seen works (fun _ => rfl) fun _ same => same

theorem getBalance_stored_rocks :
    Returns rocksBooks (BalanceManager.onStorage (EconomicsStorage.getBalance address)) manager
      (books.accounts.balance address) (books, faults) := by
  cases seen
  exact ⟨manager, rfl, rfl⟩

theorem storedNonce_rocks :
    Returns rocksBooks (BalanceManager.storedNonce address) manager (books.accounts.nonce address) (books, faults) := by
  cases seen
  exact ⟨manager, rfl, rfl⟩

theorem getBalance_rocks (now : Int) (address : AccountAddress) :
    Returns rocksBooks (BalanceManager.getBalance now address) manager (books.entry address).balance
      (books.load address, faults) := by
  unfold BalanceManager.getBalance
  apply Returns.get
  cases found : manager.cache.lookup address with
  | some info =>
    have cached : books.cache address = some (entryOf info) := by rw [cached_rocks seen, found]; rfl
    rw [Books.load_cached cached, Books.entry_cached cached]
    exact returns_pure seen
  | none =>
    have absent : books.cache address = none := by rw [cached_rocks seen, found]; rfl
    have loaded : books.entry address = ⟨books.accounts.balance address, AdicAmount.zero, 0⟩ := by
      unfold Books.entry Books.cachedLocked Books.cachedNonce
      rw [absent]
      rfl
    refine (getBalance_stored_rocks seen).bind fun next nextSeen => (rocksBooks_insert nextSeen _ _).bind
      fun last lastSeen => ?_
    rw [Books.load, loaded]
    exact returns_pure lastSeen

theorem getNonce_rocks (address : AccountAddress) :
    Returns rocksBooks (BalanceManager.getNonce address) manager (books.currentNonce address) (books, faults) := by
  unfold BalanceManager.getNonce
  apply Returns.get
  rw [Books.currentNonce, cached_rocks seen]
  cases found : manager.cache.lookup address with
  | some info => exact returns_pure seen
  | none =>
    refine (storedNonce_rocks seen).bind fun next nextSeen => Returns.get ?_
    have absent := cached_rocks nextSeen address
    rw [cached_rocks seen, found] at absent
    have same : next.cache.lookup address = none := Option.map_eq_none_iff.mp absent.symm
    simp only [same]
    exact returns_pure nextSeen

end

end

def sampleRecord : TransactionRecord := ⟨account 1, account 2, ⟨5⟩, ⟨0, 0⟩, "ab", "confirmed"⟩

def sampleText : String :=
  "\x7b\"from\":[" ++ ",".intercalate (List.replicate 32 "1") ++ "],\"to\":[" ++
    ",".intercalate (List.replicate 32 "2") ++ "],\"amount\":5,\"timestamp\":\"1970-01-01T00:00:00Z\"," ++
    "\"tx_hash\":\"ab\",\"status\":\"confirmed\"\x7d"

@[reducible] def sampleJson : RecordJson where
  toVec := fun _ => sampleText
  fromSlice := fun text => if text = sampleText then some sampleRecord else none

end AdicProof.Economics
