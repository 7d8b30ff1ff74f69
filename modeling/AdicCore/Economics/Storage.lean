import AdicCore.Economics.Types

namespace AdicModel.Economics

structure TransactionRecord where
  sender : AccountAddress
  recipient : AccountAddress
  amount : AdicAmount
  timestamp : DateTime
  txHash : String
  status : String
deriving DecidableEq

/-- A call that may fail, and may have changed the state when it does. -/
abbrev Call (σ α : Type) : Type := EStateM EconomicsError σ α

class EconomicsStorage (σ : Type) where
  getBalance : AccountAddress → Call σ AdicAmount
  setBalance : AccountAddress → AdicAmount → Call σ Unit
  getLockedBalance : AccountAddress → Call σ AdicAmount
  setLockedBalance : AccountAddress → AdicAmount → Call σ Unit
  getNonce : AccountAddress → Call σ UInt64
  setNonce : AccountAddress → UInt64 → Call σ Unit
  beginTransaction : Call σ Unit
  commitTransaction : Call σ Unit
  rollbackTransaction : Call σ Unit
  recordTransaction : TransactionRecord → Call σ Unit

abbrev BalanceMap := HashMap.Table AccountAddress AdicAmount

structure MemoryStorage where
  balances : BalanceMap
  lockedBalances : BalanceMap
  nonces : HashMap.Table AccountAddress UInt64
  transactionBackup : Option (BalanceMap × BalanceMap)
  transactionHistory : List TransactionRecord

namespace MemoryStorage

def new : MemoryStorage := ⟨∅, ∅, ∅, none, []⟩

/-- Zero amounts are not stored. -/
def setAmount (amounts : BalanceMap) (address : AccountAddress) (amount : AdicAmount) : BalanceMap :=
  if amount = AdicAmount.zero then amounts.erase address else amounts.insert address amount

def getBalance (address : AccountAddress) : Call MemoryStorage AdicAmount := do
  return ((← get).balances.lookup address).getD AdicAmount.zero

def setBalance (address : AccountAddress) (balance : AdicAmount) : Call MemoryStorage Unit :=
  modify fun storage => { storage with balances := setAmount storage.balances address balance }

def getLockedBalance (address : AccountAddress) : Call MemoryStorage AdicAmount := do
  return ((← get).lockedBalances.lookup address).getD AdicAmount.zero

def setLockedBalance (address : AccountAddress) (locked : AdicAmount) : Call MemoryStorage Unit :=
  modify fun storage => { storage with lockedBalances := setAmount storage.lockedBalances address locked }

def getNonce (address : AccountAddress) : Call MemoryStorage UInt64 := do
  return ((← get).nonces.lookup address).getD 0

def setNonce (address : AccountAddress) (nonce : UInt64) : Call MemoryStorage Unit :=
  modify fun storage => { storage with
    nonces := if nonce = 0 then storage.nonces.erase address else storage.nonces.insert address nonce }

def beginTransaction : Call MemoryStorage Unit :=
  modify fun storage => { storage with transactionBackup := some (storage.balances, storage.lockedBalances) }

def commitTransaction : Call MemoryStorage Unit :=
  modify fun storage => { storage with transactionBackup := none }

/-- The nonces are not part of the backup. -/
def rollbackTransaction : Call MemoryStorage Unit :=
  modify fun storage =>
    match storage.transactionBackup with
    | some (balances, locked) =>
      { storage with balances := balances, lockedBalances := locked, transactionBackup := none }
    | none => storage

def recordTransaction (tx : TransactionRecord) : Call MemoryStorage Unit :=
  modify fun storage => { storage with transactionHistory := storage.transactionHistory ++ [tx] }

instance : EconomicsStorage MemoryStorage where
  getBalance := getBalance
  setBalance := setBalance
  getLockedBalance := getLockedBalance
  setLockedBalance := setLockedBalance
  getNonce := getNonce
  setNonce := setNonce
  beginTransaction := beginTransaction
  commitTransaction := commitTransaction
  rollbackTransaction := rollbackTransaction
  recordTransaction := recordTransaction

end MemoryStorage

class RecordJson where
  toVec : TransactionRecord → String
  fromSlice : String → Option TransactionRecord

/-- The column families, and which of the next writes fail. Keys and values are UTF-8, whose order is that of
    strings. -/
structure RocksDbStorage where
  cfBalances : BalanceMap
  cfLocked : BalanceMap
  cfNonces : HashMap.Table AccountAddress UInt64
  db : HashMap.Table String String
  faults : List Bool

namespace RocksDbStorage

def new : RocksDbStorage := ⟨∅, ∅, ∅, ∅, []⟩

def write (change : RocksDbStorage → RocksDbStorage) : Call RocksDbStorage Unit := fun storage =>
  match storage.faults with
  | true :: faults => .error (.storage "write failed") { storage with faults := faults }
  | false :: faults => .ok () (change { storage with faults := faults })
  | [] => .ok () (change storage)

def getBalance (address : AccountAddress) : Call RocksDbStorage AdicAmount := do
  return ((← get).cfBalances.lookup address).getD AdicAmount.zero

def setBalance (address : AccountAddress) (balance : AdicAmount) : Call RocksDbStorage Unit :=
  write fun storage => { storage with
    cfBalances := if balance = AdicAmount.zero then storage.cfBalances.erase address
      else storage.cfBalances.insert address balance }

def getLockedBalance (address : AccountAddress) : Call RocksDbStorage AdicAmount := do
  return ((← get).cfLocked.lookup address).getD AdicAmount.zero

def setLockedBalance (address : AccountAddress) (locked : AdicAmount) : Call RocksDbStorage Unit :=
  write fun storage => { storage with
    cfLocked := if locked = AdicAmount.zero then storage.cfLocked.erase address
      else storage.cfLocked.insert address locked }

def getNonce (address : AccountAddress) : Call RocksDbStorage UInt64 := do
  return ((← get).cfNonces.lookup address).getD 0

def setNonce (address : AccountAddress) (nonce : UInt64) : Call RocksDbStorage Unit :=
  write fun storage => { storage with
    cfNonces := if nonce = 0 then storage.cfNonces.erase address else storage.cfNonces.insert address nonce }

def beginTransaction : Call RocksDbStorage Unit := return ()

def commitTransaction : Call RocksDbStorage Unit := write id

def rollbackTransaction : Call RocksDbStorage Unit := return ()

def txKey (txHash : String) : String := "tx:" ++ txHash

/-- `{:020}`: the sign counts. -/
def padTimestamp (millis : Int) : String :=
  let digits := String.ofList (Nat.toDigits 10 millis.natAbs)
  let sign := if millis < 0 then "-" else ""
  sign ++ String.ofList (List.replicate (20 - sign.length - digits.length) '0') ++ digits

def timestampMillis (timestamp : DateTime) : Int := timestamp.timestamp * 1000 + (timestamp.nanos / 1000000).toNat

def addrPrefix (address : AccountAddress) : String := "tx_by_addr:" ++ hexEncode address.asBytes.bytes ++ ":"

def addrKey (address : AccountAddress) (tx : TransactionRecord) : String :=
  addrPrefix address ++ padTimestamp (timestampMillis tx.timestamp) ++ ":" ++ tx.txHash

variable [RecordJson]

/-- One batch. -/
def recordTransaction (tx : TransactionRecord) : Call RocksDbStorage Unit :=
  write fun storage =>
    let stored := storage.db.insert (txKey tx.txHash) (RecordJson.toVec tx)
    let sent := stored.insert (addrKey tx.sender tx) tx.txHash
    { storage with db := if tx.sender ≠ tx.recipient then sent.insert (addrKey tx.recipient tx) tx.txHash else sent }

instance : EconomicsStorage RocksDbStorage where
  getBalance := getBalance
  setBalance := setBalance
  getLockedBalance := getLockedBalance
  setLockedBalance := setLockedBalance
  getNonce := getNonce
  setNonce := setNonce
  beginTransaction := beginTransaction
  commitTransaction := commitTransaction
  rollbackTransaction := rollbackTransaction
  recordTransaction := recordTransaction

end RocksDbStorage

end AdicModel.Economics
