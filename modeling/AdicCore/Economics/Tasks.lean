import AdicCore.Economics.Balance
import AdicCore.Library.Calls

namespace AdicModel.Economics

/-- The manager as its tasks share it. A task may hold the lock of the cache over steps. -/
structure Shared where
  manager : BalanceManager MemoryStorage
  holder : Option Nat

namespace Shared

def stored (shared : Shared) (address : AccountAddress) : AdicAmount :=
  (shared.manager.storage.balances.lookup address).getD AdicAmount.zero

def cached (shared : Shared) (address : AccountAddress) : Option AccountInfo := shared.manager.cache.lookup address

def perform {α : Type} (call : Call (BalanceManager MemoryStorage) α) (shared : Shared) : Shared :=
  { shared with manager := Calls.stateAfter call shared.manager }

def lock (id : Nat) (shared : Shared) : Shared := { shared with holder := some id }

def unlock (shared : Shared) : Shared := { shared with holder := none }

end Shared

/-- Where a call of `get_balance` stands. Every step is one access. -/
inductive Reading where
  | lookup
  | load
  | insert (balance : AdicAmount)

/-- A step gives the next one, or the balance. It waits while the cache is locked. -/
def Reading.step (now : Int) (address : AccountAddress) (shared : Shared) :
    Reading → Option ((Reading ⊕ AdicAmount) × Shared)
  | .lookup =>
    if shared.holder.isSome then none
    else
      match shared.cached address with
      | some info => some (.inr info.balance, shared)
      | none => some (.inl .load, shared)
  | .load => some (.inl (.insert (shared.stored address)), shared)
  | .insert balance =>
    if shared.holder.isSome then none
    else some (.inr balance, shared.perform (BalanceManager.cacheInsert address ⟨address, balance, 0, AdicAmount.zero, now⟩))

inductive Adjustment where
  | credit (address : AccountAddress) (amount : AdicAmount)
  | debit (address : AccountAddress) (amount : AdicAmount)

namespace Adjustment

def address : Adjustment → AccountAddress
  | .credit address _ => address
  | .debit address _ => address

def amount : Adjustment → AdicAmount
  | .credit _ amount => amount
  | .debit _ amount => amount

def newBalance (current : AdicAmount) : Adjustment → Except EconomicsError AdicAmount
  | .credit address amount =>
    match current.checkedAdd amount with
    | none => .error (.balanceOverflow address)
    | some newBalance => if AdicAmount.maxSupply < newBalance then .error .exceedsMaxSupply else .ok newBalance
  | .debit address amount =>
    match current.checkedSub amount with
    | none => .error (.insufficientBalance address current amount)
    | some newBalance => .ok newBalance

def updateCache (now : Int) (newBalance : AdicAmount) : Adjustment → Call (BalanceManager MemoryStorage) Unit
  | .credit address _ => BalanceManager.cacheBalance now address newBalance
  | .debit address _ => do
    match (← get).cache.lookup address with
    | some info =>
      BalanceManager.cacheInsert address { info with balance := newBalance, lastActivity := now }
    | none => return ()

end Adjustment

/-- Where a credit or a debit stands. -/
inductive AdjustPoint where
  | getBalance (reading : Reading)
  | write (current newBalance : AdicAmount)
  | update (newBalance : AdicAmount)
  | returned (result : Except EconomicsError Unit)

def AdjustPoint.afterBalance (adjustment : Adjustment) (current : AdicAmount) : AdjustPoint :=
  match adjustment.newBalance current with
  | .ok newBalance => .write current newBalance
  | .error error => .returned (.error error)

def AdjustPoint.step (now : Int) (adjustment : Adjustment) (shared : Shared) : AdjustPoint → Option (AdjustPoint × Shared)
  | .getBalance reading =>
    (reading.step now adjustment.address shared).map fun next =>
      match next.1 with
      | .inl reading => (.getBalance reading, next.2)
      | .inr current => (.afterBalance adjustment current, next.2)
  | .write _ newBalance =>
    some (.update newBalance,
      shared.perform (BalanceManager.onStorage (MemoryStorage.setBalance adjustment.address newBalance)))
  | .update newBalance =>
    if shared.holder.isSome then none
    else some (.returned (.ok ()), shared.perform (adjustment.updateCache now newBalance))
  | .returned _ => none

/-- A transfer, with a nonce if it comes from a message. -/
structure Movement where
  sender : AccountAddress
  recipient : AccountAddress
  amount : AdicAmount
  nonce : Option UInt64

/-- Where a transfer stands. The cache is locked from the reading of the sender to its update, and while a nonce is
    incremented. -/
inductive MovePoint where
  | getBalance (reading : Reading)
  | readNonce
  | loadNonce
  | cacheNonce (nonce : UInt64)
  | beginTransaction
  | lockCache
  | readSender
  | readRecipient (fromBalance : AdicAmount)
  | writeSender (fromBalance toBalance newToBalance : AdicAmount)
  | writeRecipient (fromBalance toBalance newToBalance : AdicAmount)
  | updateCache (fromBalance newToBalance : AdicAmount)
  | incrementNonce (txHash : String)
  | storeNonce (txHash : String) (nonce : UInt64)
  | loadOldNonce (txHash : String)
  | storeNewNonce (txHash : String) (nonce : UInt64)
  | insertSender (txHash : String) (nonce : UInt64)
  | commitTransaction (txHash : String)
  | recordTransaction (txHash : String)
  | rollbackTransaction (error : EconomicsError)
  | returned (result : Except EconomicsError String)

namespace MovePoint

def afterBalance (movement : Movement) (balance : AdicAmount) : MovePoint :=
  if balance < movement.amount then .returned (.error (.insufficientBalance movement.sender balance movement.amount))
  else .readNonce

def afterNonce (movement : Movement) (currentNonce : UInt64) : MovePoint :=
  match movement.nonce with
  | some nonce =>
    if nonce ≠ currentNonce + 1 then .returned (.error (.invalidNonce (currentNonce + 1) nonce)) else .beginTransaction
  | none => .beginTransaction

/-- Only the transfer of a message has a nonce to increment. -/
def afterTransfer (movement : Movement) (txHash : String) : MovePoint :=
  match movement.nonce with
  | some _ => .incrementNonce txHash
  | none => .commitTransaction txHash

def storedNonce (shared : Shared) (address : AccountAddress) : UInt64 :=
  (shared.manager.storage.nonces.lookup address).getD 0

def txHash (blake3 : List UInt8 → Bytes32) (now : Int) (movement : Movement) : String :=
  hexEncode (blake3 (movement.sender.asBytes.bytes ++ movement.recipient.asBytes.bytes ++
    toLeBytes movement.amount.baseUnits.toNat ++ toLeBytes now)).bytes

def step (blake3 : List UInt8 → Bytes32) (now : Int) (id : Nat) (movement : Movement) (shared : Shared) :
    MovePoint → Option (MovePoint × Shared)
  | .getBalance reading =>
    (reading.step now movement.sender shared).map fun next =>
      match next.1 with
      | .inl reading => (.getBalance reading, next.2)
      | .inr balance => (.afterBalance movement balance, next.2)
  | .readNonce =>
    if shared.holder.isSome then none
    else
      match shared.cached movement.sender with
      | some info => some (.afterNonce movement info.nonce, shared)
      | none => some (.loadNonce, shared)
  | .loadNonce => some (.cacheNonce (storedNonce shared movement.sender), shared)
  | .cacheNonce nonce =>
    if shared.holder.isSome then none
    else
      match shared.cached movement.sender with
      | some info => some (.afterNonce movement nonce,
          shared.perform (BalanceManager.cacheInsert movement.sender { info with nonce := nonce }))
      | none => some (.afterNonce movement nonce, shared)
  | .beginTransaction =>
    some (.lockCache, shared.perform (BalanceManager.onStorage MemoryStorage.beginTransaction))
  | .lockCache => if shared.holder.isSome then none else some (.readSender, shared.lock id)
  | .readSender =>
    let fromBalance := shared.stored movement.sender
    if fromBalance < movement.amount then
      some (.rollbackTransaction (.insufficientBalance movement.sender fromBalance movement.amount), shared.unlock)
    else some (.readRecipient fromBalance, shared)
  | .readRecipient fromBalance =>
    let toBalance := shared.stored movement.recipient
    match toBalance.checkedAdd movement.amount with
    | none => some (.rollbackTransaction .recipientOverflow, shared.unlock)
    | some newToBalance => some (.writeSender fromBalance toBalance newToBalance, shared)
  | .writeSender fromBalance toBalance newToBalance =>
    some (.writeRecipient fromBalance toBalance newToBalance, shared.perform
      (BalanceManager.onStorage (MemoryStorage.setBalance movement.sender (fromBalance.saturatingSub movement.amount))))
  | .writeRecipient fromBalance _ newToBalance =>
    some (.updateCache fromBalance newToBalance,
      shared.perform (BalanceManager.onStorage (MemoryStorage.setBalance movement.recipient newToBalance)))
  | .updateCache fromBalance newToBalance =>
    some (.afterTransfer movement (txHash blake3 now movement),
      ((shared.perform (BalanceManager.cacheBalance now movement.sender (fromBalance.saturatingSub movement.amount))).perform
        (BalanceManager.cacheBalance now movement.recipient newToBalance)).unlock)
  | .incrementNonce txHash =>
    if shared.holder.isSome then none
    else
      match shared.cached movement.sender with
      | some info => some (.storeNonce txHash (info.nonce + 1), (shared.perform
          (BalanceManager.cacheInsert movement.sender { info with nonce := info.nonce + 1 })).lock id)
      | none => some (.loadOldNonce txHash, shared.lock id)
  | .storeNonce txHash nonce =>
    some (.commitTransaction txHash,
      (shared.perform (BalanceManager.onStorage (MemoryStorage.setNonce movement.sender nonce))).unlock)
  | .loadOldNonce txHash => some (.storeNewNonce txHash (storedNonce shared movement.sender + 1), shared)
  | .storeNewNonce txHash nonce =>
    some (.insertSender txHash nonce,
      shared.perform (BalanceManager.onStorage (MemoryStorage.setNonce movement.sender nonce)))
  | .insertSender txHash nonce =>
    some (.commitTransaction txHash, (shared.perform (BalanceManager.cacheInsert movement.sender
      ⟨movement.sender, shared.stored movement.sender, nonce, AdicAmount.zero, now⟩)).unlock)
  | .commitTransaction txHash =>
    some (.recordTransaction txHash, shared.perform (BalanceManager.onStorage MemoryStorage.commitTransaction))
  | .recordTransaction txHash =>
    some (.returned (.ok txHash), shared.perform (BalanceManager.onStorage (MemoryStorage.recordTransaction
      ⟨movement.sender, movement.recipient, movement.amount, ⟨now, 0⟩, txHash, "confirmed"⟩)))
  | .rollbackTransaction error =>
    some (.returned (.error error), shared.perform (BalanceManager.onStorage MemoryStorage.rollbackTransaction))
  | .returned _ => none

end MovePoint

inductive Task where
  | adjust (adjustment : Adjustment) (point : AdjustPoint)
  | move (movement : Movement) (point : MovePoint)

inductive LedgerCall where
  | credit (address : AccountAddress) (amount : AdicAmount)
  | debit (address : AccountAddress) (amount : AdicAmount)
  | transfer (sender recipient : AccountAddress) (amount : AdicAmount)

namespace Task

def credit (address : AccountAddress) (amount : AdicAmount) : Task :=
  .adjust (.credit address amount) (if amount = AdicAmount.zero then .returned (.ok ()) else .getBalance .lookup)

def debit (address : AccountAddress) (amount : AdicAmount) : Task :=
  .adjust (.debit address amount) (if amount = AdicAmount.zero then .returned (.ok ()) else .getBalance .lookup)

def transfer (sender recipient : AccountAddress) (amount : AdicAmount) : Task :=
  .move ⟨sender, recipient, amount, none⟩
    (if amount = AdicAmount.zero then .returned (.ok "")
    else if sender = recipient then .returned (.error .sameAddress)
    else .beginTransaction)

def processMessageTransfer (sender recipient : List UInt8) (amount nonce : UInt64) : Task :=
  match AccountAddress.fromBytes sender, AccountAddress.fromBytes recipient with
  | some fromAddr, some toAddr =>
    .move ⟨fromAddr, toAddr, AdicAmount.fromBaseUnits amount, some nonce⟩
      (if fromAddr = toAddr then .returned (.error .sameAddress)
      else if amount = 0 then .returned (.error .zeroAmount)
      else .getBalance .lookup)
  | _, _ =>
    .move ⟨AccountAddress.zero, AccountAddress.zero, AdicAmount.fromBaseUnits amount, some nonce⟩
      (.returned (.error .invalidAddressLength))

def start : LedgerCall → Task
  | .credit address amount => credit address amount
  | .debit address amount => debit address amount
  | .transfer sender recipient amount => transfer sender recipient amount

/-- A task that waits for a lock or has returned makes no step. -/
def step (blake3 : List UInt8 → Bytes32) (now : Int) (id : Nat) (shared : Shared) : Task → Option (Task × Shared)
  | .adjust adjustment point =>
    (point.step now adjustment shared).map fun next => (.adjust adjustment next.1, next.2)
  | .move movement point =>
    (point.step blake3 now id movement shared).map fun next => (.move movement next.1, next.2)

def result : Task → Option Bool
  | .adjust _ (.returned (.ok _)) => some true
  | .adjust _ (.returned (.error _)) => some false
  | .move _ (.returned (.ok _)) => some true
  | .move _ (.returned (.error _)) => some false
  | _ => none

end Task

structure World where
  shared : Shared
  tasks : List Task

namespace World

def start (manager : BalanceManager MemoryStorage) (tasks : List Task) : World := ⟨⟨manager, none⟩, tasks⟩

def step (blake3 : List UInt8 → Bytes32) (world : World) (turn : Nat × Int) : Option World :=
  match world.tasks[turn.1]? with
  | none => none
  | some task =>
    (task.step blake3 turn.2 turn.1 world.shared).map fun next => ⟨next.2, world.tasks.set turn.1 next.1⟩

def run (blake3 : List UInt8 → Bytes32) (world : World) (schedule : List (Nat × Int)) : Option World :=
  schedule.foldlM (step blake3) world

end World

def LedgerCall.call (blake3 : List UInt8 → Bytes32) (now : Int) : LedgerCall → Call (BalanceManager MemoryStorage) Unit
  | .credit address amount => BalanceManager.credit now address amount
  | .debit address amount => BalanceManager.debit now address amount
  | .transfer sender recipient amount => do
    let _ ← BalanceManager.transfer blake3 now sender recipient amount

def serially (blake3 : List UInt8 → Bytes32) (now : Int) (manager : BalanceManager MemoryStorage) (calls : List LedgerCall) :
    BalanceManager MemoryStorage :=
  calls.foldl (fun manager call => Calls.stateAfter (call.call blake3 now) manager) manager

end AdicModel.Economics
