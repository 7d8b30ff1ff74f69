import AdicCore.Economics.Storage

namespace AdicModel.Economics

structure AccountInfo where
  address : AccountAddress
  balance : AdicAmount
  nonce : UInt64
  lockedBalance : AdicAmount
  lastActivity : Int
deriving DecidableEq

structure BalanceManager (σ : Type) where
  storage : σ
  cache : HashMap.Table AccountAddress AccountInfo

def attempt {σ α : Type} (call : Call σ α) : Call σ (Except EconomicsError α) := fun state =>
  match call state with
  | .ok value next => .ok (.ok value) next
  | .error error next => .ok (.error error) next

namespace BalanceManager

variable {σ : Type}

def new (storage : σ) : BalanceManager σ := ⟨storage, ∅⟩

def onStorage {α : Type} (call : Call σ α) : Call (BalanceManager σ) α := fun manager =>
  match call manager.storage with
  | .ok value storage => .ok value { manager with storage := storage }
  | .error error storage => .error error { manager with storage := storage }

def cacheInsert (address : AccountAddress) (info : AccountInfo) : Call (BalanceManager σ) Unit :=
  modify fun manager => { manager with cache := manager.cache.insert address info }

def clearCache : Call (BalanceManager σ) Unit := modify fun manager => { manager with cache := ∅ }

variable [EconomicsStorage σ] (blake3 : List UInt8 → Bytes32) (now : Int)

/-- An entry that is loaded here has nonce and locked balance zero. -/
def getBalance (address : AccountAddress) : Call (BalanceManager σ) AdicAmount := do
  match (← get).cache.lookup address with
  | some info => return info.balance
  | none =>
    let balance ← onStorage (EconomicsStorage.getBalance address)
    cacheInsert address ⟨address, balance, 0, AdicAmount.zero, now⟩
    return balance

/-- The balance of the cached entry, or of a new one, is set. -/
def cacheBalance (address : AccountAddress) (balance : AdicAmount) : Call (BalanceManager σ) Unit := do
  match (← get).cache.lookup address with
  | some info => cacheInsert address { info with balance := balance, lastActivity := now }
  | none => cacheInsert address ⟨address, balance, 0, AdicAmount.zero, now⟩

def credit (address : AccountAddress) (amount : AdicAmount) : Call (BalanceManager σ) Unit := do
  if amount = AdicAmount.zero then return ()
  else
    let current ← getBalance now address
    match current.checkedAdd amount with
    | none => throw (.balanceOverflow address)
    | some newBalance =>
      if AdicAmount.maxSupply < newBalance then throw .exceedsMaxSupply
      else
        onStorage (EconomicsStorage.setBalance address newBalance)
        cacheBalance now address newBalance

/-- Only an entry that exists is updated. -/
def debit (address : AccountAddress) (amount : AdicAmount) : Call (BalanceManager σ) Unit := do
  if amount = AdicAmount.zero then return ()
  else
    let current ← getBalance now address
    match current.checkedSub amount with
    | none => throw (.insufficientBalance address current amount)
    | some newBalance =>
      onStorage (EconomicsStorage.setBalance address newBalance)
      match (← get).cache.lookup address with
      | some info => cacheInsert address { info with balance := newBalance, lastActivity := now }
      | none => return ()

def transferInternal (sender recipient : AccountAddress) (amount : AdicAmount) :
    Call (BalanceManager σ) String := do
  let fromBalance ← onStorage (EconomicsStorage.getBalance sender)
  if fromBalance < amount then throw (.insufficientBalance sender fromBalance amount)
  else
    let toBalance ← onStorage (EconomicsStorage.getBalance recipient)
    match toBalance.checkedAdd amount with
    | none => throw .recipientOverflow
    | some newToBalance =>
      onStorage (EconomicsStorage.setBalance sender (fromBalance.saturatingSub amount))
      onStorage (EconomicsStorage.setBalance recipient newToBalance)
      cacheBalance now sender (fromBalance.saturatingSub amount)
      cacheBalance now recipient newToBalance
      return hexEncode (blake3 (sender.asBytes.bytes ++ recipient.asBytes.bytes ++
        toLeBytes amount.baseUnits.toNat ++ toLeBytes now)).bytes

/-- The record of a transfer. An error of the history is ignored. -/
def recordTransfer (sender recipient : AccountAddress) (amount : AdicAmount) (txHash : String) :
    Call (BalanceManager σ) Unit := do
  let _ ← attempt (onStorage
    (EconomicsStorage.recordTransaction ⟨sender, recipient, amount, ⟨now, 0⟩, txHash, "confirmed"⟩))

def transfer (sender recipient : AccountAddress) (amount : AdicAmount) : Call (BalanceManager σ) String := do
  if amount = AdicAmount.zero then return ""
  else if sender = recipient then throw .sameAddress
  else
    onStorage EconomicsStorage.beginTransaction
    match ← attempt (transferInternal blake3 now sender recipient amount) with
    | .ok txHash =>
      onStorage EconomicsStorage.commitTransaction
      recordTransfer now sender recipient amount txHash
      return txHash
    | .error error =>
      onStorage EconomicsStorage.rollbackTransaction
      throw error

/-- A missing entry is created with balance zero, and stays when the lock fails. -/
def lock (address : AccountAddress) (amount : AdicAmount) : Call (BalanceManager σ) Unit := do
  let info := ((← get).cache.lookup address).getD ⟨address, AdicAmount.zero, 0, AdicAmount.zero, now⟩
  cacheInsert address info
  let unlocked := info.balance.saturatingSub info.lockedBalance
  if unlocked < amount then throw (.insufficientUnlocked unlocked amount)
  else
    let lockedBalance := info.lockedBalance.saturatingAdd amount
    cacheInsert address { info with lockedBalance := lockedBalance }
    onStorage (EconomicsStorage.setLockedBalance address lockedBalance)

def unlock (address : AccountAddress) (amount : AdicAmount) : Call (BalanceManager σ) Unit := do
  match (← get).cache.lookup address with
  | none => throw (.accountNotFound address)
  | some info =>
    if info.lockedBalance < amount then throw (.insufficientLocked info.lockedBalance amount)
    else
      let lockedBalance := info.lockedBalance.saturatingSub amount
      cacheInsert address { info with lockedBalance := lockedBalance }
      onStorage (EconomicsStorage.setLockedBalance address lockedBalance)

def getLockedBalance (address : AccountAddress) : Call (BalanceManager σ) AdicAmount := do
  match (← get).cache.lookup address with
  | some info => return info.lockedBalance
  | none => onStorage (EconomicsStorage.getLockedBalance address)

def getUnlockedBalance (address : AccountAddress) : Call (BalanceManager σ) AdicAmount := do
  let balance ← getBalance now address
  let locked ← getLockedBalance address
  return balance.saturatingSub locked

def storedNonce (address : AccountAddress) : Call (BalanceManager σ) UInt64 := do
  match ← attempt (onStorage (EconomicsStorage.getNonce address)) with
  | .ok nonce => return nonce
  | .error _ => return 0

/-- A nonce read from storage is cached only in an entry that exists. -/
def getNonce (address : AccountAddress) : Call (BalanceManager σ) UInt64 := do
  match (← get).cache.lookup address with
  | some info => return info.nonce
  | none =>
    let nonce ← storedNonce address
    match (← get).cache.lookup address with
    | some info => cacheInsert address { info with nonce := nonce }
    | none => pure ()
    return nonce

/-- Nonces wrap as in release builds. -/
def incrementNonce (address : AccountAddress) : Call (BalanceManager σ) Unit := do
  match (← get).cache.lookup address with
  | some info =>
    cacheInsert address { info with nonce := info.nonce + 1 }
    onStorage (EconomicsStorage.setNonce address (info.nonce + 1))
  | none =>
    let nonce := (← storedNonce address) + 1
    onStorage (EconomicsStorage.setNonce address nonce)
    let balance ← onStorage (EconomicsStorage.getBalance address)
    cacheInsert address ⟨address, balance, nonce, AdicAmount.zero, now⟩

def validateTransfer (sender recipient : List UInt8) (amount nonce : UInt64) :
    Call (BalanceManager σ) Unit := do
  match AccountAddress.fromBytes sender, AccountAddress.fromBytes recipient with
  | some fromAddr, some toAddr =>
    if fromAddr = toAddr then throw .sameAddress
    else if amount = 0 then throw .zeroAmount
    else
      let balance ← getBalance now fromAddr
      let transferAmount := AdicAmount.fromBaseUnits amount
      if balance < transferAmount then throw (.insufficientBalance fromAddr balance transferAmount)
      else
        let currentNonce ← getNonce fromAddr
        if nonce ≠ currentNonce + 1 then throw (.invalidNonce (currentNonce + 1) nonce)
        else return ()
  | _, _ => throw .invalidAddressLength

def processMessageTransfer (sender recipient : List UInt8) (amount nonce : UInt64) :
    Call (BalanceManager σ) String := do
  match AccountAddress.fromBytes sender, AccountAddress.fromBytes recipient with
  | some fromAddr, some toAddr =>
    let transferAmount := AdicAmount.fromBaseUnits amount
    validateTransfer now sender recipient amount nonce
    onStorage EconomicsStorage.beginTransaction
    match ← attempt (transferInternal blake3 now fromAddr toAddr transferAmount) with
    | .ok txHash =>
      match ← attempt (incrementNonce now fromAddr) with
      | .error error =>
        onStorage EconomicsStorage.rollbackTransaction
        throw error
      | .ok () =>
        onStorage EconomicsStorage.commitTransaction
        recordTransfer now fromAddr toAddr transferAmount txHash
        return txHash
    | .error error =>
      onStorage EconomicsStorage.rollbackTransaction
      throw error
  | _, _ => throw .invalidAddressLength

end BalanceManager

end AdicModel.Economics
