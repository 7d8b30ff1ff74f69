import AdicCore.AppCommon.Error
import AdicCore.Economics.Balance

open AdicModel.Economics

namespace AdicModel.AppCommon

abbrev LockId := String

inductive EscrowType where
  | storageCollateral (dealId : UInt64) (provider : AccountAddress)
  | storagePayment (dealId : UInt64) (client : AccountAddress)
  | poUWDeposit (hookId : MessageId) (worker : AccountAddress)
  | treasuryGrant (proposalId : MessageId) (recipient : AccountAddress)
  | custom (lockId : String) (owner : AccountAddress)

namespace EscrowType

def hexPrefix (address : AccountAddress) : String := hexEncode (address.asBytes.bytes.take 8)

def toLockId : EscrowType → LockId
  | storageCollateral dealId provider => s!"storage_collateral_{dealId}_{hexPrefix provider}"
  | storagePayment dealId client => s!"storage_payment_{dealId}_{hexPrefix client}"
  | poUWDeposit hookId worker => s!"pouw_deposit_{hexEncode hookId.asBytes.bytes}_{hexPrefix worker}"
  | treasuryGrant proposalId recipient =>
    s!"treasury_grant_{hexEncode proposalId.asBytes.bytes}_{hexPrefix recipient}"
  | custom lockId _ => lockId

def owner : EscrowType → AccountAddress
  | storageCollateral _ provider => provider
  | storagePayment _ client => client
  | poUWDeposit _ worker => worker
  | treasuryGrant _ recipient => recipient
  | custom _ owner => owner

end EscrowType

structure LockMetadata where
  escrowType : EscrowType
  amount : AdicAmount
  lockedAtEpoch : UInt64
  owner : AccountAddress

structure EscrowManager (σ : Type) where
  balanceMgr : BalanceManager σ
  locks : HashMap.Table LockId LockMetadata

abbrev EscrowCall (σ α : Type) : Type := EStateM AppError (EscrowManager σ) α

namespace EscrowManager

variable {σ : Type}

def new (balanceMgr : BalanceManager σ) : EscrowManager σ := ⟨balanceMgr, ∅⟩

def onBalanceMgr {α : Type} (call : Call (BalanceManager σ) α) : EscrowCall σ α := fun manager =>
  match call manager.balanceMgr with
  | .ok value next => .ok value { manager with balanceMgr := next }
  | .error error next => .error (.escrowError error) { manager with balanceMgr := next }

def insertLock (lockId : LockId) (metadata : LockMetadata) : EscrowCall σ Unit :=
  modify fun manager => { manager with locks := manager.locks.insert lockId metadata }

def getMetadata (lockId : LockId) : EscrowCall σ LockMetadata := do
  match (← get).locks.lookup lockId with
  | none => throw (.lockNotFound lockId)
  | some metadata => return metadata

variable [EconomicsStorage σ] (blake3 : List UInt8 → Bytes32) (now : Int)

/-- A lock under an id that has one replaces it. -/
def lock (escrowType : EscrowType) (amount : AdicAmount) (currentEpoch : UInt64) : EscrowCall σ LockId := do
  let lockId := escrowType.toLockId
  let owner := escrowType.owner
  let _ ← onBalanceMgr (BalanceManager.getBalance now owner)
  onBalanceMgr (BalanceManager.lock now owner amount)
  let _ ← onBalanceMgr (BalanceManager.getLockedBalance owner)
  insertLock lockId ⟨escrowType, amount, currentEpoch, owner⟩
  return lockId

/-- The lock is not taken out of the map. -/
def release (lockId : LockId) (recipient : AccountAddress) : EscrowCall σ Unit := do
  let metadata ← getMetadata lockId
  let _ ← onBalanceMgr (BalanceManager.getBalance now metadata.owner)
  let _ ← onBalanceMgr (BalanceManager.getBalance now recipient)
  onBalanceMgr (BalanceManager.unlock metadata.owner metadata.amount)
  let _ ← onBalanceMgr (BalanceManager.transfer blake3 now metadata.owner recipient metadata.amount)
  let _ ← onBalanceMgr (BalanceManager.getBalance now recipient)

def slash (lockId : LockId) (treasury : AccountAddress) : EscrowCall σ Unit := do
  let metadata ← getMetadata lockId
  let _ ← onBalanceMgr (BalanceManager.getBalance now treasury)
  onBalanceMgr (BalanceManager.unlock metadata.owner metadata.amount)
  let _ ← onBalanceMgr (BalanceManager.transfer blake3 now metadata.owner treasury metadata.amount)
  let _ ← onBalanceMgr (BalanceManager.getBalance now treasury)

def refund (lockId : LockId) : EscrowCall σ Unit := do
  let metadata ← getMetadata lockId
  let _ ← onBalanceMgr (BalanceManager.getLockedBalance metadata.owner)
  onBalanceMgr (BalanceManager.unlock metadata.owner metadata.amount)
  let _ ← onBalanceMgr (BalanceManager.getLockedBalance metadata.owner)

end EscrowManager

end AdicModel.AppCommon
