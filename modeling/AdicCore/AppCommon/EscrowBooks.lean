import AdicCore.AppCommon.Escrow
import AdicCore.Consensus.EscrowAccounting

open AdicModel AdicModel.Economics AdicModel.AppCommon AdicProof.Economics AdicProof.Consensus Calls

namespace AdicProof.AppCommon

inductive VaultCall where
  | lock (escrowType : EscrowType) (amount : AdicAmount) (currentEpoch : UInt64)
  | release (lockId : LockId) (recipient : AccountAddress)
  | slash (lockId : LockId) (treasury : AccountAddress)
  | refund (lockId : LockId)
  | ledger (operation : Operation)

structure Vault where
  locks : HashMap.Table LockId LockMetadata
  books : Books

namespace Vault

variable (vault : Vault)

def freed (metadata : LockMetadata) (books : Books) : Option Books :=
  (Operation.unlock metadata.owner metadata.amount).outcome books

def pay (metadata : LockMetadata) (recipient : AccountAddress) (read : Books) : Bool × Vault :=
  match freed metadata read with
  | none => (false, { vault with books := read })
  | some unlocked =>
    match (Operation.transfer metadata.owner recipient metadata.amount).outcome unlocked with
    | none => (false, { vault with books := unlocked })
    | some sent => (true, { vault with books := sent.load recipient })

def result : VaultCall → Bool × Vault
  | .lock escrowType amount currentEpoch =>
    let owner := escrowType.owner
    let entry := vault.books.entry owner
    let loaded := vault.books.load owner
    if entry.balance.saturatingSub entry.locked < amount then (false, { vault with books := loaded })
    else (true,
      { locks := vault.locks.insert escrowType.toLockId ⟨escrowType, amount, currentEpoch, owner⟩
        books := loaded.setLocked owner entry (entry.locked.saturatingAdd amount) })
  | .release lockId recipient =>
    match vault.locks.lookup lockId with
    | none => (false, vault)
    | some metadata => vault.pay metadata recipient ((vault.books.load metadata.owner).load recipient)
  | .slash lockId treasury =>
    match vault.locks.lookup lockId with
    | none => (false, vault)
    | some metadata => vault.pay metadata treasury (vault.books.load treasury)
  | .refund lockId =>
    match vault.locks.lookup lockId with
    | none => (false, vault)
    | some metadata =>
      match freed metadata vault.books with
      | none => (false, vault)
      | some unlocked => (true, { vault with books := unlocked })
  | .ledger operation =>
    match operation.outcome vault.books with
    | some after => (true, { vault with books := after })
    | none => (false, { vault with books := operation.residue vault.books })

end Vault

section

variable {σ : Type} [EconomicsStorage σ] (blake3 : List UInt8 → Bytes32) (now : Int)

def VaultCall.run (manager : EscrowManager σ) : VaultCall → Bool × EscrowManager σ
  | .lock escrowType amount currentEpoch => ran (EscrowManager.lock now escrowType amount currentEpoch manager)
  | .release lockId recipient => ran (EscrowManager.release blake3 now lockId recipient manager)
  | .slash lockId treasury => ran (EscrowManager.slash blake3 now lockId treasury manager)
  | .refund lockId => ran (EscrowManager.refund lockId manager)
  | .ledger operation =>
    let called := ran (operation.call blake3 now manager.balanceMgr)
    (called.1, { manager with balanceMgr := called.2 })

variable [LawfulStorage σ]

def vaultOf (manager : EscrowManager σ) : Vault := ⟨manager.locks, booksOf manager.balanceMgr⟩

section

variable {manager : EscrowManager σ} {α : Type} {call : Call (BalanceManager σ) α} {value : α} {after : Books}
  {lockId : LockId}

theorem onBalanceMgr_agrees {expected : Bool × Books} (agrees : Agrees booksOf call manager.balanceMgr expected) :
    Agrees vaultOf (EscrowManager.onBalanceMgr call) manager (expected.1, ⟨manager.locks, expected.2⟩) := by
  unfold Agrees at agrees ⊢
  unfold EscrowManager.onBalanceMgr
  cases run : call manager.balanceMgr with
  | ok value next =>
    rw [run] at agrees
    rw [← agrees]
    rfl
  | error error next =>
    rw [run] at agrees
    rw [← agrees]
    rfl

theorem onBalanceMgr_returns (returns : Returns booksOf call manager.balanceMgr value after) :
    Returns vaultOf (EscrowManager.onBalanceMgr call) manager value ⟨manager.locks, after⟩ := by
  rcases returns with ⟨next, run, seen⟩
  refine ⟨{ manager with balanceMgr := next }, ?_, ?_⟩
  · unfold EscrowManager.onBalanceMgr
    rw [run]
  · rw [← seen]
    rfl

theorem getMetadata_agrees {rest : LockMetadata → EscrowCall σ Unit} {expected : LockMetadata → Bool × Vault}
    (agrees : ∀ metadata, Agrees vaultOf (rest metadata) manager (expected metadata)) :
    Agrees vaultOf (EscrowManager.getMetadata lockId >>= rest) manager
      (match (vaultOf manager).locks.lookup lockId with
        | none => (false, vaultOf manager)
        | some metadata => expected metadata) := by
  have looked : EscrowManager.getMetadata lockId manager = match manager.locks.lookup lockId with
      | none => .error (.lockNotFound lockId) manager
      | some metadata => .ok metadata manager := by
    unfold EscrowManager.getMetadata
    rw [bind_get]
    cases manager.locks.lookup lockId with
    | none => rfl
    | some metadata => rfl
  have locks : (vaultOf manager).locks.lookup lockId = manager.locks.lookup lockId := rfl
  unfold Agrees
  rw [locks]
  cases found : manager.locks.lookup lockId with
  | none =>
    rw [found] at looked
    rw [bind_error looked]
  | some metadata =>
    rw [found] at looked
    rw [bind_ok looked]
    exact agrees metadata

theorem getBalance_vault (address : AccountAddress) :
    Returns vaultOf (EscrowManager.onBalanceMgr (BalanceManager.getBalance now address)) manager
      ((vaultOf manager).books.entry address).balance
      ⟨(vaultOf manager).locks, (vaultOf manager).books.load address⟩ :=
  onBalanceMgr_returns (getBalance_returns now)

def payment (metadata : LockMetadata) (recipient : AccountAddress) : EscrowCall σ Unit := do
  EscrowManager.onBalanceMgr (BalanceManager.unlock metadata.owner metadata.amount)
  let _ ← EscrowManager.onBalanceMgr (BalanceManager.transfer blake3 now metadata.owner recipient metadata.amount)
  let _ ← EscrowManager.onBalanceMgr (BalanceManager.getBalance now recipient)

theorem payment_agrees (metadata : LockMetadata) (recipient : AccountAddress) :
    Agrees vaultOf (payment blake3 now metadata recipient) manager
      ((vaultOf manager).pay metadata recipient (vaultOf manager).books) := by
  unfold payment Vault.pay Vault.freed
  have unlocking := onBalanceMgr_agrees (@unlock_agrees _ _ _ manager.balanceMgr metadata.owner metadata.amount)
  unfold Operation.result at unlocking
  have books : (vaultOf manager).books = booksOf manager.balanceMgr := rfl
  rw [books]
  cases unlocks : (Operation.unlock metadata.owner metadata.amount).outcome (booksOf manager.balanceMgr) with
  | none =>
    rw [unlocks] at unlocking
    exact unlocking.fails.bind.agrees
  | some unlocked =>
    rw [unlocks] at unlocking
    obtain ⟨_, unlocks⟩ := unlocking.returns
    refine unlocks.agrees_bind fun next seen => ?_
    have nextBooks : booksOf next.balanceMgr = unlocked := congrArg Vault.books seen
    have locks : next.locks = manager.locks := congrArg Vault.locks seen
    have sending := onBalanceMgr_agrees
      (@transfer_agrees _ _ _ next.balanceMgr metadata.owner recipient metadata.amount blake3 now)
    unfold Operation.result at sending
    rw [nextBooks, locks] at sending
    cases sends : (Operation.transfer metadata.owner recipient metadata.amount).outcome unlocked with
    | none =>
      rw [sends] at sending
      simp only [sends]
      exact sending.fails.bind.agrees
    | some sent =>
      rw [sends] at sending
      simp only [sends]
      obtain ⟨_, sends⟩ := sending.returns
      refine sends.agrees_bind fun last lastSeen => ?_
      have read := @getBalance_vault _ _ now _ last recipient
      rw [lastSeen] at read
      exact read.agrees.discard

theorem setEntry_load (books : Books) (address : AccountAddress) :
    (books.load address).setEntry address (books.entry address) = books.load address := by
  unfold Books.load Books.setEntry
  simp only [Function.update_idem]

theorem cache_setLocked (books : Books) (address : AccountAddress) (entry : Entry) (amount : AdicAmount) :
    (books.setLocked address entry amount).cache address = some { entry with locked := amount } := by
  unfold Books.setLocked Books.setEntry
  simp only [Function.update_self]

theorem lock_agrees (escrowType : EscrowType) (amount : AdicAmount) (currentEpoch : UInt64) :
    Agrees vaultOf (EscrowManager.lock now escrowType amount currentEpoch) manager
      ((vaultOf manager).result (.lock escrowType amount currentEpoch)) := by
  unfold EscrowManager.lock
  refine (getBalance_vault now escrowType.owner).agrees_bind fun loaded seen => ?_
  have books : booksOf loaded.balanceMgr = (booksOf manager.balanceMgr).load escrowType.owner :=
    congrArg Vault.books seen
  have locks : loaded.locks = manager.locks := congrArg Vault.locks seen
  have locking := onBalanceMgr_agrees
    (@Economics.lock_agrees _ _ _ loaded.balanceMgr escrowType.owner amount now)
  unfold Operation.result Operation.outcome Operation.residue at locking
  dsimp only at locking
  rw [books, lockEntry_load, locks, setEntry_load] at locking
  simp only [Vault.result]
  split
  · next short =>
    have refused : (booksOf manager.balanceMgr |>.entry escrowType.owner).balance.saturatingSub
        (booksOf manager.balanceMgr |>.entry escrowType.owner).locked < amount := short
    rw [if_pos refused] at locking
    exact locking.fails.bind.agrees
  · next enough =>
    have accepted : ¬(booksOf manager.balanceMgr |>.entry escrowType.owner).balance.saturatingSub
        (booksOf manager.balanceMgr |>.entry escrowType.owner).locked < amount := enough
    rw [if_neg accepted] at locking
    obtain ⟨_, locks'⟩ := locking.returns
    refine locks'.agrees_bind fun locked lockedSeen => ?_
    have lockedBooks := congrArg Vault.books lockedSeen
    have cached := cache_setLocked ((booksOf manager.balanceMgr).load escrowType.owner) escrowType.owner
      ((booksOf manager.balanceMgr).entry escrowType.owner)
      (((booksOf manager.balanceMgr).entry escrowType.owner).locked.saturatingAdd amount)
    dsimp only [Option.elim_some] at lockedBooks
    rw [← lockedBooks] at cached
    refine (onBalanceMgr_returns (getLockedBalance_cached cached)).agrees_bind fun read readSeen => ?_
    have readBooks : booksOf read.balanceMgr = booksOf locked.balanceMgr := congrArg Vault.books readSeen
    have readLocks : read.locks = locked.locks := congrArg Vault.locks readSeen
    have lockedLocks : locked.locks = manager.locks := congrArg Vault.locks lockedSeen
    show (true, (⟨read.locks.insert _ _, booksOf read.balanceMgr⟩ : Vault)) = _
    rw [readLocks, readBooks, lockedLocks]
    exact congrArg (fun books => (true, Vault.mk _ books)) lockedBooks

theorem release_agrees (lockId : LockId) (recipient : AccountAddress) :
    Agrees vaultOf (EscrowManager.release blake3 now lockId recipient) manager
      ((vaultOf manager).result (.release lockId recipient)) := by
  refine getMetadata_agrees fun metadata => ?_
  refine (getBalance_vault now metadata.owner).agrees_bind fun second secondSeen => ?_
  refine (getBalance_vault now recipient).agrees_bind fun third thirdSeen => ?_
  have agrees := @payment_agrees _ _ blake3 now _ third metadata recipient
  rw [thirdSeen, secondSeen] at agrees
  exact agrees

theorem slash_agrees (lockId : LockId) (treasury : AccountAddress) :
    Agrees vaultOf (EscrowManager.slash blake3 now lockId treasury) manager
      ((vaultOf manager).result (.slash lockId treasury)) := by
  refine getMetadata_agrees fun metadata => ?_
  refine (getBalance_vault now treasury).agrees_bind fun second secondSeen => ?_
  have agrees := @payment_agrees _ _ blake3 now _ second metadata treasury
  rw [secondSeen] at agrees
  exact agrees

theorem refund_agrees (lockId : LockId) :
    Agrees vaultOf (EscrowManager.refund lockId) manager ((vaultOf manager).result (.refund lockId)) := by
  refine getMetadata_agrees fun metadata => ?_
  obtain ⟨before, readBefore⟩ := @getLockedBalance_returns _ _ _ manager.balanceMgr metadata.owner
  refine (onBalanceMgr_returns readBefore).agrees_bind fun second seen => ?_
  have books : booksOf second.balanceMgr = booksOf manager.balanceMgr := congrArg Vault.books seen
  have locks : second.locks = manager.locks := congrArg Vault.locks seen
  have unlocking := onBalanceMgr_agrees (@unlock_agrees _ _ _ second.balanceMgr metadata.owner metadata.amount)
  unfold Operation.result at unlocking
  rw [books, locks] at unlocking
  dsimp only [Vault.freed]
  have same : (vaultOf manager).books = booksOf manager.balanceMgr := rfl
  rw [same]
  cases unlocks : (Operation.unlock metadata.owner metadata.amount).outcome (booksOf manager.balanceMgr) with
  | none =>
    rw [unlocks] at unlocking
    exact unlocking.fails.bind.agrees
  | some unlocked =>
    rw [unlocks] at unlocking
    obtain ⟨_, unlocks⟩ := unlocking.returns
    refine unlocks.agrees_bind fun third thirdSeen => ?_
    obtain ⟨after, readAfter⟩ := @getLockedBalance_returns _ _ _ third.balanceMgr metadata.owner
    have last := onBalanceMgr_returns readAfter
    have thirdBooks : booksOf third.balanceMgr = unlocked := congrArg Vault.books thirdSeen
    have thirdLocks : third.locks = manager.locks := congrArg Vault.locks thirdSeen
    rw [thirdBooks, thirdLocks] at last
    exact last.agrees.discard

theorem VaultCall.run_result (call : VaultCall) :
    (call.run blake3 now manager).1 = ((vaultOf manager).result call).1 ∧
      vaultOf (call.run blake3 now manager).2 = ((vaultOf manager).result call).2 := by
  cases call with
  | lock escrowType amount currentEpoch => exact ran_agrees (lock_agrees now escrowType amount currentEpoch)
  | release lockId recipient => exact ran_agrees (release_agrees blake3 now lockId recipient)
  | slash lockId treasury => exact ran_agrees (slash_agrees blake3 now lockId treasury)
  | refund lockId => exact ran_agrees (refund_agrees lockId)
  | ledger operation =>
    obtain ⟨ends, left⟩ := ran_agrees (@Operation.agrees _ _ _ manager.balanceMgr operation blake3 now)
    simp only [VaultCall.run, Vault.result]
    have books : (vaultOf manager).books = booksOf manager.balanceMgr := rfl
    rw [books]
    unfold Operation.result at ends left
    cases outcome : operation.outcome (booksOf manager.balanceMgr) with
    | some after =>
      rw [outcome] at ends left
      exact ⟨ends, congrArg (Vault.mk manager.locks) left⟩
    | none =>
      rw [outcome] at ends left
      exact ⟨ends, congrArg (Vault.mk manager.locks) left⟩

end

end

end AdicProof.AppCommon
