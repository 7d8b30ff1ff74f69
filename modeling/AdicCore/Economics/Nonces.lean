import AdicCore.Economics.Coherence

open AdicModel AdicModel.Economics Calls

namespace AdicProof.Economics

namespace Books

/-- The checks of a message transfer. -/
structure Accepts (books : Books) (sender recipient : AccountAddress) (amount nonce : UInt64) : Prop where
  different : sender ≠ recipient
  positive : amount ≠ 0
  cachedEnough : ¬ (books.entry sender).balance < AdicAmount.fromBaseUnits amount
  storedEnough : ¬ books.accounts.balance sender < AdicAmount.fromBaseUnits amount
  next : nonce = books.cachedNonce sender + 1
  fits : ((books.accounts.balance recipient).checkedAdd (AdicAmount.fromBaseUnits amount)).isSome

variable {books : Books} {sender recipient : AccountAddress} {amount nonce : UInt64}

theorem messageTransfer_isSome :
    (books.messageTransfer sender recipient amount nonce).isSome ↔ books.Accepts sender recipient amount nonce := by
  unfold messageTransfer move
  constructor
  · intro accepted
    split at accepted
    · cases accepted
    · next valid =>
      simp only [not_or, not_not] at valid
      rcases valid with ⟨different, positive, cachedEnough, next⟩
      rw [Option.isSome_map] at accepted
      split at accepted
      · cases accepted
      · next storedEnough =>
        rw [Option.isSome_map] at accepted
        exact ⟨different, positive, cachedEnough, storedEnough, next, accepted⟩
  · intro accepts
    have valid : ¬ (sender = recipient ∨ amount = 0 ∨
        (books.entry sender).balance < AdicAmount.fromBaseUnits amount ∨ nonce ≠ (books.entry sender).nonce + 1) := by
      simp only [not_or, not_not]
      exact ⟨accepts.different, accepts.positive, accepts.cachedEnough, accepts.next⟩
    rw [if_neg valid, accounts_load, if_neg accepts.storedEnough, Option.isSome_map, Option.isSome_map]
    exact accepts.fits

theorem nonce_messageTransfer {after : Books}
    (accepted : books.messageTransfer sender recipient amount nonce = some after) :
    after.accounts.nonce = Function.update books.accounts.nonce sender nonce := by
  have accepts := messageTransfer_isSome.mp (Option.isSome_of_eq_some accepted)
  obtain ⟨-, moved, moving, rfl⟩ := messageTransfer_eq accepted
  have cached := move_cached moving accepts.different
  have unchanged : moved.accounts.nonce = books.accounts.nonce := by
    obtain ⟨-, newToBalance, -, rfl⟩ := move_eq moving
    rfl
  have nonce_eq : (moved.entry sender).nonce + 1 = nonce := by
    rw [entry_cached cached, accepts.next]
    simp
  rw [← unchanged, ← nonce_eq]
  rfl

end Books

theorem Operation.nonce_outcome {books after : Books} {operation : Operation}
    (other : ∀ sender recipient amount nonce, operation ≠ .processMessageTransfer sender recipient amount nonce)
    (accepted : operation.outcome books = some after) : after.accounts.nonce = books.accounts.nonce := by
  cases Operation.effect_of_outcome accepted with
  | processMessageTransfer => exact absurd rfl (other _ _ _ _)
  | transfer _ _ moving =>
    obtain ⟨-, newToBalance, -, rfl⟩ := Books.move_eq moving
    rfl
  | _ => rfl

theorem Operation.accounts_residue (books : Books) (operation : Operation) :
    (operation.residue books).accounts = books.accounts := by
  unfold Operation.residue
  split
  · rfl
  · rfl
  · rfl
  · split
    · unfold Books.refused
      split <;> rfl
    · rfl
  · rfl

section

variable {σ : Type} [EconomicsStorage σ] (blake3 : List UInt8 → Bytes32)

structure History (σ : Type) where
  manager : BalanceManager σ
  executed : List (AccountAddress × UInt64)

def executedBy (manager : BalanceManager σ) (call : Int × Operation) : List (AccountAddress × UInt64) :=
  match call.2 with
  | .processMessageTransfer sender _ _ nonce =>
    if Succeeds blake3 call manager then (AccountAddress.fromBytes sender).toList.map fun address => (address, nonce)
    else []
  | _ => []

def nextHistory (history : History σ) (call : Int × Operation) : History σ :=
  ⟨nextManager blake3 history.manager call, history.executed ++ executedBy blake3 history.manager call⟩

def historyAfter (storage : σ) (calls : List (Int × Operation)) : History σ :=
  Runs.after (nextHistory blake3) ⟨BalanceManager.new storage, []⟩ calls

variable [LawfulStorage σ]

/-- Every nonce of an account succeeds at most once, and the stored nonce counts its transfers. -/
def ReplaySafe (history : History σ) : Prop :=
  ∀ address, (∀ nonce, history.executed.count (address, nonce) ≤ 1) ∧
    ((LawfulStorage.accounts history.manager.storage).nonce address).toNat =
      (history.executed.filter fun transfer => transfer.1 = address).length

def Counted (history : History σ) : Prop :=
  ∀ address, ((history.executed.filter fun transfer => transfer.1 = address).map fun transfer => transfer.2.toNat) =
    List.range' 1 ((LawfulStorage.accounts history.manager.storage).nonce address).toNat

variable {history : History σ}

theorem Counted.replaySafe (counted : Counted history) : ReplaySafe history := by
  intro address
  constructor
  · intro nonce
    have nodup : (history.executed.filter fun transfer => transfer.1 = address).Nodup := by
      apply List.Nodup.of_map fun transfer : AccountAddress × UInt64 => transfer.2.toNat
      rw [counted address]
      exact List.nodup_range'
    have count := List.nodup_iff_count_le_one.mp nodup (address, nonce)
    rwa [List.count_filter (by simp)] at count
  · have lengths := congrArg List.length (counted address)
    rw [List.length_map, List.length_range'] at lengths
    exact lengths.symm

/-- When a message transfer counts: it is checked against the stored nonce, which is not the last. -/
def Operation.Counts (books : Books) : Operation → Prop
  | .processMessageTransfer sender recipient amount nonce =>
    ∀ fromAddr toAddr, AccountAddress.fromBytes sender = some fromAddr →
      AccountAddress.fromBytes recipient = some toAddr → books.Accepts fromAddr toAddr amount nonce →
      books.cachedNonce fromAddr = books.accounts.nonce fromAddr ∧
        (books.accounts.nonce fromAddr).toNat + 1 < 2 ^ 64
  | _ => True

theorem nextHistory_cases (history : History σ) (call : Int × Operation) :
    (LawfulStorage.accounts (nextHistory blake3 history call).manager.storage).nonce =
        (LawfulStorage.accounts history.manager.storage).nonce ∧
      (nextHistory blake3 history call).executed = history.executed ∧ call.2.Counts (booksOf history.manager) ∨
    ∃ sender recipient amount nonce fromAddr toAddr,
      call.2 = .processMessageTransfer sender recipient amount nonce ∧
      AccountAddress.fromBytes sender = some fromAddr ∧ AccountAddress.fromBytes recipient = some toAddr ∧
      (booksOf history.manager).Accepts fromAddr toAddr amount nonce ∧
      (LawfulStorage.accounts (nextHistory blake3 history call).manager.storage).nonce =
        Function.update (LawfulStorage.accounts history.manager.storage).nonce fromAddr nonce ∧
      (nextHistory blake3 history call).executed = history.executed ++ [(fromAddr, nonce)] := by
  have books := booksOf_nextManager blake3 history.manager call
  have accounts : LawfulStorage.accounts (nextHistory blake3 history call).manager.storage =
      ((call.2.outcome (booksOf history.manager)).getD (call.2.residue (booksOf history.manager))).accounts := by
    rw [← books]
    rfl
  have succeeds := @succeeds_iff _ _ blake3 _ call history.manager
  rw [accounts]
  unfold nextHistory executedBy
  rcases call with ⟨now, operation⟩
  simp only at succeeds ⊢
  cases operation with
  | processMessageTransfer sender recipient amount nonce =>
    simp only
    cases outcome : Operation.outcome (booksOf history.manager) (.processMessageTransfer sender recipient amount nonce) with
    | none =>
      rw [outcome] at succeeds
      refine .inl ⟨?_, ?_, ?_⟩
      · rw [Option.getD_none, Operation.accounts_residue]
        rfl
      · rw [if_neg (by simpa using succeeds), List.append_nil]
      · intro fromAddr toAddr from_eq to_eq accepts
        have accepted := Books.messageTransfer_isSome.mpr accepts
        unfold Operation.outcome at outcome
        simp only [from_eq, to_eq] at outcome
        rw [outcome] at accepted
        cases accepted
    | some after =>
      rw [outcome] at succeeds
      cases Operation.effect_of_outcome outcome with
      | @processMessageTransfer _ _ fromAddr toAddr _ _ _ from_eq to_eq accepted =>
        refine .inr ⟨sender, recipient, amount, nonce, fromAddr, toAddr, rfl, from_eq, to_eq, ?_, ?_, ?_⟩
        · exact Books.messageTransfer_isSome.mp (Option.isSome_of_eq_some accepted)
        · rw [Option.getD_some]
          exact Books.nonce_messageTransfer accepted
        · rw [if_pos (succeeds.mpr rfl), from_eq]
          rfl
  | _ =>
    refine .inl ⟨?_, List.append_nil _, trivial⟩
    cases outcome : Operation.outcome (booksOf history.manager) _ with
    | none =>
      rw [Option.getD_none, Operation.accounts_residue]
      rfl
    | some after =>
      rw [Option.getD_some]
      exact Operation.nonce_outcome (by simp) outcome

theorem nextHistory_counted {call : Int × Operation} (counted : Counted history)
    (counts : call.2.Counts (booksOf history.manager)) : Counted (nextHistory blake3 history call) := by
  intro address
  rcases nextHistory_cases blake3 history call with ⟨nonce_eq, executed_eq, _⟩ |
    ⟨sender, recipient, amount, nonce, fromAddr, toAddr, operation, from_eq, to_eq, accepts, nonce_eq, executed_eq⟩
  · rw [nonce_eq, executed_eq]
    exact counted address
  · rw [operation] at counts
    rcases counts fromAddr toAddr from_eq to_eq accepts with ⟨cached, bounded⟩
    have next : nonce.toNat = ((LawfulStorage.accounts history.manager.storage).nonce fromAddr).toNat + 1 := by
      rw [accepts.next, cached, UInt64.toNat_add]
      exact Nat.mod_eq_of_lt bounded
    rw [nonce_eq, executed_eq, List.filter_append, List.map_append, counted address]
    by_cases same : address = fromAddr
    · subst same
      simp only [Function.update_self, next, List.range'_concat]
      simp [next, Nat.add_comm]
    · simp [same, Ne.symm same]

theorem counts_of_replaySafe {call : Int × Operation} (counted : Counted history)
    (safe : ReplaySafe (nextHistory blake3 history call)) : call.2.Counts (booksOf history.manager) := by
  rcases nextHistory_cases blake3 history call with ⟨_, _, counts⟩ |
    ⟨sender, recipient, amount, nonce, fromAddr, toAddr, operation, from_eq, to_eq, accepts, nonce_eq, executed_eq⟩
  · exact counts
  · have before := (counted.replaySafe fromAddr).2
    have later := (safe fromAddr).2
    rw [nonce_eq, executed_eq, Function.update_self, List.filter_append, List.length_append, ← before] at later
    have next : nonce.toNat = ((LawfulStorage.accounts history.manager.storage).nonce fromAddr).toNat + 1 := by
      simpa using later
    have bounded := nonce.toNat_lt
    have sum : nonce = (LawfulStorage.accounts history.manager.storage).nonce fromAddr + 1 := by
      apply UInt64.toNat_inj.mp
      rw [UInt64.toNat_add, next]
      symm
      apply Nat.mod_eq_of_lt
      show _ + 1 < 2 ^ 64
      omega
    have cached : (booksOf history.manager).cachedNonce fromAddr =
        (LawfulStorage.accounts history.manager.storage).nonce fromAddr := by
      rw [accepts.next] at sum
      exact add_right_cancel sum
    rw [operation]
    intro other otherTo other_eq otherTo_eq _
    rw [from_eq] at other_eq
    cases other_eq
    refine ⟨cached, ?_⟩
    rw [accounts_booksOf]
    omega

/-- Transfers are safe from replay exactly if each is checked against the stored nonce of its sender, which is not
    the last. -/
theorem replaySafe_iff (storage : σ) (fresh : ∀ address, (LawfulStorage.accounts storage).nonce address = 0)
    (calls : List (Int × Operation)) :
    (∀ before, before <+: calls → ReplaySafe (historyAfter blake3 storage before)) ↔
      ∀ before call, before ++ [call] <+: calls →
        call.2.Counts (booksOf (historyAfter blake3 storage before).manager) := by
  refine @Runs.invariant_iff _ _ (nextHistory blake3) ⟨BalanceManager.new storage, []⟩ calls ReplaySafe Counted
    (fun call history => call.2.Counts (booksOf history.manager)) (fun _ _ => True) ?_
    (fun _ counted => counted.replaySafe) ?_ ?_ fun _ _ _ => trivial
  · intro address
    rw [show (BalanceManager.new storage).storage = storage from rfl, fresh address]
    rfl
  · intro history call counted _ counts
    exact nextHistory_counted blake3 counted counts
  · intro history call counted _ safe
    exact counts_of_replaySafe blake3 counted safe

end

def fundedStorage : MemoryStorage := { MemoryStorage.new with balances := (∅ : BalanceMap).insert (account 1) ⟨10⟩ }

def firstTransfer : Operation :=
  .processMessageTransfer (List.replicate 32 1) (List.replicate 32 2) 1 1

theorem replaySafe_iff_first :
    (∀ before, before <+: [(0, firstTransfer)] →
      ReplaySafe (historyAfter (fun _ => Bytes32.replicate 0) fundedStorage before)) ↔
      ∀ before call, before ++ [call] <+: [(0, firstTransfer)] →
        call.2.Counts (booksOf (historyAfter (fun _ => Bytes32.replicate 0) fundedStorage before).manager) :=
  replaySafe_iff _ fundedStorage (fun _ => rfl) _

theorem replay_after_clearCache :
    (∀ address, (LawfulStorage.accounts fundedStorage).nonce address = 0) ∧
    ¬ ReplaySafe (historyAfter (fun _ => Bytes32.replicate 0) fundedStorage
      [(0, firstTransfer), (1, .clearCache), (2, firstTransfer)]) := by
  refine ⟨fun _ => rfl, fun safe => ?_⟩
  have twice : (historyAfter (fun _ => Bytes32.replicate 0) fundedStorage
      [(0, firstTransfer), (1, .clearCache), (2, firstTransfer)]).executed = [(account 1, 1), (account 1, 1)] := by
    decide +kernel
  have once := (safe (account 1)).1 1
  rw [twice] at once
  revert once
  decide

end AdicProof.Economics
