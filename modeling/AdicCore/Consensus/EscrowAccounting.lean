import AdicCore.Library.Runs
import AdicCore.Economics.Amounts
import AdicCore.Consensus.Escrow

open AdicModel AdicModel.Economics AdicModel.Consensus AdicProof.Economics

namespace AdicProof.Consensus

def LeavesLocks : Operation → Prop
  | .lock .. | .unlock .. | .clearCache | .restart => False
  | _ => True

def LocksCached (books : Books) : Prop := ∀ address, books.cachedLocked address = books.accounts.locked address

def SameLocks (books after : Books) : Prop :=
  after.cachedLocked = books.cachedLocked ∧ after.accounts.locked = books.accounts.locked

section

variable {books after : Books} {address sender recipient : AccountAddress} {amount : AdicAmount}

theorem SameLocks.refl (books : Books) : SameLocks books books := ⟨rfl, rfl⟩

theorem SameLocks.trans {middle : Books} (first : SameLocks books middle) (second : SameLocks middle after) :
    SameLocks books after := ⟨second.1.trans first.1, second.2.trans first.2⟩

theorem SameLocks.locksCached (same : SameLocks books after) (cached : LocksCached books) : LocksCached after := by
  intro address
  rw [same.1, same.2]
  exact cached address

theorem cachedLocked_setEntry {accounts : Accounts} {entry : Entry} :
    ({ books with accounts := accounts }.setEntry address entry).cachedLocked =
      Function.update books.cachedLocked address entry.locked := by
  funext other
  unfold Books.setEntry Books.cachedLocked
  by_cases same : other = address
  · subst same
    simp
  · simp [same]

theorem sameLocks_load : SameLocks books (books.load address) := by
  refine ⟨?_, rfl⟩
  rw [Books.load]
  show ({ books with accounts := books.accounts }.setEntry address (books.entry address)).cachedLocked = _
  rw [cachedLocked_setEntry]
  show Function.update books.cachedLocked address (books.cachedLocked address) = _
  rw [Function.update_eq_self]

theorem sameLocks_write : SameLocks books (books.write address amount) := by
  refine ⟨?_, rfl⟩
  rw [Books.write, cachedLocked_setEntry, Function.update_eq_self]

theorem sameLocks_bumpNonce : SameLocks books (books.bumpNonce address) := by
  refine ⟨?_, rfl⟩
  rw [Books.bumpNonce, cachedLocked_setEntry]
  show Function.update books.cachedLocked address (books.cachedLocked address) = _
  rw [Function.update_eq_self]

inductive Quiet (books : Books) : Books → Prop where
  | refl : Quiet books books
  | load {after : Books} (address : AccountAddress) (quiet : Quiet books after) : Quiet books (after.load address)
  | write {after : Books} (address : AccountAddress) (amount : AdicAmount) (quiet : Quiet books after) :
      Quiet books (after.write address amount)
  | bumpNonce {after : Books} (address : AccountAddress) (quiet : Quiet books after) :
      Quiet books (after.bumpNonce address)

theorem Quiet.sameLocks (quiet : Quiet books after) : SameLocks books after := by
  induction quiet with
  | refl => exact .refl _
  | load address _ ih => exact ih.trans sameLocks_load
  | write address amount _ ih => exact ih.trans sameLocks_write
  | bumpNonce address _ ih => exact ih.trans sameLocks_bumpNonce

theorem Quiet.move {middle : Books} (quiet : Quiet books middle)
    (moved : middle.move sender recipient amount = some after) : Quiet books after := by
  obtain ⟨-, newToBalance, -, rfl⟩ := Books.move_eq moved
  exact (quiet.write _ _).write _ _

theorem quiet_outcome {operation : Operation} (leaves : LeavesLocks operation)
    (outcome : operation.outcome books = some after) : Quiet books after := by
  cases Operation.effect_of_outcome outcome with
  | lock | unlock | clearCache | restart => cases leaves
  | getLockedBalance | getNonce | creditNothing | debitNothing | transferNothing => exact .refl
  | getBalance address => exact Quiet.refl.load address
  | credit | debit => exact Quiet.refl.write _ _
  | transfer _ _ moving => exact Quiet.refl.move moving
  | processMessageTransfer _ _ transferred =>
    obtain ⟨-, moved, moving, rfl⟩ := Books.messageTransfer_eq transferred
    exact ((Quiet.refl.load _).move moving).bumpNonce _

theorem quiet_transfer (outcome : (Operation.transfer sender recipient amount).outcome books = some after) :
    Quiet books after := by
  have leaves : LeavesLocks (.transfer sender recipient amount) := trivial
  exact quiet_outcome leaves outcome

theorem quiet_residue {operation : Operation} (leaves : LeavesLocks operation) :
    Quiet books (operation.residue books) := by
  cases operation with
  | lock | unlock | clearCache | restart => cases leaves
  | credit | debit => exact Quiet.refl.load _
  | processMessageTransfer sender recipient amount nonce =>
    simp only [Operation.residue]
    split
    · unfold Books.refused
      split
      · exact .refl
      · exact Quiet.refl.load _
    · exact .refl
  | getBalance | getLockedBalance | getNonce | transfer => exact .refl

end

variable {operation : DepositOperation} {status : DepositStatus} {books : Books}

section

variable (blake3 : List UInt8 → Bytes32)

def holds (address : AccountAddress) (deposit : Deposit) : Nat :=
  if deposit.status = .escrowed ∧ Escrows.address blake3 deposit = address then units deposit.amount else 0

def escrowedTotal (deposits : HashMap.Table MessageId Deposit) (address : AccountAddress) : Nat :=
  HashMap.total (holds blake3 address) deposits

/-- The locked balance of every account is the sum of its escrowed deposits. -/
def Accounted (escrows : Escrows) : Prop :=
  ∀ address, units (escrows.books.accounts.locked address) = escrowedTotal blake3 escrows.deposits address

def Sound (escrows : Escrows) : DepositOperation → Prop
  | .escrow messageId proposer =>
    let entry := escrows.books.entry (AccountAddress.fromPublicKey blake3 proposer)
    ¬ entry.balance.saturatingSub entry.locked < escrows.depositAmount →
      (∀ deposit, escrows.held messageId = some deposit → deposit.amount = AdicAmount.zero) ∧
        units entry.locked + units escrows.depositAmount ≤ units AdicAmount.maxSupply
  | .slash messageId => ∀ deposit, escrows.held messageId = some deposit → deposit.amount ≠ AdicAmount.zero →
    Escrows.address blake3 deposit ≠ AccountAddress.treasury ∧
      deposit.amount ≤ escrows.books.accounts.balance (Escrows.address blake3 deposit) ∧
      units (escrows.books.accounts.balance AccountAddress.treasury) + units deposit.amount < 2 ^ 64
  | .refund _ | .setDepositAmount _ | .ledger _ => True

variable {blake3} {escrows : Escrows} {address : AccountAddress} {messageId : MessageId} {deposit : Deposit}

theorem escrowedTotal_insert :
    escrowedTotal blake3 (escrows.deposits.insert messageId deposit) address +
        ((escrows.held messageId).map (holds blake3 address)).getD 0 =
      escrowedTotal blake3 escrows.deposits address + holds blake3 address deposit := by
  have total := HashMap.total_insert (holds blake3 address) escrows.deposits messageId deposit
  have replaced : ((escrows.held messageId).map (holds blake3 address)).getD 0 =
      ((escrows.deposits.lookup messageId).map (holds blake3 address)).getD 0 := by
    unfold Escrows.held
    cases found : escrows.deposits.lookup messageId with
    | none => rfl
    | some old =>
      by_cases escrowed : old.status = .escrowed
      · simp [Option.filter_some, escrowed]
      · simp [Option.filter_some, escrowed, holds]
  rw [replaced]
  exact total

theorem holds_settled (settled : status ≠ .escrowed) :
    holds blake3 address { deposit with status := status } = 0 := by
  simp [holds, settled]

theorem holds_held (held : escrows.held messageId = some deposit) :
    holds blake3 address deposit =
      if Escrows.address blake3 deposit = address then units deposit.amount else 0 := by
  simp [holds, (held_eq_some held).2]

theorem unlock_outcome {books unlocked : Books} {amount : AdicAmount} (cached : LocksCached books)
    (outcome : (Operation.unlock address amount).outcome books = some unlocked) :
    units amount ≤ units (books.accounts.locked address) ∧ LocksCached unlocked ∧
      unlocked.accounts = books.accounts.setLocked address ((books.accounts.locked address).saturatingSub amount) := by
  cases Operation.effect_of_outcome outcome with
  | @unlock _ _ entry found enough =>
    have locked : entry.locked = books.accounts.locked address := by
      rw [← cached address, Books.cachedLocked, found]
      rfl
    rw [amount_lt, locked, not_lt] at enough
    rw [locked]
    refine ⟨enough, ?_, rfl⟩
    intro other
    rw [Books.setLocked, cachedLocked_setEntry, Books.accounts_setEntry]
    simp only [Accounts.setLocked, Function.update_apply]
    rw [cached other]

theorem transfer_isSome {sender recipient : AccountAddress} {amount : AdicAmount}
    (fits : amount ≠ AdicAmount.zero → sender ≠ recipient ∧ amount ≤ books.accounts.balance sender ∧
      units (books.accounts.balance recipient) + units amount < 2 ^ 64) :
    ∃ after, (Operation.transfer sender recipient amount).outcome books = some after := by
  simp only [Operation.outcome]
  by_cases nothing : amount = AdicAmount.zero
  · simp [nothing]
  · rcases fits nothing with ⟨different, enough, bounded⟩
    have notShort : ¬ books.accounts.balance sender < amount := by
      rw [amount_lt, not_lt]
      exact amount_le.mp enough
    rw [if_neg nothing, if_neg different, Books.move, if_neg notShort]
    cases sum : (books.accounts.balance recipient).checkedAdd amount with
    | none =>
      rw [checkedAdd_eq_none] at sum
      omega
    | some newToBalance => exact ⟨_, rfl⟩

theorem accounted_settled (settled : status ≠ .escrowed)
    (accounted : Accounted blake3 escrows) (held : escrows.held messageId = some deposit)
    (enough : units deposit.amount ≤ units (escrows.books.accounts.locked (Escrows.address blake3 deposit)))
    (locked : books.accounts.locked = Function.update escrows.books.accounts.locked (Escrows.address blake3 deposit)
      ((escrows.books.accounts.locked (Escrows.address blake3 deposit)).saturatingSub deposit.amount)) :
    Accounted blake3 { escrows with
      books := books
      deposits := escrows.deposits.insert messageId { deposit with status := status } } := by
  intro address
  have total := @escrowedTotal_insert blake3 escrows address messageId { deposit with status := status }
  rw [held, Option.map_some, Option.getD_some, holds_held held, holds_settled settled] at total
  have before := accounted address
  show units (books.accounts.locked address) =
    escrowedTotal blake3 (escrows.deposits.insert messageId { deposit with status := status }) address
  rw [locked, Function.update_apply]
  by_cases same : address = Escrows.address blake3 deposit
  · rw [if_pos same, units_saturatingSub]
    rw [if_pos same.symm] at total
    rw [same] at before total ⊢
    omega
  · rw [if_neg same]
    rw [if_neg fun equal => same equal.symm] at total
    omega

theorem accounted_result (now : Int) (cached : LocksCached escrows.books)
    (accounted : Accounted blake3 escrows) (sound : Sound blake3 escrows operation)
    (shared : ∀ inner, operation = .ledger inner → LeavesLocks inner) :
    LocksCached (escrows.result blake3 now operation).2.books ∧
      Accounted blake3 (escrows.result blake3 now operation).2 := by
  have unchanged : ∀ after, SameLocks escrows.books after →
      LocksCached after ∧ Accounted blake3 { escrows with books := after } := by
    intro after same
    refine ⟨same.locksCached cached, fun address => ?_⟩
    show units (after.accounts.locked address) = _
    rw [same.2]
    exact accounted address
  cases operation with
  | escrow messageId proposer =>
    simp only [Escrows.result]
    split
    · exact unchanged _ sameLocks_load
    · next enough =>
      rcases sound enough with ⟨fresh, bounded⟩
      have locked : (escrows.books.entry (AccountAddress.fromPublicKey blake3 proposer)).locked =
          escrows.books.accounts.locked (AccountAddress.fromPublicKey blake3 proposer) := cached _
      rw [units_maxSupply, locked] at bounded
      constructor
      · intro other
        rw [Books.setLocked, cachedLocked_setEntry, Books.accounts_setEntry, sameLocks_load.1]
        simp only [Accounts.setLocked, Function.update_apply, Books.accounts_load]
        rw [cached other]
      · intro address
        have total := @escrowedTotal_insert blake3 escrows address messageId
          ⟨messageId, proposer, escrows.depositAmount, .escrowed, now⟩
        have replaced : ((escrows.held messageId).map (holds blake3 address)).getD 0 = 0 := by
          cases held : escrows.held messageId with
          | none => rfl
          | some old =>
            rw [Option.map_some, Option.getD_some, holds_held held, fresh old held, units_zero, ite_self]
        rw [replaced] at total
        have before := accounted address
        show units (Function.update escrows.books.accounts.locked _ _ address) =
          escrowedTotal blake3 (escrows.deposits.insert messageId
            ⟨messageId, proposer, escrows.depositAmount, .escrowed, now⟩) address
        rw [Function.update_apply, locked]
        simp only [holds, Escrows.address, true_and] at total
        by_cases same : address = AccountAddress.fromPublicKey blake3 proposer
        · rw [if_pos same, units_saturatingAdd]
          rw [if_pos same.symm] at total
          rw [same] at before total ⊢
          omega
        · rw [if_neg same]
          rw [if_neg fun equal => same equal.symm] at total
          omega
  | refund messageId =>
    simp only [Escrows.result]
    split
    · exact ⟨cached, accounted⟩
    · next deposit held =>
      split
      · exact ⟨cached, accounted⟩
      · next unlocked outcome =>
        rcases unlock_outcome cached outcome with ⟨enough, cachedAfter, accounts⟩
        refine ⟨cachedAfter, accounted_settled (by decide) accounted held enough ?_⟩
        rw [accounts]
        rfl
  | slash messageId =>
    simp only [Escrows.result]
    split
    · exact ⟨cached, accounted⟩
    · next deposit held =>
      split
      · exact ⟨cached, accounted⟩
      · next unlocked outcome =>
        rcases unlock_outcome cached outcome with ⟨enough, cachedAfter, accounts⟩
        have balances : unlocked.accounts.balance = escrows.books.accounts.balance := by
          rw [accounts]
          rfl
        have fits := sound deposit held
        rw [← balances] at fits
        rcases transfer_isSome fits with ⟨sent, sending⟩
        simp only [sending]
        have same := (quiet_transfer sending).sameLocks
        refine ⟨same.locksCached cachedAfter, accounted_settled (by decide) accounted held enough ?_⟩
        rw [same.2, accounts]
        rfl
  | setDepositAmount amount => exact ⟨cached, accounted⟩
  | ledger inner =>
    have leaves := shared inner rfl
    simp only [Escrows.result]
    split
    · next after outcome => exact unchanged _ (quiet_outcome leaves outcome).sameLocks
    · exact unchanged _ (quiet_residue leaves).sameLocks

end

/-- The refunds and slashes of an id since its last escrow, in a log with the last call first. -/
def settledSince (messageId : MessageId) : List DepositOperation → Nat
  | [] => 0
  | .escrow other _ :: log => if other = messageId then 0 else settledSince messageId log
  | .refund other :: log | .slash other :: log => settledSince messageId log + if other = messageId then 1 else 0
  | .setDepositAmount _ :: log | .ledger _ :: log => settledSince messageId log

def SettledOnce (escrows : Escrows) (log : List DepositOperation) : Prop :=
  ∀ messageId, settledSince messageId log ≤ 1 ∧ (escrows.held messageId ≠ none → settledSince messageId log = 0)

section

variable {blake3 : List UInt8 → Bytes32} {escrows : Escrows} {log : List DepositOperation}

theorem held_insert {messageId other : MessageId} {deposit : Deposit} :
    Escrows.held ⟨escrows.depositAmount, escrows.deposits.insert messageId deposit, books⟩ other =
      if other = messageId then (if deposit.status = .escrowed then some deposit else none)
      else escrows.held other := by
  unfold Escrows.held
  rw [HashMap.lookup_insert_eq]
  split
  · simp [Option.filter_some]
  · rfl

theorem settledOnce_settle {messageId : MessageId} {deposit : Deposit}
    (once : SettledOnce escrows log) (held : escrows.held messageId = some deposit)
    (settled : status ≠ .escrowed)
    (counts : ∀ other, settledSince other (operation :: log) =
      settledSince other log + if messageId = other then 1 else 0) :
    SettledOnce ⟨escrows.depositAmount, escrows.deposits.insert messageId { deposit with status := status }, books⟩
      (operation :: log) := by
  intro other
  rw [counts, held_insert]
  by_cases same : other = messageId
  · subst same
    have none_before := (once other).2 (by simp [held])
    simp [none_before, settled]
  · have different : ¬ messageId = other := fun equal => same equal.symm
    simpa [same, different] using once other

theorem settledOnce_result (now : Int) (once : SettledOnce escrows log) :
    SettledOnce (escrows.result blake3 now operation).2
      (if (escrows.result blake3 now operation).1 then operation :: log else log) := by
  cases operation with
  | escrow messageId proposer =>
    simp only [Escrows.result]
    split
    · exact once
    · intro other
      rw [held_insert]
      simp only [if_true, settledSince]
      by_cases same : other = messageId
      · simp [same]
      · have different : ¬ messageId = other := fun equal => same equal.symm
        simpa [same, different] using once other
  | refund messageId =>
    cases held : escrows.held messageId with
    | none => simpa [Escrows.result, held] using once
    | some deposit =>
      cases unlocks : (Operation.unlock (Escrows.address blake3 deposit) deposit.amount).outcome escrows.books with
      | none => simpa [Escrows.result, held, unlocks] using once
      | some unlocked =>
        simp only [Escrows.result, held, unlocks]
        exact settledOnce_settle once held (by decide) fun _ => rfl
  | slash messageId =>
    cases held : escrows.held messageId with
    | none => simpa [Escrows.result, held] using once
    | some deposit =>
      cases unlocks : (Operation.unlock (Escrows.address blake3 deposit) deposit.amount).outcome escrows.books with
      | none => simpa [Escrows.result, held, unlocks] using once
      | some unlocked =>
        cases sends : (Operation.transfer (Escrows.address blake3 deposit) AccountAddress.treasury
            deposit.amount).outcome unlocked with
        | none =>
          simp only [Escrows.result, held, unlocks, sends]
          exact once
        | some sent =>
          simp only [Escrows.result, held, unlocks, sends]
          exact settledOnce_settle once held (by decide) fun _ => rfl
  | setDepositAmount amount => exact once
  | ledger inner =>
    cases outcome : inner.outcome escrows.books with
    | none =>
      simp only [Escrows.result, outcome]
      exact once
    | some after =>
      simp only [Escrows.result, outcome]
      exact once

end

section

variable {σ : Type} [EconomicsStorage σ] (blake3 : List UInt8 → Bytes32)

def nextDeposits (state : DepositManager σ × List DepositOperation) (call : Int × DepositOperation) :
    DepositManager σ × List DepositOperation :=
  let called := call.2.run blake3 call.1 state.1
  (called.2, if called.1 then call.2 :: state.2 else state.2)

def depositsAfter (depositAmount : AdicAmount) (balances : BalanceManager σ) (calls : List (Int × DepositOperation)) :
    DepositManager σ × List DepositOperation :=
  Runs.after (nextDeposits blake3) (DepositManager.withBalanceManager depositAmount balances, []) calls

variable [LawfulStorage σ]

def NothingLocked (balances : BalanceManager σ) : Prop :=
  ∀ address, (LawfulStorage.accounts balances.storage).locked address = AdicAmount.zero ∧
    ∀ info, balances.cache.lookup address = some info → info.lockedBalance = AdicAmount.zero

theorem NothingLocked.cachedLocked {balances : BalanceManager σ} (unlocked : NothingLocked balances)
    (address : AccountAddress) : (booksOf balances).cachedLocked address = AdicAmount.zero := by
  unfold Books.cachedLocked
  rw [cache_booksOf]
  cases found : balances.cache.lookup address with
  | none => rfl
  | some info => exact (unlocked address).2 info found

theorem NothingLocked.locksCached {balances : BalanceManager σ} (unlocked : NothingLocked balances) :
    LocksCached (booksOf balances) := fun address => (unlocked.cachedLocked address).trans (unlocked address).1.symm

def EscrowsAccounted (manager : DepositManager σ) : Prop :=
  ∀ balances, manager.balanceManager = some balances → ∀ address,
    units ((LawfulStorage.accounts balances.storage).locked address) =
      escrowedTotal blake3 manager.deposits address

def SoundFor (manager : DepositManager σ) (operation : DepositOperation) : Prop :=
  ∀ escrows, escrowsOf manager = some escrows → Sound blake3 escrows operation

theorem escrowsOf_nextDeposits {state : DepositManager σ × List DepositOperation} {escrows : Escrows}
    (seen : escrowsOf state.1 = some escrows) (call : Int × DepositOperation) :
    escrowsOf (nextDeposits blake3 state call).1 = some (escrows.result blake3 call.1 call.2).2 ∧
      (nextDeposits blake3 state call).2 =
        if (escrows.result blake3 call.1 call.2).1 then call.2 :: state.2 else state.2 := by
  rcases DepositOperation.run_result blake3 call.1 call.2 seen with ⟨succeeded, left⟩
  refine ⟨left, ?_⟩
  unfold nextDeposits
  simp only [succeeded]

/-- No escrow is settled twice. Where no call escrows over a held deposit, saturates a locked balance or cannot reach
    the treasury, the locked balances are the sums of the deposits. -/
theorem escrow_accounting (depositAmount : AdicAmount) (balances : BalanceManager σ) (unlocked : NothingLocked balances)
    (calls : List (Int × DepositOperation))
    (shared : ∀ call ∈ calls, ∀ inner, call.2 = .ledger inner → LeavesLocks inner) :
    (∀ before, before <+: calls → ∀ messageId,
      settledSince messageId (depositsAfter blake3 depositAmount balances before).2 ≤ 1) ∧
    ((∀ before call, before ++ [call] <+: calls →
        SoundFor blake3 (depositsAfter blake3 depositAmount balances before).1 call.2) →
      ∀ before, before <+: calls →
        EscrowsAccounted blake3 (depositsAfter blake3 depositAmount balances before).1) := by
  have start : escrowsOf (DepositManager.withBalanceManager depositAmount balances) =
      some ⟨depositAmount, ∅, booksOf balances⟩ := rfl
  constructor
  · intro before _
    have once : ∃ escrows, escrowsOf (depositsAfter blake3 depositAmount balances before).1 = some escrows ∧
        SettledOnce escrows (depositsAfter blake3 depositAmount balances before).2 := by
      refine @Runs.invariant_of_kept _ _ (nextDeposits blake3) _ (fun state => ∃ escrows,
        escrowsOf state.1 = some escrows ∧ SettledOnce escrows state.2)
        ⟨_, start, fun messageId => ⟨Nat.zero_le _, fun _ => rfl⟩⟩ ?_ before
      rintro state call ⟨escrows, seen, once⟩
      rcases escrowsOf_nextDeposits blake3 seen call with ⟨left, log⟩
      refine ⟨_, left, ?_⟩
      rw [log]
      exact settledOnce_result call.1 once
    rcases once with ⟨escrows, _, settled⟩
    exact fun messageId => (settled messageId).1
  · intro sound before part
    have accounted : ∃ escrows, escrowsOf (depositsAfter blake3 depositAmount balances before).1 = some escrows ∧
        LocksCached escrows.books ∧ Accounted blake3 escrows := by
      refine @Runs.invariant_of_conditions _ _ (nextDeposits blake3) _ calls (fun state => ∃ escrows,
        escrowsOf state.1 = some escrows ∧ LocksCached escrows.books ∧ Accounted blake3 escrows)
        (fun call state => SoundFor blake3 state.1 call.2 ∧ ∀ inner, call.2 = .ledger inner → LeavesLocks inner)
        ⟨_, start, unlocked.locksCached, fun address => ?_⟩ ?_ (fun before call part => ⟨sound before call part,
          shared call (part.subset (by simp))⟩) before part
      · show units ((LawfulStorage.accounts balances.storage).locked address) = 0
        rw [(unlocked address).1, units_zero]
      · rintro state call ⟨escrows, seen, cached, accounted⟩ ⟨sound, shares⟩
        obtain ⟨left, _⟩ := escrowsOf_nextDeposits blake3 seen call
        exact ⟨_, left, accounted_result call.1 cached accounted (sound escrows seen) shares⟩
    rcases accounted with ⟨escrows, seen, _, total⟩
    intro ledger managed
    unfold escrowsOf at seen
    rw [managed, Option.map_some, Option.some.injEq] at seen
    rw [← seen] at total
    exact total

end

def sampleHash (bytes : List UInt8) : Bytes32 :=
  if bytes = List.replicate 32 1 then
    ⟨[149, 21, 4, 144, 113, 237, 145, 49, 73, 168, 13, 59, 183, 137, 31, 205, 76, 108, 30, 61, 20, 173, 135, 137, 57,
      168, 15, 155, 154, 145, 224, 140], by decide⟩
  else Bytes32.replicate 0

def sampleKey : PublicKey := ⟨Bytes32.replicate 1⟩

def fundedBalances (amount : AdicAmount) : BalanceManager MemoryStorage :=
  BalanceManager.new { MemoryStorage.new with
    balances := (∅ : BalanceMap).insert (AccountAddress.fromPublicKey sampleHash sampleKey) amount }

theorem nothingLocked_funded (amount : AdicAmount) : NothingLocked (fundedBalances amount) :=
  fun _ => ⟨rfl, fun _ found => nomatch found⟩

def sampleId : MessageId := ⟨Bytes32.replicate 7⟩

theorem sound_first_escrow : SoundFor sampleHash
    (depositsAfter sampleHash ⟨1⟩ (fundedBalances ⟨5⟩) []).1 (.escrow sampleId sampleKey) := by
  intro escrows seen _
  cases seen
  refine ⟨fun deposit held => ?_, by decide +kernel⟩
  cases held

theorem escrow_accounting_refund :
    (∀ before, before <+: [(0, DepositOperation.escrow sampleId sampleKey), (1, .refund sampleId)] → ∀ messageId,
      settledSince messageId (depositsAfter sampleHash ⟨1⟩ (fundedBalances ⟨5⟩) before).2 ≤ 1) ∧
    ∀ before, before <+: [(0, DepositOperation.escrow sampleId sampleKey), (1, .refund sampleId)] →
      EscrowsAccounted sampleHash (depositsAfter sampleHash ⟨1⟩ (fundedBalances ⟨5⟩) before).1 := by
  have accounting := escrow_accounting sampleHash ⟨1⟩ (fundedBalances ⟨5⟩) (nothingLocked_funded ⟨5⟩)
    [(0, .escrow sampleId sampleKey), (1, .refund sampleId)] (by simp)
  refine ⟨accounting.1, accounting.2 ?_⟩
  refine Runs.forall_steps_cons.mpr ⟨sound_first_escrow, Runs.forall_steps_cons.mpr ⟨?_, Runs.forall_steps_nil⟩⟩
  intro escrows _
  trivial

theorem escrow_twice_unaccounted : NothingLocked (fundedBalances ⟨5⟩) ∧ ¬ EscrowsAccounted sampleHash
    (depositsAfter sampleHash ⟨1⟩ (fundedBalances ⟨5⟩)
      [(0, .escrow sampleId sampleKey), (1, .escrow sampleId sampleKey)]).1 := by
  refine ⟨nothingLocked_funded ⟨5⟩, fun accounted => ?_⟩
  have locked : ((depositsAfter sampleHash ⟨1⟩ (fundedBalances ⟨5⟩)
      [(0, .escrow sampleId sampleKey), (1, .escrow sampleId sampleKey)]).1.balanceManager.map fun balances =>
        units ((memoryAccounts balances.storage).locked (AccountAddress.fromPublicKey sampleHash sampleKey))) =
      some 2 := by decide +kernel
  have total : escrowedTotal sampleHash (depositsAfter sampleHash ⟨1⟩ (fundedBalances ⟨5⟩)
      [(0, .escrow sampleId sampleKey), (1, .escrow sampleId sampleKey)]).1.deposits
      (AccountAddress.fromPublicKey sampleHash sampleKey) = 1 := by decide +kernel
  rcases Option.map_eq_some_iff.mp locked with ⟨balances, managed, two⟩
  have same := accounted balances managed (AccountAddress.fromPublicKey sampleHash sampleKey)
  rw [total] at same
  have impossible : 2 = 1 := two.symm.trans same
  cases impossible

end AdicProof.Consensus
