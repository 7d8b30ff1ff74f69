import AdicCore.Economics.Operations
import AdicCore.Economics.Tasks

open AdicModel AdicModel.Economics Calls

namespace AdicProof.Economics

@[ext]
structure View where
  stored : AccountAddress → AdicAmount
  read : AccountAddress → AdicAmount

variable {after : View}

namespace View

variable {view : View} {address other : AccountAddress} {amount : AdicAmount}

def write (view : View) (address : AccountAddress) (amount : AdicAmount) : View :=
  ⟨Function.update view.stored address amount, Function.update view.read address amount⟩

def Coherent (view : View) (address : AccountAddress) : Prop := view.read address = view.stored address

@[simp] theorem write_stored_self : (view.write address amount).stored address = amount := Function.update_self _ _ _

@[simp] theorem write_read_self : (view.write address amount).read address = amount := Function.update_self _ _ _

theorem write_stored_of_ne (different : other ≠ address) : (view.write address amount).stored other = view.stored other :=
  Function.update_of_ne different _ _

theorem write_read_of_ne (different : other ≠ address) : (view.write address amount).read other = view.read other :=
  Function.update_of_ne different _ _

theorem write_comm (different : other ≠ address) (second : AdicAmount) :
    (view.write address amount).write other second = (view.write other second).write address amount := by
  unfold write
  rw [Function.update_comm different.symm, Function.update_comm different.symm]

theorem coherent_write_self : (view.write address amount).Coherent address := by
  unfold Coherent
  rw [write_read_self, write_stored_self]

theorem coherent_write (coherent : view.Coherent other) : (view.write address amount).Coherent other := by
  by_cases same : other = address
  · rw [same]
    exact coherent_write_self
  · unfold Coherent
    rw [write_read_of_ne same, write_stored_of_ne same]
    exact coherent

def adjust (view : View) (adjustment : Adjustment) : Option View :=
  if adjustment.amount = AdicAmount.zero then some view
  else
    match adjustment.newBalance (view.read adjustment.address) with
    | .ok newBalance => some (view.write adjustment.address newBalance)
    | .error _ => none

theorem adjust_eq_some {adjustment : Adjustment} : view.adjust adjustment = some after ↔
    adjustment.amount = AdicAmount.zero ∧ view = after ∨ adjustment.amount ≠ AdicAmount.zero ∧
      ∃ newBalance, adjustment.newBalance (view.read adjustment.address) = .ok newBalance ∧
        view.write adjustment.address newBalance = after := by
  unfold adjust
  by_cases zero : adjustment.amount = AdicAmount.zero
  · simp [zero]
  · cases adjustment.newBalance (view.read adjustment.address) with
    | ok newBalance => simp [zero]
    | error error => simp [zero]

def transfer (view : View) (sender recipient : AccountAddress) (amount : AdicAmount) : Option View :=
  if amount = AdicAmount.zero then some view
  else if sender = recipient then none
  else if view.stored sender < amount then none
  else
    match (view.stored recipient).checkedAdd amount with
    | none => none
    | some received => some ((view.write sender ((view.stored sender).saturatingSub amount)).write recipient received)

theorem transfer_eq_some {sender recipient : AccountAddress} :
    view.transfer sender recipient amount = some after ↔ amount = AdicAmount.zero ∧ view = after ∨
      amount ≠ AdicAmount.zero ∧ sender ≠ recipient ∧ ¬ view.stored sender < amount ∧
        ∃ received, (view.stored recipient).checkedAdd amount = some received ∧
          (view.write sender ((view.stored sender).saturatingSub amount)).write recipient received = after := by
  unfold transfer
  by_cases zero : amount = AdicAmount.zero
  · simp [zero]
  by_cases same : sender = recipient
  · simp [zero, same]
  by_cases short : view.stored sender < amount
  · simp [zero, same, short]
  cases (view.stored recipient).checkedAdd amount with
  | none => simp [zero, same, short]
  | some received => simp [zero, same, short]

def apply (view : View) : LedgerCall → Option View
  | .credit address amount => view.adjust (.credit address amount)
  | .debit address amount => view.adjust (.debit address amount)
  | .transfer sender recipient amount => view.transfer sender recipient amount

def applyAll (view : View) (calls : List LedgerCall) : Option View := calls.foldlM apply view

@[simp] theorem applyAll_nil : view.applyAll [] = some view := rfl

theorem applyAll_append (first second : List LedgerCall) :
    view.applyAll (first ++ second) = (view.applyAll first).bind fun next => next.applyAll second := by
  unfold applyAll
  rw [List.foldlM_append]
  rfl

theorem applyAll_snoc {calls : List LedgerCall} {middle : View} (applied : view.applyAll calls = some middle)
    (call : LedgerCall) : view.applyAll (calls ++ [call]) = middle.apply call := by
  rw [applyAll_append, applied]
  show (middle.apply call).bind some = _
  cases middle.apply call <;> rfl

end View

theorem newBalance_credit {address : AccountAddress} {amount current newBalance : AdicAmount} :
    (Adjustment.credit address amount).newBalance current = .ok newBalance ↔
      current.checkedAdd amount = some newBalance ∧ ¬ AdicAmount.maxSupply < newBalance := by
  unfold Adjustment.newBalance
  cases added : current.checkedAdd amount with
  | none => simp [added]
  | some sum =>
    by_cases exceeds : AdicAmount.maxSupply < sum
    · simp only [added, if_pos exceeds, reduceCtorEq, Option.some.injEq, false_iff, not_and, not_not]
      exact fun same => same ▸ exceeds
    · simp only [added, if_neg exceeds, Except.ok.injEq, Option.some.injEq, iff_self_and]
      exact fun same => same ▸ exceeds

theorem newBalance_debit {address : AccountAddress} {amount current newBalance : AdicAmount} :
    (Adjustment.debit address amount).newBalance current = .ok newBalance ↔
      current.checkedSub amount = some newBalance := by
  unfold Adjustment.newBalance
  cases subtracted : current.checkedSub amount with
  | none => simp [subtracted]
  | some difference => simp [subtracted]

def Books.view (books : Books) : View := ⟨books.accounts.balance, fun address => (books.entry address).balance⟩

theorem view_write (books : Books) (address : AccountAddress) (amount : AdicAmount) :
    (books.write address amount).view = books.view.write address amount := by
  refine View.ext rfl ?_
  funext other
  by_cases same : other = address
  · subst same
    rw [View.write_read_self]
    simp [Books.view, Books.write, Books.setEntry, Books.entry]
  · rw [View.write_read_of_ne same]
    simp [Books.view, Books.write, Books.setEntry, Books.entry, Accounts.setBalance, same]

def LedgerCall.operation : LedgerCall → Operation
  | .credit address amount => .credit address amount
  | .debit address amount => .debit address amount
  | .transfer sender recipient amount => .transfer sender recipient amount

theorem outcome_of_apply {books : Books} {call : LedgerCall} (applied : books.view.apply call = some after) :
    ∃ moved, (LedgerCall.operation call).outcome books = some moved ∧ moved.view = after := by
  cases call with
  | credit address amount =>
    rcases View.adjust_eq_some.mp applied with ⟨zero, same⟩ | ⟨positive, newBalance, isNew, same⟩
    · exact ⟨books, if_pos zero, same⟩
    · rcases newBalance_credit.mp isNew with ⟨sum, bounded⟩
      have sum : (books.entry address).balance.checkedAdd amount = some newBalance := sum
      refine ⟨books.write address newBalance, (if_neg positive).trans ?_, (view_write _ _ _).trans same⟩
      rw [sum, Option.bind_some, if_neg bounded]
  | debit address amount =>
    rcases View.adjust_eq_some.mp applied with ⟨zero, same⟩ | ⟨positive, newBalance, isNew, same⟩
    · exact ⟨books, if_pos zero, same⟩
    · have difference : (books.entry address).balance.checkedSub amount = some newBalance := newBalance_debit.mp isNew
      refine ⟨books.write address newBalance, (if_neg positive).trans ?_, (view_write _ _ _).trans same⟩
      rw [difference, Option.map_some]
  | transfer sender recipient amount =>
    rcases View.transfer_eq_some.mp applied with ⟨zero, same⟩ | ⟨positive, different, enough, received, sum, same⟩
    · exact ⟨books, if_pos zero, same⟩
    · have enough : ¬ books.accounts.balance sender < amount := enough
      have sum : (books.accounts.balance recipient).checkedAdd amount = some received := sum
      refine ⟨(books.write sender ((books.accounts.balance sender).saturatingSub amount)).write recipient received,
        (if_neg positive).trans ((if_neg different).trans ?_), ?_⟩
      · unfold Books.move
        rw [if_neg enough, sum, Option.map_some]
      · rw [view_write, view_write]
        exact same

theorem call_eq (blake3 : List UInt8 → Bytes32) (now : Int) (call : LedgerCall) :
    call.call blake3 now = (LedgerCall.operation call).call blake3 now := by
  cases call with
  | credit address amount => rfl
  | debit address amount => rfl
  | transfer sender recipient amount => rfl

theorem serially_view (blake3 : List UInt8 → Bytes32) (now : Int) (calls : List LedgerCall)
    {manager : BalanceManager MemoryStorage} (applied : (booksOf manager).view.applyAll calls = some after) :
    (booksOf (serially blake3 now manager calls)).view = after := by
  induction calls generalizing manager with
  | nil => exact Option.some.inj applied
  | cons call rest ih =>
    cases first : (booksOf manager).view.apply call with
    | none =>
      simp [View.applyAll, first] at applied
    | some next =>
      rcases outcome_of_apply first with ⟨moved, outcome, same⟩
      have returns := (Operation.call_returns blake3 now outcome).stateAfter
      rw [← call_eq] at returns
      refine ih ?_
      rw [returns, same]
      simpa [View.applyAll, first] using applied

end AdicProof.Economics
