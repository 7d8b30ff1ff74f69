import AdicCore.Economics.BoundedBalances
import AdicCore.Economics.Nonces

open AdicModel AdicModel.Economics

namespace AdicProof.Economics

noncomputable def Accounts.total (accounts : Accounts) : ℤ := ledgerSum accounts.balance

/-- What a call that succeeds is to add to the balances. -/
def Operation.flow : Operation → ℤ
  | .credit _ amount => units amount
  | .debit _ amount => -units amount
  | _ => 0

def Operation.ReadsStored (books : Books) : Operation → Prop
  | .credit address amount => amount = .zero ∨ (books.entry address).balance = books.accounts.balance address
  | .debit address amount => amount = .zero ∨ (books.entry address).balance = books.accounts.balance address
  | _ => True

section

variable {books after : Books} {sender recipient address : AccountAddress} {amount : AdicAmount}

theorem total_setBalance (accounts : Accounts) :
    (accounts.setBalance address amount).total = accounts.total + units amount - units (accounts.balance address) := by
  have one := @FiniteSums.sum_one _ _ _ (fun other => units (accounts.balance other))
    (fun other => units (Function.update accounts.balance address amount other)) address fun other different => by
      rw [Function.update_of_ne different]
  rw [Function.update_self] at one
  show ((∑ other, units (Function.update accounts.balance address amount other) : Nat) : ℤ) =
    (∑ other, units (accounts.balance other) : Nat) + _ - _
  omega

theorem total_write {written : AdicAmount} {flow : ℤ}
    (computed : units written = units (books.entry address).balance + flow) :
    (books.write address written).accounts.total = books.accounts.total + flow ↔
      (books.entry address).balance = books.accounts.balance address := by
  show (books.accounts.setBalance address written).total = _ ↔ _
  rw [total_setBalance, ← units_injective.eq_iff]
  omega

theorem total_move (different : sender ≠ recipient) (accepted : books.move sender recipient amount = some after) :
    after.accounts.total = books.accounts.total := by
  obtain ⟨enough, received, sum, rfl⟩ := Books.move_eq accepted
  rw [checkedAdd_eq_some] at sum
  rw [amount_lt] at enough
  show ((books.accounts.setBalance sender _).setBalance recipient received).total = _
  have other : (books.accounts.setBalance sender ((books.accounts.balance sender).saturatingSub amount)).balance
      recipient = books.accounts.balance recipient := Function.update_of_ne different.symm ..
  rw [total_setBalance, total_setBalance, other, units_saturatingSub]
  omega

theorem total_outcome {operation : Operation} (accepted : operation.outcome books = some after) :
    after.accounts.total = books.accounts.total + operation.flow ↔ operation.ReadsStored books := by
  have unchanged (same : after.accounts.total = books.accounts.total) :
      after.accounts.total = books.accounts.total + 0 ↔ True := by rw [same, add_zero, eq_self]
  cases Operation.effect_of_outcome accepted with
  | getBalance | getLockedBalance | getNonce | clearCache | restart | lock | unlock => exact unchanged rfl
  | creditNothing nothing | debitNothing nothing =>
    exact iff_of_true (by simp [Operation.flow, nothing]) (.inl nothing)
  | transferNothing => exact unchanged rfl
  | credit something sum _ =>
    exact (total_write (by rw [checkedAdd_eq_some.mp sum, Nat.cast_add]; rfl)).trans (or_iff_right something).symm
  | debit something difference =>
    have computed := checkedSub_eq_some.mp difference
    exact (total_write (by dsimp only [Operation.flow]; omega)).trans (or_iff_right something).symm
  | transfer _ different moving => exact unchanged (total_move different moving)
  | processMessageTransfer _ _ transferred =>
    obtain ⟨different, moved, moving, rfl⟩ := Books.messageTransfer_eq transferred
    exact unchanged (@total_move (Books.load _ _) moved _ _ _ different moving)

end

section

variable {σ : Type} [EconomicsStorage σ] [LawfulStorage σ] (blake3 : List UInt8 → Bytes32)

noncomputable def storedTotal (manager : BalanceManager σ) : ℤ := (booksOf manager).accounts.total

/-- A manager, and what its total is to be. -/
def nextAccounted (state : BalanceManager σ × ℤ) (call : Int × Operation) : BalanceManager σ × ℤ :=
  (nextManager blake3 state.1 call, state.2 + if Succeeds blake3 call state.1 then call.2.flow else 0)

theorem total_next (manager : BalanceManager σ) (call : Int × Operation) :
    storedTotal (nextManager blake3 manager call) =
        storedTotal manager + (if Succeeds blake3 call manager then call.2.flow else 0) ↔
      (Succeeds blake3 call manager → call.2.ReadsStored (booksOf manager)) := by
  unfold storedTotal
  rw [booksOf_nextManager]
  simp only [succeeds_iff]
  cases outcome : call.2.outcome (booksOf manager) with
  | some after => simpa using total_outcome outcome
  | none => simp [Operation.accounts_residue]

/-- The stored balances sum up to what came in less what went out exactly if no credit or debit reads a stale one. -/
theorem total_accounted_iff (manager : BalanceManager σ) (calls : List (Int × Operation)) :
    let run := Runs.after (nextAccounted blake3) (manager, storedTotal manager)
    (∀ before, before <+: calls → storedTotal (run before).1 = (run before).2) ↔
      ∀ before call, before ++ [call] <+: calls → Succeeds blake3 call (run before).1 →
        call.2.ReadsStored (booksOf (run before).1) := by
  refine @Runs.invariant_iff _ _ (nextAccounted blake3) (manager, storedTotal manager) calls
    (fun state => storedTotal state.1 = state.2) (fun state => storedTotal state.1 = state.2)
    (fun call state => Succeeds blake3 call state.1 → call.2.ReadsStored (booksOf state.1)) (fun _ _ => True) rfl
    (fun _ same => same) ?_ ?_ fun _ _ _ => trivial
  · intro state call same _ reads
    rw [nextAccounted, ← same]
    exact (total_next blake3 state.1 call).mpr reads
  · intro state call same _ accounted
    rw [nextAccounted, ← same] at accounted
    exact (total_next blake3 state.1 call).mp accounted

end

end AdicProof.Economics
