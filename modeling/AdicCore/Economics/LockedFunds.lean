import AdicCore.Economics.Amounts
import AdicCore.Economics.Coherence
import AdicCore.Economics.Ledger

open AdicModel AdicModel.Economics

namespace AdicProof.Economics

def Operation.OnFunds : Operation → Prop
  | .credit .. | .debit .. | .transfer .. | .processMessageTransfer .. | .lock .. | .unlock .. => True
  | _ => False

def Operation.spends : Operation → Option (AccountAddress × AdicAmount)
  | .debit address amount => some (address, amount)
  | .transfer sender _ amount => some (sender, amount)
  | .processMessageTransfer sender _ amount _ =>
    (AccountAddress.fromBytes sender).map fun fromAddr => (fromAddr, AdicAmount.fromBaseUnits amount)
  | _ => none

namespace Accounts

def Backed (accounts : Accounts) : Prop := ∀ address, accounts.locked address ≤ accounts.balance address

def Unlocked (accounts : Accounts) (operation : Operation) : Prop :=
  ∀ address amount, operation.spends = some (address, amount) →
    units (accounts.locked address) + units amount ≤ units (accounts.balance address)

variable {accounts : Accounts} {address : AccountAddress} {amount : AdicAmount}

theorem backed_setBalance (backed : accounts.Backed) :
    (accounts.setBalance address amount).Backed ↔ accounts.locked address ≤ amount := by
  constructor
  · intro after
    simpa [setBalance] using after address
  · intro enough other
    by_cases same : other = address
    · subst same
      simpa [setBalance] using enough
    · simpa [setBalance, same] using backed other

theorem backed_setLocked (backed : accounts.Backed) (enough : amount ≤ accounts.balance address) :
    (accounts.setLocked address amount).Backed := by
  intro other
  by_cases same : other = address
  · subst same
    simpa [setLocked] using enough
  · simpa [setLocked, same] using backed other

theorem backed_move {sender recipient : AccountAddress} {moved : Accounts} (backed : accounts.Backed)
    (different : sender ≠ recipient) (accepted : accounts.move sender recipient amount = some moved) :
    moved.Backed ↔
      units (accounts.locked sender) + units amount ≤ units (accounts.balance sender) := by
  unfold move at accepted
  split at accepted
  · cases accepted
  · next enough =>
    rcases Option.map_eq_some_iff.mp accepted with ⟨newToBalance, sum, rfl⟩
    rw [checkedAdd_eq_some] at sum
    rw [amount_lt, not_lt] at enough
    constructor
    · intro after
      have here := after sender
      simp only [setBalance, ne_eq, different, not_false_eq_true, Function.update_of_ne, Function.update_self,
        amount_le, units_saturatingSub] at here
      omega
    · intro unlocked other
      have before := backed other
      rw [amount_le] at before
      simp only [setBalance, amount_le, Function.update_apply]
      split
      · next same =>
        subst same
        omega
      · split
        · next same =>
          subst same
          rw [units_saturatingSub]
          omega
        · exact before

theorem backed_ledger {operation : Operation} {after : Accounts} (backed : accounts.Backed)
    (onFunds : operation.OnFunds) (accepted : operation.ledger accounts = some after) :
    after.Backed ↔ accounts.Unlocked operation := by
  cases operation with
  | getBalance | getLockedBalance | getNonce | clearCache | restart => cases onFunds
  | credit address amount =>
    simp only [Operation.ledger] at accepted
    have nothing : accounts.Unlocked (.credit address amount) := by
      intro _ _ spent
      cases spent
    refine iff_of_true ?_ nothing
    split at accepted
    · cases accepted
      exact backed
    · rcases Option.bind_eq_some_iff.mp accepted with ⟨newBalance, sum, bounded⟩
      split at bounded
      · cases bounded
      · cases bounded
        rw [backed_setBalance backed]
        rw [checkedAdd_eq_some] at sum
        have before := backed address
        rw [amount_le] at before ⊢
        omega
  | debit address amount =>
    simp only [Operation.ledger] at accepted
    have taken : accounts.Unlocked (.debit address amount) ↔
        units (accounts.locked address) + units amount ≤ units (accounts.balance address) := by
      simp [Unlocked, Operation.spends]
    rw [taken]
    split at accepted
    · next nothing =>
      cases accepted
      refine iff_of_true backed ?_
      rw [nothing, units_zero]
      exact amount_le.mp (backed address)
    · rcases Option.map_eq_some_iff.mp accepted with ⟨newBalance, rest, rfl⟩
      rw [backed_setBalance backed]
      rw [checkedSub_eq_some] at rest
      rw [amount_le]
      omega
  | transfer sender recipient amount =>
    simp only [Operation.ledger] at accepted
    have taken : accounts.Unlocked (.transfer sender recipient amount) ↔
        units (accounts.locked sender) + units amount ≤ units (accounts.balance sender) := by
      simp [Unlocked, Operation.spends]
    rw [taken]
    split at accepted
    · next nothing =>
      cases accepted
      refine iff_of_true backed ?_
      rw [nothing, units_zero]
      exact amount_le.mp (backed sender)
    · split at accepted
      · cases accepted
      · next different => exact backed_move backed different accepted
  | processMessageTransfer sender recipient amount nonce =>
    simp only [Operation.ledger] at accepted
    cases from_eq : AccountAddress.fromBytes sender with
    | none => simp [from_eq] at accepted
    | some fromAddr =>
      cases to_eq : AccountAddress.fromBytes recipient with
      | none => simp [from_eq, to_eq] at accepted
      | some toAddr =>
        have taken : accounts.Unlocked (.processMessageTransfer sender recipient amount nonce) ↔
            units (accounts.locked fromAddr) + units (AdicAmount.fromBaseUnits amount) ≤
              units (accounts.balance fromAddr) := by
          simp [Unlocked, Operation.spends, from_eq]
        rw [taken]
        simp only [from_eq, to_eq, messageTransfer] at accepted
        split at accepted
        · cases accepted
        · next valid =>
          rw [not_or] at valid
          rcases Option.map_eq_some_iff.mp accepted with ⟨moved, moving, rfl⟩
          show moved.Backed ↔ _
          exact backed_move backed valid.1 moving
  | lock address amount =>
    simp only [Operation.ledger] at accepted
    have nothing : accounts.Unlocked (.lock address amount) := by
      intro _ _ spent
      cases spent
    refine iff_of_true ?_ nothing
    split at accepted
    · cases accepted
    · next enough =>
      cases accepted
      refine backed_setLocked backed ?_
      have before := backed address
      rw [amount_lt, units_saturatingSub, not_lt] at enough
      rw [amount_le] at before ⊢
      rw [units_saturatingAdd]
      omega
  | unlock address amount =>
    simp only [Operation.ledger] at accepted
    have nothing : accounts.Unlocked (.unlock address amount) := by
      intro _ _ spent
      cases spent
    refine iff_of_true ?_ nothing
    split at accepted
    · cases accepted
    · cases accepted
      refine backed_setLocked backed ?_
      have before := backed address
      rw [amount_le] at before ⊢
      rw [units_saturatingSub]
      omega

end Accounts

namespace Books

def Opened (books : Books) : Prop :=
  ∀ address, books.cache address = none → books.accounts.balance address = AdicAmount.zero

variable {books : Books} {address : AccountAddress}

section

variable (opened : books.Opened)

include opened

theorem Opened.setEntry {accounts : Accounts} {entry : Entry}
    (others : ∀ other, other ≠ address → accounts.balance other = books.accounts.balance other) :
    ({ books with accounts := accounts }.setEntry address entry).Opened := by
  intro other absent
  unfold Books.setEntry at absent
  by_cases same : other = address
  · simp [same] at absent
  · simp only [Function.update_of_ne same] at absent
    rw [accounts_setEntry, others other same]
    exact opened other absent

theorem Opened.write (amount : AdicAmount) : (books.write address amount).Opened :=
  opened.setEntry fun _ different => Function.update_of_ne different _ _

theorem Opened.load : (books.load address).Opened := by
  show ({ books with accounts := books.accounts }.setEntry address (books.entry address)).Opened
  exact opened.setEntry fun _ _ => rfl

theorem Opened.setLocked (entry : Entry) (amount : AdicAmount) :
    (books.setLocked address entry amount).Opened := opened.setEntry fun _ _ => rfl

theorem Opened.bumpNonce : (books.bumpNonce address).Opened :=
  opened.setEntry fun _ _ => rfl

theorem Opened.move {sender recipient : AccountAddress} {amount : AdicAmount} {moved : Books}
    (accepted : books.move sender recipient amount = some moved) : moved.Opened := by
  obtain ⟨-, newToBalance, -, rfl⟩ := Books.move_eq accepted
  exact (opened.write _).write _

end

end Books

section

variable {books after : Books} {operation : Operation}

theorem Operation.opened_outcome (onFunds : operation.OnFunds) (opened : books.Opened)
    (outcome : operation.outcome books = some after) : after.Opened := by
  cases Operation.effect_of_outcome outcome with
  | getBalance | getLockedBalance | getNonce | clearCache | restart => cases onFunds
  | creditNothing | debitNothing | transferNothing => exact opened
  | credit | debit => exact opened.write _
  | transfer _ _ moving => exact opened.move moving
  | lock | unlock => exact opened.setLocked _ _
  | processMessageTransfer _ _ transferred =>
    obtain ⟨-, moved, moving, rfl⟩ := Books.messageTransfer_eq transferred
    exact (opened.load.move moving).bumpNonce

theorem Operation.OnFunds.regular (onFunds : operation.OnFunds) (opened : books.Opened) :
    operation.Regular books := by
  cases operation with
  | lock address amount =>
    show (books.cache address).isSome ∨ books.accounts.balance address = AdicAmount.zero
    cases cached : books.cache address with
    | some entry => exact .inl rfl
    | none => exact .inr (opened address cached)
  | clearCache | restart => cases onFunds
  | _ => trivial

end

section

variable {σ : Type} [EconomicsStorage σ] [LawfulStorage σ] (blake3 : List UInt8 → Bytes32)

def HoldsNothing (storage : σ) : Prop :=
  ∀ address, (LawfulStorage.accounts storage).entry address = ⟨AdicAmount.zero, AdicAmount.zero, 0⟩

def LockedBacked (manager : BalanceManager σ) : Prop := (LawfulStorage.accounts manager.storage).Backed

/-- Locked balances stay backed exactly if every payment takes at most the unlocked balance of its sender. -/
theorem locked_backed_iff (storage : σ) (nothing : HoldsNothing storage) (calls : List (Int × Operation))
    (onFunds : ∀ call ∈ calls, call.2.OnFunds)
    (successful : ∀ before call, before ++ [call] <+: calls → Succeeds blake3 call (managerAfter blake3 storage before)) :
    (∀ before, before <+: calls → LockedBacked (managerAfter blake3 storage before)) ↔
      ∀ before call, before ++ [call] <+: calls →
        (LawfulStorage.accounts (managerAfter blake3 storage before).storage).Unlocked call.2 := by
  have step : ∀ (manager : BalanceManager σ) call, (booksOf manager).Tracked ∧ (booksOf manager).Opened →
      LockedBacked manager → call.2.OnFunds ∧ Succeeds blake3 call manager →
      ((booksOf (nextManager blake3 manager call)).Tracked ∧ (booksOf (nextManager blake3 manager call)).Opened) ∧
        (LockedBacked (nextManager blake3 manager call) ↔
          (LawfulStorage.accounts manager.storage).Unlocked call.2) := by
    rintro manager call ⟨tracked, opened⟩ backed ⟨funds, succeeds⟩
    rw [succeeds_iff, Option.isSome_iff_exists] at succeeds
    rcases succeeds with ⟨after, outcome⟩
    have next := booksOf_nextManager blake3 manager call
    rw [outcome, Option.getD_some] at next
    rcases Operation.outcome_ledger tracked (funds.regular opened) outcome with ⟨ledger, trackedAfter⟩
    rw [next]
    refine ⟨⟨trackedAfter, Operation.opened_outcome funds opened outcome⟩, ?_⟩
    show (booksOf _).accounts.Backed ↔ _
    rw [next]
    exact Accounts.backed_ledger backed funds ledger
  refine @Runs.invariant_iff _ _ (nextManager blake3) (BalanceManager.new storage) calls LockedBacked
    (fun manager => ((booksOf manager).Tracked ∧ (booksOf manager).Opened) ∧ LockedBacked manager)
    (fun call manager => (LawfulStorage.accounts manager.storage).Unlocked call.2)
    (fun call manager => call.2.OnFunds ∧ Succeeds blake3 call manager) ?_ (fun _ strong => strong.2) ?_ ?_ ?_
  · have zero : ∀ address, (LawfulStorage.accounts storage).balance address = AdicAmount.zero :=
      fun address => congrArg Entry.balance (nothing address)
    refine ⟨⟨fun address => ?_, fun address _ => zero address⟩, fun address => ?_⟩
    · rw [booksOf_new]
      show Entry.mk ((LawfulStorage.accounts storage).balance address) AdicAmount.zero 0 = _
      rw [nothing address, zero address]
    · have free : (LawfulStorage.accounts storage).locked address = AdicAmount.zero :=
        congrArg Entry.locked (nothing address)
      show (LawfulStorage.accounts storage).locked address ≤ _
      rw [free, amount_le, units_zero]
      exact Nat.zero_le _
  · rintro manager call ⟨kept, backed⟩ allowed unlocked
    rcases step manager call kept backed allowed with ⟨keptAfter, iff⟩
    exact ⟨keptAfter, iff.mpr unlocked⟩
  · rintro manager call ⟨kept, backed⟩ allowed backedAfter
    exact (step manager call kept backed allowed).2.mp backedAfter
  · intro before call part
    exact ⟨onFunds call (part.subset (by simp)), successful before call part⟩

end

theorem holdsNothing_new : HoldsNothing MemoryStorage.new := fun _ => rfl

theorem locked_backed_iff_lock :
    (∀ before, before <+: [(0, Operation.credit (account 1) ⟨5⟩), (0, .lock (account 1) ⟨5⟩)] →
      LockedBacked (managerAfter (fun _ => Bytes32.replicate 0) MemoryStorage.new before)) ↔
      ∀ before call, before ++ [call] <+: [(0, Operation.credit (account 1) ⟨5⟩), (0, .lock (account 1) ⟨5⟩)] →
        (LawfulStorage.accounts (managerAfter (fun _ => Bytes32.replicate 0) MemoryStorage.new before).storage).Unlocked
          call.2 :=
  locked_backed_iff _ _ holdsNothing_new _ (by simp [Operation.OnFunds])
    (Runs.forall_steps_cons.mpr ⟨by decide +kernel, Runs.forall_steps_cons.mpr ⟨by decide +kernel, Runs.forall_steps_nil⟩⟩)

/-- A debit takes what is locked. -/
theorem locked_spent_debit :
    (∀ before call, before ++ [call] <+: [(0, Operation.credit (account 1) ⟨5⟩), (0, .lock (account 1) ⟨5⟩),
        (0, .debit (account 1) ⟨1⟩)] →
      Succeeds (fun _ => Bytes32.replicate 0) call
        (managerAfter (fun _ => Bytes32.replicate 0) MemoryStorage.new before)) ∧
      ¬ LockedBacked (managerAfter (fun _ => Bytes32.replicate 0) MemoryStorage.new
        [(0, .credit (account 1) ⟨5⟩), (0, .lock (account 1) ⟨5⟩), (0, .debit (account 1) ⟨1⟩)]) := by
  constructor
  · exact Runs.forall_steps_cons.mpr ⟨by decide +kernel, Runs.forall_steps_cons.mpr ⟨by decide +kernel,
      Runs.forall_steps_cons.mpr ⟨by decide +kernel, Runs.forall_steps_nil⟩⟩⟩
  · intro backed
    have locked := backed (account 1)
    revert locked
    decide +kernel

end AdicProof.Economics
