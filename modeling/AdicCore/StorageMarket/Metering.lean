import AdicCore.Library.Calls
import AdicCore.Library.Fallible
import AdicCore.StorageMarket.Ledger

open AdicModel AdicModel.Economics AdicModel.StorageMarket Calls

namespace AdicProof.StorageMarket

structure Metered (L : Type) where
  inner : L
  debited : Nat
  credited : Nat

variable {L α : Type}

def Metered.lift (call : Call L α) (count : Metered L → Metered L) : Call (Metered L) α := fun metered =>
  match call metered.inner with
  | .ok value inner => .ok value (count { metered with inner := inner })
  | .error error inner => .error error { metered with inner := inner }

def Metered.addCredit (amount : AdicAmount) (metered : Metered L) : Metered L :=
  { metered with credited := metered.credited + amount.baseUnits.toNat }

def Metered.addDebit (amount : AdicAmount) (metered : Metered L) : Metered L :=
  { metered with debited := metered.debited + amount.baseUnits.toNat }

def metered (ledger : Ledger L) : Ledger (Metered L) where
  getBalance address := Metered.lift (ledger.getBalance address) id
  credit address amount := Metered.lift (ledger.credit address amount) (Metered.addCredit amount)
  debit address amount := Metered.lift (ledger.debit address amount) (Metered.addDebit amount)
  transferWithReason sender recipient amount := Metered.lift (ledger.transferWithReason sender recipient amount) id

def succeeds {ε σ : Type} (call : EStateM ε σ α) (state : σ) : Prop := ∃ value next, call state = .ok value next

section

variable {ε σ : Type} {call : EStateM ε σ α} {state next : σ} {value : α} {error : ε}

theorem stateAfter_ok (ran : call state = .ok value next) : stateAfter call state = next := by
  unfold stateAfter
  rw [ran]

theorem stateAfter_error (ran : call state = .error error next) : stateAfter call state = next := by
  unfold stateAfter
  rw [ran]

theorem succeeds_ok (ran : call state = .ok value next) : succeeds call state := ⟨value, next, ran⟩

theorem succeeds_bind {β : Type} {rest : α → EStateM ε σ β} (ran : call state = .ok value next)
    (continues : succeeds (rest value) next) : succeeds (call >>= rest) state := by
  obtain ⟨result, last, finished⟩ := continues
  exact ⟨result, last, (Calls.bind_ok ran).trans finished⟩

theorem not_succeeds (ran : call state = .error error next) : ¬succeeds call state := by
  rintro ⟨_, _, other⟩
  rw [ran] at other
  cases other

end

section

variable {M : Type} {call : Call L α} {state next : Funded M L} {value : α} {error : StorageMarketError}

theorem onLedger_ok (ran : onLedger call state = .ok value next) :
    ∃ after, call state.ledger = .ok value after ∧ next = { state with ledger := after } := by
  unfold onLedger at ran
  cases called : call state.ledger with
  | ok result after =>
    rw [called] at ran
    cases ran
    exact ⟨after, rfl, rfl⟩
  | error cause after =>
    rw [called] at ran
    cases ran

theorem onLedger_error (ran : onLedger call state = .error error next) :
    ∃ cause after, call state.ledger = .error cause after ∧ error = .economicsError (.ledger cause) ∧
      next = { state with ledger := after } := by
  unfold onLedger at ran
  cases called : call state.ledger with
  | ok result after =>
    rw [called] at ran
    cases ran
  | error cause after =>
    rw [called] at ran
    cases ran
    exact ⟨cause, after, rfl, rfl, rfl⟩

theorem onLedger_of_ok {after : L} (ran : call state.ledger = .ok value after) :
    onLedger call state = .ok value { state with ledger := after } := by
  unfold onLedger
  rw [ran]

theorem onLedger_of_error {cause : EconomicsError} {after : L} (ran : call state.ledger = .error cause after) :
    onLedger call state = .error (.economicsError (.ledger cause)) { state with ledger := after } := by
  unfold onLedger
  rw [ran]

end

section

variable {M : Type} {state : Funded M (Metered L)}

def Uncounted (state next : Funded M (Metered L)) : Prop :=
  next.manager = state.manager ∧ next.ledger.debited = state.ledger.debited ∧
    next.ledger.credited = state.ledger.credited

theorem lift_ends (call : Call L α) (count : Metered L → Metered L) :
    Ends (onLedger (Metered.lift call count)) state
      (fun _ next => succeeds call state.ledger.inner ∧
        ∃ inner, next = ⟨state.manager, count { state.ledger with inner := inner }⟩)
      fun error next => ¬succeeds call state.ledger.inner ∧ (∃ cause, error = .economicsError (.ledger cause)) ∧
        Uncounted state next := by
  unfold Ends onLedger Metered.lift
  cases called : call state.ledger.inner with
  | ok value inner => exact ⟨succeeds_ok called, inner, rfl⟩
  | error cause inner => exact ⟨not_succeeds called, ⟨cause, rfl⟩, rfl, rfl, rfl⟩

variable {ledger : Ledger L} {address sender recipient : AccountAddress} {amount : AdicAmount}

theorem debit_ends : Ends (onLedger ((metered ledger).debit address amount)) state
    (fun _ next => next.manager = state.manager ∧
      next.ledger.debited = state.ledger.debited + amount.baseUnits.toNat ∧
      next.ledger.credited = state.ledger.credited)
    fun _ next => Uncounted state next := by
  refine (lift_ends (ledger.debit address amount) (Metered.addDebit amount)).weaken ?_ fun _ _ fails => fails.2.2
  rintro _ _ ⟨-, inner, rfl⟩
  exact ⟨rfl, rfl, rfl⟩

theorem credit_ends : Ends (onLedger ((metered ledger).credit address amount)) state
    (fun _ next => succeeds (ledger.credit address amount) state.ledger.inner ∧ next.manager = state.manager ∧
      next.ledger.debited = state.ledger.debited ∧
      next.ledger.credited = state.ledger.credited + amount.baseUnits.toNat)
    fun error next => ¬succeeds (ledger.credit address amount) state.ledger.inner ∧
      (∃ cause, error = .economicsError (.ledger cause)) ∧ Uncounted state next := by
  refine (lift_ends (ledger.credit address amount) (Metered.addCredit amount)).weaken ?_ fun _ _ fails => fails
  rintro _ _ ⟨accepted, inner, rfl⟩
  exact ⟨accepted, rfl, rfl, rfl⟩

theorem transfer_ends : Ends (onLedger ((metered ledger).transferWithReason sender recipient amount)) state
    (fun _ next => Uncounted state next) fun _ next => Uncounted state next := by
  refine (lift_ends (ledger.transferWithReason sender recipient amount) id).weaken ?_ fun _ _ fails => fails.2.2
  rintro _ _ ⟨-, inner, rfl⟩
  exact ⟨rfl, rfl, rfl⟩

end

section

variable {M : Type} {state next : Funded M L} {value : α} {error : StorageMarketError}
  {result : Except StorageMarketError α}

theorem checked_ends : Ends (checked result : MarketCall M L α) state
    (fun value next => result = .ok value ∧ state = next) fun error next => result = .error error ∧ state = next := by
  cases result with
  | ok value => exact ⟨rfl, rfl⟩
  | error error => exact ⟨rfl, rfl⟩

variable {β : Type} {rest : α → MarketCall M L β} {final : β}

theorem getManager_bind (rest : M → MarketCall M L β) : (getManager >>= rest) state = rest state.manager state := rfl

theorem checked_bind_ok (ran : (checked result >>= rest) state = .ok final next) :
    ∃ value, result = .ok value ∧ rest value state = .ok final next := by
  obtain ⟨value, middle, passed, ran⟩ := Fallible.run_bind_ok ran
  obtain ⟨result_eq, rfl⟩ := checked_ends.ok passed
  exact ⟨value, result_eq, ran⟩

theorem checked_bind_error (ran : (checked result >>= rest) state = .error error next) :
    state = next ∨ ∃ value, result = .ok value ∧ rest value state = .error error next := by
  rcases Fallible.run_bind_error ran with failed | ⟨value, middle, passed, ran⟩
  · exact Or.inl (checked_ends.error failed).2
  · obtain ⟨result_eq, rfl⟩ := checked_ends.ok passed
    exact Or.inr ⟨value, result_eq, ran⟩

variable {done : β → Funded M L → Prop} {failed : StorageMarketError → Funded M L → Prop}

theorem ends_getManager {rest : M → MarketCall M L β} (ends : Ends (rest state.manager) state done failed) :
    Ends (getManager >>= rest) state done failed := ends

theorem ends_modify {change : M → M} {rest : Unit → MarketCall M L β}
    (ends : Ends (rest ()) ⟨change state.manager, state.ledger⟩ done failed) :
    Ends (modifyManager change >>= rest) state done failed := ends

theorem ends_checked (passes : ∀ value, result = .ok value → Ends (rest value) state done failed)
    (fails : ∀ error, result = .error error → failed error state) :
    Ends (checked result >>= rest) state done failed := by
  refine checked_ends.bind ?_ ?_
  · rintro value _ ⟨passed, rfl⟩
    exact passes value passed
  · rintro error _ ⟨failing, rfl⟩
    exact fails error failing

end

end AdicProof.StorageMarket
