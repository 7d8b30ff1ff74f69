import Mathlib

namespace MachineWords

/-- The quotient and the remainder, `none` if the divisor is zero. -/
def divide (a b : UInt64) : Option UInt64 := if b = 0 then none else some (a / b)

def remainder (a b : UInt64) : Option UInt64 := if b = 0 then none else some (a % b)

/-- What a build does where the exact result of an operation is not a word. -/
inductive Overflow where
  | stops
  | wraps
deriving DecidableEq

namespace Overflow

variable {mode : Overflow} {a b : UInt64}

def result {α : Type} (mode : Overflow) (fits : Bool) (wrapped : α) : Option α :=
  if mode = .stops ∧ ¬fits then none else some wrapped

def add (mode : Overflow) (a b : UInt64) : Option UInt64 := mode.result (a.toNat + b.toNat < 2 ^ 64) (a + b)

def sub (mode : Overflow) (a b : UInt64) : Option UInt64 := mode.result (b ≤ a) (a - b)

def mul (mode : Overflow) (a b : UInt64) : Option UInt64 := mode.result (a.toNat * b.toNat < 2 ^ 64) (a * b)

@[simp] theorem result_wraps {α : Type} {fits : Bool} {wrapped : α} : wraps.result fits wrapped = some wrapped := by
  simp [result]

@[simp] theorem result_stops {α : Type} {fits : Bool} {wrapped : α} :
    stops.result fits wrapped = if fits then some wrapped else none := by
  cases fits <;> simp [result]

theorem result_of_fits {α : Type} {fits : Bool} {wrapped : α} (fit : fits = true) :
    mode.result fits wrapped = some wrapped := by
  simp [result, fit]

theorem add_of_lt (bounded : a.toNat + b.toNat < 2 ^ 64) :
    ∃ sum, mode.add a b = some sum ∧ sum.toNat = a.toNat + b.toNat := by
  refine ⟨a + b, result_of_fits (by simpa using bounded), ?_⟩
  rw [UInt64.toNat_add, Nat.mod_eq_of_lt bounded]

theorem sub_of_le (enough : b.toNat ≤ a.toNat) :
    ∃ rest, mode.sub a b = some rest ∧ rest.toNat = a.toNat - b.toNat := by
  have ordered : b ≤ a := UInt64.le_iff_toNat_le.mpr enough
  exact ⟨a - b, result_of_fits (by simpa using ordered), UInt64.toNat_sub_of_le _ _ ordered⟩

theorem mul_of_lt (bounded : a.toNat * b.toNat < 2 ^ 64) :
    ∃ product, mode.mul a b = some product ∧ product.toNat = a.toNat * b.toNat := by
  refine ⟨a * b, result_of_fits (by simpa using bounded), ?_⟩
  rw [UInt64.toNat_mul, Nat.mod_eq_of_lt bounded]

theorem add_of_le (large : 2 ^ 64 ≤ a.toNat + b.toNat) {sum : UInt64} (added : mode.add a b = some sum) :
    sum.toNat + 2 ^ 64 = a.toNat + b.toNat := by
  have wrapped : sum = a + b := by
    unfold add result at added
    split at added
    · cases added
    · exact (Option.some.inj added).symm
  have first := a.toNat_lt
  have second := b.toNat_lt
  rw [wrapped, UInt64.toNat_add]
  omega

end Overflow

end MachineWords
