import AdicCore.Library.PaddedLists
import AdicCore.Mrw.Selector

open AdicModel.Crypto

namespace AdicModel

/-- A division by the prime zero, which panics, is left out. -/
def QpDigits.new (value : Nat) (p : UInt32) (precision : Nat) : QpDigits :=
  let digits := digitLoop p.toNat precision value
  ⟨digits ++ List.replicate (precision - digits.length) 0, p⟩

namespace Math

/-- The number of digits that agree, cut to a `u32`. -/
def vpDiff (x y : QpDigits) : Except AdicError UInt32 := do
  let agreeing ← Mrw.vpDiff x y
  return UInt32.ofNat agreeing

def ballId (x : QpDigits) (radius : Nat) : List UInt8 := x.ballId radius

def isInBall (x center : QpDigits) (radius : Nat) : Except AdicError Bool :=
  if x.p ≠ center.p then .error (.panic "Cannot compare balls with different primes")
  else .ok ((List.range radius).all fun i => (x.digits[i]?).getD 0 == (center.digits[i]?).getD 0)

/-- `f64::powi` on exact numbers. A negative power of zero is infinity. -/
def powi (p : UInt32) (exponent : Int32) : WithTop ℚ :=
  if p = 0 ∧ exponent < 0 then ⊤ else ((p.toNat : ℚ) ^ exponent.toInt : ℚ)

/-- The valuation is cast to an `i32` and negated, both of which wrap. -/
def padicDistance (x y : QpDigits) : Except AdicError (WithTop ℚ) :=
  if x.p ≠ y.p then .error (.panic "Cannot compute distance between different primes")
  else if x.digits = y.digits then .ok 0
  else do
    let valuation ← vpDiff x y
    return powi x.p (-valuation.toInt32)

end Math

end AdicModel

open AdicModel AdicModel.Math PaddedLists

namespace AdicProof.Math

section

variable {x y : QpDigits} {p : UInt32} {xs ys : List UInt8} {radius : Nat}

theorem vpDiff_eq (same : x.p = y.p) : vpDiff x y = .ok (UInt32.ofNat (agreement 0 x.digits y.digits)) := by
  have digits : Mrw.vpDiff x y = .ok (agreement 0 x.digits y.digits) := by
    unfold Mrw.vpDiff
    rw [if_neg (not_not.mpr same)]
    rfl
  unfold vpDiff
  rw [digits]
  rfl

@[simp] theorem vpDiff_mk (p : UInt32) (xs ys : List UInt8) :
    vpDiff ⟨xs, p⟩ ⟨ys, p⟩ = .ok (UInt32.ofNat (agreement 0 xs ys)) := vpDiff_eq rfl

theorem isInBall_iff : isInBall ⟨xs, p⟩ ⟨ys, p⟩ radius = .ok true ↔ ∀ i < radius, entry 0 xs i = entry 0 ys i := by
  simp [isInBall, entry]

theorem ballId_eq_iff :
    ballId ⟨xs, p⟩ radius = ballId ⟨ys, p⟩ radius ↔
      min radius xs.length = min radius ys.length ∧ ∀ i < radius, entry 0 xs i = entry 0 ys i := take_eq_iff

end

def BallsCoincide (x center : QpDigits) (radius : Nat) : Prop :=
  ((∃ valuation, vpDiff x center = .ok valuation ∧ radius ≤ valuation.toNat) ↔ isInBall x center radius = .ok true) ∧
    (isInBall x center radius = .ok true ↔ ballId x radius = ballId center radius)

/-- The notions coincide where the padded digits differ before the radius, or nothing that agrees is cut off. -/
theorem ballsCoincide_iff (p : UInt32) (xs cs : List UInt8) (radius : Nat) :
    BallsCoincide ⟨xs, p⟩ ⟨cs, p⟩ radius ↔
      (∃ i < radius, entry 0 xs i ≠ entry 0 cs i) ∨
        radius ≤ xs.length ∧ radius ≤ cs.length ∧ radius ≤ agreement 0 xs cs % 2 ^ 32 := by
  have near : (∃ valuation, vpDiff ⟨xs, p⟩ ⟨cs, p⟩ = .ok valuation ∧ radius ≤ valuation.toNat) ↔
      radius ≤ agreement 0 xs cs % 2 ^ 32 := by simp
  have cut : agreement 0 xs cs % 2 ^ 32 ≤ agreement 0 xs cs := Nat.mod_le _ _
  have bound : agreement 0 xs cs ≤ max xs.length cs.length := agreement_le
  unfold BallsCoincide
  rw [near, isInBall_iff, ballId_eq_iff]
  by_cases same : ∀ i < radius, entry 0 xs i = entry 0 cs i
  · have noPlace : ¬ ∃ i < radius, entry 0 xs i ≠ entry 0 cs i := by
      intro ⟨i, before, differ⟩
      exact differ (same i before)
    rw [iff_true_intro same, iff_false_intro noPlace]
    simp only [iff_true, true_iff, and_true, false_or]
    omega
  · have place : ∃ i < radius, entry 0 xs i ≠ entry 0 cs i := by
      simpa using same
    have short : ¬ radius ≤ agreement 0 xs cs % 2 ^ 32 := by
      intro long
      exact same fun i before => entry_of_lt_agreement (by omega)
    rw [iff_false_intro same, iff_true_intro place, iff_false_intro short]
    simp

/-- One digit and the same digit with a zero after it are in one ball of radius two, but the names differ. -/
theorem ballsCoincide_mixed : ¬ BallsCoincide ⟨[1], 3⟩ ⟨[1, 0], 3⟩ 2 := by
  have inside : isInBall ⟨[1], 3⟩ ⟨[1, 0], 3⟩ 2 = .ok true := by decide
  have names : ballId ⟨[1], 3⟩ 2 ≠ ballId ⟨[1, 0], 3⟩ 2 := by decide
  intro coincide
  exact names (coincide.2.mp inside)

end AdicProof.Math
