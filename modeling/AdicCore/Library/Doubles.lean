import Mathlib

/-- A floating point number: exact where it is finite, or one of the special values. Zero has no sign. -/
inductive Double where
  | nan
  | infinite (negative : Bool)
  | finite (value : ℚ)
deriving DecidableEq

namespace Double

def add : Double → Double → Double
  | finite x, finite y => finite (x + y)
  | finite _, infinite negative => infinite negative
  | infinite negative, finite _ => infinite negative
  | infinite negative, infinite negative' => if negative = negative' then infinite negative else nan
  | _, _ => nan

def neg : Double → Double
  | finite x => finite (-x)
  | infinite negative => infinite !negative
  | nan => nan

def sub (x y : Double) : Double := x.add y.neg

def mul : Double → Double → Double
  | finite x, finite y => finite (x * y)
  | finite x, infinite negative => if x = 0 then nan else infinite (negative != decide (x < 0))
  | infinite negative, finite x => if x = 0 then nan else infinite (negative != decide (x < 0))
  | infinite negative, infinite negative' => infinite (negative != negative')
  | _, _ => nan

def div : Double → Double → Double
  | finite x, finite y => if y = 0 then (if x = 0 then nan else infinite (decide (x < 0))) else finite (x / y)
  | finite _, infinite _ => finite 0
  | infinite negative, finite y => infinite (negative != decide (y < 0))
  | _, _ => nan

def partialCmp : Double → Double → Option Ordering
  | finite x, finite y => some (compare x y)
  | finite _, infinite negative => some (if negative then .gt else .lt)
  | infinite negative, finite _ => some (if negative then .lt else .gt)
  | infinite negative, infinite negative' => some (compare negative' negative)
  | _, _ => none

def less (x y : Double) : Bool := x.partialCmp y = some .lt

def IsFinite (x : Double) : Prop := ∃ value, x = finite value

variable {x y : Double}

theorem isFinite_finite (value : ℚ) : (finite value).IsFinite := ⟨value, rfl⟩

theorem IsFinite.add (first : x.IsFinite) (second : y.IsFinite) : (x.add y).IsFinite := by
  obtain ⟨value, rfl⟩ := first
  obtain ⟨other, rfl⟩ := second
  exact isFinite_finite _

theorem IsFinite.sub (first : x.IsFinite) (second : y.IsFinite) : (x.sub y).IsFinite := by
  obtain ⟨value, rfl⟩ := first
  obtain ⟨other, rfl⟩ := second
  exact isFinite_finite _

theorem IsFinite.mul (first : x.IsFinite) (second : y.IsFinite) : (x.mul y).IsFinite := by
  obtain ⟨value, rfl⟩ := first
  obtain ⟨other, rfl⟩ := second
  exact isFinite_finite _

theorem IsFinite.ne_nan (isFinite : x.IsFinite) : x ≠ nan := by
  obtain ⟨value, rfl⟩ := isFinite
  exact nofun

theorem IsFinite.comparable (first : x.IsFinite) (second : y.IsFinite) : ∃ order, x.partialCmp y = some order := by
  obtain ⟨value, rfl⟩ := first
  obtain ⟨other, rfl⟩ := second
  exact ⟨_, rfl⟩

theorem zero_mul_infinite (negative : Bool) (value : ℚ) :
    (finite 0).mul ((infinite negative).mul (finite value)) = nan := by
  by_cases zero : value = 0
  · simp [mul, zero]
  · simp [mul, zero]

/-- The functions of the library on finite numbers, where no exponential and no power overflows. A power of a negative
    number need not be a number. -/
structure Libm where
  exp : ℚ → ℚ
  powf : ℚ → ℚ → Double
  powf_pos : ∀ base exponent, 0 < base → (powf base exponent).IsFinite
  powf_zero : ∀ exponent, 0 ≤ exponent → (powf 0 exponent).IsFinite
  powf_zero_neg : ∀ exponent, exponent < 0 → powf 0 exponent = infinite false

def Libm.expOf (libm : Libm) : Double → Double
  | finite x => finite (libm.exp x)
  | infinite negative => if negative then finite 0 else infinite false
  | nan => nan

theorem IsFinite.expOf (isFinite : x.IsFinite) (libm : Libm) : (libm.expOf x).IsFinite := by
  obtain ⟨value, rfl⟩ := isFinite
  exact isFinite_finite _

section

variable {β : Type} (cmp : β → β → Option Ordering)

def insertBy (entry : β) : List β → Option (List β)
  | [] => some [entry]
  | first :: rest =>
    match cmp entry first with
    | none => none
    | some .gt => (insertBy entry rest).map (first :: ·)
    | some _ => some (entry :: first :: rest)

def sortBy : List β → Option (List β)
  | [] => some []
  | entry :: rest => (sortBy rest).bind (insertBy cmp entry)

variable {cmp}

theorem insertBy_some {entry : β} {entries : List β}
    (comparable : ∀ other ∈ entries, ∃ order, cmp entry other = some order) :
    ∃ sorted, insertBy cmp entry entries = some sorted ∧ sorted.Perm (entry :: entries) := by
  induction entries with
  | nil => exact ⟨[entry], rfl, .refl _⟩
  | cons first rest ih =>
    obtain ⟨order, compared⟩ := comparable first List.mem_cons_self
    obtain ⟨sorted, inserted, perm⟩ := ih fun other member => comparable other (List.mem_cons_of_mem first member)
    unfold insertBy
    rw [compared]
    cases order with
    | gt =>
      refine ⟨first :: sorted, ?_, ?_⟩
      · rw [inserted]
        rfl
      · exact (perm.cons first).trans (List.Perm.swap entry first rest)
    | lt => exact ⟨entry :: first :: rest, rfl, .refl _⟩
    | eq => exact ⟨entry :: first :: rest, rfl, .refl _⟩

theorem sortBy_some {entries : List β}
    (comparable : ∀ first ∈ entries, ∀ second ∈ entries, ∃ order, cmp first second = some order) :
    ∃ sorted, sortBy cmp entries = some sorted ∧ sorted.Perm entries := by
  induction entries with
  | nil => exact ⟨[], rfl, .refl _⟩
  | cons entry rest ih =>
    obtain ⟨sorted, ran, perm⟩ := ih fun first member second member' =>
      comparable first (List.mem_cons_of_mem entry member) second (List.mem_cons_of_mem entry member')
    obtain ⟨result, inserted, perm'⟩ := @insertBy_some _ cmp entry sorted fun other member =>
      comparable entry List.mem_cons_self other (List.mem_cons_of_mem entry (perm.subset member))
    refine ⟨result, ?_, perm'.trans (perm.cons entry)⟩
    unfold sortBy
    rw [ran]
    exact inserted

end

end Double
