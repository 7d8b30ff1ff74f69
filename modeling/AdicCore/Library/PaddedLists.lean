import Mathlib

namespace PaddedLists

section

variable {α : Type*} {blank : α} {xs ys : List α} {radius : Nat}

def entry (blank : α) (xs : List α) (i : Nat) : α := (xs[i]?).getD blank

theorem entry_past {i : Nat} (past : xs.length ≤ i) : entry blank xs i = blank := by
  simp [entry, List.getElem?_eq_none past]

theorem entry_map_range (digit : Nat → α) {count i : Nat} (inside : i < count) :
    entry blank ((List.range count).map digit) i = digit i := by
  simp [entry, inside]

theorem take_eq_iff :
    xs.take radius = ys.take radius ↔
      min radius xs.length = min radius ys.length ∧ ∀ i < radius, entry blank xs i = entry blank ys i := by
  constructor
  · intro same
    constructor
    · simpa using congrArg List.length same
    · intro i before
      have places := congrArg (fun list => (list[i]?).getD blank) same
      simpa [List.getElem?_take, before, entry] using places
  · intro ⟨lengths, same⟩
    apply List.ext_getElem
    · simpa using lengths
    · intro i first second
      simp only [List.length_take, lt_inf_iff] at first second
      simpa [entry, first, second] using same i first.1

end

section

variable {α : Type*} [DecidableEq α] {blank : α} {xs ys zs : List α} {radius : Nat}

def agreement (blank : α) (xs ys : List α) : Nat :=
  ((List.range (max xs.length ys.length)).find? fun i => entry blank xs i ≠ entry blank ys i).getD
    (max xs.length ys.length)

theorem le_agreement_iff :
    radius ≤ agreement blank xs ys ↔
      radius ≤ max xs.length ys.length ∧ ∀ i < radius, entry blank xs i = entry blank ys i := by
  unfold agreement
  cases found : (List.range (max xs.length ys.length)).find? fun i => entry blank xs i ≠ entry blank ys i with
  | none =>
    have same := List.find?_range_eq_none.mp found
    simp only [ne_eq, decide_not, Bool.not_not, decide_eq_true_eq] at same
    rw [Option.getD_none]
    constructor
    · intro short
      exact ⟨short, fun i before => same i (by omega)⟩
    · exact fun bounds => bounds.1
  | some first =>
    obtain ⟨differ, inside, same⟩ := List.find?_range_eq_some.mp found
    simp only [ne_eq, decide_not, Bool.not_not, decide_eq_true_eq] at same
    simp only [ne_eq, decide_not, Bool.not_eq_true', decide_eq_false_iff_not] at differ
    rw [List.mem_range] at inside
    rw [Option.getD_some]
    constructor
    · intro short
      exact ⟨by omega, fun i before => same i (by omega)⟩
    · intro bounds
      by_contra long
      exact differ (bounds.2 first (by omega))

theorem agreement_le : agreement blank xs ys ≤ max xs.length ys.length := (le_agreement_iff.mp le_rfl).1

theorem entry_of_lt_agreement {i : Nat} (before : i < agreement blank xs ys) : entry blank xs i = entry blank ys i :=
  (le_agreement_iff.mp le_rfl).2 i before

theorem entry_of_agreement_eq_max (whole : agreement blank xs ys = max xs.length ys.length) (i : Nat) :
    entry blank xs i = entry blank ys i := by
  by_cases inside : i < agreement blank xs ys
  · exact entry_of_lt_agreement inside
  · rw [entry_past (by omega), entry_past (by omega)]

theorem entry_agreement_ne (short : agreement blank xs ys < max xs.length ys.length) :
    entry blank xs (agreement blank xs ys) ≠ entry blank ys (agreement blank xs ys) := by
  intro same
  have longer : agreement blank xs ys + 1 ≤ agreement blank xs ys := by
    rw [le_agreement_iff]
    constructor
    · omega
    · intro i before
      by_cases last : i = agreement blank xs ys
      · rw [last]
        exact same
      · exact entry_of_lt_agreement (by omega)
  omega

/-- The second list goes on past the ends of two lists with the same entries, and agrees with them one place further. -/
structure Overshoots (blank : α) (xs ys zs : List α) : Prop where
  different : xs ≠ zs
  same : ∀ i, entry blank xs i = entry blank zs i
  longer : max xs.length zs.length < ys.length
  agrees : ∀ i ≤ max xs.length zs.length, entry blank xs i = entry blank ys i

theorem entry_of_lt_agreements {i : Nat} (before : i < min (agreement blank xs ys) (agreement blank ys zs)) :
    entry blank xs i = entry blank zs i := by
  have first : entry blank xs i = entry blank ys i := entry_of_lt_agreement (by omega)
  have second : entry blank ys i = entry blank zs i := entry_of_lt_agreement (by omega)
  rw [first, second]

/-- Two lists are closer to a third one than to each other exactly if it overshoots their common end. -/
theorem overshoots_iff (different : xs ≠ zs) :
    agreement blank xs zs < min (agreement blank xs ys) (agreement blank ys zs) ↔ Overshoots blank xs ys zs := by
  have bound : agreement blank xs zs ≤ max xs.length zs.length := agreement_le
  have second : agreement blank ys zs ≤ max ys.length zs.length := agreement_le
  constructor
  · intro closer
    have whole : agreement blank xs zs = max xs.length zs.length := by
      by_contra short
      apply entry_agreement_ne (show agreement blank xs zs < _ by omega)
      exact entry_of_lt_agreements closer
    constructor
    · exact different
    · exact entry_of_agreement_eq_max whole
    · omega
    · intro i inside
      exact entry_of_lt_agreement (by omega)
  · intro overshoots
    have longer := overshoots.longer
    have first : max xs.length zs.length + 1 ≤ agreement blank xs ys := by
      rw [le_agreement_iff]
      exact ⟨by omega, fun i before => overshoots.agrees i (by omega)⟩
    have other : max xs.length zs.length + 1 ≤ agreement blank ys zs := by
      rw [le_agreement_iff]
      constructor
      · omega
      · intro i before
        rw [← overshoots.same i, overshoots.agrees i (by omega)]
    omega

end

end PaddedLists
