import Mathlib

namespace Bottleneck

section

def search (found : Nat → Bool) : Nat → Nat → Nat → Nat
  | 0, left, _ => left
  | fuel + 1, left, right =>
    if left < right then
      let mid := left + (right - left) / 2
      if found mid then search found fuel left mid else search found fuel (mid + 1) right
    else left

/-- The indices that the search tests on its way to a target. -/
def probes (target : Nat) : Nat → Nat → Nat → List Nat
  | 0, _, _ => []
  | fuel + 1, left, right =>
    if left < right then
      let mid := left + (right - left) / 2
      mid :: if target ≤ mid then probes target fuel left mid else probes target fuel (mid + 1) right
    else []

variable {found : Nat → Bool} {target fuel left right : Nat}

theorem search_bounds (ordered : left ≤ right) :
    left ≤ search found fuel left right ∧ search found fuel left right ≤ right := by
  induction fuel generalizing left right with
  | zero => exact ⟨le_refl _, ordered⟩
  | succ fuel ih =>
    rw [search]
    by_cases more : left < right
    · rw [if_pos more]
      dsimp only
      split
      · have inner := @ih left (left + (right - left) / 2) (by omega)
        omega
      · have inner := @ih (left + (right - left) / 2 + 1) right (by omega)
        omega
    · rw [if_neg more]
      omega

theorem lt_of_mem_probes {index : Nat} (member : index ∈ probes target fuel left right) : index < right := by
  induction fuel generalizing left right with
  | zero => exact absurd member List.not_mem_nil
  | succ fuel ih =>
    rw [probes] at member
    by_cases more : left < right
    · rw [if_pos more] at member
      rcases List.mem_cons.mp member with rfl | later
      · omega
      · split at later
        · have inner := ih later
          omega
        · exact ih later
    · rw [if_neg more] at member
      exact absurd member List.not_mem_nil

theorem le_search (sound : ∀ index, found index = true → target ≤ index) (enough : right ≤ left + fuel)
    (before : target ≤ right) : target ≤ search found fuel left right := by
  induction fuel generalizing left right with
  | zero => exact before.trans enough
  | succ fuel ih =>
    rw [search]
    by_cases more : left < right
    · rw [if_pos more]
      dsimp only
      split
      · next success => exact ih (by omega) (sound _ success)
      · exact ih (by omega) before
    · rw [if_neg more]
      omega

theorem search_eq_iff (sound : ∀ index, found index = true → target ≤ index) (enough : right ≤ left + fuel)
    (after : left ≤ target) (before : target ≤ right) :
    search found fuel left right = target ↔
      ∀ index ∈ probes target fuel left right, target ≤ index → found index = true := by
  induction fuel generalizing left right with
  | zero =>
    have same : left = target := by omega
    simp [search, probes, same]
  | succ fuel ih =>
    rw [search, probes]
    by_cases more : left < right
    · rw [if_pos more, if_pos more]
      simp only [List.forall_mem_cons]
      by_cases success : found (left + (right - left) / 2) = true
      · have reached := sound _ success
        rw [if_pos success, if_pos reached, ih (by omega) after reached]
        simp [success]
      · rw [if_neg success]
        by_cases reached : target ≤ left + (right - left) / 2
        · have bounds := (@search_bounds found fuel (left + (right - left) / 2 + 1) right (by omega)).1
          constructor
          · intro same
            omega
          · intro all
            exact absurd (all.1 reached) success
        · rw [if_neg reached, ih (by omega) (by omega) before]
          simp [reached]
    · have same : left = target := by omega
      rw [if_neg more, if_neg more]
      simp [same]

end

structure Costs (α β R : Type*) where
  pair : α → β → R
  left : α → R
  right : β → R

namespace Costs

variable {α β R : Type*} [Fintype α] [Fintype β] [LinearOrder R] [Zero R] (costs : Costs α β R) (matching : α ≃. β)

def leftCost (a : α) : R := (matching a).elim (costs.left a) (costs.pair a)

def rightCost (b : β) : R := (matching.symm b).elim (costs.right b) fun _ => 0

def cost : R :=
  max (Finset.univ.fold max 0 (costs.leftCost matching)) (Finset.univ.fold max 0 (costs.rightCost matching))

variable {costs matching} {bound : R}

theorem cost_le_iff : costs.cost matching ≤ bound ↔
    0 ≤ bound ∧ (∀ a, costs.leftCost matching a ≤ bound) ∧ ∀ b, costs.rightCost matching b ≤ bound := by
  rw [cost, max_le_iff, Finset.fold_max_le, Finset.fold_max_le]
  simp only [Finset.mem_univ, true_implies]
  tauto

variable (costs)

theorem exists_optimal : ∃ value, IsLeast (Set.range costs.cost) value := by
  have finite : Finite (α ≃. β) :=
    Finite.of_injective (fun matching => (matching : α → Option β)) DFunLike.coe_injective
  obtain ⟨best, least⟩ := Finite.exists_min costs.cost
  exact ⟨costs.cost best, ⟨best, rfl⟩, by rintro _ ⟨other, rfl⟩; exact least other⟩

/-- The least largest cost of a partial matching. -/
noncomputable def optimum : R := costs.exists_optimal.choose

theorem optimum_isLeast : IsLeast (Set.range costs.cost) costs.optimum := costs.exists_optimal.choose_spec

theorem optimum_le (matching : α ≃. β) : costs.optimum ≤ costs.cost matching := costs.optimum_isLeast.2 ⟨matching, rfl⟩

section

variable {costs} (pairs : ∀ a b, 0 ≤ costs.pair a b) (lefts : ∀ a, 0 ≤ costs.left a) (rights : ∀ b, 0 ≤ costs.right b)

def IsCost (costs : Costs α β R) (value : R) : Prop :=
  (∃ a b, value = costs.pair a b) ∨ (∃ a, value = costs.left a) ∨ ∃ b, value = costs.right b

omit [Fintype α] [Fintype β] [LinearOrder R] [Zero R] in
theorem leftCost_isCost (matching : α ≃. β) (a : α) : costs.IsCost (costs.leftCost matching a) := by
  rw [leftCost]
  cases matching a with
  | none => exact Or.inr (Or.inl ⟨a, rfl⟩)
  | some b => exact Or.inl ⟨a, b, rfl⟩

include pairs lefts rights

theorem isCost_of_zero (some : Nonempty α ∨ Nonempty β) {matching : α ≃. β} (zero : costs.cost matching = 0) :
    costs.IsCost (costs.cost matching) := by
  obtain ⟨_, leftBounds, rightBounds⟩ := cost_le_iff.mp (le_of_eq zero)
  have ofLeft : Nonempty α → costs.IsCost (costs.cost matching) := by
    rintro ⟨a⟩
    have nonneg : 0 ≤ costs.leftCost matching a := by
      rcases leftCost_isCost matching a with ⟨x, y, same⟩ | ⟨x, same⟩ | ⟨y, same⟩
      · exact same ▸ pairs x y
      · exact same ▸ lefts x
      · exact same ▸ rights y
    have same : costs.cost matching = costs.leftCost matching a := zero.trans (le_antisymm nonneg (leftBounds a))
    exact same ▸ leftCost_isCost matching a
  rcases some with left | right
  · exact ofLeft left
  · obtain ⟨b⟩ := right
    have bound := rightBounds b
    rw [rightCost] at bound
    cases partner : matching.symm b with
    | some a => exact ofLeft ⟨a⟩
    | none =>
      rw [partner] at bound
      exact Or.inr (Or.inr ⟨b, zero.trans (le_antisymm (rights b) bound)⟩)

theorem cost_isCost (some : Nonempty α ∨ Nonempty β) (matching : α ≃. β) : costs.IsCost (costs.cost matching) := by
  obtain ⟨nonneg, leftBounds, rightBounds⟩ := cost_le_iff.mp (le_refl (costs.cost matching))
  have reached := le_refl (costs.cost matching)
  nth_rewrite 2 [cost] at reached
  rw [le_max_iff, Finset.le_fold_max, Finset.le_fold_max] at reached
  rcases reached with (zero | ⟨a, _, left⟩) | zero | ⟨b, _, right⟩
  · exact isCost_of_zero pairs lefts rights some (le_antisymm zero nonneg)
  · exact le_antisymm (leftBounds a) left ▸ leftCost_isCost matching a
  · exact isCost_of_zero pairs lefts rights some (le_antisymm zero nonneg)
  · rw [rightCost] at right
    have bound := rightBounds b
    rw [rightCost] at bound
    cases partner : matching.symm b with
    | some a =>
      rw [partner] at right
      exact isCost_of_zero pairs lefts rights some (le_antisymm right nonneg)
    | none =>
      rw [partner] at right bound
      exact Or.inr (Or.inr ⟨b, le_antisymm right bound⟩)

end

def swap : Costs β α R := ⟨fun b a => costs.pair a b, costs.right, costs.left⟩

end Costs

def bounded (n : Nat) (index : Option Nat) : Option (Fin n) :=
  index.bind fun i => if below : i < n then some ⟨i, below⟩ else none

theorem bounded_eq_some_iff {n : Nat} {index : Option Nat} {i : Fin n} : bounded n index = some i ↔ index = some i := by
  cases index with
  | none => simp [bounded]
  | some j =>
    by_cases below : j < n
    · simp [bounded, below, Fin.ext_iff]
    · have different : j ≠ i := fun same => below (same ▸ i.isLt)
      simp [bounded, below, different]

def ofIndices (n1 n2 : Nat) {left right : Nat → Option Nat} (inverse : ∀ i j, left i = some j ↔ right j = some i) :
    Fin n1 ≃. Fin n2 where
  toFun i := bounded n2 (left i)
  invFun j := bounded n1 (right j)
  inv i j := bounded_eq_some_iff.trans ((inverse i j).symm.trans bounded_eq_some_iff.symm)

end Bottleneck
