import Mathlib

namespace ExclusiveOr

variable {ι G : Type*} [DecidableEq ι] [AddCommGroup G]

theorem nsmul_eq (double : ∀ element : G, element + element = 0) (count : ℕ) (element : G) :
    count • element = if Even count then 0 else element := by
  induction count with
  | zero => simp
  | succ count ih =>
    rw [succ_nsmul, ih]
    by_cases even : Even count
    · simp [Nat.even_add_one, even]
    · simp [Nat.even_add_one, even, double]

theorem sum_map_add_even (double : ∀ element : G, element + element = 0) (value : ι → G) (entries : List ι) :
    (entries.map value).sum + ∑ entry ∈ entries.toFinset with Even (entries.count entry), value entry =
      ∑ entry ∈ entries.toFinset, value entry := by
  rw [Finset.sum_list_map_count, Finset.sum_filter, ← Finset.sum_add_distrib]
  apply Finset.sum_congr rfl
  intro entry _
  rw [nsmul_eq double]
  by_cases even : Even (entries.count entry)
  · simp [even]
  · simp [even]

/-- The sum is that of the entries counted once exactly if those of even multiplicity sum up to nothing. -/
theorem sum_map_eq_once_iff (double : ∀ element : G, element + element = 0) (value : ι → G) (entries : List ι) :
    (entries.map value).sum = ∑ entry ∈ entries.toFinset, value entry ↔
      ∑ entry ∈ entries.toFinset with Even (entries.count entry), value entry = 0 := by
  rw [← sum_map_add_even double value entries]
  exact left_eq_add

end ExclusiveOr

open Polynomial

namespace Interpolation

variable {F ι : Type*} [Field F] [DecidableEq ι] {node value : ι → F} {all points : Finset ι} {target secret : F}
  {threshold : Nat}

omit [DecidableEq ι] in
theorem eq_of_agree {first second : F[X]} (injective : Set.InjOn node points) (apart : ∀ i ∈ points, node i ≠ target)
    (card : points.card + 1 = threshold) (degreeFirst : first.degree < threshold)
    (degreeSecond : second.degree < threshold) (agree : ∀ i ∈ points, first.eval (node i) = second.eval (node i))
    (agreeTarget : first.eval target = second.eval target) : first = second := by
  classical
  have size : (insert target (points.image node)).card = threshold := by
    have absent : target ∉ points.image node := by
      intro member
      obtain ⟨i, listed, same⟩ := Finset.mem_image.mp member
      exact apart i listed same
    rw [Finset.card_insert_of_notMem absent, Finset.card_image_of_injOn injective, card]
  refine Polynomial.eq_of_degrees_lt_of_eval_finset_eq (insert target (points.image node)) ?_ ?_ fun x member => ?_
  · rw [size]
    exact degreeFirst
  · rw [size]
    exact degreeSecond
  · rcases Finset.mem_insert.mp member with rfl | member
    · exact agreeTarget
    · obtain ⟨i, listed, rfl⟩ := Finset.mem_image.mp member
      exact agree i listed

theorem interpolate_iff (injective : Set.InjOn node all) (apart : ∀ i ∈ all, node i ≠ target)
    (positive : 0 < threshold) :
    (∀ points ⊆ all, points.card = threshold → (Lagrange.interpolate points node value).eval target = secret) ↔
      (threshold ≤ all.card → ∃ polynomial : F[X], polynomial.degree < threshold ∧ polynomial.eval target = secret ∧
        ∀ i ∈ all, polynomial.eval (node i) = value i) := by
  constructor
  · intro every enough
    obtain ⟨points, inside, card⟩ := Finset.exists_subset_card_eq enough
    have below : ∀ chosen ⊆ all, chosen.card = threshold →
        (Lagrange.interpolate chosen node value).degree < threshold := fun chosen within size => by
      rw [← size]
      exact Lagrange.degree_interpolate_lt value (injective.mono within)
    refine ⟨_, below points inside card, every points inside card, fun i member => ?_⟩
    by_cases listed : i ∈ points
    · exact Lagrange.eval_interpolate_at_node value (injective.mono inside) listed
    -- another point takes the place of one that was chosen, and the polynomial stays the same
    obtain ⟨other, isOther⟩ := Finset.card_pos.mp (card ▸ positive)
    have rest : points.erase other ⊆ all := (Finset.erase_subset other points).trans inside
    have fresh : i ∉ points.erase other := fun kept => listed (Finset.mem_of_mem_erase kept)
    have within : insert i (points.erase other) ⊆ all := Finset.insert_subset member rest
    have size : (insert i (points.erase other)).card = threshold := by
      rw [Finset.card_insert_of_notMem fresh, Finset.card_erase_of_mem isOther, card]
      omega
    have same : Lagrange.interpolate points node value =
        Lagrange.interpolate (insert i (points.erase other)) node value := by
      refine eq_of_agree (injective.mono rest) (fun j kept => apart j (rest kept)) ?_ (below points inside card)
        (below _ within size) (fun j kept => ?_) ((every points inside card).trans (every _ within size).symm)
      · rw [Finset.card_erase_of_mem isOther, card]
        omega
      · rw [Lagrange.eval_interpolate_at_node value (injective.mono inside) (Finset.mem_of_mem_erase kept),
          Lagrange.eval_interpolate_at_node value (injective.mono within) (Finset.mem_insert_of_mem kept)]
    rw [same]
    exact Lagrange.eval_interpolate_at_node value (injective.mono within) (Finset.mem_insert_self i _)
  · intro lies points inside card
    obtain ⟨polynomial, degree, atTarget, values⟩ := lies (card ▸ Finset.card_le_card inside)
    rw [← atTarget, ← Lagrange.eq_interpolate_of_eval_eq value (injective.mono inside) (card ▸ degree)
      fun i member => values i (inside member)]

end Interpolation
