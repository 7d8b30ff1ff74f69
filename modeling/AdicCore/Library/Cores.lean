import Mathlib

namespace Cores

variable {α : Type} {weight weight' : α → α → Nat} {k : Nat} {nodes nodes' core core' : Finset α}

def Stable (weight : α → α → Nat) (k : Nat) (part : Finset α) : Prop := ∀ node ∈ part, k ≤ ∑ other ∈ part, weight node other

structure IsCore (weight : α → α → Nat) (k : Nat) (nodes core : Finset α) : Prop where
  inside : core ⊆ nodes
  stable : Stable weight k core
  greatest : ∀ part ⊆ nodes, Stable weight k part → part ⊆ core

theorem IsCore.unique (first : IsCore weight k nodes core) (second : IsCore weight k nodes core') : core = core' :=
  (second.greatest core first.inside first.stable).antisymm (first.greatest core' second.inside second.stable)

theorem IsCore.mono (isCore : IsCore weight k nodes core) (isCore' : IsCore weight' k nodes' core')
    (more : nodes ⊆ nodes') (heavier : ∀ node other, weight node other ≤ weight' node other) : core ⊆ core' := by
  refine isCore'.greatest core (isCore.inside.trans more) fun node member => ?_
  exact (isCore.stable node member).trans (Finset.sum_le_sum fun other _ => heavier node other)

structure Peeled (weight : α → α → Nat) (k : Nat) (nodes left : Finset α) : Prop where
  inside : left ⊆ nodes
  contains : ∀ part ⊆ nodes, Stable weight k part → part ⊆ left

theorem Peeled.all : Peeled weight k nodes nodes := ⟨Finset.Subset.refl _, fun _ inside _ => inside⟩

theorem Peeled.sdiff [DecidableEq α] {left removed : Finset α} (peeled : Peeled weight k nodes left)
    (low : ∀ node ∈ removed, ∑ other ∈ left, weight node other < k) : Peeled weight k nodes (left \ removed) where
  inside := Finset.sdiff_subset.trans peeled.inside
  contains := by
    intro part inside stable node member
    have within := peeled.contains part inside stable
    refine Finset.mem_sdiff.mpr ⟨within member, fun taken => ?_⟩
    have more : ∑ other ∈ part, weight node other ≤ ∑ other ∈ left, weight node other :=
      Finset.sum_le_sum_of_subset within
    have enough := stable node member
    have few := low node taken
    omega

theorem Peeled.isCore (peeled : Peeled weight k nodes core) (stable : Stable weight k core) :
    IsCore weight k nodes core := ⟨peeled.inside, stable, peeled.contains⟩

theorem sum_count [DecidableEq α] (list : List α) (part : Finset α) :
    ∑ node ∈ part, list.count node = (list.filter fun node => node ∈ part).length := by
  induction list with
  | nil => simp
  | cons first rest ih =>
    simp only [List.count_cons, Finset.sum_add_distrib, ih, beq_iff_eq, Finset.sum_ite_eq]
    by_cases member : first ∈ part
    · simp [member]
    · simp [member]

end Cores
