import AdicCore.Library.Homology

open Homology

namespace Simplicial

variable {V : Type} [DecidableEq V]

def dimension (s : Finset V) : ℕ := s.card - 1

/-- The sum of the faces of codimension one over the field with two elements. A vertex has no faces. -/
noncomputable def faceSum (s : Finset V) : Finset V →₀ ZMod 2 :=
  if s.card ≤ 1 then 0 else ∑ v ∈ s, Finsupp.single (s.erase v) 1

noncomputable def boundary : (Finset V →₀ ZMod 2) →ₗ[ZMod 2] Finset V →₀ ZMod 2 :=
  Finsupp.linearCombination (ZMod 2) faceSum

theorem column_boundary (s : Finset V) : column boundary s = faceSum s := by
  rw [column, boundary, Finsupp.linearCombination_single, one_smul]

theorem faceSum_apply_ne_zero {s t : Finset V} (occurs : faceSum s t ≠ 0) :
    1 < s.card ∧ ∃ v ∈ s, t = s.erase v := by
  rw [faceSum] at occurs
  split at occurs
  · exact absurd rfl occurs
  · next large =>
    refine ⟨by omega, ?_⟩
    by_contra absent
    apply occurs
    rw [Finsupp.finsetSum_apply]
    apply Finset.sum_eq_zero
    intro v member
    rw [Finsupp.single_apply, if_neg]
    intro same
    exact absent ⟨v, member, same.symm⟩

theorem boundary_faceSum (s : Finset V) : boundary (faceSum s) = 0 := by
  rw [faceSum]
  split
  · exact map_zero _
  · next large =>
    rw [map_sum]
    have single (v : V) : boundary (Finsupp.single (s.erase v) 1) = faceSum (s.erase v) :=
      column_boundary (s.erase v)
    simp only [single]
    by_cases edge : s.card = 2
    · apply Finset.sum_eq_zero
      intro v member
      rw [faceSum, if_pos]
      rw [Finset.card_erase_of_mem member]
      omega
    · have nested : ∀ v ∈ s, faceSum (s.erase v) =
          ∑ w ∈ s.erase v, Finsupp.single ((s.erase v).erase w) (1 : ZMod 2) := by
        intro v member
        rw [faceSum, if_neg]
        rw [Finset.card_erase_of_mem member]
        omega
      rw [Finset.sum_congr rfl nested, Finset.sum_sigma']
      apply Finset.sum_involution fun pair _ => ⟨pair.2, pair.1⟩
      · rintro ⟨v, w⟩ _
        rw [Finset.erase_right_comm, ← Finsupp.single_add, CharTwo.add_self_eq_zero, Finsupp.single_zero]
      · rintro ⟨v, w⟩ member _ same
        obtain ⟨_, inner⟩ := Finset.mem_sigma.mp member
        obtain ⟨different, _⟩ := Finset.mem_erase.mp inner
        exact different (congrArg Sigma.fst same)
      · rintro ⟨v, w⟩ _
        rfl
      · rintro ⟨v, w⟩ member
        obtain ⟨outer, inner⟩ := Finset.mem_sigma.mp member
        obtain ⟨different, wMember⟩ := Finset.mem_erase.mp inner
        exact Finset.mem_sigma.mpr ⟨wMember, Finset.mem_erase.mpr ⟨different.symm, outer⟩⟩

structure FaceClosed (cells : Finset (Finset V)) : Prop where
  nonempty : ∀ s ∈ cells, s.Nonempty
  closed : ∀ s ∈ cells, ∀ v ∈ s, (s.erase v).Nonempty → s.erase v ∈ cells

theorem FaceClosed.union {cells more : Finset (Finset V)} (faceClosed : FaceClosed cells)
    (faceClosed' : FaceClosed more) : FaceClosed (cells ∪ more) := by
  refine ⟨?_, ?_⟩
  · intro s inside
    rcases Finset.mem_union.mp inside with old | new
    · exact faceClosed.nonempty s old
    · exact faceClosed'.nonempty s new
  · intro s inside v member nonempty
    rcases Finset.mem_union.mp inside with old | new
    · exact Finset.mem_union_left _ (faceClosed.closed s old v member nonempty)
    · exact Finset.mem_union_right _ (faceClosed'.closed s new v member nonempty)

theorem FaceClosed.chainComplex {cells : Finset (Finset V)} (faceClosed : FaceClosed cells) :
    ChainComplex cells dimension (boundary (V := V)) := by
  refine ⟨?_, ?_, ?_⟩
  · intro s inside x occurs
    rw [column_boundary] at occurs
    obtain ⟨large, v, member, rfl⟩ := faceSum_apply_ne_zero occurs
    apply faceClosed.closed s inside v member
    rw [← Finset.card_pos, Finset.card_erase_of_mem member]
    omega
  · intro s inside x occurs
    rw [column_boundary] at occurs
    obtain ⟨large, v, member, rfl⟩ := faceSum_apply_ne_zero occurs
    rw [dimension, dimension, Finset.card_erase_of_mem member]
    omega
  · intro s _
    rw [column_boundary, boundary_faceSum]

end Simplicial

open Submodule Elimination Homology

namespace Simplicial

section

variable {ι K : Type} [Field K] [DecidableEq ι]

theorem card_le_mul_finrank_span {columns : Set (ι →₀ K)} (finite : columns.Finite) {size : ℕ}
    (small : ∀ c ∈ columns, c.support.card ≤ size) {rows : Finset ι}
    (covered : ∀ x ∈ rows, ∃ c ∈ columns, c x ≠ 0) :
    rows.card ≤ Module.finrank K (span K columns) * size := by
  obtain ⟨basis, chosen, sameSpan, independent⟩ := exists_linearIndependent K columns
  have basisFinite : basis.Finite := finite.subset chosen
  have : Fintype basis := basisFinite.fintype
  rw [← sameSpan, finrank_span_set_eq_card independent]
  have inside : rows ⊆ basis.toFinset.biUnion fun c => c.support := by
    intro x member
    obtain ⟨c, cMember, occurs⟩ := covered x member
    by_contra uncovered
    have zero : span K basis ≤ LinearMap.ker (Finsupp.lapply (R := K) x : (ι →₀ K) →ₗ[K] K) := by
      rw [span_le]
      intro b bMember
      rw [SetLike.mem_coe, LinearMap.mem_ker, Finsupp.lapply_apply]
      by_contra bOccurs
      apply uncovered
      exact Finset.mem_biUnion.mpr ⟨b, Set.mem_toFinset.mpr bMember, Finsupp.mem_support_iff.mpr bOccurs⟩
    rw [sameSpan] at zero
    have vanishes := LinearMap.mem_ker.mp (zero (subset_span cMember))
    rw [Finsupp.lapply_apply] at vanishes
    exact occurs vanishes
  apply (Finset.card_le_card inside).trans
  apply Finset.card_biUnion_le_card_mul
  intro c member
  exact small c (chosen (Set.mem_toFinset.mp member))

end

variable {V : Type} [DecidableEq V]

noncomputable def augmentation : (Finset V →₀ ZMod 2) →ₗ[ZMod 2] ZMod 2 :=
  Finsupp.linearCombination (ZMod 2) fun _ => 1

theorem augmentation_edge {s : Finset V} (edge : dimension s = 1) : augmentation (faceSum s) = 0 := by
  have size : s.card = 2 := by
    rw [dimension] at edge
    omega
  rw [faceSum, if_neg (by omega), map_sum]
  simp only [augmentation, Finsupp.linearCombination_single, smul_eq_mul, mul_one, Finset.sum_const, size]
  rfl

theorem faceSum_erase {s : Finset V} (large : 1 < s.card) {v : V} (member : v ∈ s) : faceSum s (s.erase v) = 1 := by
  rw [faceSum, if_neg (by omega), Finsupp.finsetSum_apply, Finset.sum_eq_single v]
  · exact Finsupp.single_eq_same
  · intro w wMember different
    apply Finsupp.single_eq_of_ne
    intro same
    exact different (Finset.erase_injOn s member wMember same).symm
  · intro absent
    exact absurd member absent

theorem card_support_faceSum (s : Finset V) : (faceSum s).support.card ≤ s.card := by
  have inside : (faceSum s).support ⊆ s.image fun v => s.erase v := by
    intro x member
    obtain ⟨_, v, vMember, rfl⟩ := faceSum_apply_ne_zero (Finsupp.mem_support_iff.mp member)
    exact Finset.mem_image_of_mem _ vMember
  exact (Finset.card_le_card inside).trans Finset.card_image_le

section

variable {cells : Finset (Finset V)} {pos : Finset V → ℕ} {reduced : Finset V → Finset V →₀ ZMod 2}
  {lead : Finset V → Option (Finset V)}

def vertices (cells : Finset (Finset V)) : Finset (Finset V) := cells.filter fun s => dimension s = 0

section

variable (complex : ChainComplex cells dimension (boundary (V := V)))
  (reduction : Reduction cells pos dimension (column boundary) reduced lead)

include complex reduction

theorem lead_vertex {s : Finset V} (vertex : dimension s = 0) : lead s = none := by
  by_contra present
  obtain ⟨x, found⟩ := Option.ne_none_iff_exists'.mp present
  have raised := lead_grade complex reduction found
  omega

theorem card_vertices :
    (vertices cells).card = (births cells dimension lead 0).card + (unpaired cells dimension lead 0).card := by
  have noDeaths : deaths cells dimension lead 0 = ∅ := by
    apply Finset.filter_eq_empty_iff.mpr
    rintro s _ ⟨vertex, dies⟩
    rw [lead_vertex complex reduction vertex] at dies
    cases dies
  have total := congrArg Multiset.card (cells_eq_deaths_births_unpaired complex reduction 0)
  rw [Multiset.card_add, Multiset.card_add, noDeaths] at total
  simp only [Finset.card_val, Finset.card_empty, zero_add] at total
  exact total

end

theorem births_subset_vertices : births cells dimension lead 0 ⊆ vertices cells := by
  intro s birth
  obtain ⟨member, vertex, _⟩ := Finset.mem_filter.mp birth
  exact Finset.mem_filter.mpr ⟨member, vertex⟩

section

variable (complex : ChainComplex cells dimension (boundary (V := V)))
  (reduction : Reduction cells pos dimension (column boundary) reduced lead)

include complex reduction

theorem card_births_lt_vertices (inhabited : (vertices cells).Nonempty) :
    (births cells dimension lead 0).card < (vertices cells).card := by
  obtain ⟨first, firstMember, earliest⟩ := (vertices cells).exists_min_image pos inhabited
  apply Finset.card_lt_card
  refine ⟨births_subset_vertices, ?_⟩
  · intro all
    obtain ⟨_, _, edge, edgeMember, found⟩ := Finset.mem_filter.mp (all firstMember)
    have firstVertex := (Finset.mem_filter.mp firstMember).2
    have raised := lead_grade complex reduction found
    have leads := reduction.leads edge first found
    have columns : span (ZMod 2) (column boundary '' {t | t ∈ cells ∧ dimension t = dimension edge}) ≤
        LinearMap.ker (augmentation (V := V)) := by
      rw [span_le]
      rintro _ ⟨t, ⟨_, sameDimension⟩, rfl⟩
      rw [column_boundary, SetLike.mem_coe, LinearMap.mem_ker]
      exact augmentation_edge (by omega)
    have even := LinearMap.mem_ker.mp
      (columns (reduction.reduced_mem_span (closed_grade (dimension edge)) ⟨edgeMember, rfl⟩))
    have single : reduced edge = Finsupp.single first (reduced edge first) := by
      ext x
      by_cases same : x = first
      · rw [same, Finsupp.single_eq_same]
      · rw [Finsupp.single_eq_of_ne same]
        by_contra occurs
        have before := leads.top x occurs same
        have xVertex : x ∈ vertices cells := by
          refine Finset.mem_filter.mpr ⟨?_, ?_⟩
          · by_contra foreign
            exact occurs ((Finsupp.mem_supported' (ZMod 2) _).mp (reduction.reduced_inside edgeMember) x foreign)
          · have lowered := reduced_lowers complex reduction edgeMember occurs
            omega
        exact absurd (earliest x xVertex) (not_le.mpr before)
    rw [single, augmentation, Finsupp.linearCombination_single, smul_eq_mul, mul_one] at even
    exact leads.occurs even

theorem card_vertices_le (covered : ∀ x ∈ vertices cells, ∃ s ∈ cells, dimension s = 1 ∧ faceSum s x ≠ 0) :
    (vertices cells).card ≤ (births cells dimension lead 0).card * 2 := by
  have finite : (column (boundary (V := V)) '' {s | s ∈ cells ∧ dimension s = 1}).Finite :=
    (cells.finite_toSet.subset fun _ member => member.1).image _
  rw [card_births complex reduction, card_deaths reduction, range_boundaryOn]
  apply card_le_mul_finrank_span finite
  · rintro _ ⟨s, ⟨_, edge⟩, rfl⟩
    rw [column_boundary]
    apply (card_support_faceSum s).trans
    rw [dimension] at edge
    omega
  · intro x member
    obtain ⟨s, inside, edge, occurs⟩ := covered x member
    refine ⟨column boundary s, ⟨s, ⟨inside, edge⟩, rfl⟩, ?_⟩
    rw [column_boundary]
    exact occurs

end

end

end Simplicial
