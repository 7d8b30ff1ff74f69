import AdicCore.Library.Elimination

open Submodule Elimination

namespace Homology

variable {ι K : Type} [Field K]

noncomputable def column (boundary : (ι →₀ K) →ₗ[K] ι →₀ K) (s : ι) : ι →₀ K :=
  boundary (Finsupp.single s 1)

/-- Finitely many graded cells, each with a boundary among the cells one grade below. -/
structure ChainComplex (cells : Finset ι) (grade : ι → ℕ) (boundary : (ι →₀ K) →ₗ[K] ι →₀ K) : Prop where
  inside : ∀ s ∈ cells, ∀ x, column boundary s x ≠ 0 → x ∈ cells
  lowers : ∀ s ∈ cells, ∀ x, column boundary s x ≠ 0 → grade x + 1 = grade s
  twice : ∀ s ∈ cells, boundary (column boundary s) = 0

noncomputable def chains (cells : Finset ι) (grade : ι → ℕ) (k : ℕ) : Submodule K (ι →₀ K) :=
  Finsupp.supported K K {s | s ∈ cells ∧ grade s = k}

noncomputable def boundaryOn (cells : Finset ι) (grade : ι → ℕ) (boundary : (ι →₀ K) →ₗ[K] ι →₀ K) (k : ℕ) :
    chains (K := K) cells grade k →ₗ[K] ι →₀ K :=
  boundary.domRestrict (chains cells grade k)

noncomputable def betti (cells : Finset ι) (grade : ι → ℕ) (boundary : (ι →₀ K) →ₗ[K] ι →₀ K) (k : ℕ) : ℤ :=
  Module.finrank K (LinearMap.ker (boundaryOn cells grade boundary k)) -
    Module.finrank K (LinearMap.range (boundaryOn cells grade boundary (k + 1)))

section

variable {cells : Finset ι} {grade : ι → ℕ} {boundary : (ι →₀ K) →ₗ[K] ι →₀ K}

instance (k : ℕ) : FiniteDimensional K (chains (K := K) cells grade k) := by
  have finite : Finite {s | s ∈ cells ∧ grade s = k} :=
    Set.Finite.subset cells.finite_toSet fun _ member => member.1
  exact Module.Finite.equiv (Finsupp.supportedEquivFinsupp {s | s ∈ cells ∧ grade s = k}).symm

theorem finrank_chains (k : ℕ) :
    Module.finrank K (chains (K := K) cells grade k) = (cells.filter fun s => grade s = k).card := by
  have asSet : {s | s ∈ cells ∧ grade s = k} = ↑(cells.filter fun s => grade s = k) := by
    ext s
    simp
  rw [chains, asSet]
  rw [LinearEquiv.finrank_eq (Finsupp.supportedEquivFinsupp (R := K) (M := K) _)]
  rw [Module.finrank_finsupp_self]
  exact Fintype.card_coe _

theorem range_boundaryOn (k : ℕ) :
    LinearMap.range (boundaryOn cells grade boundary k) =
      span K (column boundary '' {s | s ∈ cells ∧ grade s = k}) := by
  rw [boundaryOn, LinearMap.range_domRestrict, chains, Finsupp.supported_eq_span_single, map_span, Set.image_image]
  rfl

theorem finrank_range_boundaryOn (k : ℕ) :
    Module.finrank K (LinearMap.range (boundaryOn cells grade boundary k)) =
      restrictedRank (column boundary) {s | s ∈ cells ∧ grade s = k} Set.univ := by
  have injective : Function.Injective (Finsupp.lsubtypeDomain (M := K) (R := K) (Set.univ : Set ι)) := by
    intro f g same
    ext x
    exact DFunLike.congr_fun same ⟨x, trivial⟩
  rw [restrictedRank_eq, range_boundaryOn]
  exact (Submodule.equivMapOfInjective _ injective _).finrank_eq

end

def deaths (cells : Finset ι) (grade : ι → ℕ) (lead : ι → Option ι) (k : ℕ) : Finset ι :=
  cells.filter fun s => grade s = k ∧ (lead s).isSome

def births [DecidableEq ι] (cells : Finset ι) (grade : ι → ℕ) (lead : ι → Option ι) (k : ℕ) : Finset ι :=
  cells.filter fun s => grade s = k ∧ ∃ t ∈ cells, lead t = some s

def unpaired [DecidableEq ι] (cells : Finset ι) (grade : ι → ℕ) (lead : ι → Option ι) (k : ℕ) : Finset ι :=
  cells.filter fun s => grade s = k ∧ lead s = none ∧ ∀ t ∈ cells, lead t ≠ some s

section

variable {cells : Finset ι} {pos grade : ι → ℕ} {boundary : (ι →₀ K) →ₗ[K] ι →₀ K} {reduced : ι → ι →₀ K}
  {lead : ι → Option ι}

theorem closed_grade (k : ℕ) : Closed cells pos grade {s | s ∈ cells ∧ grade s = k} := by
  refine ⟨fun s member => member.1, ?_⟩
  rintro s ⟨_, gradeS⟩ t inside _ same
  exact ⟨inside, same.trans gradeS⟩

theorem closed_before (bound : ℕ) : Closed cells pos grade {s | s ∈ cells ∧ pos s < bound} := by
  refine ⟨fun s member => member.1, ?_⟩
  rintro s ⟨_, below⟩ t inside before _
  exact ⟨inside, before.trans below⟩

section

variable (complex : ChainComplex cells grade boundary)
  (reduction : Reduction cells pos grade (column boundary) reduced lead)

include complex reduction

theorem reduced_lowers {s x : ι} (member : s ∈ cells) (occurs : reduced s x ≠ 0) : grade x + 1 = grade s := by
  have columns : span K (column boundary '' {t | t ∈ cells ∧ grade t = grade s}) ≤
      Finsupp.supported K K {x | grade x + 1 = grade s} := by
    rw [span_le]
    rintro _ ⟨t, ⟨inside, sameGrade⟩, rfl⟩
    exact (Finsupp.mem_supported' K _).mpr fun y outside => by
      by_contra occurs
      exact outside ((complex.lowers t inside y occurs).trans sameGrade)
  have supported := columns (reduction.reduced_mem_span (closed_grade (grade s)) ⟨member, rfl⟩)
  by_contra different
  exact occurs ((Finsupp.mem_supported' K _).mp supported x different)

theorem lead_grade {s x : ι} (found : lead s = some x) : grade x + 1 = grade s :=
  reduced_lowers complex reduction (reduction.defined s x found) (reduction.leads s x found).occurs

theorem boundary_reduced {s : ι} (member : s ∈ cells) : boundary (reduced s) = 0 := by
  have columns : span K (column boundary '' cells) ≤ LinearMap.ker boundary := by
    rw [span_le]
    rintro _ ⟨t, inside, rfl⟩
    exact complex.twice t inside
  have closed : Closed cells pos grade (cells : Set ι) := ⟨fun _ inside => inside, fun _ _ t inside _ _ => inside⟩
  exact columns (reduction.reduced_mem_span closed member)

/-- The lead of a reduced column has a boundary spanned by earlier ones. -/
theorem column_lead_mem_span {s x : ι} (found : lead s = some x) :
    column boundary x ∈ span K (column boundary '' {t | t ∈ cells ∧ pos t < pos x}) := by
  classical
  have member : s ∈ cells := reduction.defined s x found
  have leads := reduction.leads s x found
  let rest := reduced s - Finsupp.single x (reduced s x)
  have rest_supported : rest ∈ Finsupp.supported K K {t | t ∈ cells ∧ pos t < pos x} := by
    rw [Finsupp.mem_supported']
    intro y outside
    by_cases same : y = x
    · subst same
      simp [rest]
    · have value : rest y = reduced s y := by simp [rest, Finsupp.single_eq_of_ne same]
      rw [value]
      by_contra occurs
      apply outside
      refine ⟨?_, leads.top y occurs same⟩
      by_contra foreign
      exact occurs ((Finsupp.mem_supported' K _).mp (reduction.reduced_inside member) y foreign)
  have boundary_rest : boundary rest ∈ span K (column boundary '' {t | t ∈ cells ∧ pos t < pos x}) := by
    rw [Finsupp.supported_eq_span_single] at rest_supported
    have mapped := Submodule.mem_map_of_mem (f := boundary) rest_supported
    rw [map_span, Set.image_image] at mapped
    exact mapped
  have cycle := boundary_reduced complex reduction member
  have split : reduced s = rest + reduced s x • Finsupp.single x 1 := by
    simp [rest]
  rw [split, map_add, map_smul] at cycle
  have scaled : column boundary x = -(reduced s x)⁻¹ • boundary rest := by
    have solved : reduced s x • column boundary x = -boundary rest := (neg_eq_of_add_eq_zero_right cycle).symm
    rw [neg_smul, ← smul_neg, ← solved, smul_smul, inv_mul_cancel₀ leads.occurs, one_smul]
  rw [scaled]
  exact smul_mem _ _ boundary_rest

theorem lead_lead_eq_none {s x : ι} (found : lead s = some x) : lead x = none := by
  by_contra present
  obtain ⟨y, dies⟩ := Option.ne_none_iff_exists'.mp present
  have inside : x ∈ cells := reduction.lead_inside found
  let earlier : Set ι := {t | t ∈ cells ∧ pos t < pos x}
  have closed : Closed cells pos grade earlier := closed_before (pos x)
  have reduced_span : reduced x ∈ span K (reduced '' earlier) := by
    have change : reduced x - column boundary x ∈ span K (column boundary '' earlier) := by
      apply span_mono (Set.image_mono ?_) (reduction.combined x inside)
      rintro t ⟨tInside, before, _⟩
      exact ⟨tInside, before⟩
    have own := column_lead_mem_span complex reduction found
    rw [reduction.span_eq closed]
    have split : reduced x = (reduced x - column boundary x) + column boundary x := by abel
    rw [split]
    exact add_mem change own
  let dying : Set ι := {t | t ∈ cells ∧ (lead t).isSome}
  let leadOf (t : dying) : ι := (lead t).get t.2.2
  have leadOf_eq (t : dying) : lead t = some (leadOf t) := (Option.some_get t.2.2).symm
  have independent : LinearIndependent K fun t : dying => reduced t := by
    refine @linearIndependent_of_leads _ _ _ _ pos _ leadOf ?_ ?_
    · intro t
      exact reduction.leads t _ (leadOf_eq t)
    · intro t u same
      apply Subtype.ext
      exact reduction.distinct t u (leadOf t) (leadOf_eq t) (by rw [same]; exact leadOf_eq u)
  have xDies : x ∈ dying := ⟨inside, by rw [dies]; rfl⟩
  let before : Set dying := {t | pos t < pos x}
  have outside : (⟨x, xDies⟩ : dying) ∉ before := fun impossible => Nat.lt_irrefl _ impossible
  have not_spanned := independent.notMem_span_image outside
  apply not_spanned
  apply span_le.mpr ?_ reduced_span
  rintro _ ⟨t, ⟨tInside, tBefore⟩, rfl⟩
  cases tLead : lead t with
  | none =>
    rw [reduction.finished t tInside tLead]
    exact zero_mem _
  | some z => exact subset_span ⟨⟨t, tInside, by rw [tLead]; rfl⟩, tBefore, rfl⟩

end

variable [DecidableEq ι]

theorem births_eq_leads (complex : ChainComplex cells grade boundary)
    (reduction : Reduction cells pos grade (column boundary) reduced lead) (k : ℕ) :
    (births cells grade lead k).val = (deaths cells grade lead (k + 1)).val.filterMap lead := by
  have nodup : ((deaths cells grade lead (k + 1)).val.filterMap lead).Nodup := by
    apply Multiset.Nodup.filterMap
    · intro s t x sFound tFound
      exact reduction.distinct s t x sFound tFound
    · exact (deaths cells grade lead (k + 1)).nodup
  apply (Multiset.Nodup.ext (births cells grade lead k).nodup nodup).mpr
  intro x
  simp only [Finset.mem_val, births, deaths, Finset.mem_filter, Multiset.mem_filterMap]
  constructor
  · rintro ⟨_, gradeX, s, member, found⟩
    have raised := lead_grade complex reduction found
    exact ⟨s, ⟨member, by omega, by rw [found]; rfl⟩, found⟩
  · rintro ⟨s, ⟨member, gradeS, _⟩, found⟩
    have raised := lead_grade complex reduction found
    exact ⟨reduction.lead_inside found, by omega, s, member, found⟩

omit [DecidableEq ι] in
theorem card_filterMap_of_isSome {α : Type} (f : ι → Option α) (items : Multiset ι)
    (defined : ∀ s ∈ items, (f s).isSome) : (items.filterMap f).card = items.card := by
  induction items using Multiset.induction with
  | empty => rfl
  | cons s rest ih =>
    obtain ⟨x, found⟩ := Option.isSome_iff_exists.mp (defined s (Multiset.mem_cons_self s rest))
    rw [Multiset.filterMap_cons_some f s rest found, Multiset.card_cons, Multiset.card_cons]
    rw [ih fun t member => defined t (Multiset.mem_cons_of_mem member)]

theorem union_val_of_disjoint {s t : Finset ι} (apart : Disjoint s t) : (s ∪ t).val = s.val + t.val := by
  rw [← Finset.disjUnion_eq_union s t apart]
  rfl

theorem cells_eq_deaths_births_unpaired (complex : ChainComplex cells grade boundary)
    (reduction : Reduction cells pos grade (column boundary) reduced lead) (k : ℕ) :
    (cells.filter fun s => grade s = k).val =
      (deaths cells grade lead k).val + (births cells grade lead k).val + (unpaired cells grade lead k).val := by
  have apart : Disjoint (deaths cells grade lead k) (births cells grade lead k) := by
    rw [Finset.disjoint_left]
    intro s death birth
    obtain ⟨_, _, dies⟩ := Finset.mem_filter.mp death
    obtain ⟨_, _, t, _, found⟩ := Finset.mem_filter.mp birth
    rw [lead_lead_eq_none complex reduction found] at dies
    exact absurd dies Bool.false_ne_true
  have left : Disjoint (deaths cells grade lead k ∪ births cells grade lead k) (unpaired cells grade lead k) := by
    rw [Finset.disjoint_left]
    intro s paired free
    obtain ⟨_, _, alive, unborn⟩ := Finset.mem_filter.mp free
    rcases Finset.mem_union.mp paired with death | birth
    · obtain ⟨_, _, dies⟩ := Finset.mem_filter.mp death
      rw [alive] at dies
      exact absurd dies Bool.false_ne_true
    · obtain ⟨_, _, t, member, found⟩ := Finset.mem_filter.mp birth
      exact unborn t member found
  have cover : cells.filter (fun s => grade s = k) =
      deaths cells grade lead k ∪ births cells grade lead k ∪ unpaired cells grade lead k := by
    ext s
    simp only [deaths, births, unpaired, Finset.mem_union, Finset.mem_filter]
    constructor
    · rintro ⟨member, gradeS⟩
      cases alive : lead s with
      | some x => exact .inl (.inl ⟨member, gradeS, rfl⟩)
      | none =>
        by_cases born : ∃ t ∈ cells, lead t = some s
        · exact .inl (.inr ⟨member, gradeS, born⟩)
        · refine .inr ⟨member, gradeS, rfl, ?_⟩
          intro t tMember found
          exact born ⟨t, tMember, found⟩
    · rintro ((⟨member, gradeS, _⟩ | ⟨member, gradeS, _⟩) | ⟨member, gradeS, _⟩) <;> exact ⟨member, gradeS⟩
  rw [cover, union_val_of_disjoint left, union_val_of_disjoint apart]

omit [DecidableEq ι] in
theorem card_deaths (reduction : Reduction cells pos grade (column boundary) reduced lead) (k : ℕ) :
    (deaths cells grade lead k).card = Module.finrank K (LinearMap.range (boundaryOn cells grade boundary k)) := by
  classical
  have asSet : {s | s ∈ cells ∧ grade s = k} = ↑(cells.filter fun s => grade s = k) := by
    ext s
    simp
  have closed : Closed cells pos grade {s | s ∈ cells ∧ grade s = k} := closed_grade k
  rw [asSet] at closed
  rw [finrank_range_boundaryOn, asSet, ← reduction.card_leads_eq_restrictedRank _ closed Set.univ (by simp)]
  congr 1
  ext s
  simp [deaths, Option.isSome_iff_exists, and_assoc]

section

variable (complex : ChainComplex cells grade boundary)
  (reduction : Reduction cells pos grade (column boundary) reduced lead) (k : ℕ)

include complex reduction k

theorem card_births : (births cells grade lead k).card = (deaths cells grade lead (k + 1)).card := by
  have leads := births_eq_leads complex reduction k
  rw [Finset.card_def, leads, Finset.card_def]
  apply card_filterMap_of_isSome
  intro s death
  exact (Finset.mem_filter.mp death).2.2

theorem card_unpaired : ((unpaired cells grade lead k).card : ℤ) = betti cells grade boundary k := by
  have nullity := LinearMap.finrank_range_add_finrank_ker (K := K) (V := chains (K := K) cells grade k)
    (boundaryOn cells grade boundary k)
  have total := congrArg Multiset.card (cells_eq_deaths_births_unpaired complex reduction k)
  rw [Multiset.card_add, Multiset.card_add] at total
  have dying := card_deaths reduction k
  have dyingAbove := card_deaths reduction (k + 1)
  have born := card_births complex reduction k
  have size : Module.finrank K (chains cells grade k) = _ := finrank_chains k
  rw [betti]
  simp only [Finset.card_val] at total
  omega

end

end

end Homology
