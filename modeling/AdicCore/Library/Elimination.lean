import Mathlib

open Submodule

namespace Elimination

variable {ι K : Type} [Field K]

/-- `x` is the leading coordinate of `v` when every other coordinate of `v` comes before it. -/
structure Leads (pos : ι → ℕ) (v : ι →₀ K) (x : ι) : Prop where
  occurs : v x ≠ 0
  top : ∀ y, v y ≠ 0 → y ≠ x → pos y < pos x

variable {v : ι →₀ K}

theorem Leads.restrict {pos : ι → ℕ} {x : ι} (leads : Leads pos v x) {rows : Set ι}
    (kept : x ∈ rows) :
    Leads (fun y : rows => pos y) (Finsupp.lsubtypeDomain (R := K) rows v) ⟨x, kept⟩ := by
  refine ⟨leads.occurs, ?_⟩
  intro y occurs different
  apply leads.top y occurs
  intro same
  exact different (Subtype.ext same)

theorem Leads.sub_later {pos : ι → ℕ} {v w : ι →₀ K} {x y : ι} (first : Leads pos v x) (second : Leads pos w y)
    (before : pos x < pos y) : Leads pos (v - w) y := by
  have below : ∀ z, v z ≠ 0 → pos z < pos y := by
    intro z occurs
    by_cases same : z = x
    · rw [same]
      exact before
    · exact (first.top z occurs same).trans before
  have zero : v y = 0 := by
    by_contra occurs
    exact Nat.lt_irrefl _ (below y occurs)
  constructor
  · rw [Finsupp.sub_apply, zero, zero_sub]
    exact neg_ne_zero.mpr second.occurs
  · intro z occurs different
    rw [Finsupp.sub_apply] at occurs
    by_cases absent : v z = 0
    · rw [absent, zero_sub] at occurs
      exact second.top z (neg_ne_zero.mp occurs) different
    · exact below z absent

theorem Leads.sub_earlier {pos : ι → ℕ} {v w : ι →₀ K} {x y : ι} (first : Leads pos v x) (second : Leads pos w y)
    (after : pos y < pos x) : Leads pos (v - w) x := by
  obtain ⟨occurs, top⟩ := second.sub_later first after
  rw [← neg_sub]
  constructor
  · rw [Finsupp.neg_apply]
    exact neg_ne_zero.mpr occurs
  · intro z present different
    rw [Finsupp.neg_apply] at present
    exact top z (neg_ne_zero.mp present) different

/-- A combination of vectors with different leading coordinates has a nonzero value at the last leading coordinate
    among its coefficients. -/
theorem linearIndependent_of_leads {σ : Type} {pos : ι → ℕ} {v : σ → ι →₀ K} {lead : σ → ι}
    (leads : ∀ s, Leads pos (v s) (lead s)) (distinct : Function.Injective lead) :
    LinearIndependent K v := by
  classical
  rw [linearIndependent_iff']
  intro chosen coefficient vanishes s member
  by_contra nonzero
  let used := chosen.filter fun t => coefficient t ≠ 0
  have inhabited : used.Nonempty := ⟨s, Finset.mem_filter.mpr ⟨member, nonzero⟩⟩
  obtain ⟨last, inUsed, greatest⟩ := used.exists_max_image (fun t => pos (lead t)) inhabited
  obtain ⟨inChosen, coefficient_ne⟩ := Finset.mem_filter.mp inUsed
  have others : ∀ t ∈ chosen, t ≠ last → (coefficient t • v t) (lead last) = 0 := by
    intro t tChosen different
    rw [Finsupp.smul_apply, smul_eq_mul]
    by_contra product
    have tUsed : t ∈ used := Finset.mem_filter.mpr ⟨tChosen, left_ne_zero_of_mul product⟩
    have before := (leads t).top (lead last) (right_ne_zero_of_mul product)
      (fun same => different (distinct same.symm))
    exact absurd (greatest t tUsed) (not_le.mpr before)
  have evaluated : (∑ t ∈ chosen, coefficient t • v t) (lead last) = coefficient last * v last (lead last) := by
    rw [Finsupp.finsetSum_apply, Finset.sum_eq_single last others]
    · rw [Finsupp.smul_apply, smul_eq_mul]
    · intro absent
      exact absurd inChosen absent
  rw [vanishes, Finsupp.zero_apply] at evaluated
  exact mul_ne_zero coefficient_ne (leads last).occurs evaluated.symm

noncomputable def restrictedRank (column : ι → ι →₀ K) (columns rows : Set ι) : ℕ :=
  Set.finrank K (Finsupp.lsubtypeDomain (R := K) rows '' (column '' columns))

theorem restrictedRank_eq (column : ι → ι →₀ K) (columns rows : Set ι) :
    restrictedRank column columns rows =
      Module.finrank K ((span K (column '' columns)).map (Finsupp.lsubtypeDomain (R := K) rows)) := by
  rw [restrictedRank, Set.finrank, map_span]

def Closed (cells : Finset ι) (pos grade : ι → ℕ) (columns : Set ι) : Prop :=
  columns ⊆ cells ∧
    ∀ s ∈ columns, ∀ t ∈ cells, pos t < pos s → grade t = grade s → t ∈ columns

/-- Columns are changed by earlier ones of their grade, and the nonzero results have different leading coordinates. -/
structure Reduction (cells : Finset ι) (pos grade : ι → ℕ) (column reduced : ι → ι →₀ K)
    (lead : ι → Option ι) : Prop where
  inside : ∀ s ∈ cells, ∀ x, column s x ≠ 0 → x ∈ cells
  combined : ∀ s ∈ cells,
    reduced s - column s ∈ span K (column '' {t | t ∈ cells ∧ pos t < pos s ∧ grade t = grade s})
  finished : ∀ s ∈ cells, lead s = none → reduced s = 0
  defined : ∀ s x, lead s = some x → s ∈ cells
  leads : ∀ s x, lead s = some x → Leads pos (reduced s) x
  distinct : ∀ s t x, lead s = some x → lead t = some x → s = t

section

variable {cells : Finset ι} {pos grade : ι → ℕ} {column reduced : ι → ι →₀ K} {lead : ι → Option ι} {columns : Set ι}

section

variable (reduction : Reduction cells pos grade column reduced lead)

include reduction

theorem Reduction.reduced_mem_span (closed : Closed cells pos grade columns) {s : ι}
    (member : s ∈ columns) : reduced s ∈ span K (column '' columns) := by
  have earlier : span K (column '' {t | t ∈ cells ∧ pos t < pos s ∧ grade t = grade s}) ≤
      span K (column '' columns) := by
    apply span_mono
    apply Set.image_mono
    rintro t ⟨inside, before, sameGrade⟩
    exact closed.2 s member t inside before sameGrade
  have own : column s ∈ span K (column '' columns) := subset_span ⟨s, member, rfl⟩
  have change := earlier (reduction.combined s (closed.1 member))
  have split : reduced s = (reduced s - column s) + column s := by abel
  rw [split]
  exact add_mem change own

theorem Reduction.column_mem_span (closed : Closed cells pos grade columns) (bound : ℕ) :
    ∀ s ∈ columns, pos s < bound → column s ∈ span K (reduced '' columns) := by
  induction bound with
  | zero =>
    intro s _ impossible
    exact absurd impossible (Nat.not_lt_zero _)
  | succ bound ih =>
    intro s member below
    have earlier : span K (column '' {t | t ∈ cells ∧ pos t < pos s ∧ grade t = grade s}) ≤
        span K (reduced '' columns) := by
      rw [span_le]
      rintro _ ⟨t, ⟨inside, before, sameGrade⟩, rfl⟩
      exact ih t (closed.2 s member t inside before sameGrade) (by omega)
    have own : reduced s ∈ span K (reduced '' columns) := subset_span ⟨s, member, rfl⟩
    have change := earlier (reduction.combined s (closed.1 member))
    have split : column s = reduced s - (reduced s - column s) := by abel
    rw [split]
    exact sub_mem own change

theorem Reduction.span_eq (closed : Closed cells pos grade columns) :
    span K (reduced '' columns) = span K (column '' columns) := by
  apply le_antisymm
  · rw [span_le]
    rintro _ ⟨s, member, rfl⟩
    exact reduction.reduced_mem_span closed member
  · rw [span_le]
    rintro _ ⟨s, member, rfl⟩
    exact reduction.column_mem_span closed (pos s + 1) s member (Nat.lt_succ_self _)

theorem Reduction.reduced_inside {s : ι} (member : s ∈ cells) : reduced s ∈ Finsupp.supported K K (cells : Set ι) := by
  have columns : span K (column '' cells) ≤ Finsupp.supported K K (cells : Set ι) := by
    rw [span_le]
    rintro _ ⟨t, inside, rfl⟩
    exact (Finsupp.mem_supported' K _).mpr fun x outside => by
      by_contra occurs
      exact outside (reduction.inside t inside x occurs)
  have closed : Closed cells pos grade (cells : Set ι) := ⟨fun _ inside => inside, fun _ _ t inside _ _ => inside⟩
  exact columns (reduction.reduced_mem_span closed member)

theorem Reduction.lead_inside {s x : ι} (found : lead s = some x) : x ∈ cells := by
  have supported := reduction.reduced_inside (reduction.defined s x found)
  rw [Finsupp.mem_supported'] at supported
  by_contra outside
  exact (reduction.leads s x found).occurs (supported x outside)

/-- Rows that contain every later cell keep a column's leading coordinate or drop the whole column. -/
theorem Reduction.card_leads_eq_restrictedRank (columns : Finset ι) (closed : Closed cells pos grade columns)
    (rows : Set ι) [DecidablePred fun s => ∃ x ∈ rows, lead s = some x]
    (upper : ∀ x ∈ rows, ∀ y ∈ cells, pos x < pos y → y ∈ rows) :
    (columns.filter fun s => ∃ x ∈ rows, lead s = some x).card = restrictedRank column columns rows := by
  let leading := columns.filter fun s => ∃ x ∈ rows, lead s = some x
  have choose (s : leading) : ∃ x, x ∈ rows ∧ lead s = some x := (Finset.mem_filter.mp s.2).2
  let leadOf (s : leading) : rows := ⟨(choose s).choose, (choose s).choose_spec.1⟩
  have found (s : leading) : lead s = some (leadOf s : ι) := (choose s).choose_spec.2
  let restrict := Finsupp.lsubtypeDomain (M := K) (R := K) rows
  let kept (s : leading) : rows →₀ K := restrict (reduced s)
  have independent : LinearIndependent K kept := by
    refine @linearIndependent_of_leads _ _ _ _ (fun y : rows => pos y) _ leadOf ?_ ?_
    · intro s
      exact (reduction.leads s _ (found s)).restrict (leadOf s).2
    · intro s t same
      apply Subtype.ext
      apply reduction.distinct s t (leadOf s) (found s)
      rw [same]
      exact found t
  have dropped : ∀ s ∈ columns, s ∉ leading → restrict (reduced s) = 0 := by
    intro s member absent
    have inside : s ∈ cells := closed.1 member
    ext y
    change reduced s y = 0
    by_contra occurs
    have yCells : (y : ι) ∈ cells := by
      by_contra outside
      exact occurs ((Finsupp.mem_supported' K _).mp (reduction.reduced_inside inside) y outside)
    cases lead_eq : lead s with
    | none =>
      rw [reduction.finished s inside lead_eq] at occurs
      exact occurs rfl
    | some x =>
      have leads := reduction.leads s x lead_eq
      have xRows : x ∈ rows := by
        by_cases same : (y : ι) = x
        · rw [← same]
          exact y.2
        · exact upper y y.2 x (reduction.lead_inside lead_eq) (leads.top y occurs same)
      exact absent (Finset.mem_filter.mpr ⟨member, x, xRows, lead_eq⟩)
  have spanned : (span K (column '' columns)).map restrict = span K (Set.range kept) := by
    rw [← reduction.span_eq closed, map_span]
    apply le_antisymm
    · rw [span_le]
      rintro _ ⟨_, ⟨s, member, rfl⟩, rfl⟩
      by_cases leads : s ∈ leading
      · exact subset_span ⟨⟨s, leads⟩, rfl⟩
      · change restrict (reduced s) ∈ span K (Set.range kept)
        rw [dropped s member leads]
        exact zero_mem _
    · apply span_mono
      rintro _ ⟨s, rfl⟩
      exact ⟨reduced s, ⟨s, (Finset.mem_filter.mp s.2).1, rfl⟩, rfl⟩
  rw [restrictedRank_eq, spanned, finrank_span_eq_card independent, Fintype.card_coe]

end

def earlier (cells : Finset ι) (pos grade : ι → ℕ) (s : ι) : Set ι :=
  {t | t ∈ cells ∧ pos t < pos s ∧ grade t = grade s}

theorem closed_earlier (s : ι) : Closed cells pos grade (earlier cells pos grade s) :=
  ⟨fun _ member => member.1, fun _ member _ inside before same =>
    ⟨inside, before.trans member.2.1, same.trans member.2.2⟩⟩

theorem Reduction.lead_of_mem_span (reduction : Reduction cells pos grade column reduced lead)
    (closed : Closed cells pos grade columns) (member : v ∈ span K (column '' columns)) {x : ι}
    (leads : Leads pos v x) : ∃ t ∈ columns, lead t = some x := by
  classical
  rw [← reduction.span_eq closed, Finsupp.mem_span_image_iff_linearCombination] at member
  obtain ⟨coefficient, supported, rfl⟩ := member
  have value : ∀ y, Finsupp.linearCombination K reduced coefficient y =
      ∑ t ∈ coefficient.support, coefficient t * reduced t y := by
    intro y
    rw [Finsupp.linearCombination_apply, Finsupp.sum, Finsupp.finsetSum_apply]
    rfl
  have inside : ∀ t ∈ coefficient.support, t ∈ columns := fun t member => supported member
  -- the latest leading coordinate of the columns in use
  let used := coefficient.support.filter fun t => (lead t).isSome
  obtain ⟨t, inSupport, product⟩ := Finset.exists_ne_zero_of_sum_ne_zero (value x ▸ leads.occurs)
  have occurs := right_ne_zero_of_mul product
  obtain ⟨y, found⟩ : ∃ y, lead t = some y := by
    by_contra none
    rw [← Option.ne_none_iff_exists', not_not] at none
    rw [reduction.finished t (closed.1 (inside t inSupport)) none] at occurs
    exact occurs rfl
  have tUsed : t ∈ used := Finset.mem_filter.mpr ⟨inSupport, by rw [found]; rfl⟩
  let place : ι → ℕ := fun t => (lead t).elim 0 pos
  obtain ⟨last, inUsed, greatest⟩ := used.exists_max_image place ⟨t, tUsed⟩
  obtain ⟨lastSupport, some⟩ := Finset.mem_filter.mp inUsed
  obtain ⟨z, leadsLast⟩ := Option.isSome_iff_exists.mp some
  refine ⟨last, inside last lastSupport, ?_⟩
  have lastLeads := reduction.leads last z leadsLast
  have below : ∀ s ∈ coefficient.support, ∀ w, reduced s w ≠ 0 →
      pos w ≤ pos z ∧ (s ≠ last → w ≠ z ∨ pos w < pos z) := by
    intro s sSupport w nonzero
    cases sLead : lead s with
    | none =>
      rw [reduction.finished s (closed.1 (inside s sSupport)) sLead] at nonzero
      exact absurd rfl nonzero
    | some u =>
      have most := greatest s (Finset.mem_filter.mpr ⟨sSupport, by rw [sLead]; rfl⟩)
      simp only [place, sLead, leadsLast, Option.elim_some] at most
      have sLeads := reduction.leads s u sLead
      by_cases same : w = u
      · subst same
        refine ⟨most, fun different => .inl ?_⟩
        rintro rfl
        exact different (reduction.distinct s last w sLead leadsLast)
      · have before := sLeads.top w nonzero same
        exact ⟨by omega, fun _ => .inr (by omega)⟩
  have atLast : Finsupp.linearCombination K reduced coefficient z ≠ 0 := by
    rw [value, Finset.sum_eq_single last]
    · exact mul_ne_zero (Finsupp.mem_support_iff.mp lastSupport) lastLeads.occurs
    · intro s sSupport different
      by_contra nonzero
      rcases (below s sSupport z (right_ne_zero_of_mul nonzero)).2 different with other | before
      · exact other rfl
      · exact Nat.lt_irrefl _ before
    · intro absent
      exact absurd lastSupport absent
  by_cases same : z = x
  · rw [← same]
    exact leadsLast
  · have after := leads.top z atLast same
    have before := (below t inSupport x occurs).1
    omega

section

variable (reduction : Reduction cells pos grade column reduced lead) (injective : Function.Injective pos) {s : ι}
  (member : s ∈ cells)

include reduction member

theorem Reduction.lead_none (spanned : column s ∈ span K (column '' earlier cells pos grade s)) : lead s = none := by
  by_contra present
  obtain ⟨y, found⟩ := Option.ne_none_iff_exists'.mp present
  have whole : reduced s ∈ span K (column '' earlier cells pos grade s) := by
    have split : reduced s = (reduced s - column s) + column s := by abel
    rw [split]
    exact add_mem (reduction.combined s member) spanned
  obtain ⟨t, before, leads⟩ := reduction.lead_of_mem_span (closed_earlier s) whole (reduction.leads s y found)
  rw [reduction.distinct t s y leads found] at before
  exact Nat.lt_irrefl _ before.2.1

include injective

/-- A vector that differs from a column by earlier ones, and has a new leading coordinate, has that of the reduced
    column. -/
theorem Reduction.lead_some (change : v - column s ∈ span K (column '' earlier cells pos grade s)) {x : ι}
    (leads : Leads pos v x) (fresh : ∀ t ∈ earlier cells pos grade s, lead t ≠ some x) : lead s = some x := by
  have difference : v - reduced s ∈ span K (column '' earlier cells pos grade s) := by
    have split : v - reduced s = (v - column s) - (reduced s - column s) := by abel
    rw [split]
    exact sub_mem change (reduction.combined s member)
  cases found : lead s with
  | none =>
    rw [reduction.finished s member found, sub_zero] at difference
    obtain ⟨t, before, same⟩ := reduction.lead_of_mem_span (closed_earlier s) difference leads
    exact absurd same (fresh t before)
  | some y =>
    have reducedLeads := reduction.leads s y found
    rcases Nat.lt_trichotomy (pos x) (pos y) with before | same | after
    · obtain ⟨t, earlierT, leadsT⟩ :=
        reduction.lead_of_mem_span (closed_earlier s) difference (leads.sub_later reducedLeads before)
      rw [reduction.distinct t s y leadsT found] at earlierT
      exact absurd earlierT.2.1 (Nat.lt_irrefl _)
    · rw [injective same]
    · obtain ⟨t, earlierT, leadsT⟩ :=
        reduction.lead_of_mem_span (closed_earlier s) difference (leads.sub_earlier reducedLeads after)
      exact absurd leadsT (fresh t earlierT)

end

end

end Elimination
