import AdicCore.Library.Homology

open Elimination Homology

namespace Barcode

section

variable {α : Type} [LinearOrder α]

def quadrant (pairs : Multiset (α × α)) (rows columns : Set α) [DecidablePred (· ∈ rows)]
    [DecidablePred (· ∈ columns)] : ℕ :=
  pairs.countP fun pair => pair.1 ∈ rows ∧ pair.2 ∈ columns

theorem count_add_quadrants (pairs : Multiset (α × α)) (b d : α) :
    pairs.count (b, d) + quadrant pairs (Set.Ioi b) (Set.Iic d) + quadrant pairs (Set.Ici b) (Set.Iio d) =
      quadrant pairs (Set.Ici b) (Set.Iic d) + quadrant pairs (Set.Ioi b) (Set.Iio d) := by
  induction pairs using Multiset.induction with
  | empty => simp [quadrant]
  | cons pair rest ih =>
    obtain ⟨x, y⟩ := pair
    simp only [quadrant, Multiset.countP_cons, Multiset.count_cons, Prod.mk.injEq, Set.mem_Ioi, Set.mem_Ici,
      Set.mem_Iic, Set.mem_Iio] at ih ⊢
    rcases lt_trichotomy b x with below | equal | above <;> rcases lt_trichotomy d y with below' | equal' | above'
    all_goals grind

/-- Counts over quadrants that open to larger births and to smaller deaths determine the pairs. -/
theorem eq_of_quadrants {first second : Multiset (α × α)}
    (agree : ∀ (rows columns : Set α) [DecidablePred (· ∈ rows)] [DecidablePred (· ∈ columns)],
      IsUpperSet rows → IsLowerSet columns → quadrant first rows columns = quadrant second rows columns) :
    first = second := by
  apply Multiset.ext.mpr
  rintro ⟨b, d⟩
  have left := count_add_quadrants first b d
  have right := count_add_quadrants second b d
  have openClosed := agree (Set.Ioi b) (Set.Iic d) (isUpperSet_Ioi b) (isLowerSet_Iic d)
  have closedOpen := agree (Set.Ici b) (Set.Iio d) (isUpperSet_Ici b) (isLowerSet_Iio d)
  have closedClosed := agree (Set.Ici b) (Set.Iic d) (isUpperSet_Ici b) (isLowerSet_Iic d)
  have openOpen := agree (Set.Ioi b) (Set.Iio d) (isUpperSet_Ioi b) (isLowerSet_Iio d)
  omega

end

section

variable {ι α K : Type} [Field K] [LinearOrder α]

def bars (cells : Finset ι) (grade : ι → ℕ) (lead : ι → Option ι) (weight : ι → α) (k : ℕ) : Multiset (α × α) :=
  (deaths cells grade lead (k + 1)).val.filterMap fun s => (lead s).map fun x => (weight x, weight s)

def essential [DecidableEq ι] (cells : Finset ι) (grade : ι → ℕ) (lead : ι → Option ι) (weight : ι → α) (k : ℕ) :
    Multiset α :=
  (unpaired cells grade lead k).val.map weight

theorem countP_filterMap {β : Type} (f : ι → Option β) (p : β → Prop) [DecidablePred p] (items : Multiset ι)
    [DecidablePred fun s => ∃ b ∈ f s, p b] :
    (items.filterMap f).countP p = (items.filter fun s => ∃ b ∈ f s, p b).card := by
  induction items using Multiset.induction with
  | empty => rfl
  | cons s rest ih =>
    cases value : f s with
    | none =>
      rw [Multiset.filterMap_cons_none s rest value, Multiset.filter_cons_of_neg rest (by simp [value]), ih]
    | some b =>
      rw [Multiset.filterMap_cons_some f s rest value, Multiset.countP_cons, ih]
      by_cases holds : p b
      · rw [Multiset.filter_cons_of_pos rest (by simp [value, holds]), Multiset.card_cons, if_pos holds]
      · rw [Multiset.filter_cons_of_neg rest (by simp [value, holds]), if_neg holds, add_zero]

theorem filterMap_congr {β : Type} {f g : ι → Option β} {items : Multiset ι} (same : ∀ s ∈ items, f s = g s) :
    items.filterMap f = items.filterMap g := by
  induction items using Quot.inductionOn with
  | h list => exact congrArg Multiset.ofList (List.filterMap_congr same)

variable {cells : Finset ι} {pos pos' grade : ι → ℕ} {boundary : (ι →₀ K) →ₗ[K] ι →₀ K}
  {reduced reduced' : ι → ι →₀ K} {lead lead' : ι → Option ι} {weight : ι → α}

def Filtered (cells : Finset ι) (pos : ι → ℕ) (weight : ι → α) : Prop :=
  ∀ s ∈ cells, ∀ t ∈ cells, pos s < pos t → weight s ≤ weight t

omit [LinearOrder α] in
theorem card_bars [DecidableEq ι] (complex : ChainComplex cells grade boundary)
    (reduction : Reduction cells pos grade (column boundary) reduced lead) (weight : ι → α) (k : ℕ) :
    (bars cells grade lead weight k).card = (births cells grade lead k).card := by
  rw [card_births complex reduction, bars, Finset.card_def]
  apply card_filterMap_of_isSome
  intro s death
  rw [Option.isSome_map]
  exact (Finset.mem_filter.mp death).2.2

section

variable (reduction : Reduction cells pos grade (column boundary) reduced lead) (filtered : Filtered cells pos weight)

include reduction filtered

theorem lead_weight (monotone : ∀ s ∈ cells, ∀ x, column boundary s x ≠ 0 → weight x ≤ weight s) {s x : ι}
    (found : lead s = some x) : weight x ≤ weight s := by
  have member : s ∈ cells := reduction.defined s x found
  have closed : Closed cells pos grade {t | t ∈ cells ∧ (t = s ∨ pos t < pos s)} := by
    refine ⟨fun t inside => inside.1, ?_⟩
    rintro t ⟨_, placed⟩ u inside before _
    refine ⟨inside, .inr ?_⟩
    rcases placed with rfl | below
    · exact before
    · exact before.trans below
  have columns : Submodule.span K (column boundary '' {t | t ∈ cells ∧ (t = s ∨ pos t < pos s)}) ≤
      Finsupp.supported K K {x | weight x ≤ weight s} := by
    rw [Submodule.span_le]
    rintro _ ⟨t, ⟨inside, placed⟩, rfl⟩
    exact (Finsupp.mem_supported' K _).mpr fun y heavy => by
      by_contra occurs
      apply heavy
      apply (monotone t inside y occurs).trans
      rcases placed with rfl | before
      · exact le_refl _
      · exact filtered t inside s member before
  have supported := columns (reduction.reduced_mem_span closed ⟨member, .inl rfl⟩)
  by_contra heavy
  exact (reduction.leads s x found).occurs ((Finsupp.mem_supported' K _).mp supported x heavy)

theorem quadrant_bars (k : ℕ) (rows columns : Set α) [DecidablePred (· ∈ rows)] [DecidablePred (· ∈ columns)]
    (upper : IsUpperSet rows) (lower : IsLowerSet columns) : quadrant (bars cells grade lead weight k) rows columns =
      restrictedRank (column boundary) {s | s ∈ cells ∧ grade s = k + 1 ∧ weight s ∈ columns}
        {x | x ∈ cells ∧ weight x ∈ rows} := by
  classical
  let chosen := cells.filter fun s => grade s = k + 1 ∧ weight s ∈ columns
  have asSet : {s | s ∈ cells ∧ grade s = k + 1 ∧ weight s ∈ columns} = ↑chosen := by
    ext s
    simp [chosen]
  have closed : Closed cells pos grade ↑chosen := by
    refine ⟨fun s member => (Finset.mem_filter.mp member).1, ?_⟩
    intro s member t inside before same
    obtain ⟨sInside, gradeS, below⟩ := Finset.mem_filter.mp member
    exact Finset.mem_filter.mpr ⟨inside, same.trans gradeS, lower (filtered t inside s sInside before) below⟩
  have rowsUpper : ∀ x ∈ {x | x ∈ cells ∧ weight x ∈ rows}, ∀ y ∈ cells, pos x < pos y →
      y ∈ {x | x ∈ cells ∧ weight x ∈ rows} := by
    rintro x ⟨xInside, above⟩ y yInside before
    exact ⟨yInside, upper (filtered x xInside y yInside before) above⟩
  rw [asSet, ← reduction.card_leads_eq_restrictedRank chosen closed _ rowsUpper]
  rw [quadrant, bars, countP_filterMap, Finset.card_def]
  congr 1
  change ((deaths cells grade lead (k + 1)).filter _).val = _
  congr 1
  ext s
  simp only [deaths, chosen, Finset.mem_filter, Option.mem_def, Option.map_eq_some_iff, Set.mem_ofPred_eq]
  constructor
  · rintro ⟨⟨inside, gradeS, _⟩, _, ⟨x, found, rfl⟩, above, below⟩
    exact ⟨⟨inside, gradeS, below⟩, x, ⟨reduction.lead_inside found, above⟩, found⟩
  · rintro ⟨⟨inside, gradeS, below⟩, x, ⟨_, above⟩, found⟩
    exact ⟨⟨inside, gradeS, by rw [found]; rfl⟩, _, ⟨x, found, rfl⟩, above, below⟩

theorem bars_eq (reduction' : Reduction cells pos' grade (column boundary) reduced' lead')
    (filtered' : Filtered cells pos' weight) (k : ℕ) :
    bars cells grade lead weight k = bars cells grade lead' weight k := by
  apply eq_of_quadrants
  intro rows columns _ _ upper lower
  rw [quadrant_bars reduction filtered k rows columns upper lower]
  rw [quadrant_bars reduction' filtered' k rows columns upper lower]

end

omit [LinearOrder α] in
theorem deaths_map_weight (k : ℕ) :
    (deaths cells grade lead (k + 1)).val.map weight = (bars cells grade lead weight k).map Prod.snd := by
  rw [bars, Multiset.map_filterMap]
  rw [← Multiset.filterMap_eq_map]
  apply filterMap_congr
  intro s death
  obtain ⟨x, found⟩ := Option.isSome_iff_exists.mp (Finset.mem_filter.mp death).2.2
  simp [found]

theorem deaths_zero (complex : ChainComplex cells grade boundary)
    (reduction : Reduction cells pos grade (column boundary) reduced lead) :
    deaths cells grade lead 0 = ∅ := by
  rw [Finset.eq_empty_iff_forall_notMem]
  intro s death
  obtain ⟨_, ground, dies⟩ := Finset.mem_filter.mp death
  obtain ⟨x, found⟩ := Option.isSome_iff_exists.mp dies
  have raised := lead_grade complex reduction found
  omega

variable [DecidableEq ι]

omit [LinearOrder α] in
theorem births_map_weight (complex : ChainComplex cells grade boundary)
    (reduction : Reduction cells pos grade (column boundary) reduced lead) (k : ℕ) :
    (births cells grade lead k).val.map weight = (bars cells grade lead weight k).map Prod.fst := by
  rw [bars, births_eq_leads complex reduction, Multiset.map_filterMap, Multiset.map_filterMap]
  apply filterMap_congr
  intro s _
  rw [Option.map_map]
  rfl

theorem essential_eq (complex : ChainComplex cells grade boundary)
    (reduction : Reduction cells pos grade (column boundary) reduced lead)
    (filtered : Filtered cells pos weight)
    (reduction' : Reduction cells pos' grade (column boundary) reduced' lead')
    (filtered' : Filtered cells pos' weight) (k : ℕ) :
    essential cells grade lead weight k = essential cells grade lead' weight k := by
  have deaths_eq : (deaths cells grade lead k).val.map weight = (deaths cells grade lead' k).val.map weight := by
    cases k with
    | zero => rw [deaths_zero complex reduction, deaths_zero complex reduction']
    | succ k =>
      rw [deaths_map_weight, deaths_map_weight, bars_eq reduction filtered reduction' filtered']
  have births_eq : (births cells grade lead k).val.map weight = (births cells grade lead' k).val.map weight := by
    rw [births_map_weight complex reduction, births_map_weight complex reduction']
    rw [bars_eq reduction filtered reduction' filtered']
  have all := (cells_eq_deaths_births_unpaired complex reduction k).symm.trans
    (cells_eq_deaths_births_unpaired complex reduction' k)
  have weights := congrArg (Multiset.map weight) all
  rw [Multiset.map_add, Multiset.map_add, Multiset.map_add, Multiset.map_add, deaths_eq, births_eq] at weights
  exact add_left_cancel weights

end

end Barcode
