import AdicCore.Finality.AdicComplex

open AdicModel AdicModel.Finality

namespace AdicProof.Finality

structure Combination (n : Nat) (indices : List Nat) : Prop where
  ascending : indices.Pairwise (· < ·)
  bounded : ∀ i ∈ indices, i < n

/-- Lexicographic order on lists of one length, by the first position that differs. -/
def Before (first second : List Nat) : Prop :=
  ∃ p < first.length, (∀ j < p, first.getD j 0 = second.getD j 0) ∧ first.getD p 0 < second.getD p 0

section

variable {n : Nat} {indices : List Nat}

theorem ascending_getD (ascending : indices.Pairwise (· < ·)) {i j : Nat} (before : i < j)
    (bound : j < indices.length) : indices.getD i 0 < indices.getD j 0 := by
  rw [List.getD_eq_getElem _ _ bound, List.getD_eq_getElem _ _ (before.trans bound)]
  exact List.pairwise_iff_getElem.mp ascending i j (before.trans bound) bound before

theorem ascending_gap (ascending : indices.Pairwise (· < ·)) {i j : Nat} (before : i ≤ j)
    (bound : j < indices.length) : indices.getD i 0 + (j - i) ≤ indices.getD j 0 := by
  induction j with
  | zero =>
    have same : i = 0 := by omega
    subst same
    exact Nat.le_refl _
  | succ j ih =>
    rcases Nat.eq_or_lt_of_le before with same | earlier
    · subst same
      omega
    · have previous := ih (by omega) (by omega)
      have step : indices.getD j 0 < indices.getD (j + 1) 0 := ascending_getD ascending (Nat.lt_succ_self j) bound
      omega

theorem Combination.getD_lt (combination : Combination n indices) {j : Nat} (bound : j < indices.length) :
    indices.getD j 0 + (indices.length - 1 - j) < n := by
  have gap := ascending_gap combination.ascending (i := j) (j := indices.length - 1) (by omega) (by omega)
  have last : indices.getD (indices.length - 1) 0 < n := by
    rw [List.getD_eq_getElem _ _ (by omega)]
    exact combination.bounded _ (List.getElem_mem _)
  omega

theorem Combination.length_le (combination : Combination n indices) : indices.length ≤ n := by
  rcases Nat.eq_zero_or_pos indices.length with empty | positive
  · omega
  · have first := combination.getD_lt positive
    omega

theorem combination_of_getD {list : List Nat} (steps : ∀ i j, i < j → j < list.length → list.getD i 0 < list.getD j 0)
    (bounds : ∀ j < list.length, list.getD j 0 < n) : Combination n list := by
  refine ⟨?_, ?_⟩
  · rw [List.pairwise_iff_getElem]
    intro i j iBound jBound before
    have step := steps i j before jBound
    rwa [List.getD_eq_getElem _ _ iBound, List.getD_eq_getElem _ _ jBound] at step
  · intro x member
    obtain ⟨j, bound, rfl⟩ := List.mem_iff_getElem.mp member
    have below := bounds j bound
    rwa [List.getD_eq_getElem _ _ bound] at below

theorem getD_set (list : List Nat) (i j value : Nat) (bound : i < list.length) :
    (list.set i value).getD j 0 = if j = i then value else list.getD j 0 := by
  rw [List.getD_eq_getElem?_getD, List.getD_eq_getElem?_getD, List.getElem?_set]
  by_cases same : i = j
  · subst same
    simp [bound]
  · simp [same, Ne.symm same]

theorem rightmostIncrementable_some {i p : Nat} (found : rightmostIncrementable indices n i = some p) :
    p < i ∧ indices.getD p 0 < n - indices.length + p ∧
      ∀ j, p < j → j < i → n - indices.length + j ≤ indices.getD j 0 := by
  induction i with
  | zero => cases found
  | succ i ih =>
    rw [rightmostIncrementable] at found
    split at found
    · next below =>
      cases found
      exact ⟨Nat.lt_succ_self _, below, fun j above inside => absurd inside (by omega)⟩
    · next full =>
      obtain ⟨inside, below, rest⟩ := ih found
      refine ⟨by omega, below, ?_⟩
      intro j above bound
      rcases Nat.eq_or_lt_of_le (Nat.le_of_lt_succ bound) with same | smaller
      · subst same
        omega
      · exact rest j above smaller

theorem rightmostIncrementable_none {i : Nat} (found : rightmostIncrementable indices n i = none) :
    ∀ j < i, n - indices.length + j ≤ indices.getD j 0 := by
  induction i with
  | zero => exact fun j below => absurd below (Nat.not_lt_zero j)
  | succ i ih =>
    rw [rightmostIncrementable] at found
    split at found
    · cases found
    · next full =>
      intro j bound
      rcases Nat.eq_or_lt_of_le (Nat.le_of_lt_succ bound) with same | smaller
      · subst same
        omega
      · exact ih found j smaller

theorem foldl_successors (start count : Nat) (list : List Nat) (bound : start + count < list.length) :
    let result := (List.range' (start + 1) count).foldl
      (fun current j => current.set j (current.getD (j - 1) 0 + 1)) list
    result.length = list.length ∧ ∀ j, result.getD j 0 =
      if start < j ∧ j ≤ start + count then list.getD start 0 + (j - start) else list.getD j 0 := by
  induction count with
  | zero =>
    refine ⟨rfl, ?_⟩
    intro j
    rw [if_neg (by omega)]
    rfl
  | succ count ih =>
    obtain ⟨length, values⟩ := ih (by omega)
    rw [List.range'_1_concat, List.foldl_append]
    simp only [List.foldl_cons, List.foldl_nil, List.length_set]
    refine ⟨length, ?_⟩
    intro j
    rw [getD_set _ _ _ _ (by rw [length]; omega), values, values]
    by_cases last : j = start + 1 + count
    · subst last
      have index : start + 1 + count - 1 = start + count := by omega
      have reached : start < start + 1 + count ∧ start + 1 + count ≤ start + (count + 1) := by omega
      rw [if_pos rfl, index, if_pos reached]
      by_cases first : count = 0
      · subst first
        rw [if_neg (by omega)]
        have offset : start + 1 + 0 - start = 1 := by omega
        rw [offset]
        rfl
      · rw [if_pos (by omega)]
        omega
    · rw [if_neg last]
      by_cases inside : start < j ∧ j ≤ start + count
      · rw [if_pos inside, if_pos (by omega)]
      · rw [if_neg inside, if_neg (by omega)]

theorem propagateIncrement_spec {i : Nat} (bound : i < indices.length) :
    (propagateIncrement indices i).length = indices.length ∧
      ∀ j < indices.length, (propagateIncrement indices i).getD j 0 =
        if i ≤ j then indices.getD i 0 + 1 + (j - i) else indices.getD j 0 := by
  have length : (indices.set i (indices.getD i 0 + 1)).length = indices.length := List.length_set ..
  obtain ⟨kept, values⟩ := foldl_successors i (indices.length - (i + 1)) (indices.set i (indices.getD i 0 + 1))
    (by rw [length]; omega)
  refine ⟨kept.trans length, ?_⟩
  intro j jBound
  rw [propagateIncrement, values, getD_set _ _ _ _ bound, getD_set _ _ _ _ bound, if_pos rfl]
  rcases Nat.lt_trichotomy i j with below | same | above
  · rw [if_pos (by omega), if_pos (by omega)]
  · subst same
    rw [if_neg (by omega), if_pos rfl, if_pos (by omega)]
    omega
  · rw [if_neg (by omega), if_neg (by omega), if_neg (by omega)]

theorem nextCombination_eq_some {next : List Nat} (found : nextCombination indices n = some next) :
    ∃ i < indices.length, next = propagateIncrement indices i ∧ indices.getD i 0 < n - indices.length + i ∧
      ∀ j, i < j → j < indices.length → n - indices.length + j ≤ indices.getD j 0 := by
  rw [nextCombination] at found
  split at found
  · cases found
  · obtain ⟨i, iFound, rfl⟩ := Option.map_eq_some_iff.mp found
    obtain ⟨bound, below, rest⟩ := rightmostIncrementable_some iFound
    exact ⟨i, bound, rfl, below, rest⟩

theorem nextCombination_combination (combination : Combination n indices) {next : List Nat}
    (found : nextCombination indices n = some next) :
    next.length = indices.length ∧ Combination n next ∧ Before indices next := by
  obtain ⟨i, bound, rfl, below, _⟩ := nextCombination_eq_some found
  obtain ⟨length, values⟩ := propagateIncrement_spec bound
  have room := combination.length_le
  refine ⟨length, combination_of_getD ?_ ?_, i, bound, ?_, ?_⟩
  · intro j k before kBound
    rw [length] at kBound
    rw [values j (by omega), values k kBound]
    by_cases jAfter : i ≤ j
    · rw [if_pos jAfter, if_pos (by omega)]
      omega
    · rw [if_neg jAfter]
      by_cases kAfter : i ≤ k
      · rw [if_pos kAfter]
        have step := ascending_getD combination.ascending (by omega : j < i) bound
        omega
      · rw [if_neg kAfter]
        exact ascending_getD combination.ascending before kBound
  · intro j jBound
    rw [length] at jBound
    rw [values j jBound]
    by_cases after : i ≤ j
    · rw [if_pos after]
      omega
    · rw [if_neg after]
      have old := combination.getD_lt jBound
      omega
  · intro j before
    rw [values j (by omega), if_neg (by omega)]
  · rw [values i bound, if_pos (Nat.le_refl i)]
    omega

theorem eq_or_before_of_le {first second : List Nat} (length : first.length = second.length)
    (below : ∀ j < first.length, first.getD j 0 ≤ second.getD j 0) : second = first ∨ Before first second := by
  by_cases same : ∀ j < first.length, first.getD j 0 = second.getD j 0
  · left
    apply List.ext_getElem length.symm
    intro j sBound fBound
    have value := same j fBound
    rw [List.getD_eq_getElem _ _ fBound, List.getD_eq_getElem _ _ sBound] at value
    exact value.symm
  · right
    have differs : ∃ p, p < first.length ∧ first.getD p 0 ≠ second.getD p 0 := by
      by_contra none
      apply same
      intro j bound
      by_contra different
      exact none ⟨j, bound, different⟩
    classical
    obtain ⟨bound, different⟩ := Nat.find_spec differs
    refine ⟨Nat.find differs, bound, ?_, ?_⟩
    · intro j before
      by_contra apart
      exact Nat.find_min differs before ⟨before.trans bound, apart⟩
    · exact Nat.lt_of_le_of_ne (below _ bound) different

/-- A later combination first differs at or before the incremented position, and grows at least as fast from there. -/
theorem nextCombination_least (combination : Combination n indices) {next other : List Nat}
    (found : nextCombination indices n = some next) (valid : Combination n other)
    (length : other.length = indices.length) (later : Before indices other) :
    other = next ∨ Before next other := by
  obtain ⟨i, bound, rfl, _, full⟩ := nextCombination_eq_some found
  obtain ⟨nextLength, values⟩ := propagateIncrement_spec bound
  obtain ⟨p, pBound, prefixSame, grows⟩ := later
  have pBefore : p ≤ i := by
    by_contra after
    have top := full p (by omega) pBound
    have limit := valid.getD_lt (j := p) (by omega)
    have size := combination.length_le
    rw [length] at limit
    omega
  rcases Nat.eq_or_lt_of_le pBefore with same | earlier
  · subst same
    apply eq_or_before_of_le (nextLength.trans length.symm)
    intro j jBound
    rw [nextLength] at jBound
    rw [values j jBound]
    by_cases after : p ≤ j
    · rw [if_pos after]
      have gap := ascending_gap valid.ascending after (by omega)
      omega
    · rw [if_neg after]
      exact Nat.le_of_eq (prefixSame j (by omega))
  · right
    refine ⟨p, by omega, ?_, ?_⟩
    · intro j before
      rw [values j (by omega), if_neg (by omega)]
      exact prefixSame j before
    · rw [values p pBound, if_neg (by omega)]
      exact grows

theorem nextCombination_none (combination : Combination n indices) (positive : 0 < indices.length)
    (found : nextCombination indices n = none) {other : List Nat} (valid : Combination n other)
    (length : other.length = indices.length) : ¬Before indices other := by
  rintro ⟨p, pBound, _, grows⟩
  have size := combination.length_le
  rw [nextCombination, if_neg (by omega), Option.map_eq_none_iff] at found
  have top := rightmostIncrementable_none found p pBound
  have limit := valid.getD_lt (j := p) (by omega)
  rw [length] at limit
  omega

theorem Before.trans {first second third : List Nat} (left : Before first second) (right : Before second third)
    (length : first.length = second.length) : Before first third := by
  obtain ⟨p, pBound, pSame, pGrows⟩ := left
  obtain ⟨q, qBound, qSame, qGrows⟩ := right
  rcases Nat.lt_trichotomy p q with pFirst | same | qFirst
  · exact ⟨p, pBound, fun j below => (pSame j below).trans (qSame j (below.trans pFirst)),
      pGrows.trans_eq (qSame p pFirst)⟩
  · subst same
    exact ⟨p, pBound, fun j below => (pSame j below).trans (qSame j below), pGrows.trans qGrows⟩
  · refine ⟨q, by omega, fun j below => (pSame j (below.trans qFirst)).trans (qSame j below), ?_⟩
    rw [pSame q qFirst]
    exact qGrows

theorem Before.irrefl (list : List Nat) : ¬Before list list := by
  rintro ⟨p, _, _, grows⟩
  exact Nat.lt_irrefl _ grows

def combinations (n k : Nat) : Finset (List Nat) := ((Finset.range n).powersetCard k).image fun s => s.sort

theorem mem_combinations {k : Nat} {list : List Nat} :
    list ∈ combinations n k ↔ Combination n list ∧ list.length = k := by
  rw [combinations, Finset.mem_image]
  constructor
  · rintro ⟨s, member, rfl⟩
    obtain ⟨inside, card⟩ := Finset.mem_powersetCard.mp member
    refine ⟨⟨(Finset.sortedLT_sort s).pairwise, ?_⟩, by rw [Finset.length_sort, card]⟩
    intro i iMember
    exact Finset.mem_range.mp (inside ((Finset.mem_sort _).mp iMember))
  · rintro ⟨⟨ascending, bounded⟩, rfl⟩
    refine ⟨list.toFinset, Finset.mem_powersetCard.mpr ⟨?_, List.toFinset_card_of_nodup ascending.nodup⟩, ?_⟩
    · intro i member
      exact Finset.mem_range.mpr (bounded i (List.mem_toFinset.mp member))
    · exact (List.toFinset_sort _ ascending.nodup).mpr (ascending.imp Nat.le_of_lt)

theorem card_combinations_le (n k : Nat) : (combinations n k).card ≤ n.choose k := by
  have image := Finset.card_image_le (s := (Finset.range n).powersetCard k) (f := fun s => s.sort)
  rwa [Finset.card_powersetCard, Finset.card_range] at image

end

open Classical in
noncomputable def remaining (n : Nat) (indices : List Nat) : Finset (List Nat) :=
  (combinations n indices.length).filter fun other => other = indices ∨ Before indices other

inductive Visits (n : Nat) : List Nat → List (List Nat) → Prop
  | last {indices : List Nat} (room : indices.length ≤ n) (exhausted : nextCombination indices n = none) :
    Visits n indices [indices]
  | next {indices following : List Nat} {rest : List (List Nat)} (room : indices.length ≤ n)
    (found : nextCombination indices n = some following) (visits : Visits n following rest) :
    Visits n indices (indices :: rest)

theorem exists_visits {n : Nat} (indices : List Nat) (combination : Combination n indices)
    (positive : 0 < indices.length) : ∃ visited, Visits n indices visited ∧
      visited.length ≤ (remaining n indices).card ∧ ∀ other, other ∈ visited ↔ other ∈ remaining n indices := by
  classical
  induction size : (remaining n indices).card using Nat.strong_induction_on generalizing indices with
  | _ size ih =>
    subst size
    have self : indices ∈ remaining n indices :=
      Finset.mem_filter.mpr ⟨mem_combinations.mpr ⟨combination, rfl⟩, .inl rfl⟩
    cases found : nextCombination indices n with
    | none =>
      refine ⟨[indices], .last combination.length_le found, Finset.card_pos.mpr ⟨indices, self⟩, fun other => ?_⟩
      rw [List.mem_singleton]
      constructor
      · rintro rfl
        exact self
      · intro member
        obtain ⟨known, ordered⟩ := Finset.mem_filter.mp member
        obtain ⟨valid, length⟩ := mem_combinations.mp known
        rcases ordered with same | later
        · exact same
        · exact absurd later (nextCombination_none combination positive found valid length)
    | some next =>
      obtain ⟨length, nextCombination, later⟩ := nextCombination_combination combination found
      have rest : remaining n next ⊆ (remaining n indices).erase indices := by
        intro other member
        obtain ⟨known, ordered⟩ := Finset.mem_filter.mp member
        rw [length] at known
        have after : Before indices other := by
          rcases ordered with same | beyond
          · rw [same]
            exact later
          · exact later.trans beyond length.symm
        refine Finset.mem_erase.mpr ⟨?_, Finset.mem_filter.mpr ⟨known, .inr after⟩⟩
        intro same
        rw [same] at after
        exact Before.irrefl indices after
      have smaller := Finset.card_le_card rest
      rw [Finset.card_erase_of_mem self] at smaller
      have inhabited := Finset.card_pos.mpr ⟨indices, self⟩
      obtain ⟨visited, visits, count, members⟩ := ih _ (by omega) next nextCombination (by omega) rfl
      refine ⟨indices :: visited, .next combination.length_le found visits, by rw [List.length_cons]; omega,
        fun other => ?_⟩
      rw [List.mem_cons, members other]
      constructor
      · rintro (rfl | member)
        · exact self
        · exact (Finset.mem_erase.mp (rest member)).2
      · intro member
        obtain ⟨known, ordered⟩ := Finset.mem_filter.mp member
        obtain ⟨valid, otherLength⟩ := mem_combinations.mp known
        rcases ordered with same | beyond
        · exact .inl same
        · right
          refine Finset.mem_filter.mpr ⟨?_, nextCombination_least combination found valid otherLength beyond⟩
          rw [length]
          exact known

theorem Visits.run {messages : List (MessageId × Weight)} {indices : List Nat} {visited : List (List Nat)}
    (visits : Visits messages.length indices visited) {fuel : Nat} (state : BuildState)
    (enough : visited.length ≤ fuel) :
    combinationLoop messages fuel state indices = some (visited.foldl (addCombination messages) state) := by
  induction visits generalizing fuel state with
  | last _ exhausted =>
    cases fuel with
    | zero => exact absurd enough (by simp)
    | succ fuel => simp only [combinationLoop, exhausted, List.foldl_cons, List.foldl_nil]
  | next _ found _ ih =>
    cases fuel with
    | zero => exact absurd enough (by simp)
    | succ fuel =>
      rw [List.length_cons] at enough
      simp only [combinationLoop, found, List.foldl_cons]
      exact ih _ (by omega)

theorem remaining_range (n k : Nat) : remaining n (List.range k) = combinations n k := by
  classical
  ext other
  rw [remaining, List.length_range, Finset.mem_filter]
  constructor
  · exact fun both => both.1
  · intro known
    obtain ⟨valid, length⟩ := mem_combinations.mp known
    refine ⟨known, eq_or_before_of_le (by rw [List.length_range, length]) ?_⟩
    intro j bound
    rw [List.length_range] at bound
    have gap := ascending_gap valid.ascending (Nat.zero_le j) (by omega)
    rw [List.getD_eq_getElem _ _ (by rw [List.length_range]; exact bound), List.getElem_range]
    omega

theorem visits_all {n k : Nat} (positive : 0 < k) (enough : k ≤ n) : ∃ visited, Visits n (List.range k) visited ∧
    visited.length ≤ n.choose k ∧ visited.Nodup ∧
      ∀ other, other ∈ visited ↔ Combination n other ∧ other.length = k := by
  have first : Combination n (List.range k) :=
    ⟨List.pairwise_lt_range, fun i member => (List.mem_range.mp member).trans_le enough⟩
  obtain ⟨visited, visits, count, members⟩ :=
    exists_visits (List.range k) first (by rw [List.length_range]; exact positive)
  rw [remaining_range] at count members
  have all : visited.toFinset = combinations n k := by
    ext other
    rw [List.mem_toFinset, members]
  refine ⟨visited, visits, count.trans (card_combinations_le n k), ?_, fun other => by rw [members, mem_combinations]⟩
  rw [← all] at count
  exact Multiset.coe_nodup.mp (Multiset.toFinset_card_eq_card_iff_nodup.mp
    (le_antisymm (List.toFinset_card_le visited) count))

end AdicProof.Finality
