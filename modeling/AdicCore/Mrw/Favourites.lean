import AdicCore.Mrw.ParentSelection

open AdicModel AdicModel.Crypto AdicModel.Mrw HashMap

namespace AdicProof.Mrw

def OnePrime (features : AdicFeatures) (tips : List ParentCandidate) : Prop :=
  ∃ p, (∀ phi ∈ features.phi, phi.qpDigits.p = p) ∧ ∀ tip ∈ tips, ∀ digits ∈ tip.features, digits.p = p

structure AllAxes (params : SelectionParams) (features : AdicFeatures) : Prop where
  radii : params.rho.length = params.d.toNat
  axes : ∀ axis < params.d.toNat, (features.getAxis ⟨UInt32.ofNat axis⟩).isSome = true

section

variable {params : SelectionParams} {chance : Chance} {features : AdicFeatures} {tips : List ParentCandidate}
  {tip : ParentCandidate} {round horizon axis : Nat} {p : UInt32}

theorem proximityScore_ok {x y : QpDigits} (same : x.p = y.p) (radius : UInt32) :
    ∃ proximity, proximityScore x y radius = .ok proximity := by
  unfold proximityScore vpDiff
  split
  · exact ⟨_, rfl⟩
  · rw [if_neg (not_not.mpr same)]
    exact ⟨_, rfl⟩

theorem drawTip_ok (own : ∀ digits ∈ tip.features, digits.p = p) {msgAxis : AxisPhi} (prime : msgAxis.qpDigits.p = p)
    (radius : UInt32) (place : Nat) : ∃ drawn, drawTip chance round axis msgAxis radius tip place = .ok drawn := by
  unfold drawTip
  cases found : tip.features[axis]? with
  | none => exact ⟨_, rfl⟩
  | some tipPhi =>
    obtain ⟨proximity, scored⟩ := proximityScore_ok (prime.trans (own tipPhi (List.mem_of_getElem? found)).symm) radius
    dsimp only
    rw [scored]
    dsimp only [bind, Except.bind]
    split
    · exact ⟨_, rfl⟩
    · exact ⟨_, rfl⟩

theorem axisCandidates_ok (all : AllAxes params features) (prime : ∀ phi ∈ features.phi, phi.qpDigits.p = p)
    (own : ∀ tip ∈ tips, ∀ digits ∈ tip.features, digits.p = p) (inside : axis < params.d.toNat) :
    ∃ candidates, axisCandidates params chance features round horizon tips axis = .ok candidates := by
  obtain ⟨msgAxis, found⟩ := Option.isSome_iff_exists.mp (all.axes axis inside)
  obtain ⟨radius, listed⟩ : ∃ radius, params.rho[axis]? = some radius :=
    ⟨_, List.getElem?_eq_getElem (all.radii ▸ inside)⟩
  unfold axisCandidates
  rw [found]
  dsimp only
  rw [listed]
  dsimp only
  have each : ∀ place ∈ (tips.take horizon).zipIdx,
      ∃ drawn, drawTip chance round axis msgAxis radius place.1 place.2 = .ok drawn := by
    rintro ⟨tip, place⟩ placed
    have member := List.mem_of_mem_take (List.fst_mem_of_mem_zipIdx placed)
    exact drawTip_ok (own tip member) (prime msgAxis (List.mem_of_find?_eq_some found)) radius place
  obtain ⟨drawn, loop⟩ := Fallible.mapM_of_rounds each
  rw [loop]
  exact ⟨_, rfl⟩

theorem collectAxes_ok {axes : List Nat} (each : ∀ axis ∈ axes, ∃ candidates,
    axisCandidates params chance features round horizon tips axis = .ok candidates)
    (collected : Table UInt32 (List ParentCandidate)) (trace : MrwTrace) :
    ∃ after, collectAxes params chance features round horizon tips axes collected trace = .ok after := by
  induction axes generalizing collected trace with
  | nil => exact ⟨_, rfl⟩
  | cons axis axes ih =>
    obtain ⟨candidates, here⟩ := each axis List.mem_cons_self
    unfold collectAxes
    rw [here]
    exact ih (fun other member => each other (List.mem_cons_of_mem axis member)) _ _

theorem runMrwPerAxis_ok (each : ∀ axis < params.d.toNat, ∃ candidates,
    axisCandidates params chance features round horizon tips axis = .ok candidates) (trace : MrwTrace) :
    ∃ after, runMrwPerAxis params chance features round horizon tips trace = .ok after := by
  obtain ⟨after, loop⟩ := collectAxes_ok (fun axis member => each axis (List.mem_range.mp member)) ∅ trace
  unfold runMrwPerAxis
  rw [loop]
  exact ⟨_, rfl⟩

theorem searchRounds_ok (each : ∀ round horizon, ∀ axis < params.d.toNat, ∃ candidates,
    axisCandidates params chance features round horizon tips axis = .ok candidates) (attempts round horizon : Nat)
    (trace : MrwTrace) :
    ∃ after, searchRounds params chance features tips attempts round horizon trace = .ok after := by
  induction attempts generalizing round horizon trace with
  | zero => exact ⟨_, rfl⟩
  | succ attempts ih =>
    obtain ⟨⟨candidates, traced⟩, ran⟩ := runMrwPerAxis_ok (each round horizon) trace
    unfold searchRounds
    rw [ran]
    dsimp only [bind, Except.bind]
    cases sampleDiverseParents params candidates with
    | ok parents => exact ⟨_, rfl⟩
    | error error =>
      dsimp only
      split
      · exact ⟨_, rfl⟩
      · exact ih _ _ _

theorem totalWeight_ok (prime : ∀ phi ∈ features.phi, phi.qpDigits.p = p)
    (own : ∀ digits ∈ tip.features, digits.p = p) :
    ∃ weight, totalWeight params chance features tip = .ok weight := by
  have each : ∀ msgAxis ∈ features.phi.zipIdx, ∃ weight, axisWeight params chance tip msgAxis = .ok weight := by
    rintro ⟨msgAxis, axis⟩ placed
    unfold axisWeight
    cases found : tip.features[axis]? with
    | none => exact ⟨_, rfl⟩
    | some tipPhi =>
      have axisPrime := prime msgAxis (List.fst_mem_of_mem_zipIdx placed)
      have same := axisPrime.trans (own tipPhi (List.mem_of_getElem? found)).symm
      obtain ⟨proximity, scored⟩ := proximityScore_ok same ((params.rho[axis]?).getD 2)
      dsimp only
      rw [scored]
      exact ⟨_, rfl⟩
  obtain ⟨weights, loop⟩ := Fallible.mapM_of_rounds each
  unfold totalWeight
  rw [loop]
  exact ⟨_, rfl⟩

theorem selectBestAvailable_ok (nonempty : tips ≠ []) (prime : ∀ phi ∈ features.phi, phi.qpDigits.p = p)
    (own : ∀ tip ∈ tips, ∀ digits ∈ tip.features, digits.p = p) :
    ∃ parents, selectBestAvailable params chance features tips = .ok parents := by
  have each : ∀ tip ∈ tips, ∃ weighted, weighTip params chance features tip = .ok weighted := by
    intro tip member
    obtain ⟨weight, weighed⟩ := totalWeight_ok prime (own tip member)
    unfold weighTip
    rw [weighed]
    exact ⟨_, rfl⟩
  obtain ⟨weighted, loop⟩ := Fallible.mapM_of_rounds each
  unfold selectBestAvailable
  rw [if_neg nonempty, loop]
  exact ⟨_, rfl⟩

theorem selectParents_ok (nonempty : tips ≠ []) (all : AllAxes params features) (onePrime : OnePrime features tips) :
    ∃ ids trace, selectParents params chance features tips = .ok (ids, trace) := by
  obtain ⟨p, prime, own⟩ := onePrime
  unfold selectParents
  split
  · unfold selectBootstrapParents
    rw [if_neg nonempty]
    exact ⟨_, _, rfl⟩
  · have each (round horizon axis : Nat) (inside : axis < params.d.toNat) : ∃ candidates,
        axisCandidates params chance features round horizon tips axis = .ok candidates :=
      axisCandidates_ok all prime own inside
    obtain ⟨⟨found, trace⟩, searched⟩ := searchRounds_ok each 10 0 (requiredParents params * 2) .new
    rw [searched]
    dsimp only [bind, Except.bind]
    cases found with
    | some parents => exact ⟨_, _, rfl⟩
    | none =>
      obtain ⟨parents, best⟩ := @selectBestAvailable_ok params chance features tips p nonempty prime own
      dsimp only
      rw [best]
      exact ⟨_, _, rfl⟩

end

def refusing (bound : ℚ) (atLeast : 1 ≤ bound) : Chance where
  computeWeight _ reputation _ _ := if 0 < reputation then reputation else 1
  positive _ reputation _ _ := by
    split
    · assumption
    · exact one_pos
  draws _ _ _ := bound / (bound + 1)
  inUnit _ _ _ := by
    have positive : 0 < bound := lt_of_lt_of_le one_pos atLeast
    refine ⟨by positivity, ?_⟩
    rw [div_lt_one (by positivity)]
    exact lt_add_one bound
  order := .stored

def favour (bound : ℚ) (chosen : List MessageId) (tip : ParentCandidate) : ParentCandidate :=
  { tip with reputation := if tip.messageId ∈ chosen then bound else 1 }

section

variable {params : SelectionParams} {features : AdicFeatures} {tips candidates parents : List ParentCandidate}
  {tip candidate : ParentCandidate} {bound : ℚ} {atLeast : 1 ≤ bound} {chosen : List MessageId}
  {round horizon axis place : Nat}

theorem weigh_favour (proximity : ℚ) :
    (refusing bound atLeast).weigh proximity (favour bound chosen tip) =
      if tip.messageId ∈ chosen then bound else 1 := by
  have positive : 0 < (favour bound chosen tip).reputation := by
    show 0 < if tip.messageId ∈ chosen then bound else 1
    split
    · exact lt_of_lt_of_le one_pos atLeast
    · exact one_pos
  exact if_pos positive

theorem refused {msgAxis : AxisPhi} {radius : UInt32} :
    drawTip (refusing bound atLeast) round axis msgAxis radius (favour bound chosen tip) place ≠
      .ok (some candidate) := by
  intro drawn
  unfold drawTip at drawn
  split at drawn
  · cases drawn
  · obtain ⟨proximity, _, drawn⟩ := Fallible.bind_ok drawn
    dsimp only at drawn
    split at drawn
    · next low =>
      rw [weigh_favour] at low
      replace low : bound / (bound + 1) < _ := low
      have positive : 0 < bound := lt_of_lt_of_le one_pos atLeast
      split at low
      · exact lt_irrefl _ low
      · rw [div_lt_div_iff₀ (by positivity) (by norm_num)] at low
        linarith
    · cases drawn

theorem no_candidates {trace trace' : MrwTrace}
    (ran : runMrwPerAxis params (refusing bound atLeast) features round horizon (tips.map (favour bound chosen)) trace =
      .ok (candidates, trace')) : candidates = [] := by
  have none : Candidates [] candidates := by
    refine runMrwPerAxis_sources (fun axis drawn collected candidate member => ?_) ran
    unfold axisCandidates at collected
    split at collected
    · cases collected
    · split at collected
      · cases collected
      · obtain ⟨results, loop, collected⟩ := Fallible.bind_ok collected
        cases collected
        obtain ⟨result, listed, same⟩ := List.mem_filterMap.mp member
        obtain ⟨⟨other, place⟩, placed, drew⟩ := Fallible.mapM_ok loop listed
        rw [show result = some candidate from same] at drew
        obtain ⟨tip, _, rfl⟩ := List.mem_map.mp (List.mem_of_mem_take (List.fst_mem_of_mem_zipIdx placed))
        exact absurd drew refused
  refine List.eq_nil_iff_forall_not_mem.mpr fun candidate member => ?_
  obtain ⟨tip, listed, _⟩ := none.own candidate member
  cases listed

theorem no_round {attempts : Nat} {trace : MrwTrace} {found : Option (List ParentCandidate) × MrwTrace}
    (positive : 0 < requiredParents params)
    (ran : searchRounds params (refusing bound atLeast) features (tips.map (favour bound chosen)) attempts round horizon
      trace = .ok found) : found.1 = none := by
  induction attempts generalizing round horizon trace with
  | zero =>
    cases ran
    rfl
  | succ attempts ih =>
    obtain ⟨⟨candidates, traced⟩, drawn, ran⟩ := Fallible.bind_ok ran
    cases no_candidates drawn
    have short : sampleDiverseParents params [] = .error _ := if_pos positive
    dsimp only at ran
    rw [short] at ran
    dsimp only at ran
    split at ran
    · cases ran
      rfl
    · exact ih ran

theorem totalWeight_bounds {chance : Chance} {weight total : ℚ} (nonneg : 0 ≤ weight)
    (equal : ∀ proximity, chance.weigh proximity tip = weight)
    (summed : totalWeight params chance features tip = .ok total) :
    total ≤ weight * features.phi.length ∧ (features.phi ≠ [] → tip.features ≠ [] → weight ≤ total) := by
  unfold totalWeight at summed
  obtain ⟨weights, loop, summed⟩ := Fallible.bind_ok summed
  cases summed
  have each (place : AxisPhi × Nat) (result : ℚ) (ran : axisWeight params chance tip place = .ok result) :
      result = if tip.features[place.2]?.isSome then weight else 0 := by
    unfold axisWeight at ran
    split at ran
    · next missing =>
      cases ran
      rw [missing]
      rfl
    · next shown =>
      obtain ⟨proximity, _, ran⟩ := Fallible.bind_ok ran
      cases ran
      rw [shown, equal]
      rfl
  have bounds (result : ℚ) (listed : result ∈ weights) : 0 ≤ result ∧ result ≤ weight := by
    obtain ⟨place, _, ran⟩ := Fallible.mapM_ok loop listed
    rw [each place result ran]
    split
    · exact ⟨nonneg, le_rfl⟩
    · exact ⟨le_rfl, nonneg⟩
  have lengths : weights.length = features.phi.length := by
    rw [Fallible.length_mapM loop, List.length_zipIdx]
  constructor
  · calc
      weights.sum ≤ weights.length • weight :=
        List.sum_le_card_nsmul weights weight fun result listed => (bounds result listed).2
      _ = weight * features.phi.length := by rw [lengths, nsmul_eq_mul, mul_comm]
  · intro axes shown
    obtain ⟨first, rest, phi⟩ := List.exists_cons_of_ne_nil axes
    rw [phi, List.zipIdx_cons, List.mapM_cons] at loop
    obtain ⟨head, here, loop⟩ := Fallible.bind_ok loop
    obtain ⟨others, _, loop⟩ := Fallible.bind_ok loop
    cases loop
    have full : head = weight := by
      obtain ⟨digits, more, listed⟩ := List.exists_cons_of_ne_nil shown
      rw [each _ head here, listed]
      rfl
    rw [List.sum_cons, full]
    have nonnegative : 0 ≤ others.sum :=
      List.sum_nonneg fun result listed => (bounds result (List.mem_cons_of_mem head listed)).1
    linarith

theorem front_of_sorted {α : Type} {before : α → α → Prop} {favoured : α → Bool} {entries : List α}
    (sorted : entries.Pairwise before)
    (apart : ∀ first ∈ entries, ∀ second ∈ entries, favoured first = true → favoured second = false →
      ¬ before second first) :
    entries = entries.filter favoured ++ entries.filter fun entry => !favoured entry := by
  induction entries with
  | nil => rfl
  | cons entry entries ih =>
    rw [List.pairwise_cons] at sorted
    have rest := ih sorted.2 fun first left second right =>
      apart first (List.mem_cons_of_mem entry left) second (List.mem_cons_of_mem entry right)
    cases own : favoured entry with
    | true =>
      rw [List.filter_cons_of_pos own, List.filter_cons_of_neg (by simp [own]), List.cons_append, ← rest]
    | false =>
      have none : entries.filter favoured = [] := by
        rw [List.filter_eq_nil_iff]
        intro other member isFavoured
        exact apart other (List.mem_cons_of_mem entry member) entry List.mem_cons_self isFavoured own
          (sorted.1 other member)
      rw [none, List.nil_append] at rest
      rw [List.filter_cons_of_neg (by simp [own]), List.filter_cons_of_pos (by simp [own]), none, List.nil_append,
        ← rest]

structure Choice (params : SelectionParams) (tips : List ParentCandidate) (chosen : List MessageId) : Prop where
  length : chosen.length = requiredParents params
  distinct : chosen.Nodup
  own : ∀ id ∈ chosen, id ∈ tips.map ParentCandidate.messageId

theorem weightedTip {chance : Chance} {weighted : ParentCandidate}
    (ran : weighTip params chance features tip = .ok weighted) :
    weighted.messageId = tip.messageId ∧ totalWeight params chance features tip = .ok weighted.weight := by
  unfold weighTip at ran
  obtain ⟨weight, summed, ran⟩ := Fallible.bind_ok ran
  cases ran
  exact ⟨rfl, summed⟩

theorem returned_favourites {ids : List MessageId} {trace : MrwTrace} (choice : Choice params tips chosen)
    (distinct : (tips.map ParentCandidate.messageId).Nodup) (positive : 0 < requiredParents params)
    (many : requiredParents params < tips.length) (axes : features.phi ≠ [])
    (shown : ∀ tip ∈ tips, tip.features ≠ []) (above : features.phi.length < bound)
    (returned : selectParents params (refusing bound atLeast) features (tips.map (favour bound chosen)) =
      .ok (ids, trace)) :
    ids.Perm chosen := by
  have lengths : (tips.map (favour bound chosen)).length = tips.length := List.length_map _
  have names : (tips.map (favour bound chosen)).map ParentCandidate.messageId = tips.map ParentCandidate.messageId :=
    List.map_map
  unfold selectParents at returned
  rw [if_neg (by rw [lengths]; exact not_le.mpr many)] at returned
  obtain ⟨⟨found, traced⟩, searched, returned⟩ := Fallible.bind_ok returned
  cases no_round positive searched
  obtain ⟨parents, best, returned⟩ := Fallible.bind_ok returned
  cases returned
  obtain ⟨weighted, loop, rfl⟩ := selectBestAvailable_cases best
  have same := identity_weighted loop
  have weightedIds : weighted.map ParentCandidate.messageId = tips.map ParentCandidate.messageId := by
    have firsts := congrArg (List.map Prod.fst) same
    rw [List.map_map, List.map_map] at firsts
    exact firsts.trans names
  have order := List.perm_insertionSort heavier weighted
  have sorted : (weighted.insertionSort heavier).Pairwise heavier := by
    have total : Std.Total heavier := ⟨fun first second => le_total second.weight first.weight⟩
    have transitive : IsTrans ParentCandidate heavier := ⟨fun first second third left right => le_trans right left⟩
    exact List.pairwise_insertionSort heavier weighted
  have split := @front_of_sorted _ heavier (fun tip => decide (tip.messageId ∈ chosen)) _ sorted (by
    intro first left second right isChosen other lighter
    obtain ⟨tip, listed, weighed⟩ := Fallible.mapM_ok loop (order.mem_iff.mp left)
    obtain ⟨tip', listed', weighed'⟩ := Fallible.mapM_ok loop (order.mem_iff.mp right)
    obtain ⟨tip, own, rfl⟩ := List.mem_map.mp listed
    obtain ⟨tip', own', rfl⟩ := List.mem_map.mp listed'
    obtain ⟨name, total⟩ := weightedTip weighed
    obtain ⟨name', total'⟩ := weightedTip weighed'
    replace isChosen : tip.messageId ∈ chosen := name ▸ of_decide_eq_true isChosen
    replace other : tip'.messageId ∉ chosen := name' ▸ of_decide_eq_false other
    have heavy := (totalWeight_bounds (le_trans zero_le_one atLeast) (fun proximity =>
      (weigh_favour proximity).trans (if_pos isChosen)) total).2 axes (shown tip own)
    have light := (totalWeight_bounds zero_le_one (fun proximity =>
      (weigh_favour proximity).trans (if_neg other)) total').1
    replace lighter : first.weight ≤ second.weight := lighter
    linarith)
  have front : (((weighted.insertionSort heavier).filter fun tip => decide (tip.messageId ∈ chosen)).map
      ParentCandidate.messageId).Perm chosen := by
    have ids := order.map ParentCandidate.messageId
    rw [weightedIds] at ids
    refine (List.perm_ext_iff_of_nodup ?_ choice.distinct).mpr fun id => ?_
    · exact (ids.nodup_iff.mpr distinct).sublist (List.filter_sublist.map _)
    · constructor
      · intro member
        obtain ⟨tip, listed, rfl⟩ := List.mem_map.mp member
        exact of_decide_eq_true (List.mem_filter.mp listed).2
      · intro member
        obtain ⟨tip, listed, rfl⟩ := List.mem_map.mp (ids.mem_iff.mpr (choice.own id member))
        exact List.mem_map_of_mem (List.mem_filter.mpr ⟨listed, decide_eq_true member⟩)
  have size : ((weighted.insertionSort heavier).filter fun tip => decide (tip.messageId ∈ chosen)).length =
      requiredParents params := by
    rw [← choice.length, ← front.length_eq, List.length_map]
  have enough : requiredParents params ≤ (weighted.insertionSort heavier).length := by
    rw [order.length_eq, ← List.length_map (f := ParentCandidate.messageId), weightedIds, List.length_map]
    exact many.le
  rw [cycle_eq_take enough, split, List.take_left' size]
  exact front

end

end AdicProof.Mrw
