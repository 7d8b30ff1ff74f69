import AdicCore.Mrw.Favourites

open AdicModel AdicModel.Crypto AdicModel.Mrw HashMap

namespace AdicProof.Mrw

theorem countDistinctBalls_perm {points points' : List QpDigits} (perm : points.Perm points') (radius : Nat) :
    countDistinctBalls points radius = countDistinctBalls points' radius :=
  ((perm.map _).dedup).length_eq

theorem verifyAxes_perm {q : UInt32} {parentFeatures parentFeatures' : List (List QpDigits)}
    (perm : parentFeatures.Perm parentFeatures') (axes : List (UInt32 × Nat)) (counts : List Nat) :
    verifyAxes q parentFeatures axes counts = verifyAxes q parentFeatures' axes counts := by
  induction axes generalizing counts with
  | nil => rfl
  | cons axis axes ih =>
    obtain ⟨radius, axisIdx⟩ := axis
    have shown := perm.filterMap fun features : List QpDigits => features[axisIdx]?
    unfold verifyAxes
    dsimp only
    rw [shown.length_eq, perm.length_eq, countDistinctBalls_perm shown radius.toNat]
    split
    · rfl
    · split
      · rfl
      · exact ih _

def parentFeatures (tips : List ParentCandidate) (ids : List MessageId) : List (List QpDigits) :=
  ids.filterMap fun id => (tips.find? fun tip => tip.messageId = id).map ParentCandidate.features

def MeetsC2 (params : AdicParams) (tips : List ParentCandidate) (ids : List MessageId) : Prop :=
  ∃ counts, verifyC2Diversity params.rho params.q (parentFeatures tips ids) = .ok (true, counts)

variable {tips : List ParentCandidate} {params : AdicParams}

theorem meetsC2_perm {ids other : List MessageId}
    (perm : ids.Perm other) : MeetsC2 params tips ids ↔ MeetsC2 params tips other := by
  unfold MeetsC2 verifyC2Diversity parentFeatures
  rw [verifyAxes_perm (perm.filterMap _)]

structure Rules (params : AdicParams) (tips : List ParentCandidate) (ids : List MessageId) : Prop where
  number : ids.length = params.d.toNat + 1
  own : ∀ id ∈ ids, id ∈ tips.map ParentCandidate.messageId
  distinct : params.d.toNat + 1 ≤ tips.length → hasDuplicateParents ids = false
  all : tips.length ≤ params.d.toNat + 1 → ∀ tip ∈ tips, tip.messageId ∈ ids

theorem requiredParents_eq (fits : params.d.toNat + 1 < UInt32.size) :
    requiredParents (.fromAdicParams params) = params.d.toNat + 1 := by
  show (params.d + 1).toNat = _
  rw [UInt32.toNat_add, UInt32.toNat_one]
  exact Nat.mod_eq_of_lt fits

variable {features : AdicFeatures} {ids : List MessageId}

theorem rules_of_returned (fits : params.d.toNat + 1 < UInt32.size) {chance : Chance}
    (distinct : (tips.map ParentCandidate.messageId).Nodup)
    {trace : MrwTrace}
    (returned : selectParents (.fromAdicParams params) chance features tips = .ok (ids, trace)) :
    Rules params tips ids := by
  obtain ⟨parents, rfl, picked, all⟩ := selectParents_picked distinct returned
  have required := requiredParents_eq fits
  refine ⟨?_, fun id member => ?_, fun enough => ?_, fun few tip member => ?_⟩
  · rw [List.length_map, picked.length, required]
  · obtain ⟨parent, listed, rfl⟩ := List.mem_map.mp member
    obtain ⟨tip, own, same⟩ := picked.own parent listed
    exact List.mem_map.mpr ⟨tip, own, (congrArg Prod.fst same).symm⟩
  · unfold hasDuplicateParents
    rw [(picked.distinct (required ▸ enough)).dedup]
    exact decide_eq_false (not_not.mpr rfl)
  · exact List.mem_map_of_mem (all (required.symm ▸ few) tip member)

theorem nodup_of_noDuplicate (noDuplicate : hasDuplicateParents ids = false) : ids.Nodup := by
  unfold hasDuplicateParents at noDuplicate
  exact List.dedup_eq_self.mp ((List.dedup_sublist ids).eq_of_length (not_not.mp (of_decide_eq_false noDuplicate)))

theorem perm_of_full (distinct : ids.Nodup)
    (own : ∀ id ∈ ids, id ∈ tips.map ParentCandidate.messageId) (full : tips.length ≤ ids.length) :
    ids.Perm (tips.map ParentCandidate.messageId) :=
  (distinct.subperm own).perm_of_length_le (by rwa [List.length_map])

def SameTips (tips other : List ParentCandidate) : Prop := other.map identity = tips.map identity

theorem messageIds_of_sameTips {tips other : List ParentCandidate} (same : SameTips tips other) :
    other.map ParentCandidate.messageId = tips.map ParentCandidate.messageId := by
  have firsts := congrArg (List.map Prod.fst) same
  rw [List.map_map, List.map_map] at firsts
  exact firsts

theorem diverse_iff (fits : params.d.toNat + 1 < UInt32.size)
    (radii : params.rho.length = params.d.toNat)
    (axes : ∀ axis < params.d.toNat, (features.getAxis ⟨UInt32.ofNat axis⟩).isSome = true)
    (nonempty : tips ≠ []) (distinct : (tips.map ParentCandidate.messageId).Nodup)
    (shown : ∀ tip ∈ tips, params.d.toNat ≤ tip.features.length) (onePrime : OnePrime features tips)
    (enough : params.d.toNat + 1 ≤ tips.length) :
    (∀ chance other, SameTips tips other → ∀ ids trace,
      selectParents (.fromAdicParams params) chance features other = .ok (ids, trace) → MeetsC2 params tips ids) ↔
        ∀ chosen, Choice (.fromAdicParams params) tips chosen → MeetsC2 params tips chosen := by
  have required := requiredParents_eq fits
  constructor
  · intro always chosen choice
    by_cases noAxis : params.d.toNat = 0
    · refine ⟨[], ?_⟩
      have noRadius := List.length_eq_zero_iff.mp (radii.trans noAxis)
      unfold verifyC2Diversity
      rw [noRadius]
      rfl
    · have bounded : (1 : ℚ) ≤ features.phi.length + 1 := by
        have := Nat.cast_nonneg (α := ℚ) features.phi.length
        linarith
      have same : SameTips tips (tips.map (favour (features.phi.length + 1) chosen)) := List.map_map
      have names := messageIds_of_sameTips same
      have samePrime : OnePrime features (tips.map (favour (features.phi.length + 1) chosen)) := by
        obtain ⟨p, message, own⟩ := onePrime
        refine ⟨p, message, fun tip member => ?_⟩
        obtain ⟨source, listed, rfl⟩ := List.mem_map.mp member
        exact own source listed
      obtain ⟨ids, trace, returned⟩ := @selectParents_ok (.fromAdicParams params) (refusing _ bounded) features _
        (by simpa using nonempty) ⟨radii, axes⟩ samePrime
      have met := always _ _ same ids trace returned
      refine (meetsC2_perm ?_).mp met
      rcases Nat.lt_or_ge (params.d.toNat + 1) tips.length with many | few
      · have firstAxis := axes 0 (Nat.pos_of_ne_zero noAxis)
        refine returned_favourites choice distinct (by omega) (by omega) ?_ (fun tip member => ?_)
          (lt_add_one _) returned
        · rintro phi
          unfold AdicFeatures.getAxis at firstAxis
          rw [phi] at firstAxis
          cases firstAxis
        · intro noFeatures
          have length := shown tip member
          rw [noFeatures] at length
          exact noAxis (Nat.le_zero.mp length)
      · have rules := rules_of_returned fits (by rw [names]; exact distinct) returned
        have noDuplicate := nodup_of_noDuplicate (rules.distinct (by rw [List.length_map]; exact enough))
        have own (id : MessageId) (member : id ∈ ids) : id ∈ tips.map ParentCandidate.messageId :=
          names ▸ rules.own id member
        have left := perm_of_full noDuplicate own (rules.number ▸ few)
        have right := perm_of_full choice.distinct choice.own (by rw [choice.length, required]; exact few)
        exact left.trans right.symm
  · intro all chance other same ids trace returned
    have names := messageIds_of_sameTips same
    have rules := rules_of_returned fits (by rw [names]; exact distinct) returned
    have lengths : other.length = tips.length := by
      rw [← List.length_map (f := ParentCandidate.messageId), names, List.length_map]
    refine all ids ⟨rules.number.trans required.symm, ?_, fun id member => names ▸ rules.own id member⟩
    exact nodup_of_noDuplicate (rules.distinct (lengths ▸ enough))

theorem select_parents_rules (params : AdicParams) (fits : params.d.toNat + 1 < UInt32.size)
    (radii : params.rho.length = params.d.toNat) (features : AdicFeatures)
    (axes : ∀ axis < params.d.toNat, (features.getAxis ⟨UInt32.ofNat axis⟩).isSome = true) (tips : List ParentCandidate)
    (nonempty : tips ≠ []) (distinct : (tips.map ParentCandidate.messageId).Nodup)
    (shown : ∀ tip ∈ tips, params.d.toNat ≤ tip.features.length) :
    (∀ chance ids trace, selectParents (.fromAdicParams params) chance features tips = .ok (ids, trace) →
      Rules params tips ids) ∧
      (OnePrime features tips →
        (∀ chance, ∃ ids trace, selectParents (.fromAdicParams params) chance features tips = .ok (ids, trace)) ∧
          (params.d.toNat + 1 ≤ tips.length →
            ((∀ chance other, SameTips tips other → ∀ ids trace,
              selectParents (.fromAdicParams params) chance features other = .ok (ids, trace) →
                MeetsC2 params tips ids) ↔
                ∀ chosen, Choice (.fromAdicParams params) tips chosen → MeetsC2 params tips chosen))) := by
  refine ⟨fun chance ids trace returned => ?_, fun onePrime => ⟨fun chance => ?_, ?_⟩⟩
  · exact rules_of_returned fits distinct returned
  · exact selectParents_ok nonempty ⟨radii, axes⟩ onePrime
  · exact diverse_iff fits radii axes nonempty distinct shown onePrime

def sampleParams : AdicParams := ⟨1, [1], 2⟩

def digits (first : UInt8) : QpDigits := ⟨[first, 0], 3⟩

def sampleFeatures : AdicFeatures := ⟨[⟨⟨0⟩, digits 0⟩]⟩

def tipId (byte : UInt8) : MessageId := ⟨Bytes32.replicate byte⟩

def sampleTip (byte first : UInt8) : ParentCandidate := ⟨tipId byte, [digits first], 1, 0, 0, ∅, 0⟩

def sampleTips : List ParentCandidate := [sampleTip 1 0, sampleTip 2 0, sampleTip 3 1]

theorem select_parents_rules_three :
    (∀ chance ids trace,
      selectParents (.fromAdicParams sampleParams) chance sampleFeatures sampleTips = .ok (ids, trace) → Rules sampleParams sampleTips ids) ∧
      (∀ chance, ∃ ids trace,
        selectParents (.fromAdicParams sampleParams) chance sampleFeatures sampleTips = .ok (ids, trace)) ∧
          ((∀ chance other, SameTips sampleTips other → ∀ ids trace,
            selectParents (.fromAdicParams sampleParams) chance sampleFeatures other = .ok (ids, trace) →
              MeetsC2 sampleParams sampleTips ids) ↔
                ∀ chosen, Choice (.fromAdicParams sampleParams) sampleTips chosen →
                  MeetsC2 sampleParams sampleTips chosen) := by
  have onePrime : OnePrime sampleFeatures sampleTips := ⟨3, by decide, by
    intro tip member
    fin_cases member
    all_goals decide⟩
  obtain ⟨rules, more⟩ := select_parents_rules sampleParams (by decide) rfl sampleFeatures (by decide) sampleTips
    (List.cons_ne_nil _ _) (by decide) (by
      intro tip member
      fin_cases member
      all_goals decide)
  obtain ⟨returns, diverse⟩ := more onePrime
  exact ⟨rules, returns, diverse (by decide)⟩

theorem no_parents_of_overflow {params : SelectionParams} {chance : Chance}
    (overflow : requiredParents params = 0) (nonempty : tips ≠ [])
    (all : AllAxes params features) :
    ∃ trace, selectParents params chance features tips = .ok ([], trace) := by
  have each (axis : Nat) (inside : axis < params.d.toNat) :
      ∃ candidates, axisCandidates params chance features 0 0 tips axis = .ok candidates := by
    obtain ⟨msgAxis, found⟩ := Option.isSome_iff_exists.mp (all.axes axis inside)
    unfold axisCandidates
    rw [found]
    dsimp only
    rw [List.getElem?_eq_getElem (all.radii ▸ inside), List.take_zero]
    exact ⟨_, rfl⟩
  obtain ⟨⟨candidates, traced⟩, ran⟩ := runMrwPerAxis_ok each .new
  have sampled : sampleDiverseParents params candidates = .ok [] := by
    unfold sampleDiverseParents
    rw [overflow]
    rfl
  have searched : searchRounds params chance features tips 10 0 (0 * 2) .new = .ok (some [], traced) := by
    unfold searchRounds
    rw [Nat.zero_mul, ran]
    dsimp only [bind, Except.bind]
    rw [sampled]
    rfl
  unfold selectParents
  rw [overflow, if_neg (by simpa using nonempty), searched]
  exact ⟨_, rfl⟩

def largestParams : AdicParams := ⟨4294967295, List.replicate 4294967295 1, 1⟩

def uniformFeatures (count : Nat) : AdicFeatures :=
  ⟨(List.range count).map fun axis => ⟨⟨UInt32.ofNat axis⟩, digits 0⟩⟩

theorem getAxis_uniformFeatures {count axis : Nat} (inside : axis < count) :
    ((uniformFeatures count).getAxis ⟨UInt32.ofNat axis⟩).isSome = true := by
  unfold AdicFeatures.getAxis
  rw [List.find?_isSome]
  refine ⟨⟨⟨UInt32.ofNat axis⟩, digits 0⟩, ?_, decide_eq_true rfl⟩
  exact List.mem_map.mpr ⟨axis, List.mem_range.mpr inside, rfl⟩

def uniformTip (byte : UInt8) (count : Nat) : ParentCandidate :=
  { sampleTip byte 0 with features := List.replicate count (digits 0) }

/-- A single tip is repeated, three tips may lose their diversity, and the largest number of axes leaves no parents. -/
theorem parents_not_diverse :
    ((selectParents (.fromAdicParams sampleParams) (refusing 2 (by norm_num)) sampleFeatures
        [sampleTip 1 0]).toOption.map Prod.fst = some [tipId 1, tipId 1] ∧ hasDuplicateParents [tipId 1, tipId 1] = true) ∧
      ((selectParents (.fromAdicParams sampleParams) (refusing 2 (by norm_num)) sampleFeatures
          (sampleTips.map (favour 2 [tipId 1, tipId 2]))).toOption.map Prod.fst = some [tipId 1, tipId 2] ∧
        ¬ MeetsC2 sampleParams sampleTips [tipId 1, tipId 2] ∧ MeetsC2 sampleParams sampleTips [tipId 1, tipId 3]) ∧
        ∃ trace, selectParents (.fromAdicParams largestParams) (refusing 2 (by norm_num))
          (uniformFeatures 4294967295) [uniformTip 1 4294967295, uniformTip 2 4294967295] = .ok ([], trace) := by
  refine ⟨⟨by decide +kernel, by decide⟩, ⟨by decide +kernel, ?_, [2], by decide⟩, ?_⟩
  · rintro ⟨counts, met⟩
    have failed : verifyC2Diversity sampleParams.rho sampleParams.q (parentFeatures sampleTips [tipId 1, tipId 2]) =
        .ok (false, [1]) := by decide
    rw [failed] at met
    cases met
  · have overflow : requiredParents (.fromAdicParams largestParams) = 0 := by
      show ((4294967295 : UInt32) + 1).toNat = 0
      decide
    have radii : (SelectionParams.fromAdicParams largestParams).rho.length = 4294967295 := List.length_replicate
    have count : (SelectionParams.fromAdicParams largestParams).d.toNat = 4294967295 := by
      show (4294967295 : UInt32).toNat = 4294967295
      decide
    have all : AllAxes (.fromAdicParams largestParams) (uniformFeatures 4294967295) := by
      refine ⟨radii.trans count.symm, fun axis inside => ?_⟩
      rw [count] at inside
      exact getAxis_uniformFeatures inside
    exact no_parents_of_overflow overflow (List.cons_ne_nil _ _) all

end AdicProof.Mrw
