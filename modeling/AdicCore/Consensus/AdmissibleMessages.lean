import AdicCore.Library.Fallible
import AdicCore.Library.PaddedLists
import AdicCore.Consensus.Admissibility

open AdicModel AdicModel.Crypto AdicModel.Consensus Fallible PaddedLists

namespace AdicProof.Consensus

section

variable {p radius valuation : UInt32}

theorem toInt_toInt32 (value : UInt32) : value.toInt32.toInt = (value.toNat : ℤ).bmod (2 ^ 32) := by
  show value.toBitVec.toInt = _
  rw [BitVec.toInt_eq_toNat_bmod]
  rfl

theorem toInt_difference (first second : UInt32) :
    (first.toInt32 - second.toInt32).toInt = ((first.toNat : ℤ) - second.toNat).bmod (2 ^ 32) := by
  rw [Int32.toInt_sub, toInt_toInt32, toInt_toInt32]
  simp

theorem toInt_max_zero (value : Int32) : (max value 0).toInt = max value.toInt 0 := by
  have order : max value 0 = if value ≤ 0 then 0 else value := rfl
  rw [order]
  split
  · next low =>
    rw [Int32.le_iff_toInt_le] at low
    exact (max_eq_right low).symm
  · next high =>
    rw [Int32.le_iff_toInt_le, not_le] at high
    exact (max_eq_left high.le).symm

theorem proximityTerm_eq (p radius valuation : UInt32) :
    proximityTerm p radius valuation =
      (p.toNat : ℚ) ^ (-max (((radius.toNat : ℤ) - valuation.toNat).bmod (2 ^ 32)) 0) := by
  unfold proximityTerm
  dsimp only
  rw [toInt_max_zero, toInt_difference]

theorem proximityTerm_le (base : 2 ≤ p.toNat) : proximityTerm p radius valuation ≤ 1 := by
  have positive : (1 : ℚ) ≤ p.toNat := by
    exact_mod_cast Nat.le_of_lt base
  rw [proximityTerm_eq]
  apply zpow_le_one_of_nonpos₀ positive
  simp

theorem proximityTerm_lt (base : 2 ≤ p.toNat) (small : radius.toNat < 2 ^ 31) (short : valuation.toNat < radius.toNat) :
    proximityTerm p radius valuation < 1 := by
  have positive : (1 : ℚ) < p.toNat := by
    exact_mod_cast base
  have exact : ((radius.toNat : ℤ) - valuation.toNat).bmod (2 ^ 32) = radius.toNat - valuation.toNat := by
    rw [Int.bmod_def]
    omega
  rw [proximityTerm_eq, exact]
  apply zpow_lt_one_of_neg₀ positive
  omega

theorem proximityTerm_eq_one (near : ((radius.toNat : ℤ) - valuation.toNat).bmod (2 ^ 32) ≤ 0) :
    proximityTerm p radius valuation = 1 := by
  rw [proximityTerm_eq, max_eq_right near]
  simp

end

variable {points : List QpDigits}

section

variable {x y : QpDigits} {radius valuation : Nat}

def digitAt (x : QpDigits) (i : Nat) : UInt8 := (x.digits[i]?).getD 0

theorem vpDiff_agree (computed : Mrw.vpDiff x y = .ok valuation) {i : Nat} (before : i < valuation) :
    digitAt x i = digitAt y i := by
  unfold Mrw.vpDiff at computed
  split at computed
  · cases computed
  · cases computed
    exact entry_of_lt_agreement before

def padded (x : QpDigits) (radius : Nat) : List UInt8 := (List.range radius).map (digitAt x)

theorem ballId_of_agree (agree : ∀ i < radius, digitAt x i = digitAt y i) :
    y.ballId radius = (padded x radius).take (min radius y.digits.length) := by
  apply List.ext_getElem?
  intro i
  unfold QpDigits.ballId padded
  rw [List.getElem?_take, List.getElem?_take]
  by_cases inside : i < min radius y.digits.length
  · have bounds := lt_min_iff.mp inside
    rw [if_pos bounds.1, if_pos inside, List.getElem?_map, List.getElem?_range bounds.1]
    rw [Option.map_some, agree i bounds.1, digitAt, List.getElem?_eq_getElem bounds.2, Option.getD_some]
  · rw [if_neg inside]
    split
    · apply List.getElem?_eq_none
      omega
    · rfl

theorem countDistinctBalls_le
    (agree : ∀ point ∈ points, ∀ i < radius, digitAt x i = digitAt point i) :
    countDistinctBalls points radius ≤ radius + 1 := by
  have inside : (points.map fun point => point.ballId radius).toFinset ⊆
      (Finset.range (radius + 1)).image fun length => (padded x radius).take length := by
    intro ball member
    obtain ⟨point, listed, rfl⟩ := List.mem_map.mp (List.mem_toFinset.mp member)
    rw [Finset.mem_image]
    refine ⟨min radius point.digits.length, ?_, (ballId_of_agree (agree point listed)).symm⟩
    rw [Finset.mem_range]
    omega
  have card := Finset.card_le_card inside
  have image : ((Finset.range (radius + 1)).image fun length => (padded x radius).take length).card ≤ radius + 1 := by
    simpa using Finset.card_image_le (s := Finset.range (radius + 1)) (f := fun length => (padded x radius).take length)
  rw [List.card_toFinset] at card
  exact card.trans image

end

section

variable {p radius q : UInt32} {msgPhi : QpDigits} {message : AdicMessage} {parentFeatures : List (List QpDigits)}

theorem minTerm_le {start result : Option ℚ} (ran : minTerm p radius msgPhi points start = .ok result) :
    (∀ bound, start = some bound → ∃ least, result = some least ∧ least ≤ bound) ∧
      ∀ point ∈ points, ∃ valuation least, Mrw.vpDiff msgPhi point = .ok valuation ∧ result = some least ∧
        least ≤ proximityTerm p radius (UInt32.ofNat valuation) := by
  induction points generalizing start with
  | nil =>
    cases ran
    constructor
    · intro bound same
      exact ⟨bound, same, le_refl bound⟩
    · intro point member
      cases member
  | cons point points ih =>
    obtain ⟨valuation, computed, ran⟩ := bind_ok ran
    obtain ⟨bounded, others⟩ := ih ran
    have first : ∃ least, result = some least ∧ least ≤ proximityTerm p radius (UInt32.ofNat valuation) ∧
        ∀ bound, start = some bound → least ≤ bound := by
      cases start with
      | none =>
        obtain ⟨least, same, below⟩ := bounded _ rfl
        exact ⟨least, same, below, by simp⟩
      | some bound =>
        by_cases lower : proximityTerm p radius (UInt32.ofNat valuation) < bound
        · obtain ⟨least, same, below⟩ := bounded (proximityTerm p radius (UInt32.ofNat valuation)) (by simp [lower])
          refine ⟨least, same, below, ?_⟩
          intro other equal
          cases equal
          exact below.trans lower.le
        · obtain ⟨least, same, below⟩ := bounded bound (by simp [lower])
          refine ⟨least, same, below.trans (not_lt.mp lower), ?_⟩
          intro other equal
          cases equal
          exact below
    obtain ⟨least, same, below, bound⟩ := first
    constructor
    · intro other started
      exact ⟨least, same, bound other started⟩
    · intro other member
      rcases List.mem_cons.mp member with rfl | later
      · exact ⟨valuation, least, computed, same, below⟩
      · exact others other later

theorem minTerm_le_one (base : 2 ≤ p.toNat) {least : ℚ}
    (ran : minTerm p radius msgPhi points none = .ok (some least)) : least ≤ 1 := by
  cases points with
  | nil => cases ran
  | cons point points =>
    obtain ⟨valuation, least', _, same, below⟩ := (minTerm_le ran).2 point List.mem_cons_self
    cases same
    exact below.trans (proximityTerm_le base)

def axisPoints (parentFeatures : List (List QpDigits)) (axis : Nat) : List QpDigits :=
  parentFeatures.filterMap fun features => features[axis]?

def FullAxis (p : UInt32) (message : AdicMessage) (parentFeatures : List (List QpDigits)) (entry : UInt32 × Nat) : Prop :=
  ∃ msgPhi least, message.features.getAxis ⟨UInt32.ofNat entry.2⟩ = some msgPhi ∧
    minTerm p entry.1 msgPhi.qpDigits (axisPoints parentFeatures entry.2) none = .ok (some least) ∧ 1 ≤ least

theorem admissibilityScore_le (base : 2 ≤ p.toNat) {axes : List (UInt32 × Nat)} {start total : ℚ}
    (ran : AdmissibilityChecker.admissibilityScore p message parentFeatures axes start = .ok total) :
    total ≤ start + axes.length ∧
      (start + axes.length ≤ total → ∀ entry ∈ axes, FullAxis p message parentFeatures entry) := by
  induction axes generalizing start with
  | nil =>
    cases ran
    simp
  | cons entry axes ih =>
    obtain ⟨radius, axisIdx⟩ := entry
    rw [List.length_cons, Nat.cast_succ]
    unfold AdmissibilityChecker.admissibilityScore at ran
    split at ran
    · have bounds := ih ran
      constructor
      · linarith [bounds.1]
      · intro full
        exact absurd bounds.1 (by linarith)
    · next msgPhi placed =>
      obtain ⟨least, computed, ran⟩ := bind_ok ran
      have bounds := ih ran
      cases least with
      | none =>
        rw [Option.getD_none] at bounds
        constructor
        · linarith [bounds.1]
        · intro full
          exact absurd bounds.1 (by linarith)
      | some least =>
        rw [Option.getD_some] at bounds
        have atMost := minTerm_le_one base computed
        constructor
        · linarith [bounds.1]
        · intro full entry member
          rcases List.mem_cons.mp member with rfl | later
          · exact ⟨msgPhi, least, placed, computed, by linarith [bounds.1]⟩
          · exact bounds.2 (by linarith) entry later

theorem securityScore_eq (p : UInt32) (message : AdicMessage) (parentFeatures : List (List QpDigits))
    (axes : List (UInt32 × Nat)) (start : ℚ) :
    securityScore p message parentFeatures axes start =
      AdmissibilityChecker.admissibilityScore p message parentFeatures axes start := by
  induction axes generalizing start with
  | nil => rfl
  | cons entry axes ih =>
    obtain ⟨radius, axisIdx⟩ := entry
    unfold securityScore AdmissibilityChecker.admissibilityScore
    cases message.features.getAxis ⟨UInt32.ofNat axisIdx⟩ with
    | none => exact ih start
    | some msgPhi =>
      dsimp only
      cases minTerm p radius msgPhi.qpDigits (parentFeatures.filterMap fun features => features[axisIdx]?) none with
      | error error => rfl
      | ok least =>
        cases least with
        | none =>
          show securityScore p message parentFeatures axes start = _
          rw [ih]
          simp [bind, Except.bind]
        | some least => exact ih (start + least)

/-- All parents have an axis, and they meet enough balls on it. -/
def DiverseAxis (q : UInt32) (parentFeatures : List (List QpDigits)) (entry : UInt32 × Nat) : Prop :=
  (axisPoints parentFeatures entry.2).length = parentFeatures.length ∧
    q.toNat ≤ countDistinctBalls (axisPoints parentFeatures entry.2) entry.1.toNat

theorem c2Axes_passed (axes : List (UInt32 × Nat)) :
    (AdmissibilityChecker.c2Axes q parentFeatures axes).1 = true ↔ ∀ entry ∈ axes, DiverseAxis q parentFeatures entry := by
  induction axes with
  | nil => simp [AdmissibilityChecker.c2Axes]
  | cons entry axes ih =>
    obtain ⟨radius, axisIdx⟩ := entry
    unfold AdmissibilityChecker.c2Axes
    rw [List.forall_mem_cons]
    dsimp only
    split
    · next missing => simp [DiverseAxis, axisPoints, missing]
    · next all =>
      split
      · next few =>
        have notDiverse : ¬ DiverseAxis q parentFeatures (radius, axisIdx) := fun diverse => absurd diverse.2 (not_le.mpr few)
        simp [notDiverse]
      · next enough =>
        have diverse : DiverseAxis q parentFeatures (radius, axisIdx) := ⟨not_not.mp all, not_lt.mp enough⟩
        rw [ih]
        simp [diverse]

theorem verifyAxes_passed (axes : List (UInt32 × Nat)) (counts : List Nat) :
    (∃ counts', verifyAxes q parentFeatures axes counts = .ok (true, counts')) ↔
      ∀ entry ∈ axes, DiverseAxis q parentFeatures entry := by
  induction axes generalizing counts with
  | nil => simp [verifyAxes]
  | cons entry axes ih =>
    obtain ⟨radius, axisIdx⟩ := entry
    unfold verifyAxes
    rw [List.forall_mem_cons]
    dsimp only
    split
    · next missing => simp [DiverseAxis, axisPoints, missing]
    · next all =>
      split
      · next few =>
        have notDiverse : ¬ DiverseAxis q parentFeatures (radius, axisIdx) := fun diverse => absurd diverse.2 (not_le.mpr few)
        simp [notDiverse]
      · next enough =>
        have diverse : DiverseAxis q parentFeatures (radius, axisIdx) := ⟨not_not.mp all, not_lt.mp enough⟩
        rw [ih]
        simp [diverse]

theorem ultrametricC2_passed {params : Consensus.AdicParams} :
    (AdmissibilityChecker.ultrametricC2 params parentFeatures).1 = true ↔
      ∀ entry ∈ params.rho.zipIdx, DiverseAxis params.q parentFeatures entry := by
  rw [← verifyAxes_passed params.rho.zipIdx []]
  unfold AdmissibilityChecker.ultrametricC2 verifyC2Diversity
  cases verifyAxes params.q parentFeatures params.rho.zipIdx [] with
  | error error => simp
  | ok verified =>
    obtain ⟨passed, counts⟩ := verified
    simp

end

def Admits (format : NumberFormat) (params : Consensus.AdicParams) (useUltrametric : Bool) (message : AdicMessage)
    (parentFeatures : List (List QpDigits)) (parentReputations : List ℚ) : Prop :=
  ∃ result, (AdmissibilityChecker.withUltrametricOption params useUltrametric).checkMessage format message parentFeatures
    parentReputations = .ok result ∧ result.isAdmissible = true

/-- One list of features and one reputation for each of `d + 1` parents. -/
structure ForParents (params : Consensus.AdicParams) (message : AdicMessage) (parentFeatures : List (List QpDigits))
    (parentReputations : List ℚ) : Prop where
  distinct : message.parents.Nodup
  parents : message.parents.length = params.d.toNat + 1
  features : parentFeatures.length = params.d.toNat + 1
  reputations : parentReputations.length = params.d.toNat + 1

structure ValidParams (params : Consensus.AdicParams) : Prop where
  base : 2 ≤ params.p.toNat
  axes : params.rho.length = params.d.toNat
  dimension : 1 ≤ params.d.toNat
  radii : ∀ radius ∈ params.rho, 1 ≤ radius.toNat
  balls : 2 ≤ params.q.toNat
  parents : params.q.toNat ≤ params.d.toNat + 1

/-- On every axis there are as many lengths of digits up to the radius as balls are asked for. -/
def HasRoom (params : Consensus.AdicParams) : Prop :=
  params.d.toNat + 1 < 2 ^ 32 ∧
    ∀ radius ∈ params.rho, params.q.toNat ≤ radius.toNat + 1 ∨ 2 ^ 31 ≤ radius.toNat

variable {radius : UInt32}

section

variable {format : NumberFormat} {params : Consensus.AdicParams} {useUltrametric : Bool} {message : AdicMessage}
  {parentFeatures : List (List QpDigits)} {parentReputations : List ℚ}

theorem scoreOf_eq (params : Consensus.AdicParams) (useUltrametric : Bool) (message : AdicMessage)
    (parentFeatures : List (List QpDigits)) :
    (AdmissibilityChecker.withUltrametricOption params useUltrametric).scoreOf message parentFeatures =
      AdmissibilityChecker.computeAdmissibilityScore params message parentFeatures := by
  cases useUltrametric with
  | false => rfl
  | true => exact securityScore_eq params.p message parentFeatures params.rho.zipIdx 0

theorem c2Of_passed : ((AdmissibilityChecker.withUltrametricOption params useUltrametric).c2Of parentFeatures).1 = true ↔
    ∀ entry ∈ params.rho.zipIdx, DiverseAxis params.q parentFeatures entry := by
  cases useUltrametric with
  | false => exact c2Axes_passed params.rho.zipIdx
  | true => exact ultrametricC2_passed

theorem admits_iff : Admits format params useUltrametric message parentFeatures parentReputations ↔
    message.parents.length = (params.d + 1).toNat ∧
      (∃ score, AdmissibilityChecker.computeAdmissibilityScore params message parentFeatures = .ok score ∧
        params.d.toNat ≤ score) ∧
      (∀ entry ∈ params.rho.zipIdx, DiverseAxis params.q parentFeatures entry) ∧
      (AdmissibilityChecker.checkC3Reputation format params parentReputations).1 = true := by
  have same : (AdmissibilityChecker.withUltrametricOption params useUltrametric).params = params := rfl
  unfold Admits AdmissibilityChecker.checkMessage
  dsimp only
  rw [same, scoreOf_eq, ← @c2Of_passed params useUltrametric]
  by_cases count : message.parents.length = (params.d + 1).toNat
  · rw [if_neg (not_not.mpr count)]
    cases AdmissibilityChecker.computeAdmissibilityScore params message parentFeatures with
    | error error => simp [bind, Except.bind]
    | ok value => simp [bind, Except.bind, pure, Except.pure, AdmissibilityResult.new, count, and_assoc]
  · rw [if_pos count]
    constructor
    · rintro ⟨result, failed, _⟩
      cases failed
    · intro passed
      exact absurd passed.1 count

theorem axis_agrees (base : 2 ≤ params.p.toNat) {axis : Nat} (small : radius.toNat < 2 ^ 31)
    (full : FullAxis params.p message parentFeatures (radius, axis)) :
    ∃ msgPhi : QpDigits, ∀ point ∈ axisPoints parentFeatures axis, ∀ i < radius.toNat, digitAt msgPhi i = digitAt point i := by
  obtain ⟨msgPhi, least, _, computed, most⟩ := full
  refine ⟨msgPhi.qpDigits, ?_⟩
  intro point member i inside
  obtain ⟨valuation, least', differ, same, below⟩ := (minTerm_le computed).2 point member
  cases same
  apply vpDiff_agree differ
  by_contra short
  have low : (UInt32.ofNat valuation).toNat < radius.toNat := by
    have size : UInt32.size = 2 ^ 32 := rfl
    rw [UInt32.toNat_ofNat_of_lt' (by omega)]
    omega
  exact absurd (proximityTerm_lt base small low) (not_lt.mpr (most.trans below))

theorem hasRoom_of_admits (valid : ValidParams params) (count : message.parents.length = params.d.toNat + 1)
    (admits : Admits format params useUltrametric message parentFeatures parentReputations) : HasRoom params := by
  obtain ⟨parents, ⟨score, computed, passed⟩, diverse, _⟩ := admits_iff.mp admits
  constructor
  · rw [count] at parents
    rw [parents]
    exact (params.d + 1).toNat_lt
  · intro radius member
    obtain ⟨axis, bound, placed⟩ := List.getElem_of_mem member
    have entry : (radius, axis) ∈ params.rho.zipIdx := by
      rw [List.mk_mem_zipIdx_iff_getElem?, List.getElem?_eq_getElem bound, placed]
    have enough := (diverse _ entry).2
    rw [or_iff_not_imp_right]
    intro small
    have reached : 0 + ((params.rho.zipIdx.length : Nat) : ℚ) ≤ score := by
      rw [List.length_zipIdx, valid.axes, zero_add]
      exact passed
    have full := (admissibilityScore_le valid.base computed).2 reached _ entry
    obtain ⟨msgPhi, agree⟩ := axis_agrees valid.base (not_le.mp small) full
    exact enough.trans (countDistinctBalls_le agree)

end

section

variable {q radius : UInt32} {d : Nat}

def fourBytes (number : Nat) : List UInt8 :=
  [UInt8.ofNat number, UInt8.ofNat (number / 256), UInt8.ofNat (number / 65536), UInt8.ofNat (number / 16777216)]

theorem fourBytes_inj {first second : Nat} (small : first < 2 ^ 32) (small' : second < 2 ^ 32)
    (same : fourBytes first = fourBytes second) : first = second := by
  simp only [fourBytes, List.cons.injEq, ← UInt8.toNat_inj, UInt8.toNat_ofNat', and_true] at same
  omega

/-- The digits of a message and of each parent: zeros cut off at different places, or far numbers. -/
def ownDigits (q radius : UInt32) : List UInt8 :=
  if q.toNat ≤ radius.toNat + 1 then List.replicate radius.toNat 0 else [0]

def parentDigits (q radius : UInt32) (parent : Nat) : List UInt8 :=
  if q.toNat ≤ radius.toNat + 1 then List.replicate (min parent radius.toNat) 0 else 1 :: fourBytes parent

theorem vpDiff_zeros (p : UInt32) {length short : Nat} (shorter : short ≤ length) :
    Mrw.vpDiff ⟨List.replicate length 0, p⟩ ⟨List.replicate short 0, p⟩ = .ok length := by
  have none : (List.range (max length short)).find? (fun i =>
      ((List.replicate length (0 : UInt8))[i]?).getD 0 ≠ ((List.replicate short (0 : UInt8))[i]?).getD 0) = none := by
    rw [List.find?_range_eq_none]
    intro i _
    simp only [List.getElem?_replicate]
    split <;> split <;> rfl
  unfold Mrw.vpDiff
  rw [if_neg (by simp)]
  dsimp only
  rw [List.length_replicate, List.length_replicate, none, Option.getD_none, max_eq_left shorter]

theorem vpDiff_first (p : UInt32) (rest : List UInt8) : Mrw.vpDiff ⟨[0], p⟩ ⟨1 :: rest, p⟩ = .ok 0 := by
  have first : (List.range (max [(0 : UInt8)].length (1 :: rest).length)).find? (fun i =>
      (([(0 : UInt8)])[i]?).getD 0 ≠ ((1 :: rest)[i]?).getD 0) = some 0 := by
    rw [List.find?_range_eq_some]
    simp
  unfold Mrw.vpDiff
  rw [if_neg (by simp)]
  dsimp only
  rw [first, Option.getD_some]

theorem parentDigits_near (p : UInt32) (room : q.toNat ≤ radius.toNat + 1 ∨ 2 ^ 31 ≤ radius.toNat) (parent : Nat) :
    ∃ valuation, Mrw.vpDiff ⟨ownDigits q radius, p⟩ ⟨parentDigits q radius parent, p⟩ = .ok valuation ∧
      proximityTerm p radius (UInt32.ofNat valuation) = 1 := by
  have bound := radius.toNat_lt
  unfold ownDigits parentDigits
  by_cases enough : q.toNat ≤ radius.toNat + 1
  · rw [if_pos enough, if_pos enough]
    refine ⟨radius.toNat, vpDiff_zeros p (min_le_right _ _), ?_⟩
    apply proximityTerm_eq_one
    rw [UInt32.ofNat_toNat]
    simp
  · rw [if_neg enough, if_neg enough]
    refine ⟨0, vpDiff_first p (fourBytes parent), ?_⟩
    apply proximityTerm_eq_one
    have large := room.resolve_left enough
    have zero : (UInt32.ofNat 0).toNat = 0 := rfl
    rw [zero, Int.bmod_def]
    omega

theorem parentDigits_diverse (p : UInt32) (small : d + 1 < 2 ^ 32) (parents : q.toNat ≤ d + 1)
    (room : q.toNat ≤ radius.toNat + 1 ∨ 2 ^ 31 ≤ radius.toNat) :
    q.toNat ≤ countDistinctBalls ((List.range (d + 1)).map fun parent => ⟨parentDigits q radius parent, p⟩)
      radius.toNat := by
  have injective : Set.InjOn (fun parent => (parentDigits q radius parent).take radius.toNat)
      (Finset.range q.toNat : Set Nat) := by
    intro first firstMember second secondMember same
    rw [Finset.coe_range, Set.mem_Iio] at firstMember secondMember
    unfold parentDigits at same
    dsimp only at same
    by_cases enough : q.toNat ≤ radius.toNat + 1
    · rw [if_pos enough, if_pos enough] at same
      have lengths := congrArg List.length same
      simp only [List.length_take, List.length_replicate] at lengths
      omega
    · rw [if_neg enough, if_neg enough] at same
      have large := room.resolve_left enough
      have whole : ∀ parent, (1 :: fourBytes parent).take radius.toNat = 1 :: fourBytes parent := by
        intro parent
        apply List.take_of_length_le
        simp only [fourBytes, List.length_cons, List.length_nil]
        omega
      rw [whole, whole] at same
      exact fourBytes_inj (by omega) (by omega) (List.cons.inj same).2
  have inside : (Finset.range q.toNat).image (fun parent => (parentDigits q radius parent).take radius.toNat) ⊆
      ((((List.range (d + 1)).map fun parent => (⟨parentDigits q radius parent, p⟩ : QpDigits)).map fun point =>
        point.ballId radius.toNat).toFinset) := by
    intro ball member
    obtain ⟨parent, listed, rfl⟩ := Finset.mem_image.mp member
    rw [Finset.mem_range] at listed
    rw [List.mem_toFinset, List.map_map, List.mem_map]
    exact ⟨parent, List.mem_range.mpr (by omega), rfl⟩
  have card := Finset.card_le_card inside
  rw [Finset.card_image_of_injOn injective, Finset.card_range, List.card_toFinset] at card
  exact card

end

section

variable {p radius : UInt32} {msgPhi : QpDigits} {message : AdicMessage} {parentFeatures : List (List QpDigits)}

theorem minTerm_near {start : Option ℚ} (started : start = some 1 ∨ start = none ∧ points ≠ [])
    (near : ∀ point ∈ points, ∃ valuation, Mrw.vpDiff msgPhi point = .ok valuation ∧
      proximityTerm p radius (UInt32.ofNat valuation) = 1) :
    minTerm p radius msgPhi points start = .ok (some 1) := by
  induction points generalizing start with
  | nil =>
    rcases started with rfl | ⟨_, nonempty⟩
    · rfl
    · exact absurd rfl nonempty
  | cons point points ih =>
    obtain ⟨valuation, computed, same⟩ := near point List.mem_cons_self
    have later := fun start (started : start = some (1 : ℚ)) =>
      ih (.inl started) fun other member => near other (List.mem_cons_of_mem point member)
    unfold minTerm
    rw [computed]
    show minTerm p radius msgPhi points _ = _
    rw [same]
    apply later
    rcases started with rfl | ⟨rfl, _⟩
    · simp
    · rfl

theorem admissibilityScore_full {axes : List (UInt32 × Nat)} {start : ℚ}
    (full : ∀ entry ∈ axes, ∃ msgPhi, message.features.getAxis ⟨UInt32.ofNat entry.2⟩ = some msgPhi ∧
      minTerm p entry.1 msgPhi.qpDigits (axisPoints parentFeatures entry.2) none = .ok (some 1)) :
    AdmissibilityChecker.admissibilityScore p message parentFeatures axes start = .ok (start + axes.length) := by
  induction axes generalizing start with
  | nil => simp [AdmissibilityChecker.admissibilityScore]
  | cons entry axes ih =>
    obtain ⟨radius, axisIdx⟩ := entry
    obtain ⟨msgPhi, placed, least⟩ := full _ List.mem_cons_self
    unfold axisPoints at least
    unfold AdmissibilityChecker.admissibilityScore
    rw [placed]
    dsimp only
    rw [least]
    show AdmissibilityChecker.admissibilityScore p message parentFeatures axes (start + 1) = _
    rw [ih fun other member => full other (List.mem_cons_of_mem _ member), List.length_cons, Nat.cast_succ]
    congr 1
    ring

end

section

variable {format : NumberFormat} {params : Consensus.AdicParams}

def parentId (parent : Nat) : MessageId := ⟨⟨fourBytes parent ++ List.replicate 28 0, rfl⟩⟩

def nearMessage (params : Consensus.AdicParams) : AdicMessage where
  id := ⟨.replicate 0⟩
  parents := (List.range (params.d.toNat + 1)).map parentId
  features := ⟨params.rho.zipIdx.map fun entry => ⟨⟨UInt32.ofNat entry.2⟩, ⟨ownDigits params.q entry.1, params.p⟩⟩⟩
  metadata := .new ⟨0, 0⟩
  proposerPk := ⟨.replicate 0⟩
  signature := .empty
  transfer := none
  data := []

def nearFeatures (params : Consensus.AdicParams) : List (List QpDigits) :=
  (List.range (params.d.toNat + 1)).map fun parent =>
    params.rho.map fun radius => ⟨parentDigits params.q radius parent, params.p⟩

def highReputations (params : Consensus.AdicParams) : List ℚ :=
  List.replicate (params.d.toNat + 1) (max 0 (max params.rMin params.rSumMin))

theorem parentId_nodup {count : Nat} (small : count < 2 ^ 32) : ((List.range count).map parentId).Nodup := by
  apply List.Nodup.map_on _ List.nodup_range
  intro first firstMember second secondMember same
  rw [List.mem_range] at firstMember secondMember
  have bytes := congrArg (fun id => id.asBytes.bytes.take 4) same
  exact fourBytes_inj (by omega) (by omega) bytes

theorem getAxis_near (small : params.rho.length < 2 ^ 32) {axis : Nat}
    (entry : (radius, axis) ∈ params.rho.zipIdx) :
    (nearMessage params).features.getAxis ⟨UInt32.ofNat axis⟩ =
      some ⟨⟨UInt32.ofNat axis⟩, ⟨ownDigits params.q radius, params.p⟩⟩ := by
  rw [List.mk_mem_zipIdx_iff_getElem?] at entry
  obtain ⟨bound, placed⟩ := List.getElem?_eq_some_iff.mp entry
  unfold AdicFeatures.getAxis
  rw [List.find?_eq_some_iff_getElem]
  refine ⟨by simp, axis, by simpa [nearMessage] using bound, by simp [nearMessage, placed], ?_⟩
  intro earlier before
  have size : UInt32.size = 2 ^ 32 := rfl
  have different : UInt32.ofNat earlier ≠ UInt32.ofNat axis := by
    intro same
    have numbers := congrArg UInt32.toNat same
    rw [UInt32.toNat_ofNat_of_lt' (by omega), UInt32.toNat_ofNat_of_lt' (by omega)] at numbers
    omega
  simp [nearMessage, different]

theorem axisPoints_near {axis : Nat} (entry : (radius, axis) ∈ params.rho.zipIdx) :
    axisPoints (nearFeatures params) axis =
      (List.range (params.d.toNat + 1)).map fun parent => ⟨parentDigits params.q radius parent, params.p⟩ := by
  rw [List.mk_mem_zipIdx_iff_getElem?] at entry
  have placed : ∀ parent, (params.rho.map fun radius => (⟨parentDigits params.q radius parent, params.p⟩ : QpDigits))[axis]? =
      some ⟨parentDigits params.q radius parent, params.p⟩ := by
    intro parent
    rw [List.getElem?_map, entry, Option.map_some]
  unfold axisPoints nearFeatures
  rw [List.filterMap_map]
  have same : ((fun features : List QpDigits => features[axis]?) ∘ fun parent =>
      params.rho.map fun radius => ⟨parentDigits params.q radius parent, params.p⟩) =
      some ∘ fun parent => ⟨parentDigits params.q radius parent, params.p⟩ := by
    funext parent
    exact placed parent
  rw [same, List.filterMap_eq_map]

theorem foldl_min_replicate (count : Nat) (value : ℚ) : (List.replicate count value).foldl min value = value := by
  induction count with
  | zero => rfl
  | succ count ih => rw [List.replicate_succ, List.foldl_cons, min_self, ih]

theorem c3_highReputations (params : Consensus.AdicParams) :
    (AdmissibilityChecker.checkC3Reputation format params (highReputations params)).1 = true := by
  have least : AdmissibilityChecker.minReputation (highReputations params) = max 0 (max params.rMin params.rSumMin) :=
    foldl_min_replicate params.d.toNat _
  have positive : 0 ≤ max 0 (max params.rMin params.rSumMin) := le_max_left _ _
  have low : params.rMin ≤ max 0 (max params.rMin params.rSumMin) := (le_max_left _ _).trans (le_max_right _ _)
  have high : params.rSumMin ≤ (highReputations params).sum := by
    unfold highReputations
    rw [List.sum_replicate, nsmul_eq_mul, Nat.cast_succ]
    have below : params.rSumMin ≤ max 0 (max params.rMin params.rSumMin) := (le_max_right _ _).trans (le_max_right _ _)
    have more : 0 ≤ (params.d.toNat : ℚ) * max 0 (max params.rMin params.rSumMin) :=
      mul_nonneg (Nat.cast_nonneg _) positive
    linarith
  unfold AdmissibilityChecker.checkC3Reputation
  dsimp only
  rw [least, if_neg (not_lt.mpr low), if_neg (not_lt.mpr high)]

theorem forParents_near (small : params.d.toNat + 1 < 2 ^ 32) :
    ForParents params (nearMessage params) (nearFeatures params) (highReputations params) := by
  constructor
  · exact parentId_nodup small
  · simp [nearMessage]
  · simp [nearFeatures]
  · simp [highReputations]

theorem admits_near (valid : ValidParams params) (room : HasRoom params) (useUltrametric : Bool) :
    Admits format params useUltrametric (nearMessage params) (nearFeatures params) (highReputations params) := by
  obtain ⟨small, radii⟩ := room
  rw [admits_iff]
  have axes := valid.axes
  have roomy : ∀ {radius axis}, (radius, axis) ∈ params.rho.zipIdx →
      params.q.toNat ≤ radius.toNat + 1 ∨ 2 ^ 31 ≤ radius.toNat := by
    intro radius axis entry
    apply radii
    exact List.fst_mem_of_mem_zipIdx entry
  refine ⟨?_, ⟨params.d.toNat, ?_, le_refl _⟩, ?_, c3_highReputations params⟩
  · have one : (1 : UInt32).toNat = 1 := rfl
    rw [(forParents_near small).parents, UInt32.toNat_add, one, Nat.mod_eq_of_lt small]
  · have full : AdmissibilityChecker.admissibilityScore params.p (nearMessage params) (nearFeatures params)
        params.rho.zipIdx 0 = .ok (0 + params.rho.zipIdx.length) := by
      apply admissibilityScore_full
      rintro ⟨radius, axis⟩ entry
      refine ⟨_, getAxis_near (by omega) entry, ?_⟩
      rw [axisPoints_near entry]
      apply minTerm_near
      · exact .inr ⟨rfl, by simp⟩
      · intro point member
        obtain ⟨parent, _, rfl⟩ := List.mem_map.mp member
        exact parentDigits_near params.p (roomy entry) parent
    unfold AdmissibilityChecker.computeAdmissibilityScore
    rw [full, List.length_zipIdx, axes, zero_add]
  · rintro ⟨radius, axis⟩ entry
    constructor
    · rw [axisPoints_near entry]
      simp [nearFeatures]
    · rw [axisPoints_near entry]
      exact parentDigits_diverse params.p small valid.parents (roomy entry)

/-- Some message is admitted, in one mode or in both, exactly if there is room for the balls. -/
theorem admissible_message_iff (format : NumberFormat) (params : Consensus.AdicParams) (valid : ValidParams params) :
    ((∃ message parentFeatures parentReputations, ForParents params message parentFeatures parentReputations ∧
        ∀ useUltrametric, Admits format params useUltrametric message parentFeatures parentReputations) ↔
      HasRoom params) ∧
    ∀ useUltrametric, (∃ message parentFeatures parentReputations,
        ForParents params message parentFeatures parentReputations ∧
        Admits format params useUltrametric message parentFeatures parentReputations) ↔ HasRoom params := by
  constructor
  · constructor
    · rintro ⟨message, parentFeatures, parentReputations, lengths, admits⟩
      exact hasRoom_of_admits valid lengths.parents (admits true)
    · intro room
      exact ⟨_, _, _, forParents_near room.1, admits_near valid room⟩
  · intro useUltrametric
    constructor
    · rintro ⟨message, parentFeatures, parentReputations, lengths, admits⟩
      exact hasRoom_of_admits valid lengths.parents admits
    · intro room
      exact ⟨_, _, _, forParents_near room.1, admits_near valid room useUltrametric⟩

end

def plainNumbers : NumberFormat := ⟨toString, toString⟩

def evenRadii : Consensus.AdicParams := { Consensus.AdicParams.default with rho := [2, 2, 2] }

theorem admissible_message_even : HasRoom evenRadii ∧ ∃ message parentFeatures parentReputations,
    ForParents evenRadii message parentFeatures parentReputations ∧
      Admits plainNumbers evenRadii true message parentFeatures parentReputations := by
  have radii : ∀ radius ∈ evenRadii.rho, 1 ≤ radius.toNat := by simp [evenRadii]
  have valid : ValidParams evenRadii := ⟨by decide, rfl, by decide, radii, by decide, by decide⟩
  have wide : ∀ radius ∈ evenRadii.rho, evenRadii.q.toNat ≤ radius.toNat + 1 := by
    simp [evenRadii, Consensus.AdicParams.default]
  have room : HasRoom evenRadii := by
    constructor
    · show 3 + 1 < 2 ^ 32
      norm_num
    · exact fun radius member => .inl (wide radius member)
  exact ⟨room, ((admissible_message_iff plainNumbers evenRadii valid).2 true).mpr room⟩

/-- With the default parameters nothing is admitted. -/
theorem default_admits_nothing : ¬ ∃ useUltrametric message parentFeatures parentReputations,
    ForParents .default message parentFeatures parentReputations ∧
      Admits plainNumbers .default useUltrametric message parentFeatures parentReputations := by
  rintro ⟨useUltrametric, message, parentFeatures, parentReputations, lengths, admits⟩
  have radii : ∀ radius ∈ Consensus.AdicParams.default.rho, 1 ≤ radius.toNat := by simp [Consensus.AdicParams.default]
  have valid : ValidParams .default := ⟨by decide, rfl, by decide, radii, by decide, by decide⟩
  have third : (1 : UInt32) ∈ Consensus.AdicParams.default.rho := by decide
  have few : 3 ≤ 1 + 1 ∨ 2 ^ 31 ≤ 1 := (hasRoom_of_admits valid lengths.parents admits).2 1 third
  norm_num at few

end AdicProof.Consensus
