import AdicCore.Consensus.AdmissibleMessages
import AdicCore.Math.Balls

open AdicModel AdicModel.Crypto AdicModel.Consensus Fallible

namespace AdicProof.Consensus

section

variable {p radius valuation : UInt32} {message : AdicMessage} {parentFeatures : List (List QpDigits)}

theorem proximityTerm_eq_one_iff (base : 2 ≤ p.toNat) :
    proximityTerm p radius valuation = 1 ↔
      radius.toNat ≤ valuation.toNat ∧ valuation.toNat ≤ radius.toNat + 2 ^ 31 ∨
        valuation.toNat + 2 ^ 31 ≤ radius.toNat := by
  have large : (1 : ℚ) < p.toNat := by
    exact_mod_cast base
  have positive : (0 : ℚ) < p.toNat := by linarith
  have bound := radius.toNat_lt
  have bound' := valuation.toNat_lt
  have exponent : proximityTerm p radius valuation = 1 ↔
      max (((radius.toNat : ℤ) - valuation.toNat).bmod (2 ^ 32)) 0 = 0 := by
    rw [proximityTerm_eq, zpow_eq_one_iff_right₀ positive.le large.ne', neg_eq_zero]
  rw [exponent, Int.bmod_def]
  omega

theorem fullAxis_iff (base : 2 ≤ p.toNat) {entry : UInt32 × Nat} (points : axisPoints parentFeatures entry.2 ≠ []) :
    FullAxis p message parentFeatures entry ↔
      ∃ msgPhi, message.features.getAxis ⟨UInt32.ofNat entry.2⟩ = some msgPhi ∧
        ∀ point ∈ axisPoints parentFeatures entry.2, ∃ valuation, Mrw.vpDiff msgPhi.qpDigits point = .ok valuation ∧
          proximityTerm p entry.1 (UInt32.ofNat valuation) = 1 := by
  constructor
  · intro ⟨msgPhi, least, placed, computed, most⟩
    refine ⟨msgPhi, placed, ?_⟩
    intro point member
    obtain ⟨valuation, least', differ, same, below⟩ := (minTerm_le computed).2 point member
    cases same
    refine ⟨valuation, differ, ?_⟩
    apply le_antisymm
    · exact proximityTerm_le base
    · exact most.trans below
  · intro ⟨msgPhi, placed, near⟩
    exact ⟨msgPhi, 1, placed, minTerm_near (.inr ⟨rfl, points⟩) near, le_refl 1⟩

theorem minTerm_returns {msgPhi : QpDigits} {points : List QpDigits} {start : Option ℚ}
    (primes : ∀ point ∈ points, msgPhi.p = point.p) : ∃ least, minTerm p radius msgPhi points start = .ok least := by
  induction points generalizing start with
  | nil => exact ⟨start, rfl⟩
  | cons point points ih =>
    have differ : ∃ valuation, Mrw.vpDiff msgPhi point = .ok valuation := by
      simp [Mrw.vpDiff, primes point List.mem_cons_self]
    obtain ⟨valuation, computed⟩ := differ
    unfold minTerm
    rw [computed]
    exact ih fun other member => primes other (List.mem_cons_of_mem point member)

theorem admissibilityScore_returns {axes : List (UInt32 × Nat)} {start : ℚ}
    (primes : ∀ entry ∈ axes, ∀ msgPhi, message.features.getAxis ⟨UInt32.ofNat entry.2⟩ = some msgPhi →
      ∀ point ∈ axisPoints parentFeatures entry.2, msgPhi.qpDigits.p = point.p) :
    ∃ score, AdmissibilityChecker.admissibilityScore p message parentFeatures axes start = .ok score := by
  induction axes generalizing start with
  | nil => exact ⟨start, rfl⟩
  | cons entry axes ih =>
    obtain ⟨radius, axisIdx⟩ := entry
    have later : ∀ start', ∃ score,
        AdmissibilityChecker.admissibilityScore p message parentFeatures axes start' = .ok score := fun start' =>
      ih fun other member => primes other (List.mem_cons_of_mem _ member)
    unfold AdmissibilityChecker.admissibilityScore
    split
    · exact later start
    · next msgPhi placed =>
      have returns : ∃ least, minTerm p radius msgPhi.qpDigits (axisPoints parentFeatures axisIdx) none = .ok least :=
        minTerm_returns (primes _ List.mem_cons_self msgPhi placed)
      obtain ⟨least, computed⟩ := returns
      unfold axisPoints at computed
      rw [computed]
      exact later _

theorem primes_of_score {axes : List (UInt32 × Nat)} {start score : ℚ}
    (ran : AdmissibilityChecker.admissibilityScore p message parentFeatures axes start = .ok score)
    {entry : UInt32 × Nat} (member : entry ∈ axes) {msgPhi : AxisPhi}
    (placed : message.features.getAxis ⟨UInt32.ofNat entry.2⟩ = some msgPhi) {point : QpDigits}
    (listed : point ∈ axisPoints parentFeatures entry.2) : msgPhi.qpDigits.p = point.p := by
  induction axes generalizing start with
  | nil => cases member
  | cons first axes ih =>
    obtain ⟨radius, axisIdx⟩ := first
    unfold AdmissibilityChecker.admissibilityScore at ran
    split at ran
    · next missing =>
      rcases List.mem_cons.mp member with rfl | later
      · rw [missing] at placed
        cases placed
      · exact ih ran later
    · next found =>
      obtain ⟨least, computed, ran⟩ := bind_ok ran
      rcases List.mem_cons.mp member with rfl | later
      · rw [found] at placed
        cases placed
        obtain ⟨valuation, _, differ, _⟩ := (minTerm_le computed).2 point listed
        by_contra different
        rw [Mrw.vpDiff, if_pos different] at differ
        cases differ
      · exact ih ran later

end

section

variable (params : Consensus.AdicParams) (message : AdicMessage) (parentFeatures : List (List QpDigits))

def Compared (radius : UInt32) (own other : QpDigits) : Prop :=
  ∃ axis, (radius, axis) ∈ params.rho.zipIdx ∧
    (∃ msgPhi, message.features.getAxis ⟨UInt32.ofNat axis⟩ = some msgPhi ∧ msgPhi.qpDigits = own) ∧
    ∃ features ∈ parentFeatures, features[axis]? = some other

def Valued (radius valuation : UInt32) : Prop :=
  ∃ own other, Compared params message parentFeatures radius own other ∧ Math.vpDiff own other = .ok valuation

def HasAllAxes : Prop := ∀ axis < params.d.toNat, ∃ msgPhi, message.features.getAxis ⟨UInt32.ofNat axis⟩ = some msgPhi

def ParentsHaveAllAxes : Prop := ∀ features ∈ parentFeatures, params.d.toNat ≤ features.length

def NearParents : Prop :=
  ∀ radius own other, Compared params message parentFeatures radius own other →
    ∃ valuation, Math.vpDiff own other = .ok valuation ∧ radius.toNat ≤ valuation.toNat

def report (result : AdmissibilityResult) : ℚ × Bool × Bool × Bool :=
  (result.score, result.scorePassed, result.c2Passed, result.c3Passed)

def ExactGate (format : NumberFormat) (parentReputations : List ℚ) : Prop :=
  let check := fun useUltrametric => (AdmissibilityChecker.withUltrametricOption params useUltrametric).checkMessage
    format message parentFeatures parentReputations
  (check true).map report = (check false).map report ∧
    (ParentsHaveAllAxes params parentFeatures → ∀ useUltrametric result, check useUltrametric = .ok result →
      (result.scorePassed = true ↔ HasAllAxes params message ∧ NearParents params message parentFeatures))

structure Scores : Prop where
  parents : message.parents.length = (params.d + 1).toNat
  own : HasAllAxes params message
  others : ParentsHaveAllAxes params parentFeatures
  primes : ∀ radius own other, Compared params message parentFeatures radius own other → own.p = other.p

end

section

variable {format : NumberFormat} {params : Consensus.AdicParams} {useUltrametric : Bool} {message : AdicMessage}
  {parentFeatures : List (List QpDigits)} {parentReputations : List ℚ} {result : AdmissibilityResult}

theorem checkMessage_ok (checked : (AdmissibilityChecker.withUltrametricOption params useUltrametric).checkMessage
    format message parentFeatures parentReputations = .ok result) :
    message.parents.length = (params.d + 1).toNat ∧
      AdmissibilityChecker.computeAdmissibilityScore params message parentFeatures = .ok result.score ∧
      (result.scorePassed = true ↔ (params.d.toNat : ℚ) ≤ result.score) := by
  unfold AdmissibilityChecker.checkMessage at checked
  rw [scoreOf_eq] at checked
  dsimp only at checked
  split at checked
  · cases checked
  · next count =>
    obtain ⟨score, computed, returned⟩ := bind_ok checked
    cases returned
    exact ⟨not_not.mp count, computed, decide_eq_true_iff⟩

theorem checkMessage_returns (count : message.parents.length = (params.d + 1).toNat) {score : ℚ}
    (computed : AdmissibilityChecker.computeAdmissibilityScore params message parentFeatures = .ok score) :
    ∃ result, (AdmissibilityChecker.withUltrametricOption params useUltrametric).checkMessage format message
      parentFeatures parentReputations = .ok result := by
  unfold AdmissibilityChecker.checkMessage
  rw [scoreOf_eq, computed]
  dsimp only
  split
  · next wrong => exact absurd count wrong
  · exact ⟨_, rfl⟩

theorem reports_same (params : Consensus.AdicParams) :
    ((AdmissibilityChecker.withUltrametricOption params true).checkMessage format message parentFeatures
        parentReputations).map report =
      ((AdmissibilityChecker.withUltrametricOption params false).checkMessage format message parentFeatures
        parentReputations).map report := by
  have diverse : ((AdmissibilityChecker.withUltrametricOption params true).c2Of parentFeatures).1 =
      ((AdmissibilityChecker.withUltrametricOption params false).c2Of parentFeatures).1 := by
    rw [Bool.eq_iff_iff, c2Of_passed, c2Of_passed]
  unfold AdmissibilityChecker.checkMessage
  rw [scoreOf_eq, scoreOf_eq]
  have same : ∀ useUltrametric, (AdmissibilityChecker.withUltrametricOption params useUltrametric).params = params :=
    fun _ => rfl
  dsimp only
  rw [same, same]
  split
  · rfl
  · cases AdmissibilityChecker.computeAdmissibilityScore params message parentFeatures with
    | error error => rfl
    | ok score => simp [Except.map, bind, Except.bind, pure, Except.pure, report, AdmissibilityResult.new, diverse]

theorem scorePassed_iff (base : 2 ≤ params.p.toNat) (axes : params.rho.length = params.d.toNat)
    (checked : (AdmissibilityChecker.withUltrametricOption params useUltrametric).checkMessage format message
      parentFeatures parentReputations = .ok result) :
    result.scorePassed = true ↔ ∀ entry ∈ params.rho.zipIdx, FullAxis params.p message parentFeatures entry := by
  obtain ⟨_, computed, passed⟩ := checkMessage_ok checked
  have count : params.rho.zipIdx.length = params.d.toNat := by rw [List.length_zipIdx, axes]
  rw [passed]
  constructor
  · intro enough
    apply (admissibilityScore_le base computed).2
    rw [count, zero_add]
    exact enough
  · intro full
    have whole : AdmissibilityChecker.admissibilityScore params.p message parentFeatures params.rho.zipIdx 0 =
        .ok (0 + params.rho.zipIdx.length) := by
      apply admissibilityScore_full
      intro entry member
      obtain ⟨msgPhi, least, placed, found, most⟩ := full entry member
      have bounded := minTerm_le_one base found
      rw [le_antisymm bounded most] at found
      exact ⟨msgPhi, placed, found⟩
    unfold AdmissibilityChecker.computeAdmissibilityScore at computed
    rw [whole, Except.ok.injEq, count, zero_add] at computed
    exact computed.le

theorem vpDiff_ok {own other : QpDigits} {valuation : UInt32} (computed : Math.vpDiff own other = .ok valuation) :
    ∃ agreeing, Mrw.vpDiff own other = .ok agreeing ∧ UInt32.ofNat agreeing = valuation := by
  obtain ⟨agreeing, found, returned⟩ := bind_ok computed
  cases returned
  exact ⟨agreeing, found, rfl⟩

theorem full_iff (base : 2 ≤ params.p.toNat) (axes : params.rho.length = params.d.toNat)
    (parents : parentFeatures ≠ []) (placed : ParentsHaveAllAxes params parentFeatures) :
    (∀ entry ∈ params.rho.zipIdx, FullAxis params.p message parentFeatures entry) ↔
      HasAllAxes params message ∧ ∀ radius own other, Compared params message parentFeatures radius own other →
        ∃ valuation, Math.vpDiff own other = .ok valuation ∧ proximityTerm params.p radius valuation = 1 := by
  have points : ∀ {radius axis}, (radius, axis) ∈ params.rho.zipIdx → axisPoints parentFeatures axis ≠ [] := by
    intro radius axis entry empty
    rw [List.mk_mem_zipIdx_iff_getElem?] at entry
    obtain ⟨bound, _⟩ := List.getElem?_eq_some_iff.mp entry
    obtain ⟨features, member⟩ := List.exists_mem_of_ne_nil parentFeatures parents
    have long := placed features member
    have listed : features[axis] ∈ axisPoints parentFeatures axis :=
      List.mem_filterMap.mpr ⟨features, member, List.getElem?_eq_getElem (by omega)⟩
    rw [empty] at listed
    cases listed
  constructor
  · intro full
    constructor
    · intro axis inside
      have entry : (params.rho[axis], axis) ∈ params.rho.zipIdx := by
        simp [List.mk_mem_zipIdx_iff_getElem?]
      obtain ⟨msgPhi, _, own, _⟩ := full _ entry
      exact ⟨msgPhi, own⟩
    · intro radius own other ⟨axis, entry, ⟨msgPhi, found, same⟩, features, member, listed⟩
      obtain ⟨msgPhi', found', near⟩ := (fullAxis_iff base (points entry)).mp (full _ entry)
      rw [found] at found'
      cases found'
      obtain ⟨agreeing, differ, one⟩ := near other (List.mem_filterMap.mpr ⟨features, member, listed⟩)
      rw [same] at differ
      refine ⟨UInt32.ofNat agreeing, ?_, one⟩
      unfold Math.vpDiff
      rw [differ]
      rfl
  · intro ⟨own, near⟩ entry member
    obtain ⟨radius, axis⟩ := entry
    rw [fullAxis_iff base (points member)]
    have inside := member
    rw [List.mk_mem_zipIdx_iff_getElem?] at inside
    obtain ⟨bound, _⟩ := List.getElem?_eq_some_iff.mp inside
    obtain ⟨msgPhi, found⟩ := own axis (by omega)
    refine ⟨msgPhi, found, ?_⟩
    intro point listed
    obtain ⟨features, given, placed⟩ := List.mem_filterMap.mp listed
    obtain ⟨valuation, differ, one⟩ :=
      near radius msgPhi.qpDigits point ⟨axis, member, ⟨msgPhi, found, rfl⟩, features, given, placed⟩
    obtain ⟨agreeing, differ', same⟩ := vpDiff_ok differ
    rw [← same] at one
    exact ⟨agreeing, differ', one⟩

theorem forall_compared {good : UInt32 → UInt32 → Prop}
    (primes : ∀ radius own other, Compared params message parentFeatures radius own other → own.p = other.p) :
    (∀ radius own other, Compared params message parentFeatures radius own other →
        ∃ valuation, Math.vpDiff own other = .ok valuation ∧ good radius valuation) ↔
      ∀ radius valuation, Valued params message parentFeatures radius valuation → good radius valuation := by
  constructor
  · intro all radius valuation ⟨own, other, compared, computed⟩
    obtain ⟨valuation', computed', holds⟩ := all radius own other compared
    rw [computed] at computed'
    cases computed'
    exact holds
  · intro all radius own other compared
    have computed := Math.vpDiff_eq (primes radius own other compared)
    exact ⟨_, computed, all radius _ ⟨own, other, compared, computed⟩⟩

end

section

variable (params : Consensus.AdicParams) (message : AdicMessage) (parentFeatures : List (List QpDigits))

/-- A pair misses the radius, by less than an `i32` holds. -/
def Misses : Prop :=
  ∃ radius valuation, Valued params message parentFeatures radius valuation ∧
    valuation.toNat < radius.toNat ∧ radius.toNat < valuation.toNat + 2 ^ 31

/-- A pair misses the radius by more than an `i32` holds. -/
def Overcast : Prop :=
  ∃ radius valuation, Valued params message parentFeatures radius valuation ∧ valuation.toNat + 2 ^ 31 ≤ radius.toNat

/-- A pair is within the radius by more than an `i32` holds. -/
def Undercast : Prop :=
  ∃ radius valuation, Valued params message parentFeatures radius valuation ∧ radius.toNat + 2 ^ 31 < valuation.toNat

theorem casts_iff (base : 2 ≤ params.p.toNat) :
    ((∀ radius valuation, Valued params message parentFeatures radius valuation →
        proximityTerm params.p radius valuation = 1) ↔
      ∀ radius valuation, Valued params message parentFeatures radius valuation → radius.toNat ≤ valuation.toNat) ↔
    Misses params message parentFeatures ∨
      (Overcast params message parentFeatures ↔ Undercast params message parentFeatures) := by
  simp only [proximityTerm_eq_one_iff base]
  unfold Misses Overcast Undercast
  by_cases misses : ∃ radius valuation, Valued params message parentFeatures radius valuation ∧
      valuation.toNat < radius.toNat ∧ radius.toNat < valuation.toNat + 2 ^ 31
  · obtain ⟨radius, valuation, valued, low, high⟩ := misses
    have costs : ¬ ∀ radius valuation, Valued params message parentFeatures radius valuation →
        radius.toNat ≤ valuation.toNat ∧ valuation.toNat ≤ radius.toNat + 2 ^ 31 ∨
          valuation.toNat + 2 ^ 31 ≤ radius.toNat := by
      intro all
      have here := all radius valuation valued
      omega
    have far : ¬ ∀ radius valuation, Valued params message parentFeatures radius valuation →
        radius.toNat ≤ valuation.toNat := by
      intro all
      have here := all radius valuation valued
      omega
    rw [iff_false_intro costs, iff_false_intro far]
    exact iff_of_true Iff.rfl (.inl ⟨radius, valuation, valued, low, high⟩)
  · have near : ∀ {radius valuation}, Valued params message parentFeatures radius valuation →
        ¬ (valuation.toNat < radius.toNat ∧ radius.toNat < valuation.toNat + 2 ^ 31) :=
      fun valued miss => misses ⟨_, _, valued, miss⟩
    have passes : (∀ radius valuation, Valued params message parentFeatures radius valuation →
        radius.toNat ≤ valuation.toNat ∧ valuation.toNat ≤ radius.toNat + 2 ^ 31 ∨
          valuation.toNat + 2 ^ 31 ≤ radius.toNat) ↔
        ¬ ∃ radius valuation, Valued params message parentFeatures radius valuation ∧
          radius.toNat + 2 ^ 31 < valuation.toNat := by
      simp only [not_exists, not_and]
      refine forall_congr' fun radius => forall_congr' fun valuation => forall_congr' fun valued => ?_
      have close := near valued
      omega
    have within : (∀ radius valuation, Valued params message parentFeatures radius valuation →
        radius.toNat ≤ valuation.toNat) ↔
        ¬ ∃ radius valuation, Valued params message parentFeatures radius valuation ∧
          valuation.toNat + 2 ^ 31 ≤ radius.toNat := by
      simp only [not_exists, not_and]
      refine forall_congr' fun radius => forall_congr' fun valuation => forall_congr' fun valued => ?_
      have close := near valued
      omega
    rw [passes, within, not_iff_not, iff_false_intro misses, false_or]
    exact iff_comm

end

/-- The gate is exact unless a score is computed, no pair simply misses its radius, and the casts to `i32` err one
    way. -/
theorem exactGate_iff (format : NumberFormat) (params : Consensus.AdicParams) (message : AdicMessage)
    (parentFeatures : List (List QpDigits)) (parentReputations : List ℚ) (base : 2 ≤ params.p.toNat)
    (axes : params.rho.length = params.d.toNat) (parents : parentFeatures.length = params.d.toNat + 1) :
    ExactGate params message parentFeatures format parentReputations ↔
      (Scores params message parentFeatures → Misses params message parentFeatures ∨
        (Overcast params message parentFeatures ↔ Undercast params message parentFeatures)) := by
  have nonempty : parentFeatures ≠ [] := by
    intro empty
    simp [empty] at parents
  rw [← casts_iff params message parentFeatures base]
  constructor
  · intro exact scores
    have listed : ∀ entry ∈ params.rho.zipIdx, ∀ msgPhi,
        message.features.getAxis ⟨UInt32.ofNat entry.2⟩ = some msgPhi →
        ∀ point ∈ axisPoints parentFeatures entry.2, msgPhi.qpDigits.p = point.p := by
      intro entry member msgPhi placed point listed
      exact scores.primes entry.1 _ _ ⟨entry.2, member, ⟨msgPhi, placed, rfl⟩, List.mem_filterMap.mp listed⟩
    have returns : ∃ score, AdmissibilityChecker.computeAdmissibilityScore params message parentFeatures = .ok score :=
      admissibilityScore_returns listed
    obtain ⟨score, computed⟩ := returns
    obtain ⟨result, checked⟩ := @checkMessage_returns format params true message parentFeatures parentReputations
      scores.parents score computed
    have passed := exact.2 scores.others true result checked
    rw [scorePassed_iff base axes checked, full_iff base axes nonempty scores.others, and_congr_right_iff] at passed
    rw [← forall_compared scores.primes, ← forall_compared scores.primes]
    exact passed scores.own
  · intro casts
    refine ⟨reports_same params, ?_⟩
    intro placed useUltrametric result checked
    rw [scorePassed_iff base axes checked, full_iff base axes nonempty placed, and_congr_right_iff]
    intro own
    obtain ⟨count, computed, _⟩ := checkMessage_ok checked
    have primes : ∀ radius own other, Compared params message parentFeatures radius own other → own.p = other.p := by
      intro radius own other ⟨axis, entry, ⟨msgPhi, found, same⟩, listed⟩
      rw [← same]
      exact primes_of_score computed entry found (List.mem_filterMap.mpr listed)
    unfold NearParents
    rw [forall_compared primes, forall_compared primes]
    exact casts ⟨count, own, placed, primes⟩

def wideRadius : Consensus.AdicParams := ⟨2, 1, [2147483648], 1, 0, 0⟩

def oneMessage : AdicMessage where
  id := ⟨.replicate 0⟩
  parents := [parentId 0, parentId 1]
  features := ⟨[⟨⟨0⟩, ⟨[1], 2⟩⟩]⟩
  metadata := .new ⟨0, 0⟩
  proposerPk := ⟨.replicate 0⟩
  signature := .empty
  transfer := none
  data := []

def zeroParents : List (List QpDigits) := [[⟨[0], 2⟩], [⟨[0], 2⟩]]

theorem exactGate_wide : 2 ≤ wideRadius.p.toNat ∧ wideRadius.rho.length = wideRadius.d.toNat ∧
    zeroParents.length = wideRadius.d.toNat + 1 ∧
    (ExactGate wideRadius oneMessage zeroParents plainNumbers [1, 1] ↔
      (Scores wideRadius oneMessage zeroParents → Misses wideRadius oneMessage zeroParents ∨
        (Overcast wideRadius oneMessage zeroParents ↔ Undercast wideRadius oneMessage zeroParents))) :=
  ⟨by decide, by decide, by decide,
    exactGate_iff plainNumbers wideRadius oneMessage zeroParents [1, 1] (by decide) (by decide) (by decide)⟩

/-- No digit agrees, and the score passes. -/
theorem wideRadius_passes : ¬ ExactGate wideRadius oneMessage zeroParents plainNumbers [1, 1] := by
  intro exact
  have placed : ParentsHaveAllAxes wideRadius zeroParents := by
    unfold ParentsHaveAllAxes
    decide
  have computed : AdmissibilityChecker.computeAdmissibilityScore wideRadius oneMessage zeroParents = .ok 1 := by
    decide +kernel
  have count : oneMessage.parents.length = (wideRadius.d + 1).toNat := by decide
  obtain ⟨result, checked⟩ := @checkMessage_returns plainNumbers wideRadius true oneMessage zeroParents [1, 1] count 1
    computed
  obtain ⟨_, computed', passed⟩ := checkMessage_ok checked
  rw [computed, Except.ok.injEq] at computed'
  have passes : result.scorePassed = true := by
    rw [passed, ← computed']
    decide
  have near := ((exact.2 placed true result checked).mp passes).2
  have compared : Compared wideRadius oneMessage zeroParents 2147483648 ⟨[1], 2⟩ ⟨[0], 2⟩ :=
    ⟨0, by decide, ⟨_, rfl, rfl⟩, [⟨[0], 2⟩], by decide, rfl⟩
  obtain ⟨valuation, differ, within⟩ := near _ _ _ compared
  have none : Math.vpDiff ⟨[1], 2⟩ ⟨[0], 2⟩ = .ok 0 := by decide
  rw [none] at differ
  cases differ
  exact absurd within (by decide)

end AdicProof.Consensus
