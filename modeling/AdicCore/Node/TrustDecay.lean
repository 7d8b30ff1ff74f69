import AdicCore.Library.Doubles
import AdicCore.Node.AdmittedMessages

open AdicModel.Crypto AdicModel.Consensus AdicModel.Storage HashMap

namespace AdicModel.Mrw

structure WeightCalculator where
  lambda : ℚ
  alpha : ℚ
  beta : ℚ
  mu : ℚ

namespace WeightCalculator

variable (libm : Double.Libm) (calculator : WeightCalculator)

def computeTrustWithAge (reputation age : ℚ) : Double :=
  (libm.powf reputation calculator.alpha).mul (libm.powf (1 + age) (-calculator.beta))

def computeWeight (proximity reputation conflictPenalty age : ℚ) : Double :=
  let trust := calculator.computeTrustWithAge libm reputation age
  let expArg := ((Double.finite (calculator.lambda * proximity)).mul trust).sub (.finite (calculator.mu * conflictPenalty))
  libm.expOf expArg

end WeightCalculator

/-- A candidate with its weight as the calculator returns it. -/
structure Weighed where
  tip : ParentCandidate
  weight : Double

/-- The unwrapped comparison of two weights of which one is not a number. -/
def failedComparison : AdicError := .panic "called `Option::unwrap()` on a `None` value"

namespace Weighed

def sortByWeight (candidates : List Weighed) : Except AdicError (List Weighed) :=
  match Double.sortBy (fun a b : Weighed => b.weight.partialCmp a.weight) candidates with
  | some sorted => .ok sorted
  | none => .error failedComparison

variable (libm : Double.Libm) (calculator : WeightCalculator) (params : SelectionParams) (features : AdicFeatures)

def weigh (proximity : ℚ) (tip : ParentCandidate) : Double :=
  calculator.computeWeight libm proximity tip.reputation tip.conflictPenalty tip.age

/-- A draw below a value that is not a number is none. -/
def drawTip (draw : ℚ) (axis : Nat) (msgAxis : AxisPhi) (radius : UInt32) (tip : ParentCandidate) :
    Except AdicError (Option Weighed) :=
  match tip.features[axis]? with
  | none => return none
  | some tipPhi => do
    let proximity ← proximityScore msgAxis.qpDigits tipPhi radius
    let weight := weigh libm calculator proximity tip
    if (Double.finite draw).less (weight.div (weight.add (.finite 1))) then return some ⟨tip, weight⟩ else return none

variable (draws : Nat → Nat → ℚ)

def axisCandidates (horizon : Nat) (tips : List ParentCandidate) (axis : Nat) : Except AdicError (List Weighed) :=
  match features.getAxis ⟨UInt32.ofNat axis⟩ with
  | none => .error (.invalidParameter s!"Missing axis {axis}")
  | some msgAxis =>
    match params.rho[axis]? with
    | none => .error (.panic "index out of bounds")
    | some radius => do
      let drawn ← (tips.take horizon).zipIdx.mapM fun place =>
        drawTip libm calculator (draws axis place.2) axis msgAxis radius place.1
      return drawn.filterMap id

/-- The weights of the axes, which nothing reads, are left out. -/
def mergeCandidate (merged : Table MessageId Weighed) (candidate : Weighed) : Table MessageId Weighed :=
  match merged.lookup candidate.tip.messageId with
  | some stored =>
    merged.insert candidate.tip.messageId { stored with weight := stored.weight.add candidate.weight }
  | none => merged.insert candidate.tip.messageId candidate

def mergeAxisCandidates (order : Order) (axisCandidates : Table UInt32 (List Weighed)) :
    Except AdicError (List Weighed) :=
  let merged := (order.iterate (pairs axisCandidates)).foldl (fun merged axis => axis.2.foldl mergeCandidate merged) ∅
  sortByWeight ((order.iterate (pairs merged)).map Prod.snd)

def collectAxes (horizon : Nat) (tips : List ParentCandidate) :
    List Nat → Table UInt32 (List Weighed) → Except AdicError (Table UInt32 (List Weighed))
  | [], collected => .ok collected
  | axis :: axes, collected => do
    let candidates ← axisCandidates libm calculator params features draws horizon tips axis
    collectAxes horizon tips axes (collected.insert (UInt32.ofNat axis) candidates)

def runMrwPerAxis (order : Order) (horizon : Nat) (tips : List ParentCandidate) : Except AdicError (List Weighed) := do
  let collected ← collectAxes libm calculator params features draws horizon tips (List.range params.d.toNat) ∅
  mergeAxisCandidates order collected

def axisWeight (tip : ParentCandidate) (msgAxis : AxisPhi × Nat) : Except AdicError Double :=
  match tip.features[msgAxis.2]? with
  | none => return .finite 0
  | some tipPhi => do
    let proximity ← proximityScore msgAxis.1.qpDigits tipPhi ((params.rho[msgAxis.2]?).getD 2)
    return weigh libm calculator proximity tip

def weighTip (tip : ParentCandidate) : Except AdicError Weighed := do
  let weights ← features.phi.zipIdx.mapM (axisWeight libm calculator params tip)
  return ⟨tip, weights.foldl Double.add (.finite 0)⟩

def selectBestAvailable (tips : List ParentCandidate) : Except AdicError (List ParentCandidate) :=
  if tips = [] then .error (.parentSelectionFailed "No tips available")
  else do
    let weightedTips ← tips.mapM (weighTip libm calculator params features)
    let sorted ← sortByWeight weightedTips
    return cycle (requiredParents params) (sorted.map Weighed.tip)

end Weighed

end AdicModel.Mrw

namespace AdicModel.Node

/-- The candidates built from the tips. The clock is read for each. -/
def tipCandidates {σ B : Type} [StorageBackend B] (outside : Outside σ B) (clock : Nat → DateTime) (storage : B)
    (reputation : ReputationTracker) (tips : List MessageId) : List Mrw.ParentCandidate :=
  tips.zipIdx.filterMap fun entry => (StorageBackend.getMessage entry.1 storage).map
    (parentCandidate { outside with now := clock entry.2 } reputation entry.1)

end AdicModel.Node

open AdicProof.Consensus AdicModel AdicModel.Mrw.Weighed AdicModel.Consensus AdicModel.Crypto AdicModel.Node
  AdicModel.Storage
open AdicModel.Mrw hiding drawTip axisCandidates mergeCandidate mergeAxisCandidates collectAxes runMrwPerAxis axisWeight
  weighTip selectBestAvailable

namespace AdicProof.Node

section

variable {libm : Double.Libm} {calculator : WeightCalculator} {params : SelectionParams} {features : AdicFeatures}
  {tip : ParentCandidate} {tips : List ParentCandidate}

def HasWeight (libm : Double.Libm) (calculator : WeightCalculator) (tip : ParentCandidate) : Prop :=
  ∀ proximity, (weigh libm calculator proximity tip).IsFinite

theorem hasWeight_of_finite_trust
    (trust : (calculator.computeTrustWithAge libm tip.reputation tip.age).IsFinite) : HasWeight libm calculator tip := by
  intro proximity
  unfold weigh WeightCalculator.computeWeight
  exact (((Double.isFinite_finite _).mul trust).sub (Double.isFinite_finite _)).expOf libm

theorem hasWeight_of_positive (reputation : 0 ≤ tip.reputation) (base : 0 < 1 + tip.age)
    (power : 0 ≤ calculator.alpha ∨ tip.reputation ≠ 0) : HasWeight libm calculator tip := by
  refine hasWeight_of_finite_trust (Double.IsFinite.mul ?_ (libm.powf_pos _ _ base))
  rcases eq_or_lt_of_le reputation with none | positive
  · rw [← none]
    exact libm.powf_zero _ (power.resolve_right fun some => some none.symm)
  · exact libm.powf_pos _ _ positive

theorem weigh_zero_nan (base : 0 < 1 + tip.age) (power : calculator.alpha < 0) (reputation : tip.reputation = 0) :
    weigh libm calculator 0 tip = .nan := by
  obtain ⟨decay, same⟩ := libm.powf_pos (1 + tip.age) (-calculator.beta) base
  unfold weigh WeightCalculator.computeWeight WeightCalculator.computeTrustWithAge
  rw [reputation, libm.powf_zero_neg _ power, same, mul_zero]
  dsimp only
  rw [Double.zero_mul_infinite]
  rfl

variable {candidates : List Weighed}

theorem sortByWeight_ok (finite : ∀ candidate ∈ candidates, candidate.weight.IsFinite) :
    ∃ sorted, sortByWeight candidates = .ok sorted := by
  obtain ⟨sorted, ran, _⟩ := @Double.sortBy_some _ (fun a b : Weighed => b.weight.partialCmp a.weight) candidates
    fun first member second member' => (finite second member').comparable (finite first member)
  refine ⟨sorted, ?_⟩
  unfold sortByWeight
  rw [ran]

theorem sortByWeight_survives
    (finite : ∀ candidate ∈ candidates, candidate.weight.IsFinite) :
    sortByWeight candidates ≠ .error failedComparison := by
  obtain ⟨sorted, ran⟩ := sortByWeight_ok finite
  rw [ran]
  exact nofun

theorem proximityScore_survives (x y : QpDigits) (radius : UInt32) :
    proximityScore x y radius ≠ .error failedComparison := by
  unfold proximityScore
  split
  · exact nofun
  · refine Fallible.bind_ne_error ?_ fun _ _ => nofun
    unfold vpDiff failedComparison
    split
    · simp
    · exact nofun

variable {draws : Nat → Nat → ℚ} {horizon axis : Nat}

theorem drawTip_survives (draw : ℚ) (msgAxis : AxisPhi) (radius : UInt32) :
    drawTip libm calculator draw axis msgAxis radius tip ≠ .error failedComparison := by
  unfold drawTip
  split
  · exact nofun
  · refine Fallible.bind_ne_error (proximityScore_survives _ _ _) fun proximity _ => ?_
    dsimp only
    split <;> exact nofun

theorem drawTip_finite (weights : HasWeight libm calculator tip) {draw : ℚ} {msgAxis : AxisPhi} {radius : UInt32}
    {candidate : Weighed} (drawn : drawTip libm calculator draw axis msgAxis radius tip = .ok (some candidate)) :
    candidate.weight.IsFinite := by
  unfold drawTip at drawn
  split at drawn
  · cases drawn
  · obtain ⟨proximity, _, drawn⟩ := Fallible.bind_ok drawn
    dsimp only at drawn
    split at drawn
    · cases drawn
      exact weights proximity
    · cases drawn

theorem axisCandidates_survives :
    axisCandidates libm calculator params features draws horizon tips axis ≠ .error failedComparison := by
  unfold axisCandidates
  split
  · unfold failedComparison
    simp
  · split
    · unfold failedComparison
      simp
    · exact Fallible.bind_ne_error (Fallible.mapM_ne_error fun place _ => drawTip_survives _ _ _) fun _ _ => nofun

theorem axisCandidates_finite (weights : ∀ tip ∈ tips, HasWeight libm calculator tip)
    (ran : axisCandidates libm calculator params features draws horizon tips axis = .ok candidates) :
    ∀ candidate ∈ candidates, candidate.weight.IsFinite := by
  unfold axisCandidates at ran
  split at ran
  · cases ran
  · split at ran
    · cases ran
    · obtain ⟨drawn, rounds, ran⟩ := Fallible.bind_ok ran
      cases ran
      intro candidate member
      obtain ⟨_, listed, rfl⟩ := List.mem_filterMap.mp member
      obtain ⟨place, member, round⟩ := Fallible.mapM_ok rounds listed
      have taken := List.fst_mem_of_mem_zipIdx member
      exact drawTip_finite (weights place.1 (List.mem_of_mem_take taken)) round

def AllFinite (collected : HashMap.Table UInt32 (List Weighed)) : Prop :=
  ∀ axis candidates, collected.lookup axis = some candidates → ∀ candidate ∈ candidates, candidate.weight.IsFinite

theorem collectAxes_survives (axes : List Nat) (collected : HashMap.Table UInt32 (List Weighed)) :
    collectAxes libm calculator params features draws horizon tips axes collected ≠ .error failedComparison := by
  induction axes generalizing collected with
  | nil => exact nofun
  | cons axis axes ih =>
    unfold collectAxes
    exact Fallible.bind_ne_error axisCandidates_survives fun candidates _ => ih _

theorem collectAxes_finite (weights : ∀ tip ∈ tips, HasWeight libm calculator tip) {axes : List Nat}
    {collected result : HashMap.Table UInt32 (List Weighed)} (before : AllFinite collected)
    (ran : collectAxes libm calculator params features draws horizon tips axes collected = .ok result) :
    AllFinite result := by
  induction axes generalizing collected with
  | nil =>
    cases ran
    exact before
  | cons axis axes ih =>
    unfold collectAxes at ran
    obtain ⟨candidates, here, ran⟩ := Fallible.bind_ok ran
    refine ih (fun other listed found => ?_) ran
    rw [HashMap.lookup_insert_eq] at found
    split at found
    · cases found
      exact axisCandidates_finite weights here
    · exact before other listed found

def FiniteTable (merged : HashMap.Table MessageId Weighed) : Prop :=
  ∀ id candidate, merged.lookup id = some candidate → candidate.weight.IsFinite

section

variable {merged : HashMap.Table MessageId Weighed} (before : FiniteTable merged)

include before

theorem mergeCandidate_finite {candidate : Weighed} (finite : candidate.weight.IsFinite) :
    FiniteTable (mergeCandidate merged candidate) := by
  intro id other found
  unfold mergeCandidate at found
  split at found
  · next stored known =>
    rw [HashMap.lookup_insert_eq] at found
    split at found
    · cases found
      exact (before _ stored known).add finite
    · exact before id other found
  · rw [HashMap.lookup_insert_eq] at found
    split at found
    · cases found
      exact finite
    · exact before id other found

theorem foldl_mergeCandidate_finite
    (finite : ∀ candidate ∈ candidates, candidate.weight.IsFinite) :
    FiniteTable (candidates.foldl mergeCandidate merged) := by
  induction candidates generalizing merged with
  | nil => exact before
  | cons first rest ih =>
    exact ih (mergeCandidate_finite before (finite first List.mem_cons_self)) fun candidate member =>
      finite candidate (List.mem_cons_of_mem first member)

theorem mergeAxes_finite {axes : List (UInt32 × List Weighed)}
    (finite : ∀ axis ∈ axes, ∀ candidate ∈ axis.2, candidate.weight.IsFinite) :
    FiniteTable (axes.foldl (fun merged axis => axis.2.foldl mergeCandidate merged) merged) := by
  induction axes generalizing merged with
  | nil => exact before
  | cons first rest ih =>
    exact ih (foldl_mergeCandidate_finite before (finite first List.mem_cons_self)) fun axis member =>
      finite axis (List.mem_cons_of_mem first member)

end

theorem mergeAxisCandidates_survives (order : HashMap.Order) {collected : HashMap.Table UInt32 (List Weighed)}
    (finite : AllFinite collected) : mergeAxisCandidates order collected ≠ .error failedComparison := by
  refine sortByWeight_survives fun candidate member => ?_
  obtain ⟨⟨id, _⟩, listed, rfl⟩ := List.mem_map.mp member
  have known := HashMap.mem_pairs.mp (order.mem_iterate.mp listed)
  have empty : FiniteTable ∅ := by
    intro id candidate found
    cases found
  refine mergeAxes_finite empty (fun axis axisListed candidate inside => ?_) id _ known
  exact finite axis.1 axis.2 (HashMap.mem_pairs.mp (order.mem_iterate.mp axisListed)) candidate inside

theorem runMrwPerAxis_survives (weights : ∀ tip ∈ tips, HasWeight libm calculator tip) (order : HashMap.Order) :
    runMrwPerAxis libm calculator params features draws order horizon tips ≠ .error failedComparison := by
  have empty : AllFinite ∅ := by
    intro axis candidates found
    cases found
  refine Fallible.bind_ne_error (collectAxes_survives _ _) fun collected ran => ?_
  exact mergeAxisCandidates_survives order (collectAxes_finite weights empty ran)

theorem axisWeight_survives (msgAxis : AxisPhi × Nat) :
    axisWeight libm calculator params tip msgAxis ≠ .error failedComparison := by
  unfold axisWeight
  split
  · exact nofun
  · exact Fallible.bind_ne_error (proximityScore_survives _ _ _) fun _ _ => nofun

theorem axisWeight_finite (weights : HasWeight libm calculator tip) {msgAxis : AxisPhi × Nat} {weight : Double}
    (ran : axisWeight libm calculator params tip msgAxis = .ok weight) : weight.IsFinite := by
  unfold axisWeight at ran
  split at ran
  · cases ran
    exact Double.isFinite_finite 0
  · obtain ⟨proximity, _, ran⟩ := Fallible.bind_ok ran
    cases ran
    exact weights proximity

theorem foldl_add_finite {weights : List Double} {start : Double} (first : start.IsFinite)
    (finite : ∀ weight ∈ weights, weight.IsFinite) : (weights.foldl Double.add start).IsFinite := by
  induction weights generalizing start with
  | nil => exact first
  | cons weight rest ih =>
    exact ih (first.add (finite weight List.mem_cons_self)) fun other member =>
      finite other (List.mem_cons_of_mem weight member)

theorem selectBestAvailable_survives (weights : ∀ tip ∈ tips, HasWeight libm calculator tip) :
    selectBestAvailable libm calculator params features tips ≠ .error failedComparison := by
  unfold selectBestAvailable
  split
  · unfold failedComparison
    simp
  · refine Fallible.bind_ne_error (Fallible.mapM_ne_error fun tip _ => ?_) fun weighted ran => ?_
    · exact Fallible.bind_ne_error (Fallible.mapM_ne_error fun _ _ => axisWeight_survives _) fun _ _ => nofun
    · refine Fallible.bind_ne_error (sortByWeight_survives fun candidate member => ?_) fun _ _ => nofun
      obtain ⟨tip, listed, round⟩ := Fallible.mapM_ok ran member
      obtain ⟨axes, rounds, same⟩ := Fallible.bind_ok round
      cases same
      refine foldl_add_finite (Double.isFinite_finite 0) fun weight inside => ?_
      obtain ⟨msgAxis, _, returned⟩ := Fallible.mapM_ok rounds inside
      exact axisWeight_finite (weights tip listed) returned

variable (libm calculator params tips) in
/-- Decays have positive bases, weights are numbers, and the sorts compare all that they are given. -/
structure Survives : Prop where
  base : ∀ tip ∈ tips, 0 < 1 + tip.age
  weights : ∀ tip ∈ tips, ∀ proximity, weigh libm calculator proximity tip ≠ .nan
  walks : ∀ features draws order horizon, requiredParents params < tips.length →
    runMrwPerAxis libm calculator params features draws order horizon tips ≠ .error failedComparison
  fallback : ∀ features, requiredParents params < tips.length →
    selectBestAvailable libm calculator params features tips ≠ .error failedComparison

theorem survives_iff (reputations : ∀ tip ∈ tips, 0 ≤ tip.reputation) :
    Survives libm calculator params tips ↔
      (∀ tip ∈ tips, 0 < 1 + tip.age) ∧ (0 ≤ calculator.alpha ∨ ∀ tip ∈ tips, tip.reputation ≠ 0) := by
  constructor
  · intro survives
    refine ⟨survives.base, ?_⟩
    by_contra neither
    obtain ⟨power, reputation⟩ := not_or.mp neither
    push Not at reputation
    obtain ⟨tip, member, zero⟩ := reputation
    exact survives.weights tip member 0 (weigh_zero_nan (survives.base tip member) (not_le.mp power) zero)
  · rintro ⟨base, power⟩
    have weights : ∀ tip ∈ tips, HasWeight libm calculator tip := fun tip member =>
      hasWeight_of_positive (reputations tip member) (base tip member) (power.imp_right fun some => some tip member)
    exact ⟨base, fun tip member proximity => (weights tip member proximity).ne_nan,
      fun _ _ order _ _ => runMrwPerAxis_survives weights order, fun _ _ => selectBestAvailable_survives weights⟩

end

section

def instantOf (time : DateTime) : Int := time.timestamp * 1000000000 + time.nanos.toNat

theorem numSeconds_bounds (later earlier : DateTime) :
    instantOf later - instantOf earlier < (MessageValidator.numSeconds later earlier + 1) * 1000000000 ∧
      (MessageValidator.numSeconds later earlier - 1) * 1000000000 < instantOf later - instantOf earlier ∧
      (0 ≤ MessageValidator.numSeconds later earlier ↔ -1000000000 < instantOf later - instantOf earlier) := by
  have difference : (later.timestamp - earlier.timestamp) * 1000000000 + (later.nanos.toNat - earlier.nanos.toNat) =
      instantOf later - instantOf earlier := by
    unfold instantOf
    omega
  unfold MessageValidator.numSeconds
  rw [difference, Int.tdiv_eq_ediv]
  split
  · omega
  · rw [show Int.sign 1000000000 = 1 from rfl]
    omega

theorem decay_base_positive_iff (later earlier : DateTime) :
    (0 : ℚ) < 1 + (MessageValidator.numSeconds later earlier : Int) ↔
      instantOf earlier < instantOf later + 1000000000 := by
  have cast : (0 : ℚ) < 1 + (MessageValidator.numSeconds later earlier : Int) ↔
      0 < 1 + MessageValidator.numSeconds later earlier := by
    norm_cast
  have bounds := numSeconds_bounds later earlier
  rw [cast]
  omega

variable {σ B : Type} [StorageBackend B] {outside : Outside σ B} {clock : Nat → DateTime} {storage : B}
  {reputation : ReputationTracker} {tips : List MessageId} {libm : Double.Libm} {calculator : WeightCalculator}
  {params : SelectionParams}

theorem mem_tipCandidates {candidate : ParentCandidate} :
    candidate ∈ tipCandidates outside clock storage reputation tips ↔ ∃ place tip message, tips[place]? = some tip ∧
      StorageBackend.getMessage tip storage = some message ∧
      candidate = parentCandidate { outside with now := clock place } reputation tip message := by
  unfold tipCandidates
  rw [List.mem_filterMap]
  constructor
  · rintro ⟨⟨tip, place⟩, member, found⟩
    obtain ⟨message, stored, rfl⟩ := Option.map_eq_some_iff.mp found
    exact ⟨place, tip, message, List.mem_zipIdx_iff_getElem?.mp member, stored, rfl⟩
  · rintro ⟨place, tip, message, listed, stored, rfl⟩
    refine ⟨(tip, place), List.mem_zipIdx_iff_getElem?.mpr listed, ?_⟩
    rw [stored]
    rfl

/-- The selection survives exactly if no tip is a second ahead of the clock and no zero reputation has a negative
    exponent. -/
theorem tips_survive_iff (reputations : ∀ pubkey, 0 ≤ reputation.getReputation pubkey) :
    Survives libm calculator params (tipCandidates outside clock storage reputation tips) ↔
      (∀ place tip message, tips[place]? = some tip → StorageBackend.getMessage tip storage = some message →
        instantOf message.metadata.timestamp < instantOf (clock place) + 1000000000) ∧
      (0 ≤ calculator.alpha ∨ ∀ tip ∈ tips, ∀ message, StorageBackend.getMessage tip storage = some message →
        reputation.getReputation message.proposerPk ≠ 0) := by
  have nonneg : ∀ candidate ∈ tipCandidates outside clock storage reputation tips, 0 ≤ candidate.reputation := by
    intro candidate member
    obtain ⟨_, _, message, _, _, rfl⟩ := mem_tipCandidates.mp member
    exact reputations message.proposerPk
  rw [survives_iff nonneg]
  constructor
  · rintro ⟨base, power⟩
    refine ⟨fun place tip message listed stored => ?_, power.imp_right fun some tip listed message stored => ?_⟩
    · exact (decay_base_positive_iff _ _).mp (base _ (mem_tipCandidates.mpr ⟨place, tip, message, listed, stored, rfl⟩))
    · obtain ⟨place, placed⟩ := List.mem_iff_getElem?.mp listed
      exact some _ (mem_tipCandidates.mpr ⟨place, tip, message, placed, stored, rfl⟩)
  · rintro ⟨base, power⟩
    refine ⟨fun candidate member => ?_, power.imp_right fun some candidate member => ?_⟩
    · obtain ⟨place, tip, message, listed, stored, rfl⟩ := mem_tipCandidates.mp member
      exact (decay_base_positive_iff _ _).mpr (base place tip message listed stored)
    · obtain ⟨place, tip, message, listed, stored, rfl⟩ := mem_tipCandidates.mp member
      exact some tip (List.mem_of_getElem? listed) message stored

end

namespace EarlyTip

def calculator : WeightCalculator := ⟨1, 1, 1, 1⟩

def powf (base exponent : ℚ) : Double :=
  if exponent = 1 then .finite base
  else if base = 0 then (if exponent < 0 then .infinite false else .finite 0)
  else .finite (1 / base)

def libm : Double.Libm where
  exp x := if x < 0 then 1 / (1 - x) else 1 + x
  powf := powf
  powf_pos base exponent positive := by
    unfold powf
    split
    · exact Double.isFinite_finite base
    · rw [if_neg positive.ne']
      exact Double.isFinite_finite _
  powf_zero exponent nonneg := by
    unfold powf
    rw [if_pos rfl, if_neg (not_lt.mpr nonneg)]
    split <;> exact Double.isFinite_finite _
  powf_zero_neg exponent negative := by
    unfold powf
    rw [if_neg (by linarith), if_pos rfl, if_pos negative]

def params : SelectionParams := .fromAdicParams ⟨3, [2, 2, 1], 3⟩

def featuresFrom (digit : UInt8) : AdicFeatures :=
  ⟨[⟨⟨0⟩, ⟨[digit, 0], 3⟩⟩, ⟨⟨1⟩, ⟨[digit, 0], 3⟩⟩, ⟨⟨2⟩, ⟨[digit, 0], 3⟩⟩]⟩

def tipId (byte : UInt8) : MessageId := ⟨.replicate byte⟩

def tipMessage (byte : UInt8) (timestamp : DateTime) : AdicMessage :=
  { signedMessage with id := tipId byte, features := featuresFrom 1, metadata := .new timestamp }

def messages (early : DateTime) : List AdicMessage :=
  [tipMessage 1 ⟨0, 0⟩, tipMessage 2 ⟨0, 0⟩, tipMessage 3 ⟨0, 0⟩, tipMessage 4 ⟨0, 0⟩, tipMessage 5 early]

def storage (early : DateTime) : MemoryBackend :=
  { MemoryBackend.new with messages := HashMap.ofPairs ((messages early).map fun message => (message.id, message)) }

def reputation : ReputationTracker := .new (9 / 10)

def candidates (early : DateTime) : List ParentCandidate :=
  tipCandidates quiet (fun _ => ⟨0, 500000000⟩) (storage early) reputation [tipId 1, tipId 2, tipId 3, tipId 4, tipId 5]

theorem reputations (pubkey : PublicKey) : 0 ≤ reputation.getReputation pubkey := by
  show (0 : ℚ) ≤ 1
  exact zero_le_one

end EarlyTip

open EarlyTip in
theorem tips_survive_punctual : Survives libm calculator params (candidates ⟨1, 0⟩) := by
  refine (tips_survive_iff reputations).mpr ⟨?_, Or.inl (by decide)⟩
  intro place tip message listed stored
  have pairs := (HashMap.lookup_ofPairs (by decide)).mp stored
  obtain ⟨_, known, same⟩ := List.mem_map.mp pairs
  cases same
  have punctual : ∀ message ∈ messages ⟨1, 0⟩,
      instantOf message.metadata.timestamp < instantOf ⟨0, 500000000⟩ + 1000000000 := by
    decide
  exact punctual message known

open EarlyTip in
/-- A tip that is 1.5 seconds early is accepted, and half a second later the fallback panics over it. -/
theorem early_tip_panics :
    (∀ message ∈ messages ⟨1, 500000000⟩, MessageValidator.new.validateTimestamp
      { oneSignature with now := ⟨0, 0⟩ } message .valid = .valid) ∧
    (∀ pubkey, 0 ≤ reputation.getReputation pubkey) ∧
    selectBestAvailable libm calculator params (featuresFrom 2) (candidates ⟨1, 500000000⟩) = .error failedComparison ∧
    ¬ Survives libm calculator params (candidates ⟨1, 500000000⟩) := by
  have panics : selectBestAvailable libm calculator params (featuresFrom 2) (candidates ⟨1, 500000000⟩) =
      .error failedComparison := by
    exact Fallible.failureOf_eq_some (by decide +kernel)
  refine ⟨by decide +kernel, reputations, panics, fun survives => ?_⟩
  exact survives.fallback (featuresFrom 2) (by decide +kernel) panics

end AdicProof.Node
