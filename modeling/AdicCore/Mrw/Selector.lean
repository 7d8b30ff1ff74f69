import AdicCore.Crypto.UltrametricSecurity

open AdicModel.Crypto HashMap

namespace AdicModel.Mrw

/-- The parameters that the selection reads. -/
structure AdicParams where
  d : UInt32
  rho : List UInt32
  q : UInt32

structure SelectionParams where
  d : UInt32
  q : UInt32
  rho : List UInt32
  maxHorizon : UInt32
  widenFactor : ℚ

def SelectionParams.fromAdicParams (params : AdicParams) : SelectionParams :=
  ⟨params.d, params.q, params.rho, 100, 3 / 2⟩

/-- The numbers of a candidate are exact. -/
structure ParentCandidate where
  messageId : MessageId
  features : List QpDigits
  reputation : ℚ
  conflictPenalty : ℚ
  weight : ℚ
  axisWeights : Table UInt32 ℚ
  age : ℚ

inductive SelectionStep where
  | axisCandidates (axis : UInt32) (count : Nat)
  | widening (newHorizon widenCount : Nat)
  | success (parentCount : Nat)

/-- The times of the steps are left out. -/
structure MrwTrace where
  steps : List SelectionStep
  selectedParents : List MessageId
  success : Bool
  totalCandidatesConsidered : Nat
  widenCount : Nat
  finalHorizon : Nat

namespace MrwTrace

def new : MrwTrace := ⟨[], [], false, 0, 0, 0⟩

def recordAxisCandidates (axis : UInt32) (count : Nat) (trace : MrwTrace) : MrwTrace :=
  { trace with
    steps := trace.steps ++ [.axisCandidates axis count]
    totalCandidatesConsidered := trace.totalCandidatesConsidered + count }

def recordWiden (newHorizon : Nat) (trace : MrwTrace) : MrwTrace :=
  { trace with
    steps := trace.steps ++ [.widening newHorizon (trace.widenCount + 1)]
    widenCount := trace.widenCount + 1
    finalHorizon := newHorizon }

def recordSuccess (parents : List MessageId) (trace : MrwTrace) : MrwTrace :=
  { trace with
    steps := trace.steps ++ [.success parents.length]
    selectedParents := parents
    success := true }

end MrwTrace

/-- The first digits that agree, of digits of one prime. -/
def vpDiff (x y : QpDigits) : Except AdicError Nat :=
  if x.p ≠ y.p then .error (.panic "Cannot compute vp_diff for different primes")
  else
    let maxLen := max x.digits.length y.digits.length
    .ok (((List.range maxLen).find? fun i => (x.digits[i]?).getD 0 ≠ (y.digits[i]?).getD 0).getD maxLen)

def proximityScore (x y : QpDigits) (radius : UInt32) : Except AdicError ℚ := do
  if radius = 0 then return 0
  else
    let valuation ← vpDiff x y
    return (min valuation radius.toNat : ℚ) / radius.toNat

/-- What a selection meets: the weights, the draws of each round, and the order of hash maps. -/
structure Chance where
  computeWeight : ℚ → ℚ → ℚ → ℚ → ℚ
  positive : ∀ proximity reputation conflictPenalty age, 0 < computeWeight proximity reputation conflictPenalty age
  draws : Nat → Nat → Nat → ℚ
  inUnit : ∀ round axis tip, 0 ≤ draws round axis tip ∧ draws round axis tip < 1
  order : Order

def Chance.weigh (chance : Chance) (proximity : ℚ) (tip : ParentCandidate) : ℚ :=
  chance.computeWeight proximity tip.reputation tip.conflictPenalty tip.age

section

variable (params : SelectionParams) (chance : Chance) (features : AdicFeatures)

def drawTip (round axis : Nat) (msgAxis : AxisPhi) (radius : UInt32) (tip : ParentCandidate) (place : Nat) :
    Except AdicError (Option ParentCandidate) :=
  match tip.features[axis]? with
  | none => return none
  | some tipPhi => do
    let proximity ← proximityScore msgAxis.qpDigits tipPhi radius
    let weight := chance.weigh proximity tip
    if chance.draws round axis place < weight / (weight + 1) then return some { tip with weight }
    else return none

def axisCandidates (round horizon : Nat) (tips : List ParentCandidate) (axis : Nat) :
    Except AdicError (List ParentCandidate) :=
  match features.getAxis ⟨UInt32.ofNat axis⟩ with
  | none => .error (.invalidParameter s!"Missing axis {axis}")
  | some msgAxis =>
    match params.rho[axis]? with
    | none => .error (.panic "index out of bounds")
    | some radius => do
      let drawn ← (tips.take horizon).zipIdx.mapM fun place => drawTip chance round axis msgAxis radius place.1 place.2
      return drawn.filterMap id

def mergeCandidate (axis : UInt32) (merged : Table MessageId ParentCandidate) (candidate : ParentCandidate) :
    Table MessageId ParentCandidate :=
  match merged.lookup candidate.messageId with
  | some stored =>
    merged.insert candidate.messageId { stored with
      weight := stored.weight + candidate.weight
      axisWeights := stored.axisWeights.insert axis candidate.weight }
  | none =>
    merged.insert candidate.messageId { candidate with
      axisWeights := candidate.axisWeights.insert axis candidate.weight }

def heavier (first second : ParentCandidate) : Prop := second.weight ≤ first.weight

instance : DecidableRel heavier := fun first second => inferInstanceAs (Decidable (second.weight ≤ first.weight))

def mergeAxisCandidates (axisCandidates : Table UInt32 (List ParentCandidate)) : List ParentCandidate :=
  let merged := (chance.order.iterate (pairs axisCandidates)).foldl
    (fun merged axis => axis.2.foldl (mergeCandidate axis.1) merged) ∅
  ((chance.order.iterate (pairs merged)).map Prod.snd).insertionSort heavier

def collectAxes (round horizon : Nat) (tips : List ParentCandidate) :
    List Nat → Table UInt32 (List ParentCandidate) → MrwTrace →
      Except AdicError (Table UInt32 (List ParentCandidate) × MrwTrace)
  | [], collected, trace => .ok (collected, trace)
  | axis :: axes, collected, trace => do
    let candidates ← axisCandidates params chance features round horizon tips axis
    collectAxes round horizon tips axes (collected.insert (UInt32.ofNat axis) candidates)
      (trace.recordAxisCandidates (UInt32.ofNat axis) candidates.length)

def runMrwPerAxis (round horizon : Nat) (tips : List ParentCandidate) (trace : MrwTrace) :
    Except AdicError (List ParentCandidate × MrwTrace) := do
  let collected ← collectAxes params chance features round horizon tips (List.range params.d.toNat) ∅ trace
  return (mergeAxisCandidates chance collected.1, collected.2)

def currentBalls (selected : List ParentCandidate) (axis radius : Nat) : List (List UInt8) :=
  (selected.filterMap fun parent => (parent.features[axis]?).map fun digits => digits.ballId radius).dedup

def axisBonus (selected : List ParentCandidate) (candidate : ParentCandidate) (radius : UInt32) (axis : Nat) : ℚ :=
  let balls := currentBalls selected axis radius.toNat
  if balls.length < params.q.toNat then
    match candidate.features[axis]? with
    | some digits => if digits.ballId radius.toNat ∈ balls then 0 else 1
    | none => 0
  else 0

def diversityBonus (selected : List ParentCandidate) (candidate : ParentCandidate) : ℚ :=
  (params.rho.zipIdx.map fun axis => axisBonus params selected candidate axis.1 axis.2).sum

def bestCandidate (selected available : List ParentCandidate) : Option Nat × ℚ :=
  available.zipIdx.foldl (fun best place =>
    let score := place.1.weight + diversityBonus params selected place.1
    if score > best.2 then (some place.2, score) else best) (none, -1)

def pickParents : Nat → List ParentCandidate → List ParentCandidate → List ParentCandidate
  | 0, selected, _ => selected
  | remaining + 1, selected, available =>
    match (bestCandidate params selected available).1 with
    | none => selected
    | some place =>
      match available[place]? with
      | none => selected
      | some best => pickParents remaining (selected ++ [best]) (available.eraseIdx place)

/-- The sum wraps around. -/
def requiredParents : Nat := (params.d + 1).toNat

def sampleDiverseParents (candidates : List ParentCandidate) : Except AdicError (List ParentCandidate) :=
  let required := requiredParents params
  if candidates.length < required then
    .error (.parentSelectionFailed s!"Not enough candidates: {candidates.length} < {required}")
  else
    let selected := pickParents params required [] candidates
    if selected.length < required then .error (.parentSelectionFailed "Could not select enough diverse parents")
    else .ok selected

def cycle (required : Nat) (tips : List ParentCandidate) : List ParentCandidate :=
  (List.range required).filterMap fun place => tips[place % tips.length]?

def selectBootstrapParents (tips : List ParentCandidate) : Except AdicError (List ParentCandidate) :=
  if tips = [] then .error (.parentSelectionFailed "No tips available for bootstrap")
  else .ok (cycle (requiredParents params) tips)

def axisWeight (tip : ParentCandidate) (msgAxis : AxisPhi × Nat) : Except AdicError ℚ :=
  match tip.features[msgAxis.2]? with
  | none => return 0
  | some tipPhi => do
    let proximity ← proximityScore msgAxis.1.qpDigits tipPhi ((params.rho[msgAxis.2]?).getD 2)
    return chance.weigh proximity tip

def totalWeight (tip : ParentCandidate) : Except AdicError ℚ := do
  let weights ← features.phi.zipIdx.mapM (axisWeight params chance tip)
  return weights.sum

def weighTip (tip : ParentCandidate) : Except AdicError ParentCandidate := do
  let weight ← totalWeight params chance features tip
  return { tip with weight }

def selectBestAvailable (tips : List ParentCandidate) : Except AdicError (List ParentCandidate) :=
  if tips = [] then .error (.parentSelectionFailed "No tips available")
  else do
    let weightedTips ← tips.mapM (weighTip params chance features)
    return cycle (requiredParents params) (weightedTips.insertionSort heavier)

/-- The rounds with their horizon. The loop ends after the last one or beyond the largest horizon. -/
def searchRounds (tips : List ParentCandidate) :
    Nat → Nat → Nat → MrwTrace → Except AdicError (Option (List ParentCandidate) × MrwTrace)
  | 0, _, _, trace => .ok (none, trace)
  | attempts + 1, round, horizon, trace => do
    let (candidates, trace) ← runMrwPerAxis params chance features round horizon tips trace
    match sampleDiverseParents params candidates with
    | .ok selected => return (some selected, trace)
    | .error _ =>
      let horizon := ⌊(horizon : ℚ) * params.widenFactor⌋.toNat
      let trace := trace.recordWiden horizon
      if horizon > params.maxHorizon.toNat then return (none, trace)
      else searchRounds tips attempts (round + 1) horizon trace

def selected (parents : List ParentCandidate) (trace : MrwTrace) : List MessageId × MrwTrace :=
  (parents.map ParentCandidate.messageId, trace.recordSuccess (parents.map ParentCandidate.messageId))

def selectParents (tips : List ParentCandidate) : Except AdicError (List MessageId × MrwTrace) := do
  if tips.length ≤ requiredParents params then
    let parents ← selectBootstrapParents params tips
    return selected parents .new
  else
    let (found, trace) ← searchRounds params chance features tips 10 0 (requiredParents params * 2) .new
    match found with
    | some parents => return selected parents trace
    | none =>
      let parents ← selectBestAvailable params chance features tips
      return selected parents trace

end

def hasDuplicateParents (parents : List MessageId) : Bool := parents.dedup.length ≠ parents.length

end AdicModel.Mrw
