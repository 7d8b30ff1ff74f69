import AdicCore.Mrw.Selector

open AdicModel.Crypto

namespace AdicModel.Crypto

/-- `p` to minus the digits missing to the radius. The difference of `i32` wraps. -/
def proximityTerm (p radius valuation : UInt32) : ℚ :=
  let maxDiff := max (radius.toInt32 - valuation.toInt32) 0
  (p.toNat : ℚ) ^ (-maxDiff.toInt)

/-- The least term of the parents that have the axis. `none` is infinity. -/
def minTerm (p radius : UInt32) (msgPhi : QpDigits) :
    List QpDigits → Option ℚ → Except AdicError (Option ℚ)
  | [], least => .ok least
  | parentPhi :: parents, least => do
    let valuation ← Mrw.vpDiff msgPhi parentPhi
    let term := proximityTerm p radius (UInt32.ofNat valuation)
    let lower := match least with
      | none => true
      | some least => term < least
    minTerm p radius msgPhi parents (if lower then some term else least)

def securityScore (p : UInt32) (message : AdicMessage) (parentFeatures : List (List QpDigits)) :
    List (UInt32 × Nat) → ℚ → Except AdicError ℚ
  | [], totalScore => .ok totalScore
  | (radius, axisIdx) :: axes, totalScore =>
    match message.features.getAxis ⟨UInt32.ofNat axisIdx⟩ with
    | none => securityScore p message parentFeatures axes totalScore
    | some msgPhi => do
      match ← minTerm p radius msgPhi.qpDigits (parentFeatures.filterMap fun features => features[axisIdx]?) none with
      | none => securityScore p message parentFeatures axes totalScore
      | some least => securityScore p message parentFeatures axes (totalScore + least)

def computeSecurityScore (p : UInt32) (rho : List UInt32) (message : AdicMessage)
    (parentFeatures : List (List QpDigits)) : Except AdicError ℚ :=
  securityScore p message parentFeatures rho.zipIdx 0

end AdicModel.Crypto

namespace AdicModel.Consensus

/-- The parameters that the checker reads. Reputations are exact numbers. -/
structure AdicParams where
  p : UInt32
  d : UInt32
  rho : List UInt32
  q : UInt32
  rMin : ℚ
  rSumMin : ℚ

def AdicParams.default : AdicParams := ⟨3, 3, [2, 2, 1], 3, 1, 4⟩

/-- The texts of numbers: as such, and with two decimals. -/
structure NumberFormat where
  display : ℚ → String
  twoDecimals : ℚ → String

structure AdmissibilityResult where
  score : ℚ
  scorePassed : Bool
  c2Passed : Bool
  c3Passed : Bool
  isAdmissible : Bool
  details : String

def AdmissibilityResult.new (score : ℚ) (scorePassed c2 c3 : Bool) (details : String) : AdmissibilityResult :=
  ⟨score, scorePassed, c2, c3, scorePassed && c2 && c3, details⟩

/-- The ultrametric validator is there exactly if it is used. -/
structure AdmissibilityChecker where
  params : AdicParams
  useUltrametric : Bool

namespace AdmissibilityChecker

def new (params : AdicParams) : AdmissibilityChecker := ⟨params, true⟩

def withUltrametricOption (params : AdicParams) (useUltrametric : Bool) : AdmissibilityChecker :=
  ⟨params, useUltrametric⟩

def c2Axes (q : UInt32) (parentFeatures : List (List QpDigits)) : List (UInt32 × Nat) → Bool × String
  | [] => (true, "")
  | (radius, axisIdx) :: axes =>
    let axisFeatures := parentFeatures.filterMap fun features => features[axisIdx]?
    if axisFeatures.length ≠ parentFeatures.length then (false, s!"Not all parents have axis {axisIdx}")
    else
      let distinctCount := countDistinctBalls axisFeatures radius.toNat
      if distinctCount < q.toNat then
        (false, s!"C2 failed: axis {axisIdx} has {distinctCount} distinct balls, need >= {q}")
      else c2Axes q parentFeatures axes

def checkC2Diversity (params : AdicParams) (parentFeatures : List (List QpDigits)) : Bool × String :=
  c2Axes params.q parentFeatures params.rho.zipIdx

def minReputation : List ℚ → ℚ
  | [] => 0
  | reputation :: reputations => reputations.foldl min reputation

def checkC3Reputation (format : NumberFormat) (params : AdicParams) (parentReputations : List ℚ) : Bool × String :=
  let minRep := minReputation parentReputations
  if minRep < params.rMin then
    (false, s!"C3 failed: minimum reputation {format.display minRep} < required {format.display params.rMin}")
  else
    let sumRep := parentReputations.sum
    if sumRep < params.rSumMin then
      (false, s!"C3 failed: sum reputation {format.display sumRep} < required {format.display params.rSumMin}")
    else (true, "")

def admissibilityScore (p : UInt32) (message : AdicMessage) (parentFeatures : List (List QpDigits)) :
    List (UInt32 × Nat) → ℚ → Except AdicError ℚ
  | [], totalScore => .ok totalScore
  | (radius, axisIdx) :: axes, totalScore =>
    match message.features.getAxis ⟨UInt32.ofNat axisIdx⟩ with
    | none => admissibilityScore p message parentFeatures axes totalScore
    | some msgPhi => do
      let least ← minTerm p radius msgPhi.qpDigits (parentFeatures.filterMap fun features => features[axisIdx]?) none
      admissibilityScore p message parentFeatures axes (totalScore + least.getD 0)

def computeAdmissibilityScore (params : AdicParams) (message : AdicMessage) (parentFeatures : List (List QpDigits)) :
    Except AdicError ℚ :=
  admissibilityScore params.p message parentFeatures params.rho.zipIdx 0

def ultrametricC2 (params : AdicParams) (parentFeatures : List (List QpDigits)) : Bool × String :=
  let (passed, distinctCounts) := match verifyC2Diversity params.rho params.q parentFeatures with
    | .ok verified => verified
    | .error _ => (false, [])
  (passed, if passed then "" else s!"C2 failed (ultrametric): distinct counts {distinctCounts}")

def scoreOf (checker : AdmissibilityChecker) (message : AdicMessage) (parentFeatures : List (List QpDigits)) :
    Except AdicError ℚ :=
  if checker.useUltrametric then computeSecurityScore checker.params.p checker.params.rho message parentFeatures
  else computeAdmissibilityScore checker.params message parentFeatures

def c2Of (checker : AdmissibilityChecker) (parentFeatures : List (List QpDigits)) : Bool × String :=
  if checker.useUltrametric then ultrametricC2 checker.params parentFeatures
  else checkC2Diversity checker.params parentFeatures

/-- The number of parents is a `u32` that wraps. -/
def checkMessage (format : NumberFormat) (checker : AdmissibilityChecker) (message : AdicMessage)
    (parentFeatures : List (List QpDigits)) (parentReputations : List ℚ) : Except AdicError AdmissibilityResult :=
  let params := checker.params
  if message.parents.length ≠ (params.d + 1).toNat then
    .error (.admissibilityFailed s!"Expected {params.d + 1} parents, got {message.parents.length}")
  else do
    let score ← checker.scoreOf message parentFeatures
    let scorePassed : Bool := score ≥ params.d.toNat
    let c2 := checker.c2Of parentFeatures
    let c3 := checkC3Reputation format params parentReputations
    let c2Text := if c2.1 then "PASS" else c2.2
    let c3Text := if c3.1 then "PASS" else c3.2
    let scoreText := format.twoDecimals score
    return .new score scorePassed c2.1 c3.1
      s!"Score: {scoreText} (>= {params.d}), C2: {c2Text} (diversity), C3: {c3Text} (reputation)"

end AdmissibilityChecker

end AdicModel.Consensus
