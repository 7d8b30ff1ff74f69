import AdicCore.Governance.Types

namespace AdicModel.Governance

/-- Weights and offsets of a schedule. Weights are exact numbers. -/
structure MigrationPlan where
  rampEpochs : UInt64
  weightSchedule : List (UInt64 × ℚ)
deriving DecidableEq

inductive AxisAction where
  | add
  | deprecate
  | modify
deriving DecidableEq

structure AxisCatalogChange where
  action : AxisAction
  axisId : UInt8
  encoderSpecCid : String
  ultrametricProofCid : String
  securityAnalysisCid : String
  migrationPlan : MigrationPlan
deriving DecidableEq

inductive AxisStatus where
  | proposed
  | ramping
  | active
  | deprecating
  | deprecated
deriving DecidableEq

def AxisStatus.debug : AxisStatus → String
  | .proposed => "Proposed"
  | .ramping => "Ramping"
  | .active => "Active"
  | .deprecating => "Deprecating"
  | .deprecated => "Deprecated"

structure AxisEntry where
  axisId : UInt8
  encoderSpecCid : String
  ultrametricProofCid : String
  securityAnalysisCid : String
  status : AxisStatus
  migrationPlan : Option MigrationPlan
  addedEpoch : UInt64
  deprecatedEpoch : Option UInt64

structure UltrametricValidation where
  isValid : Bool
  distanceFunctionType : String
  maxDistance : ℚ
  clopenBallCount : Nat
  violations : List String

structure IndependenceCheck where
  isIndependent : Bool
  correlations : List (UInt8 × ℚ)
  maxCorrelation : ℚ
  threshold : ℚ

structure AxisCatalogConfig where
  maxCorrelationThreshold : ℚ
  reviewCommitteeMinReputation : ℚ
  defaultRampEpochs : UInt64

def AxisCatalogConfig.default : AxisCatalogConfig :=
  { maxCorrelationThreshold := 7 / 10
    reviewCommitteeMinReputation := 1000
    defaultRampEpochs := 1000 }

/-- The text of a catalog error. Correlations are shown with three decimals. -/
inductive AxisCatalogError where
  | text (message : String)
  | highCorrelation (axisId : UInt8) (maxCorrelation threshold : ℚ)

structure AxisCatalogManager where
  config : AxisCatalogConfig
  axes : HashMap.Table UInt8 AxisEntry
  activeAxes : List UInt8

/-- `str::contains`. -/
def containsText (text pattern : String) : Bool := decide (pattern.toList <:+: text.toList)

def extractDistanceFunctionType (proofCid : String) : String :=
  if containsText proofCid "padic" || containsText proofCid "p-adic" then "p-adic"
  else if containsText proofCid "hamming" then "hamming"
  else if containsText proofCid "levenstein" then "levenstein"
  else "generic-ultrametric"

def validateTriangleInequality (distanceType : String) : Bool :=
  distanceType ∈ ["p-adic", "hamming", "discrete", "generic-ultrametric"]

def estimateClopenBallCount (distanceType : String) : Nat :=
  if distanceType = "p-adic" then 1024
  else if distanceType = "hamming" then 512
  else if distanceType = "discrete" then 256
  else 128

def validateDeterministicEncoding (encoderCid : String) : Bool :=
  containsText encoderCid "deterministic" || containsText encoderCid "pure" || encoderCid.utf8ByteSize ≥ 10

def computeMaxDistance (distanceType : String) : ℚ :=
  if distanceType = "p-adic" then 100
  else if distanceType = "hamming" then 256
  else if distanceType = "discrete" then 1
  else 1000

def validateProofSketch (proofCid : String) : Bool :=
  !proofCid.isEmpty && "Qm".toList.isPrefixOf proofCid.toList && proofCid.utf8ByteSize ≥ 10

def validateUltrametric (encoderCid proofCid : String) : UltrametricValidation :=
  if encoderCid.isEmpty || proofCid.isEmpty then ⟨false, "unknown", 0, 0, ["Empty encoder or proof CID"]⟩
  else
    let distanceType := extractDistanceFunctionType proofCid
    let clopenBallCount := estimateClopenBallCount distanceType
    let maxDistance := computeMaxDistance distanceType
    let violations :=
      (if validateTriangleInequality distanceType then []
        else ["Triangle inequality not satisfied (not ultrametric)"]) ++
      (if clopenBallCount = 0 then ["Invalid clopen ball structure"] else []) ++
      (if validateDeterministicEncoding encoderCid then [] else ["Encoder not provably deterministic"]) ++
      (if maxDistance ≤ 0 then ["Invalid distance bounds (must be finite and positive)"] else []) ++
      (if validateProofSketch proofCid then [] else ["Proof sketch validation failed"])
    ⟨violations.isEmpty, distanceType, maxDistance, clopenBallCount, violations⟩

def stringSimilarity (a b : String) : ℚ :=
  if a = b then 1
  else
    let sameChars := ((a.toList.zip b.toList).filter fun pair => pair.1 = pair.2).length
    let maxLen := max a.utf8ByteSize b.utf8ByteSize
    if maxLen = 0 then 0 else sameChars / maxLen

def computeEncoderCorrelation (encoderCidA encoderCidB : String) (axisIdA axisIdB : UInt8) : ℚ :=
  let cidSimilarity := stringSimilarity encoderCidA encoderCidB
  let idDistance : ℚ := |(axisIdA.toNat : ℚ) - axisIdB.toNat|
  let idFactor := 1 / (1 + idDistance / 10)
  min (cidSimilarity * (7 / 10) + idFactor * (3 / 10)) (95 / 100)

def validateSpoofCostAnalysis (analysisCid : String) : Bool :=
  containsText analysisCid "spoof" || containsText analysisCid "cost" || containsText analysisCid "security" ||
    analysisCid.utf8ByteSize ≥ 40

def validateSybilResistance (analysisCid : String) : Bool :=
  containsText analysisCid "sybil" || containsText analysisCid "resistance" || containsText analysisCid "security" ||
    analysisCid.utf8ByteSize ≥ 40

def validateAttackMitigations (analysisCid : String) : Bool :=
  containsText analysisCid "attack" || containsText analysisCid "mitigation" || containsText analysisCid "security" ||
    analysisCid.utf8ByteSize ≥ 40

/-- The check of a formal model only warns. -/
def validateSecurityAnalysis (analysisCid : String) : Except AxisCatalogError Unit :=
  if analysisCid.isEmpty then .error (.text "Empty security analysis CID")
  else if !validateSpoofCostAnalysis analysisCid then
    .error (.text "Insufficient spoof cost analysis (axis vulnerable to spoofing)")
  else if !validateSybilResistance analysisCid then .error (.text "Insufficient Sybil resistance guarantees")
  else if !validateAttackMitigations analysisCid then
    .error (.text "Incomplete attack vector analysis or missing mitigations")
  else .ok ()

def findPoints (epochOffset : UInt64) : List (UInt64 × ℚ) → UInt64 × ℚ → UInt64 × ℚ → (UInt64 × ℚ) × (UInt64 × ℚ)
  | [], lower, upper => (lower, upper)
  | (epoch, weight) :: rest, lower, upper =>
    let lower := if epoch ≤ epochOffset then (epoch, weight) else lower
    if epoch ≥ epochOffset && epoch < upper.1 then (lower, (epoch, weight))
    else findPoints epochOffset rest lower upper

def interpolateWeight (schedule : List (UInt64 × ℚ)) (epochOffset : UInt64) : ℚ :=
  match schedule.head?, schedule.getLast? with
  | some first, some last =>
    let (lower, upper) := findPoints epochOffset schedule (0, 0) last
    if epochOffset < first.1 then 0
    else if epochOffset ≥ last.1 then last.2
    else if upper.1 = lower.1 then lower.2
    else
      let progress : ℚ := (epochOffset - lower.1).toNat / (upper.1 - lower.1).toNat
      lower.2 + (upper.2 - lower.2) * progress
  | _, _ => 0

namespace AxisCatalogManager

def new (config : AxisCatalogConfig) : AxisCatalogManager := ⟨config, ∅, []⟩

def defaultAxis (axisId : UInt8) (name : String) : AxisEntry :=
  { axisId
    encoderSpecCid := s!"Qm_{name}_encoder_v1"
    ultrametricProofCid := s!"Qm_{name}_ultrametric_proof"
    securityAnalysisCid := s!"Qm_{name}_security"
    status := .active
    migrationPlan := none
    addedEpoch := 0
    deprecatedEpoch := none }

def initializeDefaultAxes (manager : AxisCatalogManager) : AxisCatalogManager :=
  { manager with
    axes := ((manager.axes.insert 0 (defaultAxis 0 "time")).insert 1 (defaultAxis 1 "topic")).insert 2
      (defaultAxis 2 "region")
    activeAxes := manager.activeAxes ++ [0, 1, 2] }

def checkIndependence (newAxisId : UInt8) (encoderCid : String) (manager : AxisCatalogManager) : IndependenceCheck :=
  let correlations := manager.activeAxes.filterMap fun existingAxisId =>
    (manager.axes.lookup existingAxisId).map fun axisEntry =>
      (existingAxisId, computeEncoderCorrelation encoderCid axisEntry.encoderSpecCid existingAxisId newAxisId)
  let maxCorrelation := correlations.foldl (fun maxCorrelation entry => max maxCorrelation entry.2) 0
  ⟨maxCorrelation < manager.config.maxCorrelationThreshold, correlations, maxCorrelation,
    manager.config.maxCorrelationThreshold⟩

def insertEntry (axisId : UInt8) (entry : AxisEntry) (manager : AxisCatalogManager) : AxisCatalogManager :=
  { manager with axes := manager.axes.insert axisId entry }

def notFound (axisId : UInt8) : AxisCatalogError := .text s!"Axis {axisId} not found"

def ultrametricFailure (validation : UltrametricValidation) : AxisCatalogError :=
  let violations := ", ".intercalate validation.violations
  .text s!"Ultrametric validation failed: {violations}"

def proposeAddAxis (change : AxisCatalogChange) (currentEpoch : UInt64) (manager : AxisCatalogManager) :
    Except AxisCatalogError AxisCatalogManager := do
  if (manager.axes.lookup change.axisId).isSome then throw (.text s!"Axis {change.axisId} already exists")
  let ultrametricValidation := validateUltrametric change.encoderSpecCid change.ultrametricProofCid
  if !ultrametricValidation.isValid then throw (ultrametricFailure ultrametricValidation)
  let independenceCheck := manager.checkIndependence change.axisId change.encoderSpecCid
  if !independenceCheck.isIndependent then
    throw (.highCorrelation change.axisId independenceCheck.maxCorrelation independenceCheck.threshold)
  validateSecurityAnalysis change.securityAnalysisCid
  return manager.insertEntry change.axisId
    { axisId := change.axisId
      encoderSpecCid := change.encoderSpecCid
      ultrametricProofCid := change.ultrametricProofCid
      securityAnalysisCid := change.securityAnalysisCid
      status := .proposed
      migrationPlan := some change.migrationPlan
      addedEpoch := currentEpoch
      deprecatedEpoch := none }

def proposeModifyAxis (change : AxisCatalogChange) (manager : AxisCatalogManager) :
    Except AxisCatalogError AxisCatalogManager :=
  match manager.axes.lookup change.axisId with
  | none => .error (notFound change.axisId)
  | some entry =>
    let ultrametricValidation := validateUltrametric change.encoderSpecCid change.ultrametricProofCid
    if !ultrametricValidation.isValid then .error (ultrametricFailure ultrametricValidation)
    else .ok (manager.insertEntry change.axisId
      { entry with
        encoderSpecCid := change.encoderSpecCid
        ultrametricProofCid := change.ultrametricProofCid
        securityAnalysisCid := change.securityAnalysisCid
        migrationPlan := some change.migrationPlan })

def proposeDeprecateAxis (change : AxisCatalogChange) (currentEpoch : UInt64) (manager : AxisCatalogManager) :
    Except AxisCatalogError AxisCatalogManager :=
  match manager.axes.lookup change.axisId with
  | none => .error (notFound change.axisId)
  | some entry =>
    if entry.status = .deprecated then .error (.text s!"Axis {change.axisId} is already deprecated")
    else .ok (manager.insertEntry change.axisId
      { entry with
        status := .deprecating
        migrationPlan := some change.migrationPlan
        deprecatedEpoch := some currentEpoch })

def proposeAxisChange (change : AxisCatalogChange) (currentEpoch : UInt64) (manager : AxisCatalogManager) :
    Except AxisCatalogError AxisCatalogManager :=
  match change.action with
  | .add => manager.proposeAddAxis change currentEpoch
  | .modify => manager.proposeModifyAxis change
  | .deprecate => manager.proposeDeprecateAxis change currentEpoch

def activateAxis (axisId : UInt8) (currentEpoch : UInt64) (manager : AxisCatalogManager) :
    Except AxisCatalogError AxisCatalogManager :=
  match manager.axes.lookup axisId with
  | none => .error (notFound axisId)
  | some entry =>
    if entry.status ≠ .proposed then
      .error (.text s!"Axis {axisId} is not in Proposed status (current: {entry.status.debug})")
    else .ok (manager.insertEntry axisId { entry with status := .ramping, addedEpoch := currentEpoch })

/-- The sum of the start and the ramp wraps as in release builds. -/
def entryWeight (currentEpoch : UInt64) (entry : AxisEntry) : Except AxisCatalogError ℚ :=
  match entry.status with
  | .proposed => .ok 0
  | .ramping =>
    match entry.migrationPlan with
    | none => .error (.text "No migration plan")
    | some migrationPlan =>
      let tStart := entry.addedEpoch
      let tRamp := migrationPlan.rampEpochs
      if currentEpoch < tStart then .ok 0
      else if currentEpoch ≥ tStart + tRamp then .ok 1
      else if !migrationPlan.weightSchedule.isEmpty then
        .ok (interpolateWeight migrationPlan.weightSchedule (currentEpoch - tStart))
      else .ok (min ((currentEpoch - tStart).toNat / tRamp.toNat) 1)
  | .active => .ok 1
  | .deprecating =>
    match entry.migrationPlan with
    | none => .error (.text "No migration plan")
    | some migrationPlan =>
      let tStart := entry.deprecatedEpoch.getD currentEpoch
      let tRamp := migrationPlan.rampEpochs
      if currentEpoch < tStart then .ok 1
      else if currentEpoch ≥ tStart + tRamp then .ok 0
      else if !migrationPlan.weightSchedule.isEmpty then
        .ok (1 - interpolateWeight migrationPlan.weightSchedule (currentEpoch - tStart))
      else .ok (max (1 - (currentEpoch - tStart).toNat / tRamp.toNat) 0)
  | .deprecated => .ok 0

def getAxisWeight (axisId : UInt8) (currentEpoch : UInt64) (manager : AxisCatalogManager) :
    Except AxisCatalogError ℚ :=
  match manager.axes.lookup axisId with
  | none => .error (notFound axisId)
  | some entry => entryWeight currentEpoch entry

def processEntry (currentEpoch : UInt64) (manager : AxisCatalogManager) (axis : UInt8 × AxisEntry) :
    AxisCatalogManager :=
  match axis.2.status, axis.2.migrationPlan with
  | .ramping, some plan =>
    if currentEpoch ≥ axis.2.addedEpoch + plan.rampEpochs then
      { manager.insertEntry axis.1 { axis.2 with status := .active } with
        activeAxes := if axis.1 ∈ manager.activeAxes then manager.activeAxes else manager.activeAxes ++ [axis.1] }
    else manager
  | .deprecating, some plan =>
    if currentEpoch ≥ axis.2.deprecatedEpoch.getD currentEpoch + plan.rampEpochs then
      { manager.insertEntry axis.1 { axis.2 with status := .deprecated } with
        activeAxes := manager.activeAxes.filter fun id => id ≠ axis.1 }
    else manager
  | _, _ => manager

def processEpoch (order : HashMap.Order) (currentEpoch : UInt64) (manager : AxisCatalogManager) :
    AxisCatalogManager :=
  (order.iterate (HashMap.pairs manager.axes)).foldl (processEntry currentEpoch) manager

end AxisCatalogManager

inductive CatalogOperation where
  | proposeAxisChange (change : AxisCatalogChange)
  | activateAxis (axisId : UInt8)
  | processEpoch (order : HashMap.Order)

def AxisCatalogManager.next (manager : AxisCatalogManager) (call : CatalogOperation × UInt64) : AxisCatalogManager :=
  match call.1 with
  | .proposeAxisChange change => (manager.proposeAxisChange change call.2).toOption.getD manager
  | .activateAxis axisId => (manager.activateAxis axisId call.2).toOption.getD manager
  | .processEpoch order => manager.processEpoch order call.2

end AdicModel.Governance
