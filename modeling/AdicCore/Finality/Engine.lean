import AdicCore.Finality.KCore
import AdicCore.Library.Calls

namespace AdicModel.Finality

inductive FinalityGate where
  | f1KCore
  | f2PersistentHomology
  | f1AndF2Composite
deriving DecidableEq

structure FinalityWitness where
  kcoreRoot : Option MessageId
  depth : Nat
  diversityOk : Bool
  reputationSum : ℚ
  distinctBalls : Finset (UInt32 × Nat)
  coreSize : Nat
  h3Stable : Option Bool
  h2BottleneckDistance : Option ℚ
  f2Confidence : Option ℚ
  numFinalizedMessages : Option Nat

structure FinalityParams where
  k : Nat
  q : Nat
  depthStar : Nat
  rSumMin : ℚ

structure ValidatorAttestation where
  publicKey : PublicKey
  signature : Signature
  timestamp : Int

structure FinalityArtifact where
  intentId : MessageId
  gate : FinalityGate
  params : FinalityParams
  witness : FinalityWitness
  validators : List ValidatorAttestation
  timestamp : Int

namespace FinalityArtifact

def new (timestamp : Int) (intentId : MessageId) (gate : FinalityGate) (params : FinalityParams)
    (witness : FinalityWitness) : FinalityArtifact :=
  { intentId, gate, params, witness, validators := [], timestamp }

def hasF1Finality (artifact : FinalityArtifact) : Bool :=
  (artifact.gate = .f1KCore || artifact.gate = .f1AndF2Composite) && artifact.witness.kcoreRoot.isSome

def hasF2Finality (artifact : FinalityArtifact) : Bool :=
  (artifact.gate = .f2PersistentHomology || artifact.gate = .f1AndF2Composite) && artifact.witness.h3Stable.isSome

def hasCompositeFinality (artifact : FinalityArtifact) : Bool :=
  artifact.gate = .f1AndF2Composite || (artifact.hasF1Finality && artifact.hasF2Finality)

end FinalityArtifact

structure FinalityConfig where
  k : Nat
  minDepth : Nat
  minDiversity : Nat
  minReputation : ℚ
  windowSize : Nat
  f2Enabled : Bool
  f1Enabled : Bool
  checkpointInterval : UInt64

def FinalityConfig.default : FinalityConfig :=
  { k := 3
    minDepth := 3
    minDiversity := 3
    minReputation := 1
    windowSize := 1000
    f2Enabled := false
    f1Enabled := true
    checkpointInterval := 100 }

inductive F2Result where
  | final (hDStable : Bool) (hDMinus1Bottleneck confidence : ℚ) (finalizedMessages : List MessageId)
  | timeout
  | pending
  | error (message : String)

/-- What the engine calls. A message that cannot be fetched is a missing one. -/
structure Surroundings (ω : Type) where
  getMessage : MessageId → ω → Option AdicMessage
  checkF2 : List AdicMessage → ω → F2Result × ω
  analyze : MessageId → ω → Except String KCoreResult × ω
  getProposer : MessageId → ω → Option PublicKey
  refund : MessageId → ω → Except String Unit × ω
  goodUpdate : PublicKey → ℚ → Nat → ω → ω
  storeFinalityArtifact : MessageId → FinalityArtifact → ω → ω
  timestamp : ω → Int

/-- The flag says that a call that never ends holds the messages of the next checkpoint. -/
structure FinalityEngine where
  config : FinalityConfig
  finalized : HashMap.Table MessageId FinalityArtifact
  pending : List MessageId
  f1FinalizedMessages : List MessageId
  f1MessagesHeld : Bool
  f2StabilizedMessages : List MessageId
  checkpointHeight : UInt64
  maxFinalizedDepth : Nat

/-- An error, or a lock that the call never gets. -/
inductive Stop where
  | error (text : String)
  | waiting

structure Node (ω : Type) where
  engine : FinalityEngine
  world : ω

namespace FinalityEngine

def new (config : FinalityConfig) : FinalityEngine :=
  { config
    finalized := ∅
    pending := []
    f1FinalizedMessages := []
    f1MessagesHeld := false
    f2StabilizedMessages := []
    checkpointHeight := 0
    maxFinalizedDepth := 0 }

def addMessage (id : MessageId) (engine : FinalityEngine) : FinalityEngine :=
  let pending := engine.pending ++ [id]
  { engine with pending := pending.drop (pending.length - engine.config.windowSize) }

def isFinalized (engine : FinalityEngine) (id : MessageId) : Bool := (engine.finalized.lookup id).isSome

def getArtifact (engine : FinalityEngine) (id : MessageId) : Option FinalityArtifact := engine.finalized.lookup id

def hasCompositeFinality (engine : FinalityEngine) (id : MessageId) : Bool :=
  match engine.finalized.lookup id with
  | some artifact => artifact.hasCompositeFinality
  | none => false

def updateFinalizedDepth (depth : Nat) (engine : FinalityEngine) : FinalityEngine :=
  { engine with maxFinalizedDepth := if depth > engine.maxFinalizedDepth then depth else engine.maxFinalizedDepth }

def insertArtifact (id : MessageId) (artifact : FinalityArtifact) (engine : FinalityEngine) : FinalityEngine :=
  { engine with finalized := engine.finalized.insert id artifact }

def params (engine : FinalityEngine) : FinalityParams :=
  ⟨engine.config.k, engine.config.minDiversity, engine.config.minDepth, engine.config.minReputation⟩

def createArtifact (timestamp : Int) (msgId : MessageId) (result : KCoreResult) (engine : FinalityEngine) :
    FinalityArtifact :=
  let witness : FinalityWitness :=
    { kcoreRoot := result.kcoreRoot
      depth := result.depth
      diversityOk := decide (∀ entry ∈ result.distinctBalls, entry.2 ≥ engine.config.minDiversity)
      reputationSum := result.totalReputation
      distinctBalls := result.distinctBalls
      coreSize := result.coreSize
      h3Stable := none
      h2BottleneckDistance := none
      f2Confidence := none
      numFinalizedMessages := none }
  .new timestamp msgId .f1KCore engine.params witness

def f2Artifact (timestamp : Int) (msgId : MessageId) (h3Stable : Bool) (h2BottleneckDistance confidence : ℚ)
    (numFinalized : Nat) (engine : FinalityEngine) : FinalityArtifact :=
  { intentId := msgId
    gate := .f2PersistentHomology
    witness :=
      { kcoreRoot := none
        depth := 3
        diversityOk := true
        distinctBalls := ∅
        coreSize := 0
        reputationSum := 0
        h3Stable := some h3Stable
        h2BottleneckDistance := some h2BottleneckDistance
        f2Confidence := some confidence
        numFinalizedMessages := some numFinalized }
    params := engine.params
    validators := []
    timestamp }

section

variable {ω : Type} (surroundings : Surroundings ω)

abbrev EngineM (ω : Type) := EStateM Stop (Node ω)

def onEngine (change : FinalityEngine → FinalityEngine) : EngineM ω Unit :=
  modify fun node => { node with engine := change node.engine }

def onWorld (change : ω → ω) : EngineM ω Unit := modify fun node => { node with world := change node.world }

/-- Runs a call of the surroundings. -/
def asks {α : Type} (call : ω → α × ω) : EngineM ω α := do
  let node ← get
  set { node with world := (call node.world).2 }
  return (call node.world).1

/-- When the interval is full, the new checkpoint waits for the messages that this call holds. -/
def trackF1Finalized (messageId : MessageId) : EngineM ω Unit := do
  if (← get).engine.f1MessagesHeld then throw .waiting
  onEngine fun engine => { engine with f1FinalizedMessages := engine.f1FinalizedMessages ++ [messageId] }
  let engine := (← get).engine
  if engine.f1FinalizedMessages.length ≥ engine.config.checkpointInterval.toNat then
    onEngine fun engine => { engine with checkpointHeight := engine.checkpointHeight + 1, f1MessagesHeld := true }
    throw .waiting

def trackF2Stabilized (messageId : MessageId) : EngineM ω Unit :=
  onEngine fun engine => { engine with f2StabilizedMessages := engine.f2StabilizedMessages ++ [messageId] }

def rewardProposer (msgId : MessageId) (diversity : ℚ) (depth : Nat) : EngineM ω Unit := do
  match surroundings.getProposer msgId (← get).world with
  | none => return ()
  | some proposer =>
    match ← asks (surroundings.refund msgId) with
    | .error text => throw (.error text)
    | .ok _ => onWorld (surroundings.goodUpdate proposer diversity depth)

def finalizeMessageF2 (msgId : MessageId) (h3Stable : Bool) (h2BottleneckDistance confidence : ℚ)
    (numFinalized : Nat) : EngineM ω Unit := do
  let node ← get
  let artifact := node.engine.f2Artifact (surroundings.timestamp node.world) msgId h3Stable h2BottleneckDistance
    confidence numFinalized
  onEngine (updateFinalizedDepth node.engine.config.minDepth)
  rewardProposer surroundings msgId 1 3
  onWorld (surroundings.storeFinalityArtifact msgId artifact)
  onEngine (insertArtifact msgId artifact)
  trackF2Stabilized msgId

def tryF2Finality (pending : List MessageId) :
    EngineM ω (Except String (Option (List MessageId × Bool × ℚ × ℚ))) := do
  if pending.isEmpty then return .ok none
  let node ← get
  let messages := pending.filterMap fun id => surroundings.getMessage id node.world
  if messages.isEmpty then return .ok none
  match ← asks (surroundings.checkF2 messages) with
  | .final hDStable hDMinus1Bottleneck confidence finalizedMessages =>
    return .ok (some (finalizedMessages, hDStable, hDMinus1Bottleneck, confidence))
  | .timeout => return .ok none
  | .pending => return .ok none
  | .error message => return .error message

def retainPending (newlyFinalized : List MessageId) : EngineM ω Unit :=
  if newlyFinalized.isEmpty then return ()
  else onEngine fun engine => { engine with pending := engine.pending.filter fun id => id ∉ newlyFinalized }

def checkF1 (newlyFinalized : List MessageId) (msgId : MessageId) : EngineM ω (List MessageId) := do
  if (← get).engine.isFinalized msgId then return newlyFinalized
  match ← asks (surroundings.analyze msgId) with
  | .error _ => return newlyFinalized
  | .ok result =>
    if result.isFinal = false then return newlyFinalized
    let node ← get
    let artifact := node.engine.createArtifact (surroundings.timestamp node.world) msgId result
    onEngine (updateFinalizedDepth result.depth)
    rewardProposer surroundings msgId (∑ entry ∈ artifact.witness.distinctBalls, (entry.2 : ℚ)) artifact.witness.depth
    onWorld (surroundings.storeFinalityArtifact msgId artifact)
    onEngine (insertArtifact msgId artifact)
    trackF1Finalized msgId
    return newlyFinalized ++ [msgId]

def checkFinalityF1 (pendingList : List MessageId) : EngineM ω (List MessageId) := do
  let newlyFinalized ← pendingList.foldlM (checkF1 surroundings) []
  retainPending newlyFinalized
  return newlyFinalized

def checkFinality : EngineM ω (List MessageId) := do
  let engine := (← get).engine
  let pendingList := engine.pending
  let fallback : EngineM ω (List MessageId) :=
    if engine.config.f1Enabled then checkFinalityF1 surroundings pendingList else return []
  if engine.config.f2Enabled then
    match ← tryF2Finality surroundings pendingList with
    | .ok (some (finalizedMsgs, h3Stable, h2Bottleneck, confidence)) =>
      finalizedMsgs.forM fun msgId =>
        finalizeMessageF2 surroundings msgId h3Stable h2Bottleneck confidence finalizedMsgs.length
      retainPending finalizedMsgs
      return finalizedMsgs
    | .ok none => fallback
    | .error _ => fallback
  else fallback

end

end FinalityEngine

end AdicModel.Finality
