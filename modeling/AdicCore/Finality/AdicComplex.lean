import AdicCore.Types.Message
import AdicCore.Finality.Persistence

namespace AdicModel.Finality

structure AdicComplexBuilder where
  messageToVertex : HashMap.Table MessageId Nat
  vertexToMessage : HashMap.Table Nat MessageId
  nextVertexId : Nat

def AdicComplexBuilder.new : AdicComplexBuilder := ⟨∅, ∅, 0⟩

def AdicComplexBuilder.getOrCreateVertex (builder : AdicComplexBuilder) (msgId : MessageId) :
    AdicComplexBuilder × Nat :=
  match builder.messageToVertex.lookup msgId with
  | some vertexId => (builder, vertexId)
  | none =>
    let vertexId := builder.nextVertexId
    (⟨builder.messageToVertex.insert msgId vertexId, builder.vertexToMessage.insert vertexId msgId,
      builder.nextVertexId + 1⟩, vertexId)

/-- The search for the rightmost index below its final value, from position `i` down. -/
def rightmostIncrementable (indices : List Nat) (n : Nat) : Nat → Option Nat
  | 0 => none
  | i + 1 =>
    if indices.getD i 0 < n - indices.length + i then some i
    else rightmostIncrementable indices n i

def propagateIncrement (indices : List Nat) (i : Nat) : List Nat :=
  (List.range' (i + 1) (indices.length - (i + 1))).foldl
    (fun current j => current.set j (current.getD (j - 1) 0 + 1)) (indices.set i (indices.getD i 0 + 1))

/-- `none` once all combinations are exhausted. -/
def nextCombination (indices : List Nat) (n : Nat) : Option (List Nat) :=
  if indices.length = 0 ∨ n = 0 then none
  else (rightmostIncrementable indices n indices.length).map (propagateIncrement indices)

structure BuildState where
  builder : AdicComplexBuilder
  complex : SimplicialComplex

/-- One position: the vertex is looked up and its weight accumulated. -/
def collectVertex (messages : List (MessageId × Weight)) (state : AdicComplexBuilder × List Nat × Weight)
    (idx : Nat) : AdicComplexBuilder × List Nat × Weight :=
  match messages[idx]? with
  | some (msgId, weight) =>
    let (builder, vertexId) := state.1.getOrCreateVertex msgId
    (builder, state.2.1 ++ [vertexId], max state.2.2 weight)
  | none => state

/-- One round of the combination loop. -/
def addCombination (messages : List (MessageId × Weight)) (state : BuildState) (indices : List Nat) :
    BuildState :=
  let (builder, vertices, maxWeight) := indices.foldl (collectVertex messages) (state.builder, [], 0)
  ⟨builder, (state.complex.addSimplexWithFaces vertices maxWeight).1⟩

/-- The loop over all combinations, `none` if `fuel` runs out. -/
def combinationLoop (messages : List (MessageId × Weight)) : Nat → BuildState → List Nat → Option BuildState
  | 0, _, _ => none
  | fuel + 1, state, indices =>
    let added := addCombination messages state indices
    match nextCombination indices messages.length with
    | some next => combinationLoop messages fuel added next
    | none => some added

/-- `dimension + 1` fits a `usize`, here and in `addBall`. -/
def createSimplicesFromBall (fuel : Nat) (state : BuildState) (messages : List (MessageId × Weight))
    (dimension : Nat) : Option BuildState :=
  if messages.length < dimension + 1 then some state
  else combinationLoop messages fuel state (List.range (dimension + 1))

abbrev BallMap := HashMap.Table (List UInt8) (List (MessageId × Weight))

def groupMessage (axis : UInt32) (radius : Nat) (balls : BallMap) (msg : AdicMessage) : BallMap :=
  match msg.features.phi.find? fun phi => phi.axis.index = axis with
  | some axisPhi =>
    let ball := axisPhi.qpDigits.ballId radius
    balls.insert ball ((balls.lookup ball).getD [] ++ [(msg.id, (msg.metadata.timestamp.timestamp : ℚ))])
  | none => balls

def addBall (fuel dimension : Nat) (state : BuildState) (ball : List UInt8 × List (MessageId × Weight)) :
    Option BuildState :=
  if ball.2.length < dimension + 1 then some state
  else createSimplicesFromBall fuel state ball.2 dimension

/-- `fuel` bounds the combinations of one ball. -/
def AdicComplexBuilder.buildFromMessages (order : HashMap.Order) (fuel : Nat) (builder : AdicComplexBuilder)
    (messages : List AdicMessage) (axis : UInt32) (radius dimension : Nat) : Option BuildState :=
  if messages.isEmpty then some ⟨builder, SimplicialComplex.new⟩
  else do
    let balls := messages.foldl (groupMessage axis radius) ∅
    let built ← (order.iterate (HashMap.pairs balls)).foldlM (addBall fuel dimension)
      ⟨builder, SimplicialComplex.new⟩
    return { built with complex := built.complex.sortByFiltration }

/-- The persistence of a batch check, by the orders of the ball map and of the pairs. -/
def batchPersistence (ballOrder pairOrder : HashMap.Order) (fuel : Nat) (messages : List AdicMessage)
    (axis : UInt32) (radius dimension : Nat) : Option PersistenceData := do
  let built ← AdicComplexBuilder.new.buildFromMessages ballOrder fuel messages axis radius dimension
  let matrix := BoundaryMatrix.fromComplex built.complex
  let reductionResult ← reduceBoundaryMatrix fuel matrix
  PersistenceData.fromReduction pairOrder reductionResult built.complex

end AdicModel.Finality
