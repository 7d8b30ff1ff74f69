import AdicCore.Storage.Store
import AdicCore.Types.Json
import Mathlib.Algebra.Order.Ring.Rat
import Mathlib.Data.Rat.Defs

namespace AdicModel.Finality

open AdicModel.Storage

/-- The distinct balls are the pairs of the map. -/
structure KCoreResult where
  isFinal : Bool
  coreSize : Nat
  depth : Nat
  totalReputation : ℚ
  distinctBalls : Finset (UInt32 × Nat)
  kcoreRoot : Option MessageId

def KCoreResult.notFinal : KCoreResult := ⟨false, 0, 0, 0, ∅, none⟩

structure KCoreAnalyzer where
  k : Nat
  minDepth : Nat
  minDiversity : Nat
  minReputation : ℚ
  rho : List UInt32
  depthCache : HashMap.Table MessageId Nat
  childrenCache : HashMap.Table MessageId (List MessageId)

namespace KCoreAnalyzer

def new (k minDepth minDiversity : Nat) (minReputation : ℚ) (rho : List UInt32) : KCoreAnalyzer :=
  ⟨k, minDepth, minDiversity, minReputation, rho, ∅, ∅⟩

def clearCaches (analyzer : KCoreAnalyzer) : KCoreAnalyzer := { analyzer with depthCache := ∅, childrenCache := ∅ }

section

variable (storage : StorageEngine)

/-- The rounds that a search may need: the root and each stored child. -/
def searchRounds : Nat := (HashMap.total List.length storage.children) + 1

def visitChild (state : List MessageId × List MessageId) (child : MessageId) : List MessageId × List MessageId :=
  if child ∈ state.2 then state else (state.1 ++ [child], state.2 ++ [child])

def coneLoop : Nat → List MessageId → List MessageId → List MessageId
  | 0, _, cone => cone
  | _ + 1, [], cone => cone
  | fuel + 1, current :: queue, cone =>
    let (queue, cone) := (storage.getChildren current).foldl visitChild (queue, cone)
    coneLoop fuel queue cone

def buildForwardCone (root : MessageId) : List MessageId := coneLoop storage (searchRounds storage) [root] [root]

def initialDegree (nodes : List MessageId) (node : MessageId) : Nat :=
  ((storage.getParents node).filter fun parent => parent ∈ nodes).length +
    ((storage.getChildren node).filter fun child => child ∈ nodes).length

def lowerDegree (degrees : HashMap.Table MessageId Nat) (neighbor : MessageId) : HashMap.Table MessageId Nat :=
  match degrees.lookup neighbor with
  | some degree => degrees.insert neighbor (degree - 1)
  | none => degrees

def removeNode (state : List MessageId × HashMap.Table MessageId Nat) (node : MessageId) :
    List MessageId × HashMap.Table MessageId Nat :=
  (state.1.erase node, (storage.getChildren node).foldl lowerDegree ((storage.getParents node).foldl lowerDegree state.2))

def toRemove (k : Nat) (order : HashMap.Order) (core : List MessageId) (degrees : HashMap.Table MessageId Nat) :
    List MessageId :=
  ((order.iterate (HashMap.pairs degrees)).filter fun entry => entry.1 ∈ core && entry.2 < k).map Prod.fst

def peel (k : Nat) (order : HashMap.Order) : Nat → List MessageId → HashMap.Table MessageId Nat → List MessageId
  | 0, core, _ => core
  | fuel + 1, core, degrees =>
    match toRemove k order core degrees with
    | [] => core
    | nodes =>
      let (core, degrees) := nodes.foldl (removeNode storage) (core, degrees)
      peel k order fuel core degrees

/-- Every round takes off a node. -/
def computeKcore (k : Nat) (order : HashMap.Order) (nodes : List MessageId) : List MessageId :=
  peel storage k order nodes.length nodes
    (HashMap.ofPairs (nodes.map fun node => (node, initialDegree storage nodes node)))

def cachedChildren (cache : HashMap.Table MessageId (List MessageId)) (current : MessageId) :
    List MessageId × HashMap.Table MessageId (List MessageId) :=
  match cache.lookup current with
  | some children => (children, cache)
  | none => (storage.getChildren current, cache.insert current (storage.getChildren current))

def visitCoreChild (kcore : List MessageId) (depth : Nat) (state : List (MessageId × Nat) × List MessageId)
    (child : MessageId) : List (MessageId × Nat) × List MessageId :=
  if child ∈ kcore ∧ child ∉ state.2 then (state.1 ++ [(child, depth + 1)], state.2 ++ [child]) else state

def depthLoop (kcore : List MessageId) : Nat → List (MessageId × Nat) → List MessageId → Nat →
    HashMap.Table MessageId (List MessageId) → Nat × HashMap.Table MessageId (List MessageId)
  | 0, _, _, maxDepth, cache => (maxDepth, cache)
  | _ + 1, [], _, maxDepth, cache => (maxDepth, cache)
  | fuel + 1, (current, depth) :: queue, visited, maxDepth, cache =>
    let (children, cache) := cachedChildren storage cache current
    let (queue, visited) := children.foldl (visitCoreChild kcore depth) (queue, visited)
    depthLoop kcore fuel queue visited (max maxDepth depth) cache

def computeDepth (analyzer : KCoreAnalyzer) (kcore : List MessageId) (root : MessageId) : Nat × KCoreAnalyzer :=
  match analyzer.depthCache.lookup root with
  | some depth => (depth, analyzer)
  | none =>
    let (depth, cache) := depthLoop storage kcore (kcore.length + 1) [(root, 0)] [root] 0 analyzer.childrenCache
    (depth, { analyzer with depthCache := analyzer.depthCache.insert root depth, childrenCache := cache })

def messageBalls (rho : List UInt32) (msg : AdicMessage) : List (UInt32 × List UInt8) :=
  msg.features.phi.map fun axisPhi =>
    let radius := (rho[axisPhi.axis.index.toNat]?).getD 2
    (axisPhi.axis.index, axisPhi.qpDigits.ballId radius.toNat)

/-- The sum of two doubles, rounded to the nearest double. Every double is a multiple of `2 ^ -1074`; no sum overflows. -/
def addDoubles (x y : ℚ) : ℚ :=
  let units := ((x + y) * (2 ^ 1074 : Nat)).floor
  (units.sign * Json.nearestDouble units.natAbs : ℤ) / (2 ^ 1074 : Nat)

/-- The reputations are added in the order of the set. -/
def computeMetrics (rho : List UInt32) (order : HashMap.Order) (getReputation : PublicKey → ℚ)
    (kcore : List MessageId) : ℚ × Finset (UInt32 × Nat) :=
  let messages := (order.iterate kcore).filterMap storage.getMessage
  let balls := (messages.flatMap (messageBalls rho)).toFinset
  ((messages.map fun msg => getReputation msg.proposerPk).foldl addDoubles 0,
    (balls.image Prod.fst).image fun axis => (axis, (balls.filter fun ball => ball.1 = axis).card))

/-- The result, and the analyzer with its caches. -/
def analyze (order : HashMap.Order) (getReputation : PublicKey → ℚ) (root : MessageId) (analyzer : KCoreAnalyzer) :
    KCoreResult × KCoreAnalyzer :=
  let forwardCone := buildForwardCone storage root
  if forwardCone.isEmpty then (.notFinal, analyzer)
  else
    let kcore := computeKcore storage analyzer.k order forwardCone
    if kcore.isEmpty then (.notFinal, analyzer)
    else
      let (depth, next) := computeDepth storage analyzer kcore root
      let (totalReputation, distinctBalls) := computeMetrics storage analyzer.rho order getReputation kcore
      let isFinal := kcore.length ≥ analyzer.k && depth ≥ analyzer.minDepth &&
        decide (∀ entry ∈ distinctBalls, entry.2 ≥ analyzer.minDiversity) && totalReputation ≥ analyzer.minReputation
      (⟨isFinal, kcore.length, depth, totalReputation, distinctBalls, some root⟩, next)

end

end KCoreAnalyzer

end AdicModel.Finality
