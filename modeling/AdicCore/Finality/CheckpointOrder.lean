import AdicCore.Economics.Types
import AdicCore.Finality.Engine
import AdicCore.Library.Merkle

open AdicModel.Economics

namespace AdicModel.Finality

structure F1Metadata where
  maxKCore : UInt64
  finalizedCount : Nat
  finalizedMessages : List MessageId

structure F2Metadata where
  stabilizedCount : Nat
  stabilizedMessages : List MessageId
  homologyRank : Option Nat

def F1Metadata.new (maxKCore : UInt64) (finalizedMessages : List MessageId) : F1Metadata :=
  ⟨maxKCore, finalizedMessages.length, finalizedMessages⟩

def F2Metadata.new (stabilizedMessages : List MessageId) (homologyRank : Option Nat) : F2Metadata :=
  ⟨stabilizedMessages.length, stabilizedMessages, homologyRank⟩

structure Checkpoint where
  height : UInt64
  timestamp : Int
  messagesMerkleRoot : Bytes32
  witnessesMerkleRoot : Bytes32
  f1Metadata : F1Metadata
  f2Metadata : F2Metadata
  prevCheckpointHash : Option Bytes32

structure MerkleTreeBuilder where
  leaves : List Bytes32

def joinHashes (left right : Bytes32) : List UInt8 := left.bytes ++ right.bytes

section

variable (sha256 : List UInt8 → Bytes32)

def Checkpoint.computeHash (checkpoint : Checkpoint) : Bytes32 :=
  sha256 (toLeBytes checkpoint.height.toNat ++ toLeBytes checkpoint.timestamp ++ checkpoint.messagesMerkleRoot.bytes ++
    checkpoint.witnessesMerkleRoot.bytes ++ toLeBytes checkpoint.f1Metadata.maxKCore.toNat ++
    toLeBytes checkpoint.f1Metadata.finalizedCount ++
    checkpoint.f1Metadata.finalizedMessages.flatMap (fun id => id.asBytes.bytes) ++
    toLeBytes checkpoint.f2Metadata.stabilizedCount ++
    checkpoint.f2Metadata.stabilizedMessages.flatMap (fun id => id.asBytes.bytes) ++
    match checkpoint.prevCheckpointHash with
    | some hash => hash.bytes
    | none => [])

namespace MerkleTreeBuilder

def new : MerkleTreeBuilder := ⟨[]⟩

def addMessage (builder : MerkleTreeBuilder) (messageId : MessageId) : MerkleTreeBuilder :=
  ⟨builder.leaves ++ [sha256 messageId.asBytes.bytes]⟩

def addWitness (builder : MerkleTreeBuilder) (witnessData : List UInt8) : MerkleTreeBuilder :=
  ⟨builder.leaves ++ [sha256 witnessData]⟩

def computeRoot (builder : MerkleTreeBuilder) : Bytes32 :=
  match MerkleRoot.top sha256 joinHashes builder.leaves with
  | [] => Bytes32.replicate 0
  | root :: _ => root

end MerkleTreeBuilder

end

def Checkpoint.divergesFrom (checkpoint other : Checkpoint) : Bool :=
  if checkpoint.height ≠ other.height then false
  else checkpoint.messagesMerkleRoot ≠ other.messagesMerkleRoot || checkpoint.witnessesMerkleRoot ≠ other.witnessesMerkleRoot

/-- The orders in which the hash maps of an engine yield their entries. -/
structure Iteration (engine : FinalityEngine) where
  artifacts : List (MessageId × FinalityArtifact)
  perm : artifacts.Perm (HashMap.pairs engine.finalized)
  balls : MessageId → List (UInt32 × Nat)
  nodup : ∀ entry ∈ artifacts, (balls entry.1).Nodup
  toFinset : ∀ entry ∈ artifacts, (balls entry.1).toFinset = entry.2.witness.distinctBalls

structure CheckpointState where
  engine : FinalityEngine
  checkpoints : List Checkpoint

section

variable (sha256 : List UInt8 → Bytes32) (toVec : FinalityWitness → List (UInt32 × Nat) → Option (List UInt8))

/-- The witnesses as `serde_json` writes them, their balls in the order of the map. -/
def witnessTexts {engine : FinalityEngine} (iteration : Iteration engine) : List (List UInt8) :=
  iteration.artifacts.filterMap fun entry => toVec entry.2.witness (iteration.balls entry.1)

/-- `none` where the call waits for the messages. -/
def createCheckpoint (timestamp : Int) (state : CheckpointState) (iteration : Iteration state.engine) :
    Option (Checkpoint × CheckpointState) :=
  if state.engine.f1MessagesHeld then none
  else
    let messageTree := state.engine.f1FinalizedMessages.foldl (MerkleTreeBuilder.addMessage sha256) .new
    let witnessTree := (witnessTexts toVec iteration).foldl (MerkleTreeBuilder.addWitness sha256) .new
    let maxKCore := (iteration.artifacts.map fun entry => UInt64.ofNat entry.2.params.k).foldl max 0
    let checkpoint : Checkpoint :=
      { height := state.engine.checkpointHeight
        timestamp
        messagesMerkleRoot := messageTree.computeRoot sha256
        witnessesMerkleRoot := witnessTree.computeRoot sha256
        f1Metadata := .new maxKCore state.engine.f1FinalizedMessages
        f2Metadata := .new state.engine.f2StabilizedMessages none
        prevCheckpointHash := state.checkpoints.getLast?.map (Checkpoint.computeHash sha256) }
    some (checkpoint,
      { engine :=
          { state.engine with
            checkpointHeight := state.engine.checkpointHeight + 1
            f1FinalizedMessages := []
            f2StabilizedMessages := [] }
        checkpoints := state.checkpoints ++ [checkpoint] })

end

end AdicModel.Finality

open AdicModel AdicModel.Finality AdicModel.Finality.MerkleTreeBuilder HashMap

namespace AdicProof.Finality

section

variable (sha256 : List UInt8 → Bytes32)

theorem joinHashes_injective {left right left' right' : Bytes32}
    (same : joinHashes left right = joinHashes left' right') : left = left' ∧ right = right' := by
  obtain ⟨first, second⟩ := List.append_inj same (left.size.trans left'.size.symm)
  obtain ⟨bytes, size⟩ := left
  obtain ⟨bytes', size'⟩ := left'
  obtain ⟨other, length⟩ := right
  obtain ⟨other', length'⟩ := right'
  cases first
  cases second
  exact ⟨rfl, rfl⟩

def rootOf (data : List (List UInt8)) : Bytes32 := computeRoot sha256 ⟨data.map sha256⟩

def treeInputs (data : List (List UInt8)) : List (List UInt8) :=
  data ++ MerkleRoot.inputs sha256 joinHashes (data.map sha256)

theorem foldl_addMessage (messages : List MessageId) (builder : MerkleTreeBuilder) :
    messages.foldl (addMessage sha256) builder =
      ⟨builder.leaves ++ (messages.map fun id => id.asBytes.bytes).map sha256⟩ := by
  induction messages generalizing builder with
  | nil => simp
  | cons id messages ih =>
    rw [List.foldl_cons, ih]
    simp [addMessage]

theorem foldl_addWitness (witnesses : List (List UInt8)) (builder : MerkleTreeBuilder) :
    witnesses.foldl (addWitness sha256) builder = ⟨builder.leaves ++ witnesses.map sha256⟩ := by
  induction witnesses generalizing builder with
  | nil => simp
  | cons witness witnesses ih =>
    rw [List.foldl_cons, ih]
    simp [addWitness]

variable {sha256}

theorem top_of_ne_nil {leaves : List Bytes32} (nonempty : leaves ≠ []) :
    MerkleRoot.top sha256 joinHashes leaves = [computeRoot sha256 ⟨leaves⟩] := by
  have short : (MerkleRoot.top sha256 joinHashes leaves).length ≤ 1 := MerkleRoot.length_top
  have some := @MerkleRoot.top_ne_nil _ _ sha256 joinHashes leaves nonempty
  unfold computeRoot
  cases top : MerkleRoot.top sha256 joinHashes leaves with
  | nil => exact absurd top some
  | cons root rest =>
    rw [top, List.length_cons] at short
    rw [List.length_eq_zero_iff.mp (by omega : rest.length = 0)]

theorem top_eq_of_root {leaves leaves' : List Bytes32} (length : leaves.length = leaves'.length)
    (same : computeRoot sha256 ⟨leaves⟩ = computeRoot sha256 ⟨leaves'⟩) :
    MerkleRoot.top sha256 joinHashes leaves = MerkleRoot.top sha256 joinHashes leaves' := by
  cases leaves with
  | nil => rw [List.length_eq_zero_iff.mp length.symm]
  | cons leaf rest =>
    cases leaves' with
    | nil => cases length
    | cons leaf' rest' => rw [top_of_ne_nil (List.cons_ne_nil _ _), top_of_ne_nil (List.cons_ne_nil _ _), same]

theorem rootOf_eq_iff {data other : List (List UInt8)} (length : data.length = other.length)
    (free : Set.InjOn sha256 {input | input ∈ treeInputs sha256 data ∨ input ∈ treeInputs sha256 other}) :
    rootOf sha256 data = rootOf sha256 other ↔ data = other := by
  constructor
  · intro same
    have leaves : (data.map sha256).length = (other.map sha256).length := by rw [List.length_map, List.length_map, length]
    have hashes : data.map sha256 = other.map sha256 := by
      refine MerkleRoot.top_injective joinHashes_injective leaves (free.mono ?_) (top_eq_of_root leaves same)
      intro input hashed
      exact hashed.imp (List.mem_append_right _) (List.mem_append_right _)
    refine MerkleRoot.map_injective (fun input listed input' listed' equal => ?_) hashes
    exact free (.inl (List.mem_append_left _ listed)) (.inr (List.mem_append_left _ listed')) equal
  · rintro rfl
    rfl

end

theorem messageBytes_injective {messages other : List MessageId}
    (same : messages.map (fun id => id.asBytes.bytes) = other.map fun id => id.asBytes.bytes) : messages = other := by
  refine List.map_injective_iff.mpr ?_ same
  rintro ⟨⟨bytes, size⟩⟩ ⟨⟨bytes', size'⟩⟩ equal
  cases equal
  rfl

section

variable {sha256 : List UInt8 → Bytes32} {toVec : FinalityWitness → List (UInt32 × Nat) → Option (List UInt8)}
  {state next : CheckpointState} {iteration : Iteration state.engine} {timestamp : Int} {checkpoint : Checkpoint}

theorem createCheckpoint_ok (run : createCheckpoint sha256 toVec timestamp state iteration = some (checkpoint, next)) :
    checkpoint.height = state.engine.checkpointHeight ∧
      checkpoint.messagesMerkleRoot =
        rootOf sha256 (state.engine.f1FinalizedMessages.map fun id => id.asBytes.bytes) ∧
      checkpoint.witnessesMerkleRoot = rootOf sha256 (witnessTexts toVec iteration) := by
  unfold createCheckpoint at run
  split at run
  · cases run
  cases run
  refine ⟨rfl, ?_, ?_⟩
  · show computeRoot sha256 (state.engine.f1FinalizedMessages.foldl (addMessage sha256) .new) = _
    rw [foldl_addMessage]
    rfl
  · show computeRoot sha256 ((witnessTexts toVec iteration).foldl (addWitness sha256) .new) = _
    rw [foldl_addWitness]
    rfl

theorem length_witnessTexts (serializes : ∀ witness balls, (toVec witness balls).isSome = true) :
    (witnessTexts toVec iteration).length = (pairs state.engine.finalized).length := by
  rw [← iteration.perm.length_eq]
  unfold witnessTexts
  rw [List.length_filterMap_eq_countP]
  exact List.countP_eq_length.mpr fun entry _ => serializes _ _

end

structure Comparable (checkpoint other : Checkpoint) : Prop where
  messages : checkpoint.messagesMerkleRoot = other.messagesMerkleRoot
  witnesses : checkpoint.witnessesMerkleRoot = other.witnessesMerkleRoot
  agree : checkpoint.divergesFrom other = false

theorem pairs_length_eq {finalized other : Table MessageId FinalityArtifact}
    (same : ∀ id, finalized.lookup id = other.lookup id) : (pairs finalized).length = (pairs other).length := by
  refine (List.Perm.length_eq ?_)
  refine (List.perm_ext_iff_of_nodup (.of_map _ (pairs_keys_nodup _)) (.of_map _ (pairs_keys_nodup _))).mpr fun entry => ?_
  rw [← Prod.mk.eta (p := entry), HashMap.mem_pairs, HashMap.mem_pairs, same]

/-- Checkpoints of one height and content are comparable exactly if both were finalized in one order. -/
theorem checkpoints_comparable_iff (sha256 : List UInt8 → Bytes32)
    (toVec : FinalityWitness → List (UInt32 × Nat) → Option (List UInt8))
    (serializes : ∀ witness balls, (toVec witness balls).isSome = true) (state other : CheckpointState)
    (height : state.engine.checkpointHeight = other.engine.checkpointHeight)
    (messages : state.engine.f1FinalizedMessages.Perm other.engine.f1FinalizedMessages)
    (artifacts : ∀ id, state.engine.finalized.lookup id = other.engine.finalized.lookup id)
    (iteration : Iteration state.engine) (iteration' : Iteration other.engine) (timestamp timestamp' : Int)
    (checkpoint checkpoint' : Checkpoint) (next next' : CheckpointState)
    (run : createCheckpoint sha256 toVec timestamp state iteration = some (checkpoint, next))
    (run' : createCheckpoint sha256 toVec timestamp' other iteration' = some (checkpoint', next'))
    (freeMessages : Set.InjOn sha256 {input |
      input ∈ treeInputs sha256 (state.engine.f1FinalizedMessages.map fun id => id.asBytes.bytes) ∨
        input ∈ treeInputs sha256 (other.engine.f1FinalizedMessages.map fun id => id.asBytes.bytes)})
    (freeWitnesses : Set.InjOn sha256 {input |
      input ∈ treeInputs sha256 (witnessTexts toVec iteration) ∨
        input ∈ treeInputs sha256 (witnessTexts toVec iteration')}) :
    Comparable checkpoint checkpoint' ↔
      state.engine.f1FinalizedMessages = other.engine.f1FinalizedMessages ∧
        witnessTexts toVec iteration = witnessTexts toVec iteration' := by
  obtain ⟨isHeight, isMessages, isWitnesses⟩ := createCheckpoint_ok run
  obtain ⟨isHeight', isMessages', isWitnesses'⟩ := createCheckpoint_ok run'
  have texts : (witnessTexts toVec iteration).length = (witnessTexts toVec iteration').length := by
    rw [length_witnessTexts serializes, length_witnessTexts serializes, pairs_length_eq artifacts]
  have byMessages : checkpoint.messagesMerkleRoot = checkpoint'.messagesMerkleRoot ↔
      state.engine.f1FinalizedMessages = other.engine.f1FinalizedMessages := by
    rw [isMessages, isMessages', rootOf_eq_iff (by rw [List.length_map, List.length_map, messages.length_eq]) freeMessages]
    exact ⟨messageBytes_injective, congrArg _⟩
  have byWitnesses : checkpoint.witnessesMerkleRoot = checkpoint'.witnessesMerkleRoot ↔
      witnessTexts toVec iteration = witnessTexts toVec iteration' := by
    rw [isWitnesses, isWitnesses', rootOf_eq_iff texts freeWitnesses]
  constructor
  · intro comparable
    exact ⟨byMessages.mp comparable.messages, byWitnesses.mp comparable.witnesses⟩
  · rintro ⟨sameMessages, sameTexts⟩
    have first := byMessages.mpr sameMessages
    have second := byWitnesses.mpr sameTexts
    refine ⟨first, second, ?_⟩
    unfold Checkpoint.divergesFrom
    rw [isHeight, isHeight', height, first, second]
    simp

section

def shortHash (data : List UInt8) : Bytes32 :=
  ⟨(data ++ List.replicate 31 0).take 31 ++ [UInt8.ofNat data.length], by simp⟩

def depthText (witness : FinalityWitness) (balls : List (UInt32 × Nat)) : Option (List UInt8) :=
  some (UInt8.ofNat witness.depth :: balls.map fun entry => UInt8.ofNat entry.2)

def messageOf (byte : UInt8) : MessageId := ⟨Bytes32.replicate byte⟩

def artifactOf (byte : UInt8) : FinalityArtifact :=
  FinalityEngine.createArtifact 0 (messageOf byte) ⟨true, 4, byte.toNat, 1, ∅, some (messageOf byte)⟩
    (FinalityEngine.new FinalityConfig.default)

def finalizedIn (bytes : List UInt8) : CheckpointState where
  engine :=
    { FinalityEngine.new FinalityConfig.default with
      f1FinalizedMessages := bytes.map messageOf
      finalized := ofPairs (bytes.map fun byte => (messageOf byte, artifactOf byte)) }
  checkpoints := []

def storedIteration (bytes : List UInt8)
    (empty : ∀ entry ∈ pairs (finalizedIn bytes).engine.finalized, entry.2.witness.distinctBalls = ∅) :
    Iteration (finalizedIn bytes).engine where
  artifacts := pairs (finalizedIn bytes).engine.finalized
  perm := .refl _
  balls _ := []
  nodup _ _ := List.nodup_nil
  toFinset entry listed := (empty entry listed).symm

def twoMessages : Iteration (finalizedIn [1, 2]).engine := storedIteration [1, 2] (by decide)

theorem free_of_distinct {sha256 : List UInt8 → Bytes32} {inputs : List (List UInt8)}
    (distinct : ∀ input ∈ inputs, ∀ input' ∈ inputs, sha256 input = sha256 input' → input = input') :
    Set.InjOn sha256 {input | input ∈ inputs ∨ input ∈ inputs} := by
  intro input listed input' listed'
  exact distinct input (or_self_iff.mp listed) input' (or_self_iff.mp listed')

/-- Two messages in one order, at different times. -/
theorem checkpoints_comparable_two : ∃ checkpoint next checkpoint' next',
    createCheckpoint shortHash depthText 5 (finalizedIn [1, 2]) twoMessages = some (checkpoint, next) ∧
      createCheckpoint shortHash depthText 6 (finalizedIn [1, 2]) twoMessages = some (checkpoint', next') ∧
        Comparable checkpoint checkpoint' := by
  refine ⟨_, _, _, _, rfl, rfl, ?_⟩
  exact (checkpoints_comparable_iff shortHash depthText (fun _ _ => rfl) (finalizedIn [1, 2]) (finalizedIn [1, 2]) rfl
    (.refl _) (fun _ => rfl) twoMessages twoMessages 5 6 _ _ _ _ rfl rfl (free_of_distinct (by decide +kernel))
    (free_of_distinct (by decide +kernel))).mpr ⟨rfl, rfl⟩

/-- Two nodes finalize two messages in opposite orders. -/
theorem two_orders_diverge :
    (finalizedIn [1, 2]).engine.f1FinalizedMessages.Perm (finalizedIn [2, 1]).engine.f1FinalizedMessages ∧
      (∀ entry, entry ∈ pairs (finalizedIn [1, 2]).engine.finalized ↔ entry ∈ pairs (finalizedIn [2, 1]).engine.finalized) ∧
      ∃ checkpoint next checkpoint' next',
        createCheckpoint shortHash depthText 0 (finalizedIn [1, 2]) (storedIteration [1, 2] (by decide)) =
            some (checkpoint, next) ∧
          createCheckpoint shortHash depthText 0 (finalizedIn [2, 1]) (storedIteration [2, 1] (by decide)) =
              some (checkpoint', next') ∧
            checkpoint.messagesMerkleRoot ≠ checkpoint'.messagesMerkleRoot ∧
              checkpoint.witnessesMerkleRoot ≠ checkpoint'.witnessesMerkleRoot ∧
                checkpoint.divergesFrom checkpoint' = true := by
  refine ⟨.swap _ _ _, ?_, _, _, _, _, rfl, rfl, by decide, by decide, by decide⟩
  intro entry
  exact (List.Perm.swap _ _ _).mem_iff

end

end AdicProof.Finality
