import AdicCore.Consensus.Validation
import AdicCore.Economics.Amounts
import AdicCore.Finality.CheckpointOrder
import AdicCore.Library.ByteKeys

open AdicModel.Economics

namespace AdicModel.Finality

def idBytes (messages : List MessageId) : List UInt8 := messages.flatMap fun id => id.asBytes.bytes

def hashBytes (hash : Option Bytes32) : List UInt8 := hash.elim [] Bytes32.bytes

def Checkpoint.hashedBytes (checkpoint : Checkpoint) : List UInt8 :=
  toLeBytes checkpoint.height.toNat ++ toLeBytes checkpoint.timestamp ++ checkpoint.messagesMerkleRoot.bytes ++
    checkpoint.witnessesMerkleRoot.bytes ++ toLeBytes checkpoint.f1Metadata.maxKCore.toNat ++
    toLeBytes checkpoint.f1Metadata.finalizedCount ++ idBytes checkpoint.f1Metadata.finalizedMessages ++
    toLeBytes checkpoint.f2Metadata.stabilizedCount ++ idBytes checkpoint.f2Metadata.stabilizedMessages ++
    hashBytes checkpoint.prevCheckpointHash

/-- A checkpoint as it is received, perhaps signed. -/
structure SignedCheckpoint extends Checkpoint where
  timestamp_ge : -2 ^ 63 ≤ timestamp
  timestamp_lt : timestamp < 2 ^ 63
  finalizedCount_lt : f1Metadata.finalizedCount < 2 ^ 64
  stabilizedCount_lt : f2Metadata.stabilizedCount < 2 ^ 64
  signature : Option (List UInt8)
  signer : Option PublicKey

end AdicModel.Finality

open AdicModel AdicModel.Finality AdicModel.Finality.MerkleTreeBuilder

namespace AdicProof.Finality

section

variable {sha256 : List UInt8 → Bytes32} {messages other : List MessageId}

theorem asBytes_injective : Function.Injective fun id : MessageId => id.asBytes.bytes := by
  rintro ⟨⟨bytes, size⟩⟩ ⟨⟨bytes', size'⟩⟩ same
  cases same
  rfl

theorem messagesRoot (messages : List MessageId) :
    (messages.foldl (addMessage sha256) .new).computeRoot sha256 =
      rootOf sha256 (messages.map fun id => id.asBytes.bytes) := by
  rw [foldl_addMessage]
  rfl

theorem rootOf_ne_zero {data : List (List UInt8)} (nonempty : data ≠ [])
    (nonzero : ∀ input ∈ treeInputs sha256 data, sha256 input ≠ Bytes32.replicate 0) :
    rootOf sha256 data ≠ Bytes32.replicate 0 := by
  have leaves : data.map sha256 ≠ [] := mt List.map_eq_nil_iff.mp nonempty
  have root : rootOf sha256 data ∈ MerkleRoot.top sha256 joinHashes (data.map sha256) := by
    rw [top_of_ne_nil leaves]
    exact List.mem_singleton_self _
  obtain ⟨input, listed, same⟩ := MerkleRoot.mem_top root
  rw [← same]
  exact nonzero input (List.mem_append.mpr listed)

variable (sha256) in
/-- Equal roots are of equal lists, where nothing repeats and the hash neither collides nor gives zero. -/
theorem merkle_commitment_binding (nodup : messages.Nodup) (nodup' : other.Nodup)
    (free : Set.InjOn sha256 {input | input ∈ treeInputs sha256 (messages.map fun id => id.asBytes.bytes) ∨
      input ∈ treeInputs sha256 (other.map fun id => id.asBytes.bytes)})
    (nonzero : ∀ input, input ∈ treeInputs sha256 (messages.map fun id => id.asBytes.bytes) ∨
      input ∈ treeInputs sha256 (other.map fun id => id.asBytes.bytes) → sha256 input ≠ Bytes32.replicate 0)
    (same : (messages.foldl (addMessage sha256) .new).computeRoot sha256 =
      (other.foldl (addMessage sha256) .new).computeRoot sha256) : messages = other := by
  rw [messagesRoot, messagesRoot] at same
  have empty : rootOf sha256 [] = Bytes32.replicate 0 := rfl
  rcases eq_or_ne messages [] with rfl | nonempty
  · rcases eq_or_ne other [] with rfl | nonempty'
    · rfl
    · exact absurd (same.symm.trans empty)
        (rootOf_ne_zero (mt List.map_eq_nil_iff.mp nonempty') fun input listed => nonzero input (.inr listed))
  · rcases eq_or_ne other [] with rfl | nonempty'
    · exact absurd (same.trans empty)
        (rootOf_ne_zero (mt List.map_eq_nil_iff.mp nonempty) fun input listed => nonzero input (.inl listed))
    · have some : (messages.map fun id => id.asBytes.bytes) ≠ [] := mt List.map_eq_nil_iff.mp nonempty
      have some' : (other.map fun id => id.asBytes.bytes) ≠ [] := mt List.map_eq_nil_iff.mp nonempty'
      have tops := congrArg (fun root => [root]) same
      rw [rootOf, rootOf, ← top_of_ne_nil (mt List.map_eq_nil_iff.mp some),
        ← top_of_ne_nil (mt List.map_eq_nil_iff.mp some')] at tops
      refine messageBytes_injective (MerkleRoot.top_injective_of_nodup joinHashes_injective (free.mono ?_) ?_
        (nodup.map asBytes_injective) (nodup'.map asBytes_injective) some some' tops)
      · intro input listed
        exact listed.imp List.mem_append.mpr List.mem_append.mpr
      · intro input listed left right joined
        have long : (joinHashes left right).length = 64 := by
          rw [joinHashes, List.length_append, left.size, right.size]
        rw [← joined] at long
        rcases listed with listed | listed <;> obtain ⟨id, _, rfl⟩ := List.mem_map.mp listed
        · exact absurd (id.asBytes.size.symm.trans long) (by decide)
        · exact absurd (id.asBytes.size.symm.trans long) (by decide)

theorem merkle_commitment_binding_pair : [messageOf 1, messageOf 2] = [1, 2].map messageOf := by
  have free : ∀ input ∈ treeInputs shortHash ([messageOf 1, messageOf 2].map fun id => id.asBytes.bytes),
      ∀ input' ∈ treeInputs shortHash ([messageOf 1, messageOf 2].map fun id => id.asBytes.bytes),
        shortHash input = shortHash input' → input = input' := by
    decide +kernel
  have nonzero : ∀ input ∈ treeInputs shortHash ([messageOf 1, messageOf 2].map fun id => id.asBytes.bytes),
      shortHash input ≠ Bytes32.replicate 0 := by
    decide +kernel
  refine merkle_commitment_binding shortHash (by decide) (by decide) ?_ ?_ rfl
  · intro input listed input' listed' same
    exact free input ((or_self_iff).mp listed) input' ((or_self_iff).mp listed') same
  · intro input listed
    exact nonzero input ((or_self_iff).mp listed)

end

section

variable {first second : SignedCheckpoint}

structure SameHeader (first second : Checkpoint) : Prop where
  height : first.height = second.height
  timestamp : first.timestamp = second.timestamp
  messages : first.messagesMerkleRoot = second.messagesMerkleRoot
  witnesses : first.witnessesMerkleRoot = second.witnessesMerkleRoot
  maxKCore : first.f1Metadata.maxKCore = second.f1Metadata.maxKCore
  finalizedCount : first.f1Metadata.finalizedCount = second.f1Metadata.finalizedCount

def restBytes (checkpoint : Checkpoint) : List UInt8 :=
  toLeBytes checkpoint.f2Metadata.stabilizedCount ++ idBytes checkpoint.f2Metadata.stabilizedMessages ++
    hashBytes checkpoint.prevCheckpointHash

structure RankOnly (first second : Checkpoint) : Prop where
  finalizedMessages : first.f1Metadata.finalizedMessages = second.f1Metadata.finalizedMessages
  stabilizedCount : first.f2Metadata.stabilizedCount = second.f2Metadata.stabilizedCount
  stabilizedMessages : first.f2Metadata.stabilizedMessages = second.f2Metadata.stabilizedMessages
  prevCheckpointHash : first.prevCheckpointHash = second.prevCheckpointHash
  homologyRank : first.f2Metadata.homologyRank ≠ second.f2Metadata.homologyRank

/-- The last stabilized message of one is the previous hash of the other. -/
structure PreviousAsMessage (first second : Checkpoint) : Prop where
  finalizedMessages : first.f1Metadata.finalizedMessages = second.f1Metadata.finalizedMessages
  stabilizedCount : first.f2Metadata.stabilizedCount = second.f2Metadata.stabilizedCount
  absent : first.prevCheckpointHash = none
  moved : ∃ hash, second.prevCheckpointHash = some hash ∧
    first.f2Metadata.stabilizedMessages = second.f2Metadata.stabilizedMessages ++ [⟨hash⟩]

/-- The further messages of one are hashed as the count and the messages after the list of the other. -/
def CountAsMessages (first second : Checkpoint) : Prop :=
  ∃ further, further ≠ [] ∧
    second.f1Metadata.finalizedMessages = first.f1Metadata.finalizedMessages ++ further ∧
    restBytes first = idBytes further ++ restBytes second

def Confusable (first second : Checkpoint) : Prop :=
  SameHeader first second ∧ (RankOnly first second ∨ PreviousAsMessage first second ∨
    PreviousAsMessage second first ∨ CountAsMessages first second ∨ CountAsMessages second first)

theorem idBytes_injective : Function.Injective idBytes :=
  ByteKeys.records_injective (by decide) (fun id => id.asBytes.size) asBytes_injective

theorem idBytes_length (messages : List MessageId) : (idBytes messages).length = 32 * messages.length :=
  ByteKeys.records_length (fun id => id.asBytes.size) messages

theorem idBytes_append (messages other : List MessageId) :
    idBytes (messages ++ other) = idBytes messages ++ idBytes other :=
  List.flatMap_append

theorem bytes_injective : Function.Injective Bytes32.bytes := by
  rintro ⟨bytes, size⟩ ⟨bytes', size'⟩ same
  cases same
  rfl

theorem hashBytes_injective : Function.Injective hashBytes := by
  intro hash other same
  cases hash with
  | none =>
    cases other with
    | none => rfl
    | some hash => exact absurd ((congrArg List.length same).trans hash.size) (by decide)
  | some hash =>
    cases other with
    | none => exact absurd ((congrArg List.length same).symm.trans hash.size) (by decide)
    | some hash' => rw [bytes_injective same]

theorem height_injective {height height' : UInt64} (same : toLeBytes height.toNat = toLeBytes height'.toNat) :
    height = height' := by
  have numbers := Economics.toLeBytes_inj.mp same
  have small := height.toNat_lt
  have small' := height'.toNat_lt
  exact UInt64.toNat_inj.mp (by omega)

theorem count_injective {count count' : Nat} (small : count < 2 ^ 64) (small' : count' < 2 ^ 64)
    (same : toLeBytes count = toLeBytes count') : count = count' := by
  have numbers := Economics.toLeBytes_inj.mp same
  omega

theorem hashedBytes_split (checkpoint : Checkpoint) : checkpoint.hashedBytes =
    toLeBytes checkpoint.height.toNat ++ (toLeBytes checkpoint.timestamp ++ (checkpoint.messagesMerkleRoot.bytes ++
      (checkpoint.witnessesMerkleRoot.bytes ++ (toLeBytes checkpoint.f1Metadata.maxKCore.toNat ++
        (toLeBytes checkpoint.f1Metadata.finalizedCount ++
          (idBytes checkpoint.f1Metadata.finalizedMessages ++ restBytes checkpoint)))))) := by
  unfold Checkpoint.hashedBytes restBytes
  simp only [List.append_assoc]

theorem hashedBytes_eq_iff : first.hashedBytes = second.hashedBytes ↔
    SameHeader first.toCheckpoint second.toCheckpoint ∧
      idBytes first.f1Metadata.finalizedMessages ++ restBytes first.toCheckpoint =
        idBytes second.f1Metadata.finalizedMessages ++ restBytes second.toCheckpoint := by
  rw [hashedBytes_split, hashedBytes_split]
  constructor
  · intro same
    have sized := fun value value' => (Economics.toLeBytes_length value).trans (Economics.toLeBytes_length value').symm
    obtain ⟨height, same⟩ := List.append_inj same (sized _ _)
    obtain ⟨timestamp, same⟩ := List.append_inj same (sized _ _)
    obtain ⟨messages, same⟩ :=
      List.append_inj same (first.messagesMerkleRoot.size.trans second.messagesMerkleRoot.size.symm)
    obtain ⟨witnesses, same⟩ :=
      List.append_inj same (first.witnessesMerkleRoot.size.trans second.witnessesMerkleRoot.size.symm)
    obtain ⟨maxKCore, same⟩ := List.append_inj same (sized _ _)
    obtain ⟨count, same⟩ := List.append_inj same (sized _ _)
    have clock := Economics.toLeBytes_inj.mp timestamp
    have from_first := first.timestamp_ge
    have from_second := second.timestamp_ge
    have to_first := first.timestamp_lt
    have to_second := second.timestamp_lt
    exact ⟨⟨height_injective height, by omega, bytes_injective messages, bytes_injective witnesses,
      height_injective maxKCore, count_injective first.finalizedCount_lt second.finalizedCount_lt count⟩, same⟩
  · rintro ⟨⟨height, timestamp, messages, witnesses, maxKCore, count⟩, rest⟩
    rw [height, timestamp, messages, witnesses, maxKCore, count, rest]

theorem checkpoint_ext {first second : Checkpoint} (height : first.height = second.height)
    (timestamp : first.timestamp = second.timestamp) (messages : first.messagesMerkleRoot = second.messagesMerkleRoot)
    (witnesses : first.witnessesMerkleRoot = second.witnessesMerkleRoot)
    (maxKCore : first.f1Metadata.maxKCore = second.f1Metadata.maxKCore)
    (finalizedCount : first.f1Metadata.finalizedCount = second.f1Metadata.finalizedCount)
    (finalized : first.f1Metadata.finalizedMessages = second.f1Metadata.finalizedMessages)
    (stabilizedCount : first.f2Metadata.stabilizedCount = second.f2Metadata.stabilizedCount)
    (stabilized : first.f2Metadata.stabilizedMessages = second.f2Metadata.stabilizedMessages)
    (rank : first.f2Metadata.homologyRank = second.f2Metadata.homologyRank)
    (previous : first.prevCheckpointHash = second.prevCheckpointHash) : first = second := by
  obtain ⟨_, _, _, _, ⟨_, _, _⟩, ⟨_, _, _⟩, _⟩ := first
  obtain ⟨_, _, _, _, ⟨_, _, _⟩, ⟨_, _, _⟩, _⟩ := second
  cases height
  cases timestamp
  cases messages
  cases witnesses
  cases maxKCore
  cases finalizedCount
  cases finalized
  cases stabilizedCount
  cases stabilized
  cases rank
  cases previous
  rfl

theorem countAsMessages_of_shorter
    (shorter : first.f1Metadata.finalizedMessages.length < second.f1Metadata.finalizedMessages.length)
    (same : idBytes first.f1Metadata.finalizedMessages ++ restBytes first.toCheckpoint =
      idBytes second.f1Metadata.finalizedMessages ++ restBytes second.toCheckpoint) :
    CountAsMessages first.toCheckpoint second.toCheckpoint := by
  have whole := List.take_append_drop first.f1Metadata.finalizedMessages.length second.f1Metadata.finalizedMessages
  rw [← whole, idBytes_append, List.append_assoc] at same
  have lengths : (idBytes first.f1Metadata.finalizedMessages).length =
      (idBytes (second.f1Metadata.finalizedMessages.take first.f1Metadata.finalizedMessages.length)).length := by
    rw [idBytes_length, idBytes_length, List.length_take, Nat.min_eq_left shorter.le]
  obtain ⟨start, rest⟩ := List.append_inj same lengths
  refine ⟨second.f1Metadata.finalizedMessages.drop first.f1Metadata.finalizedMessages.length, ?_, ?_, rest⟩
  · intro none
    have size := congrArg List.length none
    rw [List.length_drop, List.length_nil] at size
    omega
  · rw [← idBytes_injective start] at whole
    exact whole.symm

theorem previousAsMessage_of_longer
    (finalized : first.f1Metadata.finalizedMessages = second.f1Metadata.finalizedMessages)
    (count : first.f2Metadata.stabilizedCount = second.f2Metadata.stabilizedCount)
    (longer : second.f2Metadata.stabilizedMessages.length < first.f2Metadata.stabilizedMessages.length)
    (same : idBytes first.f2Metadata.stabilizedMessages ++ hashBytes first.prevCheckpointHash =
      idBytes second.f2Metadata.stabilizedMessages ++ hashBytes second.prevCheckpointHash) :
    PreviousAsMessage first.toCheckpoint second.toCheckpoint := by
  have lengths := congrArg List.length same
  rw [List.length_append, List.length_append, idBytes_length, idBytes_length] at lengths
  cases held : second.prevCheckpointHash with
  | none =>
    rw [held] at lengths
    simp only [hashBytes, Option.elim_none, List.length_nil] at lengths
    omega
  | some hash =>
    cases held' : first.prevCheckpointHash with
    | some hash' =>
      rw [held, held'] at lengths
      simp only [hashBytes, Option.elim_some, Bytes32.size] at lengths
      omega
    | none =>
      refine ⟨finalized, count, held', hash, held, idBytes_injective ?_⟩
      rw [held, held'] at same
      rw [idBytes_append]
      simpa [hashBytes, idBytes] using same

theorem eq_or_confusable (same : first.hashedBytes = second.hashedBytes) :
    first.toCheckpoint = second.toCheckpoint ∨ Confusable first.toCheckpoint second.toCheckpoint := by
  obtain ⟨header, rest⟩ := hashedBytes_eq_iff.mp same
  rcases Nat.lt_trichotomy first.f1Metadata.finalizedMessages.length second.f1Metadata.finalizedMessages.length with
    shorter | finalized | longer
  · exact .inr ⟨header, .inr (.inr (.inr (.inl (countAsMessages_of_shorter shorter rest))))⟩
  · have sized : (idBytes first.f1Metadata.finalizedMessages).length =
        (idBytes second.f1Metadata.finalizedMessages).length := by
      rw [idBytes_length, idBytes_length, finalized]
    obtain ⟨start, rest⟩ := List.append_inj rest sized
    have messages := idBytes_injective start
    unfold restBytes at rest
    rw [List.append_assoc, List.append_assoc] at rest
    obtain ⟨counts, rest⟩ :=
      List.append_inj rest ((Economics.toLeBytes_length _).trans (Economics.toLeBytes_length _).symm)
    have count := count_injective first.stabilizedCount_lt second.stabilizedCount_lt counts
    rcases Nat.lt_trichotomy first.f2Metadata.stabilizedMessages.length second.f2Metadata.stabilizedMessages.length with
      fewer | equal | more
    · exact .inr ⟨header, .inr (.inr (.inl (previousAsMessage_of_longer messages.symm count.symm fewer rest.symm)))⟩
    · have sized : (idBytes first.f2Metadata.stabilizedMessages).length =
          (idBytes second.f2Metadata.stabilizedMessages).length := by
        rw [idBytes_length, idBytes_length, equal]
      obtain ⟨stabilized, previous⟩ := List.append_inj rest sized
      have stabilizedMessages := idBytes_injective stabilized
      have previousHash := hashBytes_injective previous
      by_cases rank : first.f2Metadata.homologyRank = second.f2Metadata.homologyRank
      · obtain ⟨height, timestamp, messagesRoot, witnesses, maxKCore, finalizedCount⟩ := header
        exact .inl (checkpoint_ext height timestamp messagesRoot witnesses maxKCore finalizedCount messages count
          stabilizedMessages rank previousHash)
      · exact .inr ⟨header, .inl ⟨messages, count, stabilizedMessages, previousHash, rank⟩⟩
    · exact .inr ⟨header, .inr (.inl (previousAsMessage_of_longer messages count more rest))⟩
  · exact .inr ⟨header, .inr (.inr (.inr (.inr (countAsMessages_of_shorter longer rest.symm))))⟩

theorem PreviousAsMessage.rest (moved : PreviousAsMessage first.toCheckpoint second.toCheckpoint) :
    idBytes first.f1Metadata.finalizedMessages ++ restBytes first.toCheckpoint =
      idBytes second.f1Metadata.finalizedMessages ++ restBytes second.toCheckpoint := by
  obtain ⟨hash, held, list⟩ := moved.moved
  unfold restBytes
  rw [moved.finalizedMessages, moved.stabilizedCount, moved.absent, held, list, idBytes_append]
  simp [hashBytes, idBytes]

theorem CountAsMessages.rest (moved : CountAsMessages first.toCheckpoint second.toCheckpoint) :
    idBytes first.f1Metadata.finalizedMessages ++ restBytes first.toCheckpoint =
      idBytes second.f1Metadata.finalizedMessages ++ restBytes second.toCheckpoint := by
  obtain ⟨further, _, list, rest⟩ := moved
  rw [list, rest, idBytes_append, List.append_assoc]

theorem CountAsMessages.ne (moved : CountAsMessages first.toCheckpoint second.toCheckpoint) :
    first.toCheckpoint ≠ second.toCheckpoint := by
  intro same
  obtain ⟨further, some, list, _⟩ := moved
  rw [same] at list
  exact some (List.self_eq_append_right.mp list)

theorem PreviousAsMessage.ne (moved : PreviousAsMessage first.toCheckpoint second.toCheckpoint) :
    first.toCheckpoint ≠ second.toCheckpoint := by
  intro same
  obtain ⟨hash, held, _⟩ := moved.moved
  rw [← same, moved.absent] at held
  cases held

theorem confused (confusable : Confusable first.toCheckpoint second.toCheckpoint) :
    first.hashedBytes = second.hashedBytes ∧ first.toCheckpoint ≠ second.toCheckpoint := by
  obtain ⟨header, kind⟩ := confusable
  rcases kind with rank | moved | moved | moved | moved
  · refine ⟨hashedBytes_eq_iff.mpr ⟨header, ?_⟩, fun same => rank.homologyRank (by rw [same])⟩
    unfold restBytes
    rw [rank.finalizedMessages, rank.stabilizedCount, rank.stabilizedMessages, rank.prevCheckpointHash]
  · exact ⟨hashedBytes_eq_iff.mpr ⟨header, moved.rest⟩, moved.ne⟩
  · exact ⟨hashedBytes_eq_iff.mpr ⟨header, moved.rest.symm⟩, moved.ne.symm⟩
  · exact ⟨hashedBytes_eq_iff.mpr ⟨header, moved.rest⟩, moved.ne⟩
  · exact ⟨hashedBytes_eq_iff.mpr ⟨header, moved.rest.symm⟩, moved.ne.symm⟩

/-- The hashed bytes tell two checkpoints apart unless they are confusable. -/
theorem hash_covers_checkpoint_iff (first second : SignedCheckpoint) :
    (first.hashedBytes = second.hashedBytes → first.toCheckpoint = second.toCheckpoint) ↔
      ¬ Confusable first.toCheckpoint second.toCheckpoint := by
  constructor
  · intro covered confusable
    obtain ⟨same, different⟩ := confused confusable
    exact different (covered same)
  · intro apart same
    exact (eq_or_confusable same).resolve_right apart

def rankedCheckpoint (homologyRank : Option Nat) : SignedCheckpoint :=
  { height := 1
    timestamp := 0
    messagesMerkleRoot := .replicate 0
    witnessesMerkleRoot := .replicate 0
    f1Metadata := .new 0 []
    f2Metadata := .new [] homologyRank
    prevCheckpointHash := none
    timestamp_ge := by decide
    timestamp_lt := by decide
    finalizedCount_lt := by decide
    stabilizedCount_lt := (by decide : 0 < 2 ^ 64)
    signature := none
    signer := none }

/-- The rank is not hashed. -/
theorem rank_not_covered : ¬ ∀ first second : SignedCheckpoint,
    first.hashedBytes = second.hashedBytes → first.toCheckpoint = second.toCheckpoint := by
  intro covered
  have same := covered (rankedCheckpoint none) (rankedCheckpoint (some 1)) rfl
  exact absurd (congrArg (fun checkpoint => checkpoint.f2Metadata.homologyRank) same) (by decide)

end

end AdicProof.Finality
