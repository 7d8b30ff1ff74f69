import AdicCore.Library.Fallible
import AdicCore.Library.Merkle
import AdicCore.StorageMarket.Proof

open AdicModel AdicModel.StorageMarket

namespace AdicProof.StorageMarket

structure StoredData (height : Nat) where
  chunks : List (List UInt8)
  count : chunks.length = 2 ^ height
  size : ∀ chunk ∈ chunks, chunk.length = 4096

def join (left right : Bytes32) : List UInt8 := left.bytes ++ right.bytes

namespace StoredData

variable (blake3 : List UInt8 → Bytes32) {height : Nat} (data : StoredData height)

def chunk (position : Nat) : List UInt8 := data.chunks.getD position []

def merkleRoot : Bytes32 := MerklePath.node blake3 join data.chunk height 0

def Leads (level : Nat) (proof : MerkleProof) : Prop :=
  level + proof.siblingHashes.length = height ∧
    proof.chunkData =
      MerklePath.content blake3 join data.chunk level (proof.chunkIndex.toNat % 2 ^ proof.siblingHashes.length) ∧
    proof.siblingHashes = MerklePath.siblings blake3 join data.chunk level
      (proof.chunkIndex.toNat % 2 ^ proof.siblingHashes.length) proof.siblingHashes.length

def CollisionFree (proof : MerkleProof) : Prop :=
  Set.InjOn blake3
    (MerklePath.inputs blake3 join data.chunk height proof.chunkData proof.chunkIndex.toNat proof.siblingHashes)

end StoredData

section

variable {blake3 : List UInt8 → Bytes32} {height : Nat} {data : StoredData height} {proof : MerkleProof}

theorem join_injective (a b c d : Bytes32) (same : join a b = join c d) : a = c ∧ b = d := by
  obtain ⟨left, right⟩ := List.append_inj same (a.size.trans c.size.symm)
  obtain ⟨a, _⟩ := a
  obtain ⟨b, _⟩ := b
  cases left
  cases right
  exact ⟨rfl, rfl⟩

theorem length_join (a b : Bytes32) : (join a b).length = 64 := by
  rw [join, List.length_append, a.size, b.size]

theorem chunk_eq {position : Nat} (bound : position < 2 ^ height) :
    data.chunks[position]? = some (data.chunk position) := by
  have member : position < data.chunks.length := by rwa [data.count]
  rw [StoredData.chunk, List.getD_eq_getElem?_getD, List.getElem?_eq_getElem member, Option.getD_some]

theorem length_chunk {position : Nat} (bound : position < 2 ^ height) : (data.chunk position).length = 4096 :=
  data.size _ (List.mem_of_getElem? (chunk_eq bound))

theorem chunk_ne_join (position : Nat) (a b : Bytes32) (bound : position < 2 ^ height) :
    data.chunk position ≠ join a b := by
  intro same
  have sizes := congrArg List.length same
  rw [length_chunk bound, length_join] at sizes
  omega

theorem foldl_combine (siblings : List Bytes32) (current : Bytes32) (index : UInt64) :
    (siblings.foldl (MerkleProof.combine blake3) (current, index)).1 =
      MerklePath.climb blake3 join current index.toNat siblings := by
  induction siblings generalizing current index with
  | nil => rfl
  | cons sibling siblings ih =>
    have even : index % 2 = 0 ↔ index.toNat % 2 = 0 := by
      rw [← UInt64.toNat_inj, UInt64.toNat_mod]
      rfl
    have half : (index / 2).toNat = index.toNat / 2 := by
      rw [UInt64.toNat_div]
      rfl
    rw [List.foldl_cons, MerkleProof.combine, ih, half, MerklePath.climb, MerklePath.parent, apply_ite blake3]
    simp only [even, join]

theorem verify_iff (free : data.CollisionFree blake3 proof) :
    proof.verify blake3 (data.merkleRoot blake3) ↔ ∃ level, data.Leads blake3 level proof := by
  unfold MerkleProof.verify
  rw [decide_eq_true_eq, foldl_combine]
  exact MerklePath.climb_eq_root_iff free join_injective chunk_ne_join

theorem leads_leaf (below : proof.chunkIndex.toNat < 2 ^ height) (leads : data.Leads blake3 0 proof) :
    data.chunks[proof.chunkIndex.toNat]? = some proof.chunkData := by
  obtain ⟨size, content, -⟩ := leads
  rw [Nat.zero_add] at size
  rw [content, MerklePath.content, size, Nat.mod_eq_of_lt below, chunk_eq below]

theorem leads_inner {level : Nat} (below : proof.chunkIndex.toNat < 2 ^ height)
    (leads : data.Leads blake3 (level + 1) proof) :
    data.chunks[proof.chunkIndex.toNat]? ≠ some proof.chunkData := by
  obtain ⟨-, content, -⟩ := leads
  intro held
  rw [chunk_eq below, content, MerklePath.content, Option.some.injEq] at held
  exact chunk_ne_join _ _ _ below held

theorem verify_sound_iff (below : proof.chunkIndex.toNat < 2 ^ height) (free : data.CollisionFree blake3 proof) :
    (proof.verify blake3 (data.merkleRoot blake3) →
        data.chunks[proof.chunkIndex.toNat]? = some proof.chunkData) ↔
      ∀ level, ¬data.Leads blake3 (level + 1) proof := by
  rw [verify_iff free]
  constructor
  · intro sound level leads
    exact leads_inner below leads (sound ⟨level + 1, leads⟩)
  · rintro leaves ⟨level, leads⟩
    cases level with
    | zero => exact leads_leaf below leads
    | succ level => exact absurd leads (leaves level)

end

section

variable {blake3 : List UInt8 → Bytes32} {height : Nat} {data : StoredData height} {proof : StorageProof}
  {challenges : List UInt64} {deal : StorageDeal}

theorem verifyMerkleProof_ok {root : Bytes32} {challenge : UInt64} {merkleProof : MerkleProof} :
    ProofCycleManager.verifyMerkleProof blake3 root challenge merkleProof = .ok () ↔
      merkleProof.chunkIndex = challenge ∧ merkleProof.verify blake3 root := by
  unfold ProofCycleManager.verifyMerkleProof
  by_cases index : merkleProof.chunkIndex = challenge
  · by_cases verified : merkleProof.verify blake3 root <;> simp [index, verified]
  · simp [index]

theorem verifyMerkleProofs_ok {root : Bytes32} (rooted : deal.proofMerkleRoot = some root) :
    ProofCycleManager.verifyMerkleProofs blake3 proof challenges deal = .ok () ↔
      proof.merkleProofs.length = challenges.length ∧
        ∀ pair ∈ challenges.zip proof.merkleProofs, pair.2.chunkIndex = pair.1 ∧ pair.2.verify blake3 root := by
  unfold ProofCycleManager.verifyMerkleProofs
  rw [rooted]
  by_cases counted : proof.merkleProofs.length = challenges.length
  · simp only [counted, ne_eq, not_true_eq_false, if_false, true_and]
    rw [Fallible.forM_ok_iff]
    simp only [verifyMerkleProof_ok]
  · simp [counted]

def Answered (blake3 : List UInt8 → Bytes32) (data : StoredData height) (proof : StorageProof)
    (challenges : List UInt64) : Prop :=
  proof.merkleProofs.length = challenges.length ∧ ∀ pair ∈ challenges.zip proof.merkleProofs,
    pair.2.chunkIndex = pair.1 ∧ ∃ level, data.Leads blake3 level pair.2

/-- The checks prove that the chunks are held exactly if no challenge is answered from an inner node. -/
theorem storage_proofs_sound_iff (rooted : deal.proofMerkleRoot = some (data.merkleRoot blake3))
    (below : ∀ challenge ∈ challenges, challenge.toNat < 2 ^ height)
    (free : ∀ merkleProof ∈ proof.merkleProofs, data.CollisionFree blake3 merkleProof) :
    (∀ merkleProof ∈ proof.merkleProofs, merkleProof.chunkIndex.toNat < 2 ^ height →
      ((merkleProof.verify blake3 (data.merkleRoot blake3) →
          data.chunks[merkleProof.chunkIndex.toNat]? = some merkleProof.chunkData) ↔
        ∀ level, ¬data.Leads blake3 (level + 1) merkleProof)) ∧
    ((ProofCycleManager.verifyMerkleProofs blake3 proof challenges deal = .ok () →
        proof.merkleProofs.length = challenges.length ∧ ∀ pair ∈ challenges.zip proof.merkleProofs,
          data.chunks[pair.1.toNat]? = some pair.2.chunkData) ↔
      (Answered blake3 data proof challenges →
        ∀ pair ∈ challenges.zip proof.merkleProofs, ∀ level, ¬data.Leads blake3 (level + 1) pair.2)) := by
  have known : ∀ pair ∈ challenges.zip proof.merkleProofs,
      pair.1.toNat < 2 ^ height ∧ data.CollisionFree blake3 pair.2 := by
    intro pair member
    obtain ⟨challenge, answer⟩ := List.of_mem_zip member
    exact ⟨below _ challenge, free _ answer⟩
  have passes : ProofCycleManager.verifyMerkleProofs blake3 proof challenges deal = .ok () ↔
      Answered blake3 data proof challenges := by
    rw [verifyMerkleProofs_ok rooted]
    unfold Answered
    refine and_congr_right fun _ => forall_congr' fun pair => forall_congr' fun member => and_congr_right fun _ => ?_
    exact verify_iff (known pair member).2
  refine ⟨fun merkleProof member bound => verify_sound_iff bound (free _ member), ?_⟩
  rw [passes]
  refine forall_congr' fun answered => ?_
  rw [and_iff_right answered.1]
  refine forall_congr' fun pair => forall_congr' fun member => ?_
  obtain ⟨index, level, leads⟩ := answered.2 pair member
  have bound : pair.2.chunkIndex.toNat < 2 ^ height := by
    rw [index]
    exact (known pair member).1
  have sound := verify_sound_iff bound (known pair member).2
  rw [verify_iff (known pair member).2, index] at sound
  rw [← sound]
  exact ⟨fun held _ => held, fun held => held ⟨level, leads⟩⟩

end

section

theorem length_padded (data : List UInt8) :
    ((data ++ List.replicate 31 0).take 31 ++ [UInt8.ofNat data.length]).length = 32 := by
  rw [List.length_append, List.length_take, List.length_append, List.length_replicate, List.length_singleton]
  omega

def prefixHash (data : List UInt8) : Bytes32 :=
  ⟨(data ++ List.replicate 31 0).take 31 ++ [UInt8.ofNat data.length], length_padded data⟩

def chunkOf (byte : UInt8) : List UInt8 := List.replicate 4096 byte

theorem length_chunkOf (byte : UInt8) : (chunkOf byte).length = 4096 := List.length_replicate ..

def twoChunks : StoredData 1 where
  chunks := [chunkOf 0, chunkOf 1]
  count := rfl
  size chunk member := by
    rcases List.mem_cons.mp member with rfl | member
    · exact length_chunkOf 0
    · rw [List.mem_singleton.mp member]
      exact length_chunkOf 1

def rootOfTwo : List UInt8 := join (prefixHash (chunkOf 0)) (prefixHash (chunkOf 1))

theorem prefixHash_chunkOf (byte : UInt8) : (prefixHash (chunkOf byte)).bytes = List.replicate 31 byte ++ [0] := by
  have short : 31 - 4096 = 0 := rfl
  unfold prefixHash chunkOf
  simp only [List.take_append, List.length_replicate, List.take_replicate, short]
  rfl

theorem prefixHash_rootOfTwo : (prefixHash rootOfTwo).bytes = List.replicate 31 0 ++ [64] := by
  unfold prefixHash rootOfTwo join
  rw [prefixHash_chunkOf, prefixHash_chunkOf]
  rfl

theorem prefixHash_injOn : Set.InjOn prefixHash {chunkOf 0, chunkOf 1, rootOfTwo} := by
  have first : (prefixHash (chunkOf 0)).bytes ≠ (prefixHash (chunkOf 1)).bytes := by
    rw [prefixHash_chunkOf, prefixHash_chunkOf]
    decide
  have second : (prefixHash (chunkOf 0)).bytes ≠ (prefixHash rootOfTwo).bytes := by
    rw [prefixHash_chunkOf, prefixHash_rootOfTwo]
    decide
  have third : (prefixHash (chunkOf 1)).bytes ≠ (prefixHash rootOfTwo).bytes := by
    rw [prefixHash_chunkOf, prefixHash_rootOfTwo]
    decide
  intro a member b other same
  have bytes := congrArg Bytes32.bytes same
  rcases member with rfl | rfl | rfl
  · rcases other with rfl | rfl | rfl
    · rfl
    · exact absurd bytes first
    · exact absurd bytes second
  · rcases other with rfl | rfl | rfl
    · exact absurd bytes.symm first
    · rfl
    · exact absurd bytes third
  · rcases other with rfl | rfl | rfl
    · exact absurd bytes.symm second
    · exact absurd bytes.symm third
    · rfl

theorem twoChunks_free {proof : MerkleProof} (known : proof.chunkData ∈ ({chunkOf 0, chunkOf 1, rootOfTwo} : Set _))
    (steps : ∀ input ∈ MerklePath.climbed prefixHash join (prefixHash proof.chunkData) proof.chunkIndex.toNat
      proof.siblingHashes, input = rootOfTwo) :
    twoChunks.CollisionFree prefixHash proof := by
  refine prefixHash_injOn.mono ?_
  rintro input (⟨level, position, low, bound, rfl⟩ | rfl | step)
  · match level, low, position, bound with
    | 0, _, 0, _ => exact Or.inl rfl
    | 0, _, 1, _ => exact Or.inr (Or.inl rfl)
    | 1, _, 0, _ => exact Or.inr (Or.inr rfl)
  · exact known
  · exact Or.inr (Or.inr (steps _ step))

def dealOf (root : Bytes32) : StorageDeal where
  dealId := 1
  refIntent := Bytes32.replicate 1
  refAcceptance := Bytes32.replicate 2
  client := ⟨Bytes32.replicate 3⟩
  provider := ⟨Bytes32.replicate 4⟩
  dataCid := Bytes32.replicate 5
  dataSize := 8192
  dealDurationEpochs := 10
  pricePerEpoch := ⟨1⟩
  providerCollateral := ⟨10⟩
  clientPaymentEscrow := ⟨10⟩
  proofMerkleRoot := some root
  startEpoch := some 0
  activationDeadline := 0
  status := .active

def proofOf (merkleProof : MerkleProof) : StorageProof where
  timestamp := 0
  dealId := 1
  provider := ⟨Bytes32.replicate 4⟩
  proofEpoch := 0
  challengeIndices := [1]
  merkleProofs := [merkleProof]

def secondChunk : MerkleProof := ⟨1, chunkOf 1, [prefixHash (chunkOf 0)]⟩

def childHashes : MerkleProof := ⟨1, rootOfTwo, []⟩

theorem secondChunk_free : twoChunks.CollisionFree prefixHash secondChunk :=
  twoChunks_free (Or.inr (Or.inl rfl)) fun _ step => List.mem_singleton.mp step

theorem storage_proofs_sound_pair :
    ProofCycleManager.verifyMerkleProofs prefixHash (proofOf secondChunk) [1]
        (dealOf (twoChunks.merkleRoot prefixHash)) = .ok () ∧
      (proofOf secondChunk).merkleProofs.length = 1 ∧
        ∀ pair ∈ [1].zip [secondChunk], twoChunks.chunks[UInt64.toNat pair.1]? = some pair.2.chunkData := by
  have below : ∀ challenge ∈ ([1] : List UInt64), challenge.toNat < 2 ^ 1 := by
    intro challenge member
    rw [List.mem_singleton.mp member]
    exact Nat.one_lt_two
  have free : ∀ merkleProof ∈ (proofOf secondChunk).merkleProofs, twoChunks.CollisionFree prefixHash merkleProof := by
    intro merkleProof member
    rw [List.mem_singleton.mp member]
    exact secondChunk_free
  have passes : ProofCycleManager.verifyMerkleProofs prefixHash (proofOf secondChunk) [1]
      (dealOf (twoChunks.merkleRoot prefixHash)) = .ok () := by
    refine (verifyMerkleProofs_ok rfl).mpr ⟨rfl, ?_⟩
    intro pair member
    rw [List.mem_singleton.mp member]
    exact ⟨rfl, decide_eq_true rfl⟩
  refine ⟨passes, (@storage_proofs_sound_iff prefixHash 1 twoChunks (proofOf secondChunk) [1]
    (dealOf (twoChunks.merkleRoot prefixHash)) rfl below free).2.mpr ?_ passes⟩
  intro answered pair member level leads
  rw [List.mem_singleton.mp member] at leads
  have size : level + 1 + 1 = 1 := leads.1
  omega

/-- The child hashes pass as the second chunk. -/
theorem child_hashes_pass :
    twoChunks.CollisionFree prefixHash childHashes ∧
      childHashes.verify prefixHash (twoChunks.merkleRoot prefixHash) ∧
      ProofCycleManager.verifyMerkleProofs prefixHash (proofOf childHashes) [1]
        (dealOf (twoChunks.merkleRoot prefixHash)) = .ok () ∧
      twoChunks.chunks[1]? ≠ some childHashes.chunkData := by
  have verified : childHashes.verify prefixHash (twoChunks.merkleRoot prefixHash) :=
    decide_eq_true rfl
  refine ⟨?_, verified, ?_, ?_⟩
  · exact twoChunks_free (Or.inr (Or.inr rfl)) fun _ step => absurd step (List.not_mem_nil)
  · refine (verifyMerkleProofs_ok rfl).mpr ⟨rfl, ?_⟩
    intro pair member
    rw [List.mem_singleton.mp member]
    exact ⟨rfl, verified⟩
  · intro held
    have sizes := congrArg List.length (Option.some.inj held)
    rw [length_chunkOf] at sizes
    have size : childHashes.chunkData.length = 64 := length_join ..
    omega

end

end AdicProof.StorageMarket
