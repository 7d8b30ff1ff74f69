import AdicCore.StorageMarket.Ledger

open AdicModel.Economics

namespace AdicModel.StorageMarket

/-- The fractions are doubles. Without `allow-deterministic-challenges` the last field is false. -/
structure ProofCycleConfig where
  proofGracePeriod : UInt64
  slashPercentage : ℚ
  chunksPerChallenge : UInt32
  paymentPerProof : ℚ
  vrfGracePeriodEpochs : UInt64
  allowDeterministicChallenges : Bool

def saturatingSub (a b : UInt64) : UInt64 := if a < b then 0 else a - b

/-- `(units as f64 * fraction) as u64`. -/
abbrev Scale := UInt64 → ℚ → UInt64

/-- The randomness of the finalized epochs. -/
abbrev VrfStates := UInt64 → Option Bytes32

/-- Falls back to the epoch before. -/
def getCanonicalRandomness (states : VrfStates) (epoch : UInt64) : Option Bytes32 :=
  match states epoch with
  | some randomness => some randomness
  | none => if epoch > 0 then states (epoch - 1) else none

def computeChallenge (blake3 : List UInt8 → Bytes32) (canonicalRandomness : Bytes32) (domain : String)
    (params : List (List UInt8)) : Bytes32 :=
  blake3 (domain.toUTF8.toList ++ [0] ++ canonicalRandomness.bytes ++ params.flatten)

def u64FromLeBytes (bytes : List UInt8) : UInt64 :=
  UInt64.ofNat (bytes.foldr (fun byte value => byte.toNat + 256 * value) 0)

/-- A window holds the epoch in which it was opened. Finality and fraud proofs are left out. -/
structure ProofCycleManager where
  config : ProofCycleConfig
  proofs : HashMap.Table UInt64 (List StorageProof)
  pendingChallenges : HashMap.Table UInt64 (List UInt64)
  paymentsReleased : HashMap.Table UInt64 AdicAmount
  windows : HashMap.Table MessageId UInt64

namespace ProofCycleManager

def new (config : ProofCycleConfig) : ProofCycleManager := ⟨config, ∅, ∅, ∅, ∅⟩

section

variable (blake3 : List UInt8 → Bytes32) (states : VrfStates)

def challengeSeed (config : ProofCycleConfig) (deal : StorageDeal) (epoch currentEpoch : UInt64) :
    Except StorageMarketError Bytes32 :=
  match getCanonicalRandomness states epoch with
  | some randomness =>
    .ok (computeChallenge blake3 randomness "storage-challenge" [toLeBytes deal.dealId.toNat, deal.dataCid.bytes])
  | none =>
    let epochAge := saturatingSub currentEpoch epoch
    if epochAge < config.vrfGracePeriodEpochs ∧ ¬config.allowDeterministicChallenges then
      .error (.challengeError (s!"VRF randomness required for epoch {epoch} (age: {epochAge}, grace period: " ++
        s!"{config.vrfGracePeriodEpochs}). Deterministic fallback blocked in production for security."))
    else .ok (blake3 (toLeBytes deal.dealId.toNat ++ toLeBytes epoch.toNat ++ deal.dataCid.bytes))

def numChunks (deal : StorageDeal) : UInt64 := (deal.dataSize + 4096 - 1) / 4096

/-- Only the indices whose eight bytes lie within the seed. -/
def challengeIndices (config : ProofCycleConfig) (seed : Bytes32) (chunks : UInt64) : List UInt64 :=
  (List.range config.chunksPerChallenge.toNat).filterMap fun i =>
    let offset := (UInt32.ofNat i * 8).toNat
    if offset + 8 ≤ seed.bytes.length then some (u64FromLeBytes ((seed.bytes.drop offset).take 8) % chunks) else none

variable {L : Type}

def generateChallenge (deal : StorageDeal) (epoch currentEpoch : UInt64) :
    MarketCall ProofCycleManager L (List UInt64) := do
  if deal.status ≠ .active then throw (.invalidStateTransition deal.status.debug "Challenge generation")
  let config := (← getManager).config
  let seed ← checked (challengeSeed blake3 states config deal epoch currentEpoch)
  if numChunks deal = 0 ∧ config.chunksPerChallenge ≠ 0 then throw .panicked
  let indices := challengeIndices config seed (numChunks deal)
  modifyManager fun manager =>
    { manager with pendingChallenges := manager.pendingChallenges.insert deal.dealId indices }
  return indices

end

/-- A proof is not held against the stored proofs, nor against the start of the deal. -/
def validateProofTiming (config : ProofCycleConfig) (proof : StorageProof) (currentEpoch : UInt64) :
    Except StorageMarketError Unit :=
  if saturatingSub currentEpoch proof.proofEpoch > config.proofGracePeriod then
    .error (.challengeError "Proof submission too late")
  else .ok ()

def verifyMerkleProof (blake3 : List UInt8 → Bytes32) (merkleRoot : Bytes32) (challengeIndex : UInt64)
    (merkleProof : MerkleProof) : Except StorageMarketError Unit :=
  if merkleProof.chunkIndex ≠ challengeIndex then
    .error (.proofVerificationFailed
      s!"Merkle proof index mismatch: expected {challengeIndex}, got {merkleProof.chunkIndex}")
  else if ¬merkleProof.verify blake3 merkleRoot then
    .error (.proofVerificationFailed s!"Invalid Merkle proof for chunk index {challengeIndex}")
  else .ok ()

def verifyMerkleProofs (blake3 : List UInt8 → Bytes32) (proof : StorageProof) (challenges : List UInt64)
    (deal : StorageDeal) : Except StorageMarketError Unit :=
  if proof.merkleProofs.length ≠ challenges.length then
    .error (.proofVerificationFailed s!"Expected {challenges.length} proofs, got {proof.merkleProofs.length}")
  else
    match deal.proofMerkleRoot with
    | none => .error (.proofVerificationFailed "No Merkle root set")
    | some merkleRoot =>
      (challenges.zip proof.merkleProofs).forM fun (challengeIndex, merkleProof) =>
        verifyMerkleProof blake3 merkleRoot challengeIndex merkleProof

def verifyChallengeAuthenticity (proof : StorageProof) (expectedChallenges : List UInt64) :
    Except StorageMarketError Unit :=
  if proof.challengeIndices.length ≠ expectedChallenges.length then
    .error (.proofVerificationFailed
      s!"Challenge count mismatch: expected {expectedChallenges.length}, got {proof.challengeIndices.length}")
  else
    (proof.challengeIndices.zip expectedChallenges).zipIdx.forM fun ((provided, expected), i) =>
      if provided ≠ expected then
        .error (.proofVerificationFailed s!"Challenge index {i} mismatch: expected {expected}, got {provided}")
      else .ok ()

def computeProofId (blake3 : List UInt8 → Bytes32) (proof : StorageProof) (dealId : UInt64) : MessageId :=
  ⟨blake3 (toLeBytes dealId.toNat ++ toLeBytes proof.proofEpoch.toNat ++ proof.provider.asBytes.bytes ++
    toLeBytes proof.timestamp.toInt ++ proof.challengeIndices.flatMap fun index => toLeBytes index.toNat)⟩

variable {L : Type} (ledger : Ledger L) (scale : Scale)

/-- The entry is made before the check, and the sum wraps around. -/
def releasePayment (deal : StorageDeal) : MarketCall ProofCycleManager L Unit := do
  let paymentBase := deal.clientPaymentEscrow.baseUnits
  let releaseBase := scale paymentBase (← getManager).config.paymentPerProof
  let totalReleased := ((← getManager).paymentsReleased.lookup deal.dealId).getD AdicAmount.zero
  modifyManager fun manager =>
    { manager with paymentsReleased := manager.paymentsReleased.insert deal.dealId totalReleased }
  let newTotalBase := totalReleased.baseUnits + releaseBase
  if newTotalBase > paymentBase then throw (.economicsError (.text "Cannot release more than escrowed amount"))
  onLedger (ledger.credit deal.provider ⟨releaseBase⟩)
  modifyManager fun manager =>
    { manager with paymentsReleased := manager.paymentsReleased.insert deal.dealId ⟨newTotalBase⟩ }

def submitProof (blake3 : List UInt8 → Bytes32) (proof : StorageProof) (deal : StorageDeal) (currentEpoch : UInt64) :
    MarketCall ProofCycleManager L Unit := do
  checked (validateProofTiming (← getManager).config proof currentEpoch)
  match (← getManager).pendingChallenges.lookup deal.dealId with
  | none => throw (.challengeError "No pending challenges")
  | some challenges =>
    checked (verifyChallengeAuthenticity proof challenges)
    checked (verifyMerkleProofs blake3 proof challenges deal)
    modifyManager fun manager =>
      { manager with windows := manager.windows.insert (computeProofId blake3 proof deal.dealId) currentEpoch }
    releasePayment ledger scale deal
    modifyManager fun manager =>
      { manager with
        proofs := manager.proofs.insert deal.dealId ((manager.proofs.lookup deal.dealId).getD [] ++ [proof])
        pendingChallenges := manager.pendingChallenges.erase deal.dealId }

def slashProvider (deal : StorageDeal) : MarketCall ProofCycleManager L Unit := do
  let slashBase := scale deal.providerCollateral.baseUnits (← getManager).config.slashPercentage
  onLedger (ledger.transferWithReason deal.provider AccountAddress.treasury ⟨slashBase⟩)

/-- The deal as it is after the check. -/
def checkMissedProofs (deal : StorageDeal) (currentEpoch : UInt64) : MarketCall ProofCycleManager L StorageDeal := do
  match deal.startEpoch with
  | none => return deal
  | some startEpoch =>
    if deal.dealDurationEpochs = 0 then throw .panicked
    let manager ← getManager
    let expectedProofs := saturatingSub currentEpoch startEpoch / deal.dealDurationEpochs
    let proofs := (manager.proofs.lookup deal.dealId).getD []
    if UInt64.ofNat proofs.length < expectedProofs then
      let lastProofEpoch := (proofs.getLast?.map StorageProof.proofEpoch).getD startEpoch
      let epochsOverdue := saturatingSub currentEpoch (lastProofEpoch + deal.dealDurationEpochs)
      if epochsOverdue > manager.config.proofGracePeriod then
        slashProvider ledger scale deal
        checked (deal.transitionTo .failed)
      else return deal
    else return deal

/-- The credits come before the check of the status, and are not recorded as released. -/
def completeDeal (deal : StorageDeal) (currentEpoch : UInt64) : MarketCall ProofCycleManager L StorageDeal := do
  match deal.startEpoch with
  | some startEpoch =>
    if saturatingSub currentEpoch startEpoch < deal.dealDurationEpochs then
      throw (.other "Deal duration not yet elapsed")
  | none => pure ()
  let totalReleased := ((← getManager).paymentsReleased.lookup deal.dealId).getD AdicAmount.zero
  let remainingBase := saturatingSub deal.clientPaymentEscrow.baseUnits totalReleased.baseUnits
  if remainingBase > 0 then onLedger (ledger.credit deal.provider ⟨remainingBase⟩)
  onLedger (ledger.credit deal.provider deal.providerCollateral)
  checked (deal.transitionTo .completed)

end ProofCycleManager

end AdicModel.StorageMarket
