import AdicCore.Economics.Types

open AdicModel.Economics

namespace AdicModel.Vrf

structure VRFCommit where
  message : AdicMessage
  targetEpoch : UInt64
  commitment : Bytes32
  committer : PublicKey
deriving DecidableEq

structure VRFOpen where
  message : AdicMessage
  targetEpoch : UInt64
  refCommit : MessageId
  vrfProof : List UInt8
  publicKey : PublicKey
deriving DecidableEq

section

variable (blake3 : List UInt8 → Bytes32)

def VRFCommit.id (commit : VRFCommit) : MessageId := commit.message.id

def VRFCommit.verifyCommitment (commit : VRFCommit) (vrfProof : List UInt8) : Bool :=
  blake3 vrfProof = commit.commitment

def VRFOpen.computeCommitment (reveal : VRFOpen) : Bytes32 := blake3 reveal.vrfProof

end

/-- The randomness is there exactly if the epoch is finalized. -/
structure VRFState where
  epoch : UInt64
  commits : List VRFCommit
  reveals : List VRFOpen
  isFinalized : Bool
  canonicalRandomness : Option Bytes32
  finalized : isFinalized = canonicalRandomness.isSome

namespace VRFState

def new (epoch : UInt64) : VRFState := ⟨epoch, [], [], false, none, rfl⟩

def addCommit (state : VRFState) (commit : VRFCommit) : VRFState := { state with commits := state.commits ++ [commit] }

def addReveal (state : VRFState) (reveal : VRFOpen) : VRFState := { state with reveals := state.reveals ++ [reveal] }

def finalize (state : VRFState) (randomness : Bytes32) : VRFState :=
  { state with canonicalRandomness := some randomness, isFinalized := true, finalized := rfl }

def randomness (state : VRFState) (isFinalized : state.isFinalized = true) : Bytes32 :=
  state.canonicalRandomness.get (state.finalized ▸ isFinalized)

end VRFState

inductive VRFError where
  | insufficientReputation (required actual : ℚ)
  | commitNotFound (epoch : UInt64)
  | revealVerificationFailed (text : String)
  | randomnessNotFinalized (epoch : UInt64)
  | commitmentMismatch (expected actual : String)
  | revealDeadlinePassed (epoch : UInt64)
  | duplicateCommit (committer : String) (epoch : UInt64)
  | noReveals (epoch : UInt64)
deriving DecidableEq

/-- Reputations are exact numbers. -/
structure VRFConfig where
  minCommitterReputation : ℚ
  revealDepth : UInt64
  genesisRoot : Bytes32

def VRFConfig.default : VRFConfig := ⟨50, 10, Bytes32.replicate 0⟩

def xorBytes (first second : Bytes32) : Bytes32 :=
  ⟨List.zipWith (fun left right => left ^^^ right) first.bytes second.bytes, by simp [first.size, second.size]⟩

structure CanonicalRandomness where
  epoch : UInt64
  randomness : Bytes32
  numContributors : Nat

section

variable (blake3 : List UInt8 → Bytes32)

def mixingInput (rootPrev combinedProof : Bytes32) : List UInt8 := rootPrev.bytes ++ combinedProof.bytes

def computeCanonicalRandomness (epoch : UInt64) (rootPrev : Bytes32) (reveals : List VRFOpen) : CanonicalRandomness :=
  let contributors := reveals.filter fun reveal => reveal.targetEpoch = epoch
  let combinedProof := contributors.foldl
    (fun combined reveal => xorBytes combined (blake3 reveal.vrfProof)) (Bytes32.replicate 0)
  ⟨epoch, blake3 (mixingInput rootPrev combinedProof), contributors.length⟩

def computeChallenge (canonicalRandomness : Bytes32) (domain : List UInt8) (params : List (List UInt8)) : Bytes32 :=
  blake3 (domain ++ [0] ++ canonicalRandomness.bytes ++ params.flatten)

end

structure VRFService where
  config : VRFConfig
  states : HashMap.Table UInt64 VRFState
  roots : HashMap.Table UInt64 Bytes32

namespace VRFService

def new (config : VRFConfig) : VRFService := ⟨config, ∅, (∅ : HashMap.Table UInt64 Bytes32).insert 0 config.genesisRoot⟩

/-- The epoch of a duplicate has its state already. -/
def submitCommit (reputation : ℚ) (commit : VRFCommit) (service : VRFService) : Except VRFError Unit × VRFService :=
  if reputation < service.config.minCommitterReputation then
    (.error (.insufficientReputation service.config.minCommitterReputation reputation), service)
  else
    let state := (service.states.lookup commit.targetEpoch).getD (.new commit.targetEpoch)
    if state.commits.any fun other => other.committer = commit.committer then
      (.error (.duplicateCommit (hexEncode commit.committer.asBytes.bytes) commit.targetEpoch), service)
    else
      (.ok (), { service with states := service.states.insert commit.targetEpoch (state.addCommit commit) })

section

variable (blake3 : List UInt8 → Bytes32)

def submitReveal (reveal : VRFOpen) (currentEpoch : UInt64) (service : VRFService) :
    Except VRFError Unit × VRFService :=
  if currentEpoch > reveal.targetEpoch + service.config.revealDepth then
    (.error (.revealDeadlinePassed reveal.targetEpoch), service)
  else
    match service.states.lookup reveal.targetEpoch with
    | none => (.error (.commitNotFound reveal.targetEpoch), service)
    | some state =>
      match state.commits.find? fun commit => commit.id = reveal.refCommit with
      | none => (.error (.revealVerificationFailed "No matching commit found"), service)
      | some commit =>
        if commit.verifyCommitment blake3 reveal.vrfProof = false then
          (.error (.commitmentMismatch (hexEncode commit.commitment.bytes)
            (hexEncode (reveal.computeCommitment blake3).bytes)), service)
        else
          (.ok (), { service with states := service.states.insert reveal.targetEpoch (state.addReveal reveal) })

/-- `saturating_sub(1)`. -/
def previousEpoch (epoch : UInt64) : UInt64 := if epoch = 0 then 0 else epoch - 1

def previousRoot (service : VRFService) (epoch : UInt64) : Bytes32 :=
  (service.roots.lookup (previousEpoch epoch)).getD service.config.genesisRoot

def finalizeEpoch (epoch : UInt64) (service : VRFService) : Except VRFError Bytes32 × VRFService :=
  match service.states.lookup epoch with
  | none => (.error (.commitNotFound epoch), service)
  | some state =>
    if finalized : state.isFinalized = true then (.ok (state.randomness finalized), service)
    else if state.reveals.isEmpty then (.error (.noReveals epoch), service)
    else
      let canonical := computeCanonicalRandomness blake3 epoch (service.previousRoot epoch) state.reveals
      (.ok canonical.randomness,
        { service with
          states := service.states.insert epoch (state.finalize canonical.randomness)
          roots := service.roots.insert epoch canonical.randomness })

end

def finalizedRandomness (service : VRFService) (epoch : UInt64) : Option Bytes32 :=
  match service.states.lookup epoch with
  | none => none
  | some state => if finalized : state.isFinalized = true then some (state.randomness finalized) else none

def getCanonicalRandomness (epoch : UInt64) (service : VRFService) : Except VRFError Bytes32 :=
  match service.finalizedRandomness epoch with
  | some randomness => .ok randomness
  | none =>
    match if epoch > 0 then service.finalizedRandomness (epoch - 1) else none with
    | some randomness => .ok randomness
    | none => .error (.randomnessNotFinalized epoch)

def computeChallengeForEpoch (blake3 : List UInt8 → Bytes32) (epoch : UInt64) (domain : List UInt8)
    (params : List (List UInt8)) (service : VRFService) : Except VRFError Bytes32 := do
  let randomness ← service.getCanonicalRandomness epoch
  return computeChallenge blake3 randomness domain params

end VRFService

end AdicModel.Vrf
