import AdicCore.Governance.Types
import AdicCore.Economics.Balance
import AdicCore.Pouw.BlsCoordinator

open AdicModel.Crypto AdicModel.Economics

namespace AdicModel.Governance

inductive GrantStatus where
  | pending
  | active
  | paused
  | completed
  | failed
  | clawedBack
deriving DecidableEq

structure GrantState where
  grant : TreasuryGrant
  disbursedAmount : AdicAmount
  nextMilestoneId : Option UInt32
  status : GrantStatus
  startEpoch : UInt64
  lastDisbursementEpoch : Option UInt64

inductive Instalment where
  | atomic
  | streamed (epoch : UInt64)
  | milestone (milestoneId : UInt32)
deriving DecidableEq

/-- A transfer for a grant, with the status that was stored under the id of the grant then. -/
structure Payment where
  grant : TreasuryGrant
  instalment : Instalment
  amount : AdicAmount
  status : Option GrantStatus

/-- `payments` is a history for the proofs, which the source has in its log only. -/
structure TreasuryExecutor where
  treasuryAddress : AccountAddress
  activeGrants : HashMap.Table Hash GrantState
  payments : List Payment

/-- What the executor calls: the transfer, the address of a key, and the check of a threshold signature. -/
structure TreasuryServices (L : Type) where
  transfer : AccountAddress → AccountAddress → AdicAmount → Call L Unit
  fromPublicKey : PublicKey → AccountAddress
  verifySignature : Option (UInt64 → Signature → List UInt8 → Except MilestoneReason Unit)

/-- The services of a balance manager at the time `now`. -/
def TreasuryServices.ofBalanceManager {σ : Type} [EconomicsStorage σ] (blake3 : List UInt8 → Bytes32) (now : Int)
    (verifySignature : Option (UInt64 → Signature → List UInt8 → Except MilestoneReason Unit)) :
    TreasuryServices (BalanceManager σ) where
  transfer sender recipient amount := discard (BalanceManager.transfer blake3 now sender recipient amount)
  fromPublicKey := AccountAddress.fromPublicKey blake3
  verifySignature := verifySignature

def dstMilestoneAttestation : List UInt8 := Pouw.utf8 "ADIC-GOV-MILESTONE-v1"

def hexText (signature : Signature) : String :=
  String.ofList (signature.asBytes.map fun byte => Char.ofNat byte.toNat)

/-- The check of a signature with the key sets of a DKG manager. -/
def dkgVerification {PublicKeySet TcSignature SignatureShare : Type}
    (crypto : ThresholdCrypto PublicKeySet TcSignature SignatureShare) (publicKeySets : HashMap.Table UInt64 PublicKeySet)
    (currentEpoch : UInt64) (signature : Signature) (signedMessage : List UInt8) : Except MilestoneReason Unit :=
  match publicKeySets.lookup currentEpoch with
  | none => .error (.keySetMissing currentEpoch s!"Other error: No PublicKeySet for epoch {currentEpoch}")
  | some publicKeySet =>
    match verifySignature crypto publicKeySet signedMessage dstMilestoneAttestation ⟨hexText signature⟩ with
    | .error error => .error (.signatureInvalid s!"Failed to convert signature: {error.text}")
    | .ok false => .error (.signatureInvalid "BLS signature verification failed")
    | .ok true => .ok ()

def TreasuryServices.withDkgManager {L PublicKeySet TcSignature SignatureShare : Type}
    (crypto : ThresholdCrypto PublicKeySet TcSignature SignatureShare) (publicKeySets : HashMap.Table UInt64 PublicKeySet)
    (services : TreasuryServices L) : TreasuryServices L :=
  { services with verifySignature := some (dkgVerification crypto publicKeySets) }

structure TreasuryState (L : Type) where
  executor : TreasuryExecutor
  ledger : L

abbrev TreasuryCall (L α : Type) : Type := EStateM GovernanceError (TreasuryState L) α

namespace TreasuryExecutor

def new (treasuryAddress : AccountAddress) : TreasuryExecutor := ⟨treasuryAddress, ∅, []⟩

def setState (executor : TreasuryExecutor) (grantId : Hash) (state : GrantState) : TreasuryExecutor :=
  { executor with activeGrants := executor.activeGrants.insert grantId state }

/-- A transfer of nothing is no payment. -/
def note (executor : TreasuryExecutor) (grant : TreasuryGrant) (instalment : Instalment) (amount : AdicAmount) :
    TreasuryExecutor :=
  if amount = AdicAmount.zero then executor
  else
    { executor with
      payments := executor.payments ++
        [⟨grant, instalment, amount, (executor.activeGrants.lookup grant.proposalId).map GrantState.status⟩] }

section

variable {L : Type} (services : TreasuryServices L)

def fails {α : Type} (message : String) : TreasuryCall L α := throw (.treasuryError (.text message))

def setGrant (grantId : Hash) (state : GrantState) : TreasuryCall L Unit :=
  modify fun treasury => { treasury with executor := treasury.executor.setState grantId state }

def transferTo (grant : TreasuryGrant) (instalment : Instalment) (amount : AdicAmount) : TreasuryCall L Unit :=
  fun treasury =>
  match services.transfer treasury.executor.treasuryAddress (services.fromPublicKey grant.recipient) amount
    treasury.ledger with
  | .ok _ ledger => .ok () { executor := treasury.executor.note grant instalment amount, ledger }
  | .error error ledger => .error (.treasuryError (.economics error)) { treasury with ledger }

def initializeGrant (grant : TreasuryGrant) (nextMilestoneId : Option UInt32) (currentEpoch : UInt64) :
    TreasuryCall L Unit :=
  setGrant grant.proposalId
    { grant
      disbursedAmount := AdicAmount.zero
      nextMilestoneId
      status := .active
      startEpoch := currentEpoch
      lastDisbursementEpoch := none }

def executeGrant (grant : TreasuryGrant) (currentEpoch : UInt64) : TreasuryCall L Unit :=
  match grant.schedule with
  | .atomic => transferTo services grant .atomic grant.totalAmount
  | .streamed _ _ => initializeGrant grant none currentEpoch
  | .milestone milestones => initializeGrant grant (milestones.head?.map Milestone.id) currentEpoch

/-- The payment is made before the state of the grant is written. -/
def disburseTranche (grantId : Hash) (state : GrantState) (instalment : Instalment) (amount : AdicAmount)
    (currentEpoch : UInt64) : TreasuryCall L GrantState := do
  transferTo services state.grant instalment amount
  match state.disbursedAmount.checkedAdd amount with
  | none => fails "Disbursed amount overflow"
  | some disbursedAmount =>
    let state := { state with disbursedAmount, lastDisbursementEpoch := some currentEpoch }
    setGrant grantId state
    return state

def processGrant (currentEpoch : UInt64) (grantId : Hash) : TreasuryCall L Unit := do
  match (← get).executor.activeGrants.lookup grantId with
  | none => return ()
  | some state =>
    if state.status ≠ .active then return ()
    else
      match state.grant.schedule with
      | .streamed ratePerEpoch durationEpochs =>
        let epochsElapsed := if currentEpoch < state.startEpoch then 0 else currentEpoch - state.startEpoch
        if epochsElapsed > durationEpochs then setGrant grantId { state with status := .completed }
        else
          match state.grant.totalAmount.checkedSub state.disbursedAmount with
          | none => fails "Disbursed amount exceeds total"
          | some remaining =>
            if remaining ≥ ratePerEpoch then
              let state ← disburseTranche services grantId state (.streamed currentEpoch) ratePerEpoch currentEpoch
              if state.disbursedAmount ≥ state.grant.totalAmount then
                setGrant grantId { state with status := .completed }
            else if remaining > AdicAmount.zero then
              let state ← disburseTranche services grantId state (.streamed currentEpoch) remaining currentEpoch
              setGrant grantId { state with status := .completed }
            else setGrant grantId { state with status := .completed }
      | _ => return ()

/-- `order` is the order in which the map yields the grants. -/
def processEpoch (order : HashMap.Order) (currentEpoch : UInt64) : TreasuryCall L Unit := do
  (order.iterate (← get).executor.activeGrants.keys).forM (processGrant services currentEpoch)

def milestoneFails {α : Type} (milestoneId : UInt32) (reason : MilestoneReason) : TreasuryCall L α :=
  throw (.milestoneVerificationFailed milestoneId reason)

/-- A check of the proof of a milestone. -/
def requires (milestone : Milestone) (holds : Bool) (reason : MilestoneReason) : Except GovernanceError Unit :=
  if holds then .ok () else .error (.milestoneVerificationFailed milestone.id reason)

/-- A division by an empty quorum gives no number below the threshold. -/
def verifyQuorumSignature (milestone : Milestone) (signature : Signature) (signers : List PublicKey)
    (quorumSize : Nat) (signedMessage : List UInt8) (threshold : ℚ) (currentEpoch : UInt64) :
    Except GovernanceError Unit := do
  let actualThreshold : ℚ := signers.length / quorumSize
  requires milestone (quorumSize = 0 || actualThreshold ≥ threshold) (.thresholdNotMet actualThreshold threshold)
  match services.verifySignature with
  | none => return ()
  | some verify =>
    match verify currentEpoch signature signedMessage with
    | .ok _ => return ()
    | .error reason => throw (.milestoneVerificationFailed milestone.id reason)

def verifyMilestoneAttestation (milestone : Milestone) (attestation : MilestoneAttestation) (currentEpoch : UInt64) :
    Except GovernanceError Unit := do
  requires milestone (attestation.deliverableCid = milestone.deliverableCid) (.text "Deliverable CID mismatch")
  match milestone.verificationScheme, attestation.proof with
  | .quorumAttestation threshold, .quorumSignature signature signers quorumSize signedMessage =>
    verifyQuorumSignature services milestone signature signers quorumSize signedMessage threshold currentEpoch
  | .automatedCheck criteria, .automatedCheck passed evidenceCid =>
    requires milestone passed (.checkFailed criteria)
    requires milestone (evidenceCid ≠ "") (.text "Evidence CID is empty")
  | .oracleVerification oracleId, .oracleAttestation proofOracleId result =>
    requires milestone (proofOracleId = oracleId) (.oracleMismatch oracleId proofOracleId)
    requires milestone result (.text "Oracle verification failed")
  | .pouwTaskVerification taskId minQuality, .pouwTaskCompletion proofTaskId completed qualityScore =>
    requires milestone (proofTaskId = taskId) (.text "Task ID mismatch")
    requires milestone completed (.text "PoUW task not completed")
    requires milestone (qualityScore ≥ minQuality) (.qualityBelow qualityScore minQuality)
  | _, _ => throw (.milestoneVerificationFailed milestone.id (.text "Proof type does not match verification scheme"))

def nextMilestone (milestones : List Milestone) (milestoneId : UInt32) : Option UInt32 :=
  let nextIndex := milestones.findIdx (fun milestone => milestone.id = milestoneId) + 1
  (milestones[nextIndex]?).map Milestone.id

def completeMilestone (grantId : Hash) (milestoneId : UInt32) (attestation : MilestoneAttestation)
    (currentEpoch : UInt64) : TreasuryCall L Unit := do
  if attestation.milestoneId ≠ milestoneId then
    milestoneFails milestoneId (.text "Attestation milestone ID mismatch")
  if attestation.grantId ≠ grantId then milestoneFails milestoneId (.text "Attestation grant ID mismatch")
  match (← get).executor.activeGrants.lookup grantId with
  | none => fails "Grant not found"
  | some state =>
    if state.nextMilestoneId ≠ some milestoneId then
      milestoneFails milestoneId (.text "Not the next expected milestone")
    match state.grant.schedule with
    | .milestone milestones =>
      match milestones.find? fun milestone => milestone.id = milestoneId with
      | none => milestoneFails milestoneId (.text "Milestone not found in grant")
      | some milestone =>
        if currentEpoch > milestone.deadlineEpoch then
          setGrant grantId { state with status := .paused }
          milestoneFails milestoneId (.text "Deadline passed")
        match verifyMilestoneAttestation services milestone attestation currentEpoch with
        | .error error => throw error
        | .ok _ =>
          let state ← disburseTranche services grantId state (.milestone milestoneId) milestone.amount currentEpoch
          let nextMilestoneId := nextMilestone milestones milestoneId
          setGrant grantId
            { state with
              nextMilestoneId
              status := if nextMilestoneId.isNone then .completed else state.status }
    | _ => fails "Grant is not milestone-based"

def pauseGrant (grantId : Hash) : TreasuryCall L Unit := do
  match (← get).executor.activeGrants.lookup grantId with
  | none => fails "Grant not found"
  | some state => setGrant grantId { state with status := .paused }

def clawbackGrant (grantId : Hash) : TreasuryCall L AdicAmount := do
  match (← get).executor.activeGrants.lookup grantId with
  | none => fails "Grant not found"
  | some state =>
    match state.grant.totalAmount.checkedSub state.disbursedAmount with
    | none => fails "Disbursed amount exceeds total"
    | some remaining =>
      if remaining > AdicAmount.zero then setGrant grantId { state with status := .clawedBack }
      return remaining

end

end TreasuryExecutor

end AdicModel.Governance
