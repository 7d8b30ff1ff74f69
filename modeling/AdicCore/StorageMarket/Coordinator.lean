import AdicCore.StorageMarket.Intent
import AdicCore.StorageMarket.Jitca

open AdicModel.Economics

namespace AdicModel.StorageMarket

structure StorageMarketCoordinator where
  intentManager : IntentManager
  jitcaCompiler : JitcaCompiler
  proofManager : ProofCycleManager
  activeDeals : HashMap.Table UInt64 StorageDeal
  currentEpoch : UInt64

namespace StorageMarketCoordinator

def new (intentManager : IntentManager) (jitcaCompiler : JitcaCompiler) (proofManager : ProofCycleManager) :
    StorageMarketCoordinator := ⟨intentManager, jitcaCompiler, proofManager, ∅, 0⟩

section

variable {L α : Type}

def onProofManager (call : MarketCall ProofCycleManager L α) : MarketCall StorageMarketCoordinator L α := fun state =>
  match call ⟨state.manager.proofManager, state.ledger⟩ with
  | .ok value next => .ok value ⟨{ state.manager with proofManager := next.manager }, next.ledger⟩
  | .error error next => .error error ⟨{ state.manager with proofManager := next.manager }, next.ledger⟩

def onJitcaCompiler (call : MarketCall JitcaCompiler L α) : MarketCall StorageMarketCoordinator L α := fun state =>
  match call ⟨state.manager.jitcaCompiler, state.ledger⟩ with
  | .ok value next => .ok value ⟨{ state.manager with jitcaCompiler := next.manager }, next.ledger⟩
  | .error error next => .error error ⟨{ state.manager with jitcaCompiler := next.manager }, next.ledger⟩

def putDeal (dealId : UInt64) (deal : StorageDeal) : MarketCall StorageMarketCoordinator L Unit :=
  modifyManager fun coordinator => { coordinator with activeDeals := coordinator.activeDeals.insert dealId deal }

def getDeal (dealId : UInt64) : MarketCall StorageMarketCoordinator L StorageDeal := do
  match (← getManager).activeDeals.lookup dealId with
  | none => throw (.dealNotFound dealId)
  | some deal => return deal

def advanceEpoch : MarketCall StorageMarketCoordinator L UInt64 := do
  modifyManager fun coordinator => { coordinator with currentEpoch := coordinator.currentEpoch + 1 }
  return (← getManager).currentEpoch

def getIntent (intentId : Hash) : MarketCall StorageMarketCoordinator L StorageDealIntent := do
  match (← getManager).intentManager.intents.lookup intentId with
  | none => throw (.other s!"Intent not found: {hexEncode intentId.bytes}")
  | some intent => return intent

def getAcceptance (acceptanceId : Hash) : MarketCall StorageMarketCoordinator L ProviderAcceptance := do
  match (← getManager).intentManager.acceptances.lookup acceptanceId with
  | none => throw (.other s!"Acceptance not found: {hexEncode acceptanceId.bytes}")
  | some acceptance => return acceptance

variable (ledger : Ledger L) (scale : Scale)

def compileDeal (intentId acceptanceId : Hash) : MarketCall StorageMarketCoordinator L UInt64 := do
  let currentEpoch := (← getManager).currentEpoch
  let intent ← getIntent intentId
  let acceptance ← getAcceptance acceptanceId
  let deal ← onJitcaCompiler (JitcaCompiler.compile ledger scale intent acceptance currentEpoch)
  putDeal deal.dealId deal
  return deal.dealId

/-- The Merkle root is set before the compiler is asked. -/
def activateDeal (order : HashMap.Order) (dealId : UInt64) (activation : DealActivation) :
    MarketCall StorageMarketCoordinator L Unit := do
  let currentEpoch := (← getManager).currentEpoch
  let deal ← getDeal dealId
  if deal.status ≠ .pendingActivation then throw (.invalidStateTransition deal.status.debug "Active")
  let rooted := { deal with proofMerkleRoot := some activation.dataMerkleRoot }
  putDeal dealId rooted
  let compiler ← checked ((← getManager).jitcaCompiler.activateDeal order dealId currentEpoch)
  modifyManager fun coordinator => { coordinator with jitcaCompiler := compiler }
  let active ← checked (rooted.transitionTo .active)
  putDeal dealId { active with startEpoch := some currentEpoch }

def submitProof (blake3 : List UInt8 → Bytes32) (states : VrfStates) (proof : StorageProof) :
    MarketCall StorageMarketCoordinator L Unit := do
  let currentEpoch := (← getManager).currentEpoch
  let deal ← getDeal proof.dealId
  if deal.status ≠ .active then throw (.invalidStateTransition deal.status.debug "Proof submission")
  let challenges ← onProofManager
    (ProofCycleManager.generateChallenge blake3 states deal proof.proofEpoch currentEpoch)
  if proof.challengeIndices ≠ challenges then
    throw (.proofVerificationFailed "Proof challenges do not match expected challenges")
  onProofManager (ProofCycleManager.submitProof ledger scale blake3 proof deal currentEpoch)

/-- A check that fails is logged and leaves the deal as it is. -/
def orUnchanged (deal : StorageDeal) (call : MarketCall StorageMarketCoordinator L StorageDeal) :
    MarketCall StorageMarketCoordinator L StorageDeal := fun state =>
  match call state with
  | .ok value next => .ok value next
  | .error .panicked next => .error .panicked next
  | .error _ next => .ok deal next

def checkDeadline (currentEpoch : UInt64) (slashedDeals : List UInt64) (entry : UInt64 × StorageDeal) :
    MarketCall StorageMarketCoordinator L (List UInt64) := do
  let (dealId, deal) := entry
  if deal.status = .active then
    let deal ← orUnchanged deal
      (onProofManager (ProofCycleManager.checkMissedProofs ledger scale deal currentEpoch))
    putDeal dealId deal
    return if deal.status = .failed then slashedDeals ++ [dealId] else slashedDeals
  else return slashedDeals

def checkProofDeadlines (order : HashMap.Order) : MarketCall StorageMarketCoordinator L (List UInt64) := do
  let coordinator ← getManager
  (order.iterate (HashMap.pairs coordinator.activeDeals)).foldlM (checkDeadline ledger scale coordinator.currentEpoch) []

/-- The status of the deal is not looked at. -/
def completeDeal (dealId : UInt64) : MarketCall StorageMarketCoordinator L Unit := do
  let currentEpoch := (← getManager).currentEpoch
  let deal ← getDeal dealId
  let completed ← onProofManager (ProofCycleManager.completeDeal ledger deal currentEpoch)
  putDeal dealId completed

end

end StorageMarketCoordinator

end AdicModel.StorageMarket
