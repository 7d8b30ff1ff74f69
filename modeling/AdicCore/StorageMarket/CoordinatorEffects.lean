import AdicCore.StorageMarket.Coordinator
import AdicCore.StorageMarket.CompiledDeals

open AdicModel AdicModel.Economics AdicModel.StorageMarket Calls

namespace AdicProof.StorageMarket

def releasedFor (manager : ProofCycleManager) (dealId : UInt64) : AdicAmount :=
  (manager.paymentsReleased.lookup dealId).getD AdicAmount.zero

def storedProofs (manager : ProofCycleManager) (dealId : UInt64) : List StorageProof :=
  (manager.proofs.lookup dealId).getD []

def instalment (scale : Scale) (config : ProofCycleConfig) (deal : StorageDeal) : UInt64 :=
  scale deal.clientPaymentEscrow.baseUnits config.paymentPerProof

def Releasable {L : Type} (scale : Scale) (ledger : Ledger L) (manager : ProofCycleManager) (deal : StorageDeal)
    (books : L) : Prop :=
  (releasedFor manager deal.dealId).baseUnits + instalment scale manager.config deal ≤
      deal.clientPaymentEscrow.baseUnits ∧
    succeeds (ledger.credit deal.provider ⟨instalment scale manager.config deal⟩) books

section

variable {L : Type} {ledger : Ledger L} {scale : Scale} {deal : StorageDeal}
  {state : Funded ProofCycleManager (Metered L)}

def setReleased (dealId : UInt64) (amount : AdicAmount) (manager : ProofCycleManager) : ProofCycleManager :=
  { manager with paymentsReleased := manager.paymentsReleased.insert dealId amount }

theorem releasedFor_setReleased (dealId : UInt64) (amount : AdicAmount) (manager : ProofCycleManager) :
    releasedFor (setReleased dealId amount manager) = Function.update (releasedFor manager) dealId amount := by
  funext other
  unfold setReleased releasedFor
  dsimp only
  rw [HashMap.lookup_insert_eq, Function.update_apply]
  split
  · rfl
  · rfl

def opened (manager : ProofCycleManager) (dealId : UInt64) : ProofCycleManager :=
  setReleased dealId (releasedFor manager dealId) manager

theorem releasedFor_opened (manager : ProofCycleManager) (dealId : UInt64) :
    releasedFor (opened manager dealId) = releasedFor manager := by
  unfold opened
  rw [releasedFor_setReleased, Function.update_eq_self]

theorem releasePayment_ends : Ends (ProofCycleManager.releasePayment (metered ledger) scale deal) state
    (fun _ next => Releasable scale ledger state.manager deal state.ledger.inner ∧
      next.manager = setReleased deal.dealId
        ⟨(releasedFor state.manager deal.dealId).baseUnits + instalment scale state.manager.config deal⟩
        (opened state.manager deal.dealId) ∧
      next.ledger.credited = state.ledger.credited + (instalment scale state.manager.config deal).toNat)
    fun _ next => ¬Releasable scale ledger state.manager deal state.ledger.inner ∧
      next.manager = opened state.manager deal.dealId ∧ next.ledger.credited = state.ledger.credited := by
  unfold ProofCycleManager.releasePayment
  refine ends_getManager (ends_getManager (ends_modify (ends_ite (fun exceeds => ?_) fun fits => ?_)))
  · exact ⟨fun releasable => absurd releasable.1 (UInt64.not_le.mpr exceeds), rfl, rfl⟩
  · refine credit_ends.bind ?_ ?_
    · rintro _ ⟨manager, ledger⟩ ⟨accepted, same, -, credited⟩
      obtain rfl : manager = opened state.manager deal.dealId := same
      exact ⟨⟨UInt64.not_lt.mp fits, accepted⟩, rfl, credited⟩
    · rintro _ next ⟨refused, -, same, -, credited⟩
      exact ⟨fun releasable => refused releasable.2, same, credited⟩

theorem verifyChallengeAuthenticity_self (proof : StorageProof) :
    ProofCycleManager.verifyChallengeAuthenticity proof proof.challengeIndices = .ok () := by
  unfold ProofCycleManager.verifyChallengeAuthenticity
  rw [if_neg (not_not_intro rfl), Fallible.forM_ok_iff]
  rintro ⟨⟨provided, expected⟩, i⟩ member
  have paired := List.fst_mem_of_mem_zipIdx member
  have same : provided = expected := by
    rw [List.zip_eq_zipWith, List.zipWith_self, List.mem_map] at paired
    obtain ⟨_, -, equal⟩ := paired
    cases equal
    rfl
  dsimp only
  rw [if_neg (not_not_intro same)]

variable {blake3 : List UInt8 → Bytes32} {states : VrfStates} {epoch currentEpoch : UInt64}

def Challengeable (blake3 : List UInt8 → Bytes32) (states : VrfStates) (config : ProofCycleConfig) (deal : StorageDeal)
    (epoch currentEpoch : UInt64) (indices : List UInt64) : Prop :=
  (∃ seed, ProofCycleManager.challengeSeed blake3 states config deal epoch currentEpoch = .ok seed ∧
    indices = ProofCycleManager.challengeIndices config seed (ProofCycleManager.numChunks deal)) ∧
  ¬(ProofCycleManager.numChunks deal = 0 ∧ config.chunksPerChallenge ≠ 0)

def challenged (manager : ProofCycleManager) (dealId : UInt64) (indices : List UInt64) : ProofCycleManager :=
  { manager with pendingChallenges := manager.pendingChallenges.insert dealId indices }

theorem generateChallenge_ends (active : deal.status = .active) :
    Ends (ProofCycleManager.generateChallenge blake3 states deal epoch currentEpoch) state
      (fun indices next => Challengeable blake3 states state.manager.config deal epoch currentEpoch indices ∧
        next = ⟨challenged state.manager deal.dealId indices, state.ledger⟩)
      fun _ next => (∀ indices, ¬Challengeable blake3 states state.manager.config deal epoch currentEpoch indices) ∧
        next = state := by
  unfold ProofCycleManager.generateChallenge
  rw [active]
  simp only [ne_eq, not_true_eq_false, if_false]
  refine ends_getManager (ends_checked (fun seed seeded => ?_) fun error failed => ⟨fun indices possible => ?_, rfl⟩)
  · refine ends_ite (fun bad => ?_) fun chunked => ?_
    · exact ⟨fun indices possible => possible.2 bad, rfl⟩
    · exact ⟨⟨⟨seed, seeded, rfl⟩, chunked⟩, rfl⟩
  · obtain ⟨seed, impossible, -⟩ := possible.1
    cases failed.symm.trans impossible

variable {proof : StorageProof}

def Verifies (blake3 : List UInt8 → Bytes32) (config : ProofCycleConfig) (deal : StorageDeal) (proof : StorageProof)
    (currentEpoch : UInt64) : Prop :=
  ProofCycleManager.validateProofTiming config proof currentEpoch = .ok () ∧
    ProofCycleManager.verifyMerkleProofs blake3 proof proof.challengeIndices deal = .ok ()

theorem managerSubmit_ends
    (pending : state.manager.pendingChallenges.lookup deal.dealId = some proof.challengeIndices) :
    Ends (ProofCycleManager.submitProof (metered ledger) scale blake3 proof deal currentEpoch) state
      (fun _ next => Verifies blake3 state.manager.config deal proof currentEpoch ∧
        Releasable scale ledger state.manager deal state.ledger.inner ∧
        next.manager.config = state.manager.config ∧
        releasedFor next.manager = Function.update (releasedFor state.manager) deal.dealId
          ⟨(releasedFor state.manager deal.dealId).baseUnits + instalment scale state.manager.config deal⟩ ∧
        storedProofs next.manager = Function.update (storedProofs state.manager) deal.dealId
          (storedProofs state.manager deal.dealId ++ [proof]) ∧
        next.ledger.credited = state.ledger.credited + (instalment scale state.manager.config deal).toNat)
      fun _ next => (Verifies blake3 state.manager.config deal proof currentEpoch →
          ¬Releasable scale ledger state.manager deal state.ledger.inner) ∧
        next.manager.config = state.manager.config ∧ releasedFor next.manager = releasedFor state.manager ∧
        storedProofs next.manager = storedProofs state.manager ∧
        next.ledger.credited = state.ledger.credited := by
  unfold ProofCycleManager.submitProof
  refine ends_getManager (ends_checked (fun _ timely => ?_) fun _ late => ⟨fun verifies => ?_, rfl, rfl, rfl, rfl⟩)
  · refine ends_getManager ?_
    rw [pending]
    dsimp only
    rw [verifyChallengeAuthenticity_self]
    refine ends_checked (fun _ _ => ?_) nofun
    refine ends_checked (fun _ verified => ?_) fun _ failed => ⟨fun verifies => ?_, rfl, rfl, rfl, rfl⟩
    · refine ends_modify (releasePayment_ends.bind ?_ ?_)
      · rintro _ ⟨manager, ledger⟩ ⟨releasable, same, credited⟩
        obtain rfl : manager = _ := same
        refine ⟨⟨timely, verified⟩, releasable, rfl, ?_, ?_, credited⟩
        · refine Eq.trans (releasedFor_setReleased deal.dealId _ (opened state.manager deal.dealId)) ?_
          rw [releasedFor_opened]
          rfl
        · funext other
          show ((state.manager.proofs.insert deal.dealId _).lookup other).getD [] = _
          rw [HashMap.lookup_insert_eq, Function.update_apply]
          split
          · rfl
          · rfl
      · rintro _ ⟨manager, ledger⟩ ⟨unreleasable, same, credited⟩
        obtain rfl : manager = _ := same
        exact ⟨fun _ => unreleasable, rfl, releasedFor_opened state.manager deal.dealId, rfl, credited⟩
    · cases failed.symm.trans verifies.2
  · cases late.symm.trans verifies.1

end

structure MarketView where
  deals : UInt64 → Option StorageDeal
  nextDealId : UInt64
  epoch : UInt64
  config : ProofCycleConfig
  released : UInt64 → AdicAmount
  proofs : UInt64 → List StorageProof

section

variable {L α : Type}

def viewOf (state : Funded StorageMarketCoordinator (Metered L)) : MarketView where
  deals := state.manager.activeDeals.lookup
  nextDealId := state.manager.jitcaCompiler.nextDealId
  epoch := state.manager.currentEpoch
  config := state.manager.proofManager.config
  released := releasedFor state.manager.proofManager
  proofs := storedProofs state.manager.proofManager

structure Accepted (scale : Scale) (ledger : Ledger L) (blake3 : List UInt8 → Bytes32) (states : VrfStates)
    (state : Funded StorageMarketCoordinator (Metered L)) (proof : StorageProof) (deal : StorageDeal) : Prop where
  held : state.manager.activeDeals.lookup proof.dealId = some deal
  active : deal.status = .active
  challenged : Challengeable blake3 states state.manager.proofManager.config deal proof.proofEpoch
    state.manager.currentEpoch proof.challengeIndices
  verifies : Verifies blake3 state.manager.proofManager.config deal proof state.manager.currentEpoch
  releasable : Releasable scale ledger state.manager.proofManager deal state.ledger.inner

variable {ledger : Ledger L} {scale : Scale} {blake3 : List UInt8 → Bytes32} {states : VrfStates} {proof : StorageProof}
  {dealId : UInt64} {state : Funded StorageMarketCoordinator (Metered L)}

theorem onProofManager_ends {call : MarketCall ProofCycleManager (Metered L) α}
    {done : α → Funded ProofCycleManager (Metered L) → Prop}
    {failed : StorageMarketError → Funded ProofCycleManager (Metered L) → Prop}
    (ends : Ends call ⟨state.manager.proofManager, state.ledger⟩ done failed) :
    Ends (StorageMarketCoordinator.onProofManager call) state
      (fun value next => ∃ inner, done value inner ∧
        next = ⟨{ state.manager with proofManager := inner.manager }, inner.ledger⟩)
      fun error next => ∃ inner, failed error inner ∧
        next = ⟨{ state.manager with proofManager := inner.manager }, inner.ledger⟩ := by
  unfold Ends StorageMarketCoordinator.onProofManager
  cases called : call ⟨state.manager.proofManager, state.ledger⟩ with
  | ok value inner => exact ⟨inner, ends.ok called, rfl⟩
  | error error inner => exact ⟨inner, ends.error called, rfl⟩

theorem getDeal_ends {rest : StorageDeal → MarketCall StorageMarketCoordinator (Metered L) α}
    {done : α → Funded StorageMarketCoordinator (Metered L) → Prop}
    {failed : StorageMarketError → Funded StorageMarketCoordinator (Metered L) → Prop}
    (held : ∀ deal, state.manager.activeDeals.lookup dealId = some deal → Ends (rest deal) state done failed)
    (missing : state.manager.activeDeals.lookup dealId = none → failed (.dealNotFound dealId) state) :
    Ends (StorageMarketCoordinator.getDeal dealId >>= rest) state done failed := by
  unfold StorageMarketCoordinator.getDeal
  rw [bind_assoc]
  refine ends_getManager ?_
  cases found : state.manager.activeDeals.lookup dealId with
  | none => exact missing found
  | some deal => exact held deal found

theorem submitProof_ends :
    Ends (StorageMarketCoordinator.submitProof (metered ledger) scale blake3 states proof) state
      (fun _ next => ∃ deal, Accepted scale ledger blake3 states state proof deal ∧
        viewOf next = { viewOf state with
          released := Function.update (viewOf state).released deal.dealId
            ⟨((viewOf state).released deal.dealId).baseUnits + instalment scale (viewOf state).config deal⟩
          proofs := Function.update (viewOf state).proofs deal.dealId ((viewOf state).proofs deal.dealId ++ [proof]) } ∧
        next.ledger.credited = state.ledger.credited + (instalment scale (viewOf state).config deal).toNat)
      fun _ next => (∀ deal, ¬Accepted scale ledger blake3 states state proof deal) ∧ viewOf next = viewOf state ∧
        next.ledger.credited = state.ledger.credited := by
  unfold StorageMarketCoordinator.submitProof
  refine ends_getManager (getDeal_ends (fun deal held => ?_) fun missing => ⟨fun deal accepted => ?_, rfl, rfl⟩)
  · have only : ¬Accepted scale ledger blake3 states state proof deal →
        ∀ other, ¬Accepted scale ledger blake3 states state proof other := by
      intro refused other accepted
      obtain rfl : other = deal := Option.some.inj (accepted.held.symm.trans held)
      exact refused accepted
    by_cases active : deal.status = .active
    · simp only [active, ne_eq, not_true_eq_false, if_false]
      refine (onProofManager_ends (generateChallenge_ends active)).bind ?_ ?_
      · rintro indices _ ⟨_, ⟨challengeable, rfl⟩, rfl⟩
        refine ends_ite (fun different => ⟨only fun accepted => ?_, rfl, rfl⟩) fun same => ?_
        · obtain ⟨seed, seeded, answered⟩ := accepted.challenged.1
          obtain ⟨otherSeed, otherSeeded, generated⟩ := challengeable.1
          rw [Except.ok.inj (seeded.symm.trans otherSeeded)] at answered
          exact different (answered.trans generated.symm)
        · obtain rfl : proof.challengeIndices = indices := not_not.mp same
          refine (onProofManager_ends (managerSubmit_ends (AList.lookup_insert _))).weaken ?_ ?_
          · rintro _ _ ⟨last, ⟨verifies, releasable, config, released, proofs, credited⟩, rfl⟩
            refine ⟨deal, ⟨held, active, challengeable, verifies, releasable⟩, ?_, credited⟩
            unfold viewOf
            dsimp only
            rw [config, released, proofs]
            rfl
          · rintro _ _ ⟨last, ⟨unreleasable, config, released, proofs, credited⟩, rfl⟩
            refine ⟨only fun accepted => unreleasable accepted.verifies accepted.releasable, ?_, credited⟩
            unfold viewOf
            dsimp only
            rw [config, released, proofs]
            rfl
      · rintro _ _ ⟨_, ⟨unchallengeable, rfl⟩, rfl⟩
        exact ⟨only fun accepted => unchallengeable _ accepted.challenged, rfl, rfl⟩
    · simp only [active, ne_eq, not_false_eq_true, if_true]
      exact ⟨only fun accepted => active accepted.active, rfl, rfl⟩
  · cases missing.symm.trans accepted.held

end

def Elapsed (deal : StorageDeal) (currentEpoch : UInt64) : Prop :=
  ∀ startEpoch, deal.startEpoch = some startEpoch →
    ¬saturatingSub currentEpoch startEpoch < deal.dealDurationEpochs

def remaining (released : AdicAmount) (deal : StorageDeal) : UInt64 :=
  saturatingSub deal.clientPaymentEscrow.baseUnits released.baseUnits

def pastCredits : StorageMarketError → Bool
  | .invalidStateTransition .. => true
  | _ => false

section

variable {L M α : Type} {ledger : Ledger L} {deal : StorageDeal} {currentEpoch : UInt64} {error : StorageMarketError}
  {value : α}

theorem transitionTo_ok {newStatus : StorageDealStatus} {result : StorageDeal}
    (moved : deal.transitionTo newStatus = .ok result) :
    deal.status.canTransitionTo newStatus ∧ result = { deal with status := newStatus } := by
  unfold StorageDeal.transitionTo at moved
  split at moved
  · next can =>
    cases moved
    exact ⟨can, rfl⟩
  · cases moved

theorem transitionTo_error {newStatus : StorageDealStatus} (failed : deal.transitionTo newStatus = .error error) :
    error = .invalidStateTransition deal.status.debug newStatus.debug := by
  unfold StorageDeal.transitionTo at failed
  split at failed
  · cases failed
  · cases failed
    rfl

def firstCredit (released : AdicAmount) (deal : StorageDeal) : AdicAmount :=
  if remaining released deal > 0 then ⟨remaining released deal⟩ else deal.providerCollateral

def PaysOut {L : Type} (ledger : Ledger L) (deal : StorageDeal) (currentEpoch : UInt64) (released : AdicAmount)
    (books : L) : Prop :=
  Elapsed deal currentEpoch ∧ succeeds (ledger.credit deal.provider (firstCredit released deal)) books

structure Completes (pays : Prop) (deal : StorageDeal) (released : AdicAmount) (returned : Bool) (gained : Nat) :
    Prop where
  bounded : gained ≤ (remaining released deal).toNat +
    if returned then deal.providerCollateral.baseUnits.toNat else 0
  idle : ¬pays → gained = 0 ∧ returned = false

variable {state next : Funded ProofCycleManager (Metered L)}

def payRemainder (ledger : Ledger L) (deal : StorageDeal) (left : UInt64) : MarketCall ProofCycleManager L Unit :=
  if left > 0 then onLedger (ledger.credit deal.provider ⟨left⟩) else pure ()

def payOut (ledger : Ledger L) (deal : StorageDeal) : MarketCall ProofCycleManager L StorageDeal := do
  payRemainder ledger deal (remaining (releasedFor (← getManager) deal.dealId) deal)
  onLedger (ledger.credit deal.provider deal.providerCollateral)
  checked (deal.transitionTo .completed)

theorem payRemainder_bind {left : UInt64} (rest : MarketCall ProofCycleManager L α)
    (state : Funded ProofCycleManager L) :
    (payRemainder ledger deal left >>= fun _ => rest) state =
      (if left > 0 then onLedger (ledger.credit deal.provider ⟨left⟩) >>= fun _ => rest else rest) state := by
  unfold payRemainder
  split
  · rfl
  · rfl

theorem completeDeal_eq (ledger : Ledger L) (state : Funded ProofCycleManager L) :
    ProofCycleManager.completeDeal ledger deal currentEpoch state =
      match deal.startEpoch with
      | some startEpoch =>
        if saturatingSub currentEpoch startEpoch < deal.dealDurationEpochs then
          .error (.other "Deal duration not yet elapsed") state
        else payOut ledger deal state
      | none => payOut ledger deal state := by
  unfold ProofCycleManager.completeDeal payOut
  rw [getManager_bind, payRemainder_bind]
  cases deal.startEpoch with
  | none => rfl
  | some startEpoch =>
    dsimp only
    split
    · rfl
    · rfl

theorem completeDeal_elapsed (elapsed : Elapsed deal currentEpoch) (state : Funded ProofCycleManager L) :
    ProofCycleManager.completeDeal ledger deal currentEpoch state = payOut ledger deal state := by
  rw [completeDeal_eq]
  cases started : deal.startEpoch with
  | none => rfl
  | some startEpoch => exact if_neg (elapsed startEpoch started)

theorem completeDeal_early (early : ¬Elapsed deal currentEpoch) (state : Funded ProofCycleManager L) :
    ProofCycleManager.completeDeal ledger deal currentEpoch state =
      .error (.other "Deal duration not yet elapsed") state := by
  rw [completeDeal_eq]
  cases started : deal.startEpoch with
  | none => exact absurd (fun _ impossible => by rw [started] at impossible; cases impossible) early
  | some startEpoch =>
    apply if_pos
    by_contra long
    apply early
    intro other same
    rw [started] at same
    cases same
    exact long

theorem returnCollateral_ends : Ends (onLedger ((metered ledger).credit deal.provider deal.providerCollateral) >>=
      fun _ => checked (deal.transitionTo .completed)) state
    (fun completed next => succeeds (ledger.credit deal.provider deal.providerCollateral) state.ledger.inner ∧
      next.manager = state.manager ∧ completed = { deal with status := .completed } ∧
      next.ledger.credited = state.ledger.credited + deal.providerCollateral.baseUnits.toNat)
    fun error next => next.manager = state.manager ∧
      (¬succeeds (ledger.credit deal.provider deal.providerCollateral) state.ledger.inner ∧
          next.ledger.credited = state.ledger.credited ∧ pastCredits error = false ∨
        succeeds (ledger.credit deal.provider deal.providerCollateral) state.ledger.inner ∧
          next.ledger.credited = state.ledger.credited + deal.providerCollateral.baseUnits.toNat ∧
          pastCredits error = true) := by
  refine credit_ends.bind ?_ ?_
  · rintro _ middle ⟨accepted, manager, -, credited⟩
    refine checked_ends.weaken ?_ ?_
    · rintro completed _ ⟨moved, rfl⟩
      exact ⟨accepted, manager, (transitionTo_ok moved).2, credited⟩
    · rintro error _ ⟨failed, rfl⟩
      exact ⟨manager, Or.inr ⟨accepted, credited, congrArg pastCredits (transitionTo_error failed)⟩⟩
  · rintro _ next ⟨refused, ⟨cause, rfl⟩, manager, -, credited⟩
    exact ⟨manager, Or.inl ⟨refused, credited, rfl⟩⟩

def PaidOut (ledger : Ledger L) (deal : StorageDeal) (currentEpoch : UInt64)
    (state next : Funded ProofCycleManager (Metered L)) (returned : Bool) : Prop :=
  next.manager = state.manager ∧ ∃ gained, next.ledger.credited = state.ledger.credited + gained ∧
    Completes (PaysOut ledger deal currentEpoch (releasedFor state.manager deal.dealId) state.ledger.inner) deal
      (releasedFor state.manager deal.dealId) returned gained

theorem payOut_ends (elapsed : Elapsed deal currentEpoch) : Ends (payOut (metered ledger) deal) state
    (fun completed next => completed = { deal with status := .completed } ∧
      PaidOut ledger deal currentEpoch state next true)
    fun error next => PaidOut ledger deal currentEpoch state next (pastCredits error) := by
  unfold payOut payRemainder PaidOut PaysOut firstCredit
  refine ends_getManager ?_
  by_cases left : remaining (releasedFor state.manager deal.dealId) deal > 0
  · rw [if_pos left, if_pos left]
    refine credit_ends.bind ?_ ?_
    · rintro _ middle ⟨accepted, manager, -, credited⟩
      refine returnCollateral_ends.weaken ?_ ?_
      · rintro completed next ⟨-, same, rfl, returned⟩
        rw [credited, Nat.add_assoc] at returned
        exact ⟨rfl, same.trans manager, _, returned, le_refl _, fun idle => absurd ⟨elapsed, accepted⟩ idle⟩
      · rintro error next ⟨same, ⟨-, returned, past⟩ | ⟨-, returned, past⟩⟩
        · rw [credited] at returned
          exact ⟨same.trans manager, _, returned, Nat.le_add_right _ _, fun idle => absurd ⟨elapsed, accepted⟩ idle⟩
        · rw [credited, Nat.add_assoc] at returned
          rw [past]
          exact ⟨same.trans manager, _, returned, le_refl _, fun idle => absurd ⟨elapsed, accepted⟩ idle⟩
    · rintro _ next ⟨refused, ⟨cause, rfl⟩, manager, -, credited⟩
      exact ⟨manager, 0, credited, Nat.zero_le _, fun _ => ⟨rfl, rfl⟩⟩
  · rw [if_neg left, if_neg left]
    refine returnCollateral_ends.weaken ?_ ?_
    · rintro completed next ⟨accepted, same, rfl, returned⟩
      exact ⟨rfl, same, _, returned, Nat.le_add_left _ _, fun idle => absurd ⟨elapsed, accepted⟩ idle⟩
    · rintro error next ⟨same, ⟨refused, returned, past⟩ | ⟨accepted, returned, past⟩⟩
      · exact ⟨same, 0, returned, Nat.zero_le _, fun _ => ⟨rfl, past⟩⟩
      · rw [past]
        exact ⟨same, _, returned, Nat.le_add_left _ _, fun idle => absurd ⟨elapsed, accepted⟩ idle⟩

theorem managerComplete_ends : Ends (ProofCycleManager.completeDeal (metered ledger) deal currentEpoch) state
    (fun completed next => completed = { deal with status := .completed } ∧
      PaidOut ledger deal currentEpoch state next true)
    fun error next => PaidOut ledger deal currentEpoch state next (pastCredits error) := by
  unfold Ends
  by_cases elapsed : Elapsed deal currentEpoch
  · rw [completeDeal_elapsed elapsed]
    exact payOut_ends elapsed
  · rw [completeDeal_early elapsed]
    exact ⟨rfl, 0, rfl, Nat.zero_le _, fun _ => ⟨rfl, rfl⟩⟩

end

section

variable {L α : Type} {ledger : Ledger L} {scale : Scale} {deal : StorageDeal} {dealId : UInt64}
  {error : StorageMarketError} {value : α} {state next : Funded StorageMarketCoordinator (Metered L)}

theorem update_insert (table : HashMap.Table UInt64 StorageDeal) (dealId : UInt64) (deal : StorageDeal) :
    (table.insert dealId deal).lookup = Function.update table.lookup dealId (some deal) := by
  funext other
  rw [HashMap.lookup_insert_eq, Function.update_apply]

theorem viewOf_putDeal (dealId : UInt64) (deal : StorageDeal) (coordinator : StorageMarketCoordinator)
    (ledger : Metered L) :
    viewOf ⟨{ coordinator with activeDeals := coordinator.activeDeals.insert dealId deal }, ledger⟩ =
      { viewOf ⟨coordinator, ledger⟩ with
        deals := Function.update (viewOf ⟨coordinator, ledger⟩).deals dealId (some deal) } := by
  unfold viewOf
  dsimp only
  rw [update_insert]

theorem completeDeal_ends : Ends (StorageMarketCoordinator.completeDeal (metered ledger) dealId) state
    (fun _ next => ∃ deal, (viewOf state).deals dealId = some deal ∧
      viewOf next = { viewOf state with
        deals := Function.update (viewOf state).deals dealId (some { deal with status := .completed }) } ∧
      ∃ gained, next.ledger.credited = state.ledger.credited + gained ∧
        Completes (PaysOut ledger deal (viewOf state).epoch ((viewOf state).released deal.dealId) state.ledger.inner)
          deal ((viewOf state).released deal.dealId) true gained)
    fun error next => viewOf next = viewOf state ∧ ∃ gained,
      next.ledger.credited = state.ledger.credited + gained ∧
        (((viewOf state).deals dealId = none ∧ gained = 0 ∧ pastCredits error = false) ∨
          ∃ deal, (viewOf state).deals dealId = some deal ∧
            Completes (PaysOut ledger deal (viewOf state).epoch ((viewOf state).released deal.dealId)
              state.ledger.inner) deal ((viewOf state).released deal.dealId) (pastCredits error) gained) := by
  unfold StorageMarketCoordinator.completeDeal
  refine ends_getManager (getDeal_ends (fun deal held => ?_) fun missing => ⟨rfl, 0, rfl, Or.inl ⟨missing, rfl, rfl⟩⟩)
  refine (onProofManager_ends managerComplete_ends).bind ?_ ?_
  · rintro _ _ ⟨⟨manager, ledger⟩, ⟨rfl, same, gained, credited, bounds⟩, rfl⟩
    obtain rfl : manager = state.manager.proofManager := same
    exact ⟨deal, held, viewOf_putDeal _ _ _ _, gained, credited, bounds⟩
  · rintro error _ ⟨⟨manager, ledger⟩, ⟨same, gained, credited, bounds⟩, rfl⟩
    obtain rfl : manager = state.manager.proofManager := same
    exact ⟨rfl, gained, credited, Or.inr ⟨deal, held, bounds⟩⟩

section

variable {done : α → Funded StorageMarketCoordinator (Metered L) → Prop}
  {failed : StorageMarketError → Funded StorageMarketCoordinator (Metered L) → Prop}

theorem onJitcaCompiler_ends {call : MarketCall JitcaCompiler (Metered L) α}
    {done : α → Funded JitcaCompiler (Metered L) → Prop}
    {failed : StorageMarketError → Funded JitcaCompiler (Metered L) → Prop}
    (ends : Ends call ⟨state.manager.jitcaCompiler, state.ledger⟩ done failed) :
    Ends (StorageMarketCoordinator.onJitcaCompiler call) state
      (fun value next => ∃ inner, done value inner ∧
        next = ⟨{ state.manager with jitcaCompiler := inner.manager }, inner.ledger⟩)
      fun error next => ∃ inner, failed error inner ∧
        next = ⟨{ state.manager with jitcaCompiler := inner.manager }, inner.ledger⟩ := by
  unfold Ends StorageMarketCoordinator.onJitcaCompiler
  cases called : call ⟨state.manager.jitcaCompiler, state.ledger⟩ with
  | ok value inner => exact ⟨inner, ends.ok called, rfl⟩
  | error error inner => exact ⟨inner, ends.error called, rfl⟩

theorem getIntent_ends {intentId : Hash} {rest : StorageDealIntent → MarketCall StorageMarketCoordinator (Metered L) α}
    (found : ∀ intent, Ends (rest intent) state done failed) (missing : ∀ error, failed error state) :
    Ends (StorageMarketCoordinator.getIntent intentId >>= rest) state done failed := by
  unfold StorageMarketCoordinator.getIntent
  rw [bind_assoc]
  refine ends_getManager ?_
  cases state.manager.intentManager.intents.lookup intentId with
  | none => exact missing _
  | some intent => exact found intent

theorem getAcceptance_ends {acceptanceId : Hash}
    {rest : ProviderAcceptance → MarketCall StorageMarketCoordinator (Metered L) α}
    (found : ∀ acceptance, Ends (rest acceptance) state done failed) (missing : ∀ error, failed error state) :
    Ends (StorageMarketCoordinator.getAcceptance acceptanceId >>= rest) state done failed := by
  unfold StorageMarketCoordinator.getAcceptance
  rw [bind_assoc]
  refine ends_getManager ?_
  cases state.manager.intentManager.acceptances.lookup acceptanceId with
  | none => exact missing _
  | some acceptance => exact found acceptance

end

theorem compileDeal_ends {intentId acceptanceId : Hash} :
    Ends (StorageMarketCoordinator.compileDeal (metered ledger) scale intentId acceptanceId) state
      (fun _ next => ∃ deal, deal.dealId = (viewOf state).nextDealId ∧ deal.status = .pendingActivation ∧
        deal.startEpoch = none ∧
        viewOf next = { viewOf state with
          deals := Function.update (viewOf state).deals deal.dealId (some deal)
          nextDealId := (viewOf state).nextDealId + 1 } ∧
        next.ledger.credited = state.ledger.credited)
      fun _ next => viewOf next = viewOf state ∧ next.ledger.credited = state.ledger.credited := by
  unfold StorageMarketCoordinator.compileDeal
  refine ends_getManager (getIntent_ends (fun intent => ?_) fun _ => ⟨rfl, rfl⟩)
  refine getAcceptance_ends (fun acceptance => ?_) fun _ => ⟨rfl, rfl⟩
  refine (onJitcaCompiler_ends compile_ends).bind ?_ ?_
  · rintro deal _ ⟨inner, ⟨same, -, nextDealId, -, credited⟩, rfl⟩
    have facts : deal.dealId = state.manager.jitcaCompiler.nextDealId ∧ deal.status = .pendingActivation ∧
        deal.startEpoch = none := by
      rw [same]
      exact ⟨rfl, rfl, rfl⟩
    refine ⟨deal, facts.1, facts.2.1, facts.2.2, Eq.trans (viewOf_putDeal _ _ _ _) ?_, credited⟩
    unfold viewOf
    dsimp only
    rw [nextDealId]
  · rintro _ _ ⟨inner, ⟨manager, credited⟩, rfl⟩
    refine ⟨?_, credited⟩
    unfold viewOf
    dsimp only
    rw [manager]

variable {order : HashMap.Order}

theorem activated_nextDealId {currentEpoch : UInt64} {compiler after : JitcaCompiler}
    (activates : compiler.activateDeal order dealId currentEpoch = .ok after) :
    after.nextDealId = compiler.nextDealId := by
  obtain ⟨_, _, -, -, -, rfl⟩ := activateDeal_ok activates
  rfl

def rooted (deal : StorageDeal) (activation : DealActivation) : StorageDeal :=
  { deal with proofMerkleRoot := some activation.dataMerkleRoot }

def withDeal (coordinator : StorageMarketCoordinator) (dealId : UInt64) (deal : StorageDeal) :
    StorageMarketCoordinator :=
  { coordinator with activeDeals := coordinator.activeDeals.insert dealId deal }

theorem activateDeal_run {L : Type} {state : Funded StorageMarketCoordinator L}
    {activation : DealActivation} : StorageMarketCoordinator.activateDeal order dealId activation state =
    match state.manager.activeDeals.lookup dealId with
    | none => .error (.dealNotFound dealId) state
    | some deal =>
      if deal.status = .pendingActivation then
        match state.manager.jitcaCompiler.activateDeal order dealId state.manager.currentEpoch with
        | .error error => .error error ⟨withDeal state.manager dealId (rooted deal activation), state.ledger⟩
        | .ok compiler => .ok () ⟨withDeal (withDeal { state.manager with jitcaCompiler := compiler } dealId
            (rooted deal activation)) dealId { rooted deal activation with
              status := .active
              startEpoch := some state.manager.currentEpoch }, state.ledger⟩
      else .error (.invalidStateTransition deal.status.debug "Active") state := by
  unfold StorageMarketCoordinator.activateDeal StorageMarketCoordinator.getDeal
  rw [getManager_bind, bind_assoc, getManager_bind]
  cases found : state.manager.activeDeals.lookup dealId with
  | none => rfl
  | some deal =>
    rw [pure_bind]
    dsimp only
    by_cases pending : deal.status = .pendingActivation
    · have moved : (rooted deal activation).transitionTo .active =
          .ok { rooted deal activation with status := .active } := by
        unfold StorageDeal.transitionTo rooted
        dsimp only
        rw [pending]
        rfl
      rw [if_neg (not_not.mpr pending), if_pos pending]
      change (checked (state.manager.jitcaCompiler.activateDeal order dealId state.manager.currentEpoch) >>= _)
        ⟨withDeal state.manager dealId (rooted deal activation), state.ledger⟩ = _
      cases state.manager.jitcaCompiler.activateDeal order dealId state.manager.currentEpoch with
      | error error => rfl
      | ok compiler =>
        change (checked ((rooted deal activation).transitionTo .active) >>= _) _ = _
        rw [moved]
        rfl
    · rw [if_pos pending, if_neg pending]
      rfl

theorem marketActivate_ends {activation : DealActivation} :
    Ends (StorageMarketCoordinator.activateDeal order dealId activation) state
      (fun _ next => ∃ deal, (viewOf state).deals dealId = some deal ∧ deal.status = .pendingActivation ∧
        viewOf next = { viewOf state with
          deals := Function.update (viewOf state).deals dealId
            (some { rooted deal activation with status := .active, startEpoch := some (viewOf state).epoch }) } ∧
        next.ledger = state.ledger)
      fun _ next => (viewOf next = viewOf state ∨
        ∃ deal, (viewOf state).deals dealId = some deal ∧ deal.status = .pendingActivation ∧
          viewOf next = { viewOf state with
            deals := Function.update (viewOf state).deals dealId (some (rooted deal activation)) }) ∧
        next.ledger = state.ledger := by
  unfold Ends
  rw [activateDeal_run]
  cases held : state.manager.activeDeals.lookup dealId with
  | none => exact ⟨Or.inl rfl, rfl⟩
  | some deal =>
    dsimp only
    by_cases pending : deal.status = .pendingActivation
    · rw [if_pos pending]
      cases activates : state.manager.jitcaCompiler.activateDeal order dealId state.manager.currentEpoch with
      | error error => exact ⟨Or.inr ⟨deal, held, pending, viewOf_putDeal _ _ _ _⟩, rfl⟩
      | ok compiler =>
        refine ⟨deal, held, pending, Eq.trans (viewOf_putDeal _ _ _ _) ?_, rfl⟩
        have sameId := activated_nextDealId activates
        unfold viewOf withDeal
        dsimp only at sameId ⊢
        rw [sameId, update_insert, Function.update_idem]
    · rw [if_neg pending]
      exact ⟨Or.inl rfl, rfl⟩

end

structure Expires (before after : MarketView) : Prop where
  deals : ∀ dealId, after.deals dealId = before.deals dealId ∨ ∃ deal, before.deals dealId = some deal ∧
    deal.status = .active ∧ after.deals dealId = some { deal with status := .failed }
  others : after = { before with deals := after.deals }

section

variable {L : Type} {ledger : Ledger L} {scale : Scale} {deal : StorageDeal} {dealId currentEpoch : UInt64}
  {error : StorageMarketError}

theorem Expires.refl (view : MarketView) : Expires view view := ⟨fun _ => Or.inl rfl, rfl⟩

theorem Expires.trans {first second third : MarketView} (earlier : Expires first second)
    (later : Expires second third) : Expires first third := by
  refine ⟨fun dealId => ?_, ?_⟩
  · rcases earlier.deals dealId with same | ⟨deal, held, active, failed⟩
    · rw [← same]
      exact later.deals dealId
    · rcases later.deals dealId with same | ⟨other, held', active', -⟩
      · rw [same]
        exact Or.inr ⟨deal, held, active, failed⟩
      · rw [failed] at held'
        cases held'
        cases active'
  · have first_eq := earlier.others
    have second_eq := later.others
    rw [first_eq] at second_eq
    exact second_eq

theorem checkMissedProofs_ends {state : Funded ProofCycleManager (Metered L)} :
    Ends (ProofCycleManager.checkMissedProofs (metered ledger) scale deal currentEpoch) state
      (fun checkedDeal next => (checkedDeal = deal ∨ checkedDeal = { deal with status := .failed }) ∧
        next.manager = state.manager ∧ next.ledger.credited = state.ledger.credited)
      fun _ next => next.manager = state.manager ∧ next.ledger.credited = state.ledger.credited := by
  unfold ProofCycleManager.checkMissedProofs
  cases started : deal.startEpoch with
  | none => exact ⟨Or.inl rfl, rfl, rfl⟩
  | some startEpoch =>
    refine ends_ite (fun _ => ⟨rfl, rfl⟩) fun _ => ends_getManager (ends_ite (fun _ => ?_) fun _ => ?_)
    · refine ends_ite (fun _ => ?_) fun _ => ⟨Or.inl rfl, rfl, rfl⟩
      refine (transfer_ends : Ends (ProofCycleManager.slashProvider (metered ledger) scale deal) state _ _).bind ?_ ?_
      · rintro _ _ ⟨manager, -, credited⟩
        refine checked_ends.weaken ?_ ?_
        · rintro checkedDeal _ ⟨moved, rfl⟩
          have same := (transitionTo_ok moved).2
          rw [started] at same
          exact ⟨Or.inr same, manager, credited⟩
        · rintro error _ ⟨-, rfl⟩
          exact ⟨manager, credited⟩
      · rintro _ _ ⟨manager, -, credited⟩
        exact ⟨manager, credited⟩
    · exact ⟨Or.inl rfl, rfl, rfl⟩

variable {state : Funded StorageMarketCoordinator (Metered L)} {slashedDeals : List UInt64}

structure ChecksDeadline (dealId : UInt64) (state next : Funded StorageMarketCoordinator (Metered L)) : Prop where
  expires : Expires (viewOf state) (viewOf next)
  others : ∀ other, other ≠ dealId → (viewOf next).deals other = (viewOf state).deals other
  credited : next.ledger.credited = state.ledger.credited

theorem orUnchanged_failed {call : MarketCall StorageMarketCoordinator L StorageDeal}
    {state next : Funded StorageMarketCoordinator L} (ran : call state = .error error next) :
    StorageMarketCoordinator.orUnchanged deal call state = .error .panicked next ∨
      StorageMarketCoordinator.orUnchanged deal call state = .ok deal next := by
  unfold StorageMarketCoordinator.orUnchanged
  rw [ran]
  cases error with
  | panicked => exact Or.inl rfl
  | _ => exact Or.inr rfl

theorem orUnchanged_effect (state : Funded StorageMarketCoordinator (Metered L)) :
    ∃ inner, inner.credited = state.ledger.credited ∧
      (StorageMarketCoordinator.orUnchanged deal (StorageMarketCoordinator.onProofManager
          (ProofCycleManager.checkMissedProofs (metered ledger) scale deal currentEpoch)) state =
          .error .panicked ⟨state.manager, inner⟩ ∨
        ∃ checkedDeal, (checkedDeal = deal ∨ checkedDeal = { deal with status := .failed }) ∧
          StorageMarketCoordinator.orUnchanged deal (StorageMarketCoordinator.onProofManager
            (ProofCycleManager.checkMissedProofs (metered ledger) scale deal currentEpoch)) state =
            .ok checkedDeal ⟨state.manager, inner⟩) := by
  cases checks : StorageMarketCoordinator.onProofManager
      (ProofCycleManager.checkMissedProofs (metered ledger) scale deal currentEpoch) state with
  | ok checkedDeal next =>
    obtain ⟨inner, ⟨moved, manager, credited⟩, rfl⟩ := (onProofManager_ends checkMissedProofs_ends).ok checks
    dsimp only at manager
    rw [manager] at checks
    refine ⟨inner.ledger, credited, Or.inr ⟨checkedDeal, moved, ?_⟩⟩
    unfold StorageMarketCoordinator.orUnchanged
    rw [checks]
  | error failed next =>
    obtain ⟨inner, ⟨manager, credited⟩, rfl⟩ := (onProofManager_ends checkMissedProofs_ends).error checks
    dsimp only at manager
    rw [manager] at checks
    refine ⟨inner.ledger, credited, ?_⟩
    rcases @orUnchanged_failed _ deal _ _ _ _ checks with panics | logs
    · exact Or.inl panics
    · exact Or.inr ⟨deal, Or.inl rfl, logs⟩

theorem expires_put {view : MarketView} {checkedDeal : StorageDeal} (held : view.deals dealId = some deal)
    (active : deal.status = .active) (moved : checkedDeal = deal ∨ checkedDeal = { deal with status := .failed }) :
    Expires view { view with deals := Function.update view.deals dealId (some checkedDeal) } := by
  refine ⟨fun other => ?_, rfl⟩
  dsimp only
  rw [Function.update_apply]
  by_cases here : other = dealId
  · rw [if_pos here, here]
    rcases moved with rfl | rfl
    · exact Or.inl held.symm
    · exact Or.inr ⟨deal, held, active, rfl⟩
  · rw [if_neg here]
    exact Or.inl rfl

theorem checkDeadline_effect (held : state.manager.activeDeals.lookup dealId = some deal) :
    ChecksDeadline dealId state (stateAfter (StorageMarketCoordinator.checkDeadline (metered ledger) scale currentEpoch
      slashedDeals (dealId, deal)) state) := by
  unfold StorageMarketCoordinator.checkDeadline
  dsimp only
  by_cases active : deal.status = .active
  · rw [if_pos active]
    obtain ⟨inner, credited, checks⟩ := @orUnchanged_effect _ ledger scale deal currentEpoch state
    rcases checks with panics | ⟨checkedDeal, moved, checks⟩
    · rw [stateAfter_error (Calls.bind_error panics)]
      exact ⟨.refl _, fun _ _ => rfl, credited⟩
    · unfold stateAfter
      rw [Calls.bind_ok checks]
      have seen := viewOf_putDeal dealId checkedDeal state.manager inner
      have expires := @expires_put deal dealId (viewOf state) checkedDeal held active moved
      refine ⟨seen ▸ expires, fun other different => ?_, credited⟩
      refine (congrFun (congrArg MarketView.deals seen) other).trans ?_
      exact Function.update_of_ne different _ _
  · rw [if_neg active]
    exact ⟨.refl _, fun _ _ => rfl, rfl⟩

theorem checkDeadlines_effect (entries : List (UInt64 × StorageDeal)) (nodup : (entries.map Prod.fst).Nodup)
    (state : Funded StorageMarketCoordinator (Metered L)) (slashedDeals : List UInt64)
    (held : ∀ entry ∈ entries, state.manager.activeDeals.lookup entry.1 = some entry.2) :
    Expires (viewOf state) (viewOf (stateAfter
        (entries.foldlM (StorageMarketCoordinator.checkDeadline (metered ledger) scale currentEpoch) slashedDeals)
        state)) ∧
      (stateAfter (entries.foldlM (StorageMarketCoordinator.checkDeadline (metered ledger) scale currentEpoch)
        slashedDeals) state).ledger.credited = state.ledger.credited := by
  induction entries generalizing state slashedDeals with
  | nil => exact ⟨.refl _, rfl⟩
  | cons entry entries ih =>
    rw [List.map_cons, List.nodup_cons] at nodup
    rw [List.forall_mem_cons] at held
    rw [List.foldlM_cons]
    have first := @checkDeadline_effect _ ledger scale entry.2 entry.1 currentEpoch state slashedDeals held.1
    cases checks : StorageMarketCoordinator.checkDeadline (metered ledger) scale currentEpoch slashedDeals entry
      state with
    | error failed next =>
      rw [stateAfter_error checks] at first
      rw [stateAfter_error (Calls.bind_error checks)]
      exact ⟨first.expires, first.credited⟩
    | ok slashed next =>
      rw [stateAfter_ok checks] at first
      have later := ih nodup.2 next slashed (by
        intro other member
        have different : other.1 ≠ entry.1 := fun same => nodup.1 (same ▸ List.mem_map_of_mem member)
        exact (first.others other.1 different).trans (held.2 other member))
      unfold stateAfter at later ⊢
      rw [Calls.bind_ok checks]
      exact ⟨first.expires.trans later.1, later.2.trans first.credited⟩

theorem checkProofDeadlines_effect (order : HashMap.Order) (state : Funded StorageMarketCoordinator (Metered L)) :
    Expires (viewOf state) (viewOf (stateAfter
        (StorageMarketCoordinator.checkProofDeadlines (metered ledger) scale order) state)) ∧
      (stateAfter (StorageMarketCoordinator.checkProofDeadlines (metered ledger) scale order) state).ledger.credited =
        state.ledger.credited := by
  have nodup : ((order.iterate (HashMap.pairs state.manager.activeDeals)).map Prod.fst).Nodup :=
    ((order.perm _).map Prod.fst).nodup_iff.mpr (HashMap.pairs_keys_nodup _)
  have held : ∀ entry ∈ order.iterate (HashMap.pairs state.manager.activeDeals),
      state.manager.activeDeals.lookup entry.1 = some entry.2 := by
    intro entry member
    exact HashMap.mem_pairs.mp (HashMap.Order.mem_iterate.mp member)
  have checks := @checkDeadlines_effect _ ledger scale state.manager.currentEpoch _ nodup state [] held
  unfold stateAfter at checks ⊢
  unfold StorageMarketCoordinator.checkProofDeadlines
  rw [getManager_bind]
  exact checks

end

end AdicProof.StorageMarket
