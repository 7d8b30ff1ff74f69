import AdicCore.StorageMarket.CoordinatorEffects

open AdicModel AdicModel.Economics AdicModel.StorageMarket Calls

namespace AdicProof.StorageMarket

inductive MarketStep (L : Type) where
  | compileDeal (ledger : Ledger L) (intentId acceptanceId : Hash)
  | advanceEpoch
  | activateDeal (order : HashMap.Order) (dealId : UInt64) (activation : DealActivation)
  | submitProof (ledger : Ledger L) (states : VrfStates) (proof : StorageProof)
  | checkProofDeadlines (ledger : Ledger L) (order : HashMap.Order)
  | completeDeal (ledger : Ledger L) (dealId : UInt64)

def MarketStep.deal {L : Type} : MarketStep L → Option UInt64
  | .submitProof _ _ proof => some proof.dealId
  | .completeDeal _ dealId => some dealId
  | _ => none

structure DealRecord where
  instalments : Nat
  completions : Nat
  collateralReturns : Nat
  proven : List (UInt64 × UInt64)

def DealRecord.empty : DealRecord := ⟨0, 0, 0, []⟩

def DealRecord.credited (record : DealRecord) : Nat := record.instalments + record.completions

structure Market (L : Type) where
  state : Funded StorageMarketCoordinator (Metered L)
  records : UInt64 → DealRecord

namespace Market

variable {L : Type} (scale : Scale) (blake3 : List UInt8 → Bytes32)

def new (intentManager : IntentManager) (jitcaConfig : JitcaConfig) (proofConfig : ProofCycleConfig)
    (ledger : Metered L) : Market L :=
  ⟨⟨.new intentManager (.new jitcaConfig) (.new proofConfig), ledger⟩, fun _ => .empty⟩

def gain (market : Market L) (after : Funded StorageMarketCoordinator (Metered L)) : Nat :=
  after.ledger.credited - market.state.ledger.credited

def record (market : Market L) (dealId : UInt64) (change : DealRecord → DealRecord) : UInt64 → DealRecord :=
  Function.update market.records dealId (change (market.records dealId))

def next (market : Market L) : MarketStep L → Market L
  | .compileDeal ledger intentId acceptanceId =>
    { market with
      state := stateAfter (StorageMarketCoordinator.compileDeal (metered ledger) scale intentId acceptanceId)
        market.state }
  | .advanceEpoch => { market with state := stateAfter StorageMarketCoordinator.advanceEpoch market.state }
  | .activateDeal order dealId activation =>
    { market with state := stateAfter (StorageMarketCoordinator.activateDeal order dealId activation) market.state }
  | .submitProof ledger states proof =>
    match StorageMarketCoordinator.submitProof (metered ledger) scale blake3 states proof market.state with
    | .ok _ after =>
      ⟨after, market.record proof.dealId fun record =>
        { record with
          instalments := record.instalments + market.gain after
          proven := record.proven ++ [(proof.proofEpoch, market.state.manager.currentEpoch)] }⟩
    | .error _ after =>
      ⟨after, market.record proof.dealId fun record =>
        { record with instalments := record.instalments + market.gain after }⟩
  | .checkProofDeadlines ledger order =>
    { market with
      state := stateAfter (StorageMarketCoordinator.checkProofDeadlines (metered ledger) scale order) market.state }
  | .completeDeal ledger dealId =>
    match StorageMarketCoordinator.completeDeal (metered ledger) dealId market.state with
    | .ok _ after =>
      ⟨after, market.record dealId fun record =>
        { record with
          completions := record.completions + market.gain after
          collateralReturns := record.collateralReturns + 1 }⟩
    | .error error after =>
      ⟨after, market.record dealId fun record =>
        { record with
          completions := record.completions + market.gain after
          collateralReturns := record.collateralReturns + if pastCredits error then 1 else 0 }⟩

abbrev view (market : Market L) : MarketView := viewOf market.state

def Same (market after : Market L) : Prop := after.view = market.view ∧ after.records = market.records

inductive Effect (market : Market L) : MarketStep L → Market L → Prop where
  | uncompiled {ledger : Ledger L} {intentId acceptanceId : Hash} {after : Market L}
      (fails : ¬succeeds (StorageMarketCoordinator.compileDeal (metered ledger) scale intentId acceptanceId)
        market.state) (same : market.Same after) :
      Effect market (.compileDeal ledger intentId acceptanceId) after
  | compiled {ledger : Ledger L} {intentId acceptanceId : Hash} {after : Market L} (deal : StorageDeal)
      (compiles : succeeds (StorageMarketCoordinator.compileDeal (metered ledger) scale intentId acceptanceId)
        market.state)
      (id : deal.dealId = market.view.nextDealId) (pending : deal.status = .pendingActivation)
      (unstarted : deal.startEpoch = none)
      (seen : after.view = { market.view with
        deals := Function.update market.view.deals deal.dealId (some deal)
        nextDealId := market.view.nextDealId + 1 })
      (records : after.records = market.records) :
      Effect market (.compileDeal ledger intentId acceptanceId) after
  | ticked {after : Market L} (seen : after.view = { market.view with epoch := market.view.epoch + 1 })
      (records : after.records = market.records) : Effect market .advanceEpoch after
  | unactivated {order : HashMap.Order} {dealId : UInt64} {activation : DealActivation} {after : Market L}
      (same : market.Same after) : Effect market (.activateDeal order dealId activation) after
  | rooted {order : HashMap.Order} {dealId : UInt64} {activation : DealActivation} {after : Market L}
      (deal : StorageDeal) (held : market.view.deals dealId = some deal) (pending : deal.status = .pendingActivation)
      (seen : after.view = { market.view with
        deals := Function.update market.view.deals dealId (some (rooted deal activation)) })
      (records : after.records = market.records) : Effect market (.activateDeal order dealId activation) after
  | activated {order : HashMap.Order} {dealId : UInt64} {activation : DealActivation} {after : Market L}
      (deal : StorageDeal) (held : market.view.deals dealId = some deal) (pending : deal.status = .pendingActivation)
      (seen : after.view = { market.view with
        deals := Function.update market.view.deals dealId
          (some { rooted deal activation with status := .active, startEpoch := some market.view.epoch }) })
      (records : after.records = market.records) : Effect market (.activateDeal order dealId activation) after
  | untaken {ledger : Ledger L} {states : VrfStates} {proof : StorageProof} {after : Market L}
      (none : ∀ deal, ¬Accepted scale ledger blake3 states market.state proof deal) (same : market.Same after) :
      Effect market (.submitProof ledger states proof) after
  | taken {ledger : Ledger L} {states : VrfStates} {proof : StorageProof} {after : Market L} (deal : StorageDeal)
      (accepted : Accepted scale ledger blake3 states market.state proof deal)
      (seen : after.view = { market.view with
        released := Function.update market.view.released deal.dealId
          ⟨(market.view.released deal.dealId).baseUnits + instalment scale market.view.config deal⟩
        proofs := Function.update market.view.proofs deal.dealId (market.view.proofs deal.dealId ++ [proof]) })
      (records : after.records = market.record proof.dealId fun record =>
        { record with
          instalments := record.instalments + (instalment scale market.view.config deal).toNat
          proven := record.proven ++ [(proof.proofEpoch, market.view.epoch)] }) :
      Effect market (.submitProof ledger states proof) after
  | checked {ledger : Ledger L} {order : HashMap.Order} {after : Market L} (expires : Expires market.view after.view)
      (records : after.records = market.records) : Effect market (.checkProofDeadlines ledger order) after
  | uncompleted {ledger : Ledger L} {dealId : UInt64} {after : Market L}
      (missing : market.view.deals dealId = none) (same : market.Same after) :
      Effect market (.completeDeal ledger dealId) after
  | completed {ledger : Ledger L} {dealId : UInt64} {after : Market L} (deal : StorageDeal) (returned : Bool)
      (gained : Nat) (held : market.view.deals dealId = some deal)
      (seen : after.view = market.view ∨ after.view = { market.view with
        deals := Function.update market.view.deals dealId (some { deal with status := .completed }) })
      (completes : Completes (PaysOut ledger deal market.view.epoch (market.view.released deal.dealId)
        market.state.ledger.inner) deal (market.view.released deal.dealId) returned gained)
      (records : after.records = market.record dealId fun record =>
        { record with
          completions := record.completions + gained
          collateralReturns := record.collateralReturns + if returned then 1 else 0 }) :
      Effect market (.completeDeal ledger dealId) after

section

variable {scale blake3} {market : Market L}

theorem record_id (dealId : UInt64) : market.record dealId id = market.records := Function.update_eq_self _ _

theorem gain_eq {after : Funded StorageMarketCoordinator (Metered L)} {gained : Nat}
    (credited : after.ledger.credited = market.state.ledger.credited + gained) : market.gain after = gained := by
  unfold gain
  omega

end

variable {scale blake3}

theorem compile_effect (market : Market L) (ledger : Ledger L) (intentId acceptanceId : Hash) :
    market.Effect scale blake3 (.compileDeal ledger intentId acceptanceId)
      (market.next scale blake3 (.compileDeal ledger intentId acceptanceId)) := by
  have ends := @compileDeal_ends _ ledger scale market.state intentId acceptanceId
  cases ran : StorageMarketCoordinator.compileDeal (metered ledger) scale intentId acceptanceId market.state with
  | ok dealId after =>
    obtain ⟨deal, id, pending, unstarted, seen, -⟩ := ends.ok ran
    exact .compiled deal (succeeds_ok ran) id pending unstarted ((congrArg viewOf (stateAfter_ok ran)).trans seen) rfl
  | error error after =>
    exact .uncompiled (not_succeeds ran) ⟨(congrArg viewOf (stateAfter_error ran)).trans (ends.error ran).1, rfl⟩

theorem activate_effect (market : Market L) (order : HashMap.Order) (dealId : UInt64) (activation : DealActivation) :
    market.Effect scale blake3 (.activateDeal order dealId activation)
      (market.next scale blake3 (.activateDeal order dealId activation)) := by
  have ends := @marketActivate_ends _ dealId market.state order activation
  cases ran : StorageMarketCoordinator.activateDeal order dealId activation market.state with
  | ok value after =>
    obtain ⟨deal, held, pending, seen, -⟩ := ends.ok ran
    exact .activated deal held pending ((congrArg viewOf (stateAfter_ok ran)).trans seen) rfl
  | error error after =>
    have left := congrArg viewOf (stateAfter_error ran)
    rcases (ends.error ran).1 with seen | ⟨deal, held, pending, seen⟩
    · exact .unactivated ⟨left.trans seen, rfl⟩
    · exact .rooted deal held pending (left.trans seen) rfl

theorem submit_effect (market : Market L) (ledger : Ledger L) (states : VrfStates) (proof : StorageProof) :
    market.Effect scale blake3 (.submitProof ledger states proof)
      (market.next scale blake3 (.submitProof ledger states proof)) := by
  simp only [next]
  cases ran : StorageMarketCoordinator.submitProof (metered ledger) scale blake3 states proof market.state with
  | ok value after =>
    obtain ⟨deal, accepted, seen, credited⟩ := submitProof_ends.ok ran
    refine .taken deal accepted seen ?_
    dsimp only
    rw [gain_eq credited]
    rfl
  | error error after =>
    obtain ⟨none, seen, credited⟩ := submitProof_ends.error ran
    refine .untaken none ⟨seen, ?_⟩
    dsimp only
    rw [@gain_eq _ market after 0 credited]
    exact record_id _

theorem complete_effect (market : Market L) (ledger : Ledger L) (dealId : UInt64) :
    market.Effect scale blake3 (.completeDeal ledger dealId)
      (market.next scale blake3 (.completeDeal ledger dealId)) := by
  simp only [next]
  cases ran : StorageMarketCoordinator.completeDeal (metered ledger) dealId market.state with
  | ok value after =>
    obtain ⟨deal, held, seen, gained, credited, completes⟩ := completeDeal_ends.ok ran
    refine .completed deal true gained held (Or.inr seen) completes ?_
    dsimp only
    rw [gain_eq credited]
    rfl
  | error error after =>
    obtain ⟨seen, gained, credited, ⟨missing, rfl, notPast⟩ | ⟨deal, held, completes⟩⟩ := completeDeal_ends.error ran
    · refine .uncompleted missing ⟨seen, ?_⟩
      dsimp only
      rw [gain_eq credited, notPast]
      exact record_id _
    · refine .completed deal (pastCredits error) gained held (Or.inl seen) completes ?_
      dsimp only
      rw [gain_eq credited]

theorem next_effect (market : Market L) (step : MarketStep L) :
    market.Effect scale blake3 step (market.next scale blake3 step) := by
  cases step with
  | compileDeal ledger intentId acceptanceId => exact compile_effect market ledger intentId acceptanceId
  | advanceEpoch => exact .ticked rfl rfl
  | activateDeal order dealId activation => exact activate_effect market order dealId activation
  | submitProof ledger states proof => exact submit_effect market ledger states proof
  | checkProofDeadlines ledger order => exact .checked (checkProofDeadlines_effect order market.state).1 rfl
  | completeDeal ledger dealId => exact complete_effect market ledger dealId

theorem credited_elsewhere {market : Market L} {step : MarketStep L} (elsewhere : step.deal = none) :
    (market.next scale blake3 step).state.ledger.credited = market.state.ledger.credited := by
  cases step with
  | compileDeal ledger intentId acceptanceId =>
    refine (compileDeal_ends.weaken (fun dealId after done => ?_) fun error after failed => failed.2).stateAfter
    obtain ⟨_, -, -, -, -, credited⟩ := done
    exact credited
  | advanceEpoch => rfl
  | activateDeal order dealId activation =>
    have kept : Ends (StorageMarketCoordinator.activateDeal order dealId activation) market.state
        (fun _ after => after.ledger = market.state.ledger) fun _ after => after.ledger = market.state.ledger := by
      refine marketActivate_ends.weaken (fun _ after done => ?_) fun error after failed => failed.2
      obtain ⟨_, -, -, -, ledger⟩ := done
      exact ledger
    exact congrArg Metered.credited kept.stateAfter
  | submitProof | completeDeal => cases elsewhere
  | checkProofDeadlines ledger order => exact (checkProofDeadlines_effect order market.state).2

def Identified (market : Market L) : Prop :=
  ∀ dealId deal, market.view.deals dealId = some deal → deal.dealId = dealId

theorem identified_update {market : Market L} {deals : UInt64 → Option StorageDeal} {dealId : UInt64}
    {deal : StorageDeal} (identified : market.Identified) (id : deal.dealId = dealId)
    (updated : deals = Function.update market.view.deals dealId (some deal)) (other : UInt64) (stored : StorageDeal)
    (held : deals other = some stored) : stored.dealId = other := by
  rw [updated, Function.update_apply] at held
  split at held
  · next here =>
    cases held
    exact id.trans here.symm
  · exact identified other stored held

theorem identified_next {market after : Market L} {step : MarketStep L} (identified : market.Identified)
    (effect : market.Effect scale blake3 step after) : after.Identified := by
  intro other stored held
  cases effect with
  | unactivated same | uncompiled _ same | untaken _ same | uncompleted _ same =>
    rw [same.1] at held
    exact identified other stored held
  | ticked seen _ | taken _ _ seen _ =>
    rw [seen] at held
    exact identified other stored held
  | compiled deal _ id _ _ seen _ =>
    exact identified_update identified rfl (congrArg MarketView.deals seen) other stored held
  | rooted deal holds _ seen _ | activated deal holds _ seen _ =>
    refine identified_update identified ?_ (congrArg MarketView.deals seen) other stored held
    exact identified _ deal holds
  | checked expires _ =>
    rcases expires.deals other with same | ⟨deal, holds, -, failed⟩
    · rw [same] at held
      exact identified other stored held
    · rw [failed] at held
      cases held
      exact identified other deal holds
  | completed deal _ _ holds seen _ _ =>
    rcases seen with seen | seen
    · rw [seen] at held
      exact identified other stored held
    · refine identified_update identified ?_ (congrArg MarketView.deals seen) other stored held
      exact identified _ deal holds

def afterSteps (scale : Scale) (blake3 : List UInt8 → Bytes32) (start : Market L) (steps : List (MarketStep L)) :
    Market L := Runs.after (next scale blake3) start steps

end Market

end AdicProof.StorageMarket
