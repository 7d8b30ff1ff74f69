import AdicCore.StorageMarket.DepositConservation
import AdicCore.StorageMarket.MarketRuns

open AdicModel AdicModel.Economics AdicModel.StorageMarket Calls

namespace AdicProof.StorageMarket

def Unfinished (record : DealRecord) : Prop := record.completions = 0 ∧ record.collateralReturns = 0

def PaidWithin {L : Type} (market : Market L) : Prop :=
  ∀ dealId deal, market.view.deals dealId = some deal →
    (market.records dealId).credited ≤ worth deal ∧ (market.records dealId).collateralReturns ≤ 1

def PaidOnce {L : Type} (scale : Scale) (blake3 : List UInt8 → Bytes32) (market : Market L) : MarketStep L → Prop
  | .compileDeal ledger intentId acceptanceId =>
    succeeds (StorageMarketCoordinator.compileDeal (metered ledger) scale intentId acceptanceId) market.state →
      market.view.deals market.view.nextDealId = none
  | .submitProof ledger states proof => ∀ deal, Accepted scale ledger blake3 states market.state proof deal →
    Unfinished (market.records proof.dealId) ∧
      (market.view.released deal.dealId).baseUnits.toNat + (instalment scale market.view.config deal).toNat < 2 ^ 64
  | .completeDeal ledger dealId => ∀ deal, market.view.deals dealId = some deal →
    PaysOut ledger deal market.view.epoch (market.view.released deal.dealId) market.state.ledger.inner →
      Unfinished (market.records dealId)
  | _ => True

structure Backed {L : Type} (market : Market L) : Prop where
  identified : market.Identified
  unknown : ∀ dealId, market.view.deals dealId = none →
    market.records dealId = .empty ∧ market.view.released dealId = AdicAmount.zero
  instalments : ∀ dealId, (market.records dealId).instalments = (market.view.released dealId).baseUnits.toNat
  escrowed : ∀ dealId deal, market.view.deals dealId = some deal →
    (market.view.released dealId).baseUnits.toNat ≤ deal.clientPaymentEscrow.baseUnits.toNat
  paid : PaidWithin market

def billing (deal : StorageDeal) : AdicAmount × AdicAmount := (deal.clientPaymentEscrow, deal.providerCollateral)

section

variable {L : Type} {scale : Scale} {blake3 : List UInt8 → Bytes32} {market after : Market L} {step : MarketStep L}
  {dealId : UInt64} {deal : StorageDeal}

theorem toNat_saturatingSub (a b : UInt64) : (saturatingSub a b).toNat = a.toNat - b.toNat := by
  unfold saturatingSub
  split
  · next less =>
    have smaller := UInt64.lt_iff_toNat_lt.mp less
    show 0 = _
    omega
  · next enough => exact UInt64.toNat_sub_of_le _ _ (UInt64.not_lt.mp enough)

theorem worth_of_billing {other : StorageDeal} (same : billing deal = billing other) : worth deal = worth other := by
  obtain ⟨escrow, collateral⟩ := Prod.mk.injEq .. ▸ same
  unfold worth
  rw [escrow, collateral]

theorem billing_update {deals : UInt64 → Option StorageDeal} {changed : StorageDeal} (held : deals dealId = some deal)
    (same : billing changed = billing deal) (other : UInt64) :
    (Function.update deals dealId (some changed) other).map billing = (deals other).map billing := by
  rw [Function.update_apply]
  split
  · next here => rw [here, held, Option.map_some, Option.map_some, same]
  · rfl

theorem Backed.of_billing (backed : Backed market) (identified : after.Identified)
    (same : ∀ dealId, (after.view.deals dealId).map billing = (market.view.deals dealId).map billing)
    (released : after.view.released = market.view.released) (records : after.records = market.records) :
    Backed after := by
  have earlier : ∀ dealId deal, after.view.deals dealId = some deal →
      ∃ before, market.view.deals dealId = some before ∧ billing before = billing deal := by
    intro dealId deal held
    have mapped := same dealId
    rw [held, Option.map_some] at mapped
    exact Option.map_eq_some_iff.mp mapped.symm
  refine ⟨identified, fun dealId missing => ?_, fun dealId => ?_, fun dealId deal held => ?_, fun dealId deal held => ?_⟩
  · have mapped := same dealId
    rw [missing, Option.map_none] at mapped
    rw [records, released]
    exact backed.unknown dealId (Option.map_eq_none_iff.mp mapped.symm)
  · rw [records, released]
    exact backed.instalments dealId
  · obtain ⟨before, heldBefore, bills⟩ := earlier dealId deal held
    have escrow : before.clientPaymentEscrow = deal.clientPaymentEscrow := congrArg Prod.fst bills
    rw [released, ← escrow]
    exact backed.escrowed dealId before heldBefore
  · obtain ⟨before, heldBefore, bills⟩ := earlier dealId deal held
    rw [records, ← worth_of_billing bills]
    exact backed.paid dealId before heldBefore

theorem Backed.of_same (backed : Backed market) (identified : after.Identified) (same : market.Same after) :
    Backed after := by
  refine backed.of_billing identified (fun dealId => ?_) ?_ same.2
  · rw [same.1]
  · rw [same.1]

theorem backed_taken {ledger : Ledger L} {states : VrfStates} {proof : StorageProof} (backed : Backed market)
    (identified : after.Identified) (accepted : Accepted scale ledger blake3 states market.state proof deal)
    (unfinished : Unfinished (market.records proof.dealId))
    (fits : (market.view.released deal.dealId).baseUnits.toNat +
      (instalment scale market.view.config deal).toNat < 2 ^ 64)
    (seen : after.view = { market.view with
      released := Function.update market.view.released deal.dealId
        ⟨(market.view.released deal.dealId).baseUnits + instalment scale market.view.config deal⟩
      proofs := Function.update market.view.proofs deal.dealId (market.view.proofs deal.dealId ++ [proof]) })
    (records : after.records = market.record proof.dealId fun record =>
      { record with
        instalments := record.instalments + (instalment scale market.view.config deal).toNat
        proven := record.proven ++ [(proof.proofEpoch, market.view.epoch)] }) : Backed after := by
  have held : market.view.deals proof.dealId = some deal := accepted.held
  have id : deal.dealId = proof.dealId := backed.identified _ _ held
  have deals : after.view.deals = market.view.deals := by rw [seen]
  have released : after.view.released = Function.update market.view.released deal.dealId
      ⟨(market.view.released deal.dealId).baseUnits + instalment scale market.view.config deal⟩ := by rw [seen]
  rw [id] at released fits
  have sum : ((market.view.released proof.dealId).baseUnits + instalment scale market.view.config deal).toNat =
      (market.view.released proof.dealId).baseUnits.toNat + (instalment scale market.view.config deal).toNat := by
    rw [UInt64.toNat_add, Nat.mod_eq_of_lt fits]
  have within : ((market.view.released proof.dealId).baseUnits + instalment scale market.view.config deal).toNat ≤
      deal.clientPaymentEscrow.baseUnits.toNat := by
    have releasable := UInt64.le_iff_toNat_le.mp accepted.releasable.1
    rw [id] at releasable
    exact releasable
  have before := backed.instalments proof.dealId
  refine ⟨identified, fun other missing => ?_, fun other => ?_, fun other stored holds => ?_, fun other stored holds => ?_⟩
  · rw [deals] at missing
    have different : other ≠ proof.dealId := by
      rintro rfl
      rw [held] at missing
      cases missing
    rw [released, records, Market.record, Function.update_of_ne different, Function.update_of_ne different]
    exact backed.unknown other missing
  · rw [released, records, Market.record, Function.update_apply, Function.update_apply]
    split
    · dsimp only
      rw [sum, before]
    · exact backed.instalments other
  · rw [deals] at holds
    rw [released, Function.update_apply]
    split
    · next here =>
      rw [here, held] at holds
      cases holds
      exact within
    · exact backed.escrowed other stored holds
  · rw [deals] at holds
    rw [records, Market.record, Function.update_apply]
    split
    · next here =>
      rw [here, held] at holds
      cases holds
      dsimp only [DealRecord.credited]
      rw [before, unfinished.1, unfinished.2]
      unfold worth
      omega
    · exact backed.paid other stored holds

theorem backed_completed {pays : Prop} {returned : Bool} {gained : Nat} (backed : Backed market)
    (identified : after.Identified) (held : market.view.deals dealId = some deal)
    (same : ∀ other, (after.view.deals other).map billing = (market.view.deals other).map billing)
    (released : after.view.released = market.view.released)
    (completes : Completes pays deal (market.view.released deal.dealId) returned gained)
    (unfinished : pays → Unfinished (market.records dealId))
    (records : after.records = market.record dealId fun record =>
      { record with
        completions := record.completions + gained
        collateralReturns := record.collateralReturns + if returned then 1 else 0 }) : Backed after := by
  by_cases paying : pays
  · have base : Backed (⟨after.state, market.records⟩ : Market L) :=
      backed.of_billing identified same released rfl
    have nothing := unfinished paying
    have id : deal.dealId = dealId := backed.identified _ _ held
    have bounded := completes.bounded
    unfold remaining at bounded
    rw [id, toNat_saturatingSub, ← backed.instalments dealId] at bounded
    have escrowed := backed.escrowed dealId deal held
    rw [← backed.instalments dealId] at escrowed
    have known := same dealId
    rw [held, Option.map_some] at known
    refine ⟨identified, fun other missing => ?_, fun other => ?_, base.escrowed, fun other stored holds => ?_⟩
    · have different : other ≠ dealId := by
        rintro rfl
        rw [missing] at known
        cases known
      rw [records, Market.record, Function.update_of_ne different]
      exact base.unknown other missing
    · rw [records, Market.record, Function.update_apply]
      split
      · next here =>
        rw [here]
        exact base.instalments dealId
      · exact base.instalments other
    · rw [records, Market.record, Function.update_apply]
      split
      · next here =>
        rw [here] at holds
        rw [holds, Option.map_some, Option.some.injEq] at known
        rw [worth_of_billing known]
        dsimp only [DealRecord.credited]
        rw [nothing.1, nothing.2]
        unfold worth
        cases returned with
        | true =>
          rw [if_pos rfl] at bounded
          exact ⟨by omega, le_refl _⟩
        | false =>
          rw [if_neg Bool.false_ne_true] at bounded
          exact ⟨by omega, Nat.zero_le _⟩
      · exact base.paid other stored holds
  · obtain ⟨rfl, rfl⟩ := completes.idle paying
    refine backed.of_billing identified same released ?_
    rw [records]
    exact Market.record_id dealId

theorem backed_next (backed : Backed market) (once : PaidOnce scale blake3 market step)
    (effect : market.Effect scale blake3 step after) : Backed after := by
  have identified := Market.identified_next backed.identified effect
  cases effect with
  | uncompiled _ same | untaken _ same | uncompleted _ same => exact backed.of_same identified same
  | unactivated same => exact backed.of_same identified same
  | ticked seen records =>
    refine backed.of_billing identified (fun dealId => ?_) ?_ records
    · rw [seen]
    · rw [seen]
  | compiled deal compiles id _ _ seen records =>
    have fresh := once compiles
    rw [← id] at fresh
    obtain ⟨unrecorded, unreleased⟩ := backed.unknown deal.dealId fresh
    have deals : after.view.deals = Function.update market.view.deals deal.dealId (some deal) := by rw [seen]
    have released : after.view.released = market.view.released := by rw [seen]
    refine ⟨identified, fun other missing => ?_, fun other => ?_, fun other stored holds => ?_,
      fun other stored holds => ?_⟩
    · rw [records, released]
      apply backed.unknown
      rw [deals, Function.update_apply] at missing
      split at missing
      · cases missing
      · exact missing
    · rw [records, released]
      exact backed.instalments other
    · rw [released]
      rw [deals, Function.update_apply] at holds
      split at holds
      · next here =>
        rw [here, unreleased]
        exact Nat.zero_le _
      · exact backed.escrowed other stored holds
    · rw [records]
      rw [deals, Function.update_apply] at holds
      split at holds
      · next here =>
        rw [here, unrecorded]
        exact ⟨Nat.zero_le _, Nat.zero_le _⟩
      · exact backed.paid other stored holds
  | rooted deal held _ seen records | activated deal held _ seen records =>
    refine backed.of_billing identified (fun other => ?_) ?_ records
    · rw [seen]
      refine billing_update held ?_ other
      rfl
    · rw [seen]
  | taken deal accepted seen records =>
    obtain ⟨unfinished, fits⟩ := once deal accepted
    exact backed_taken backed identified accepted unfinished fits seen records
  | checked expires records =>
    refine backed.of_billing identified (fun other => ?_) ?_ records
    · rcases expires.deals other with same | ⟨deal, held, -, failed⟩
      · rw [same]
      · rw [failed, held]
        rfl
    · rw [expires.others]
  | completed deal returned gained held seen completes records =>
    refine backed_completed backed identified held (fun other => ?_) ?_ completes (once deal held) records
    · rcases seen with seen | seen
      · rw [seen]
      · rw [seen]
        refine billing_update held ?_ other
        rfl
    · rcases seen with seen | seen
      · rw [seen]
      · rw [seen]

theorem backed_new (intentManager : IntentManager) (jitcaConfig : JitcaConfig) (proofConfig : ProofCycleConfig)
    (ledger : Metered L) : Backed (Market.new intentManager jitcaConfig proofConfig ledger) where
  identified dealId deal held := by cases held
  unknown dealId missing := ⟨rfl, rfl⟩
  instalments dealId := rfl
  escrowed dealId deal held := by cases held
  paid dealId deal held := by cases held

/-- Where nothing is paid after a completion has credited something, a deal pays at most what it holds. -/
theorem payouts_within (scale : Scale) (blake3 : List UInt8 → Bytes32) (intentManager : IntentManager)
    (jitcaConfig : JitcaConfig) (proofConfig : ProofCycleConfig) (ledger : Metered L) (steps : List (MarketStep L))
    (once : ∀ before step, before ++ [step] <+: steps →
      PaidOnce scale blake3
        (Market.afterSteps scale blake3 (.new intentManager jitcaConfig proofConfig ledger) before) step) :
    (∀ before, before <+: steps →
      PaidWithin (Market.afterSteps scale blake3 (.new intentManager jitcaConfig proofConfig ledger) before)) ∧
    ∀ before step, before ++ [step] <+: steps → step.deal = none →
      (Market.afterSteps scale blake3 (.new intentManager jitcaConfig proofConfig ledger)
          (before ++ [step])).state.ledger.credited =
        (Market.afterSteps scale blake3 (.new intentManager jitcaConfig proofConfig ledger)
          before).state.ledger.credited := by
  constructor
  · intro before part
    have kept : Backed (Runs.after (Market.next scale blake3) (.new intentManager jitcaConfig proofConfig ledger)
        before) := by
      refine @Runs.invariant_of_conditions _ _ (Market.next scale blake3) _ steps Backed
        (fun step market => PaidOnce scale blake3 market step) (backed_new _ _ _ _) ?_ once before part
      intro market step backed meets
      exact backed_next backed meets (Market.next_effect market step)
    exact kept.paid
  · intro before step _ elsewhere
    unfold Market.afterSteps
    rw [Runs.after_snoc]
    exact Market.credited_elsewhere elsewhere

end

section

def proofConfig : ProofCycleConfig := ⟨2, 1 / 10, 1, 1 / 10, 5, false⟩

def oneMatch (durationEpochs : UInt64) : IntentManager :=
  { IntentManager.new intentConfig with
    intents := HashMap.ofPairs [(twoCopies.intentId, { twoCopies with durationEpochs := durationEpochs })]
    acceptances := HashMap.ofPairs [(Bytes32.replicate 11, acceptanceOf bob (Bytes32.replicate 11))] }

def matchedMarket (durationEpochs : UInt64) : Market (BalanceManager MemoryStorage) :=
  .new (oneMatch durationEpochs) jitcaConfig proofConfig threeAccounts

def plainLedger : Ledger (BalanceManager MemoryStorage) := .ofBalanceManager plainHash 0

def compileMatch : MarketStep (BalanceManager MemoryStorage) :=
  .compileDeal plainLedger twoCopies.intentId (Bytes32.replicate 11)

def activateFirst (root : Bytes32) : MarketStep (BalanceManager MemoryStorage) :=
  .activateDeal .stored 1 ⟨1, bob, root⟩

def wholeDeal : List (MarketStep (BalanceManager MemoryStorage)) :=
  [compileMatch, activateFirst (Bytes32.replicate 5), .advanceEpoch, .completeDeal plainLedger 1]

theorem payouts_within_wholeDeal :
    ((Market.afterSteps exactScale plainHash (matchedMarket 1) wholeDeal).records 1).credited = 55 ∧
      ∀ before, before <+: wholeDeal →
        PaidWithin (Market.afterSteps exactScale plainHash (matchedMarket 1) before) := by
  refine ⟨by decide +kernel, ?_⟩
  refine (payouts_within exactScale plainHash (oneMatch 1) jitcaConfig proofConfig threeAccounts wholeDeal ?_).1
  refine Runs.forall_steps_cons.mpr ⟨fun _ => rfl, Runs.forall_steps_cons.mpr ⟨trivial,
    Runs.forall_steps_cons.mpr ⟨trivial, Runs.forall_steps_cons.mpr ⟨?_, Runs.forall_steps_nil⟩⟩⟩⟩
  intro deal held pays
  have unfinished : (((Market.afterSteps exactScale plainHash (matchedMarket 1)
      [compileMatch, activateFirst (Bytes32.replicate 5), .advanceEpoch]).records 1).completions,
      ((Market.afterSteps exactScale plainHash (matchedMarket 1)
        [compileMatch, activateFirst (Bytes32.replicate 5), .advanceEpoch]).records 1).collateralReturns) = (0, 0) := by
    decide +kernel
  exact Prod.mk.inj unfinished

theorem completed_twice :
    let market := Market.afterSteps exactScale plainHash (matchedMarket 10)
      [compileMatch, .completeDeal plainLedger 1, .completeDeal plainLedger 1]
    (market.view.deals 1).map worth = some 100 ∧ (market.records 1).credited = 200 ∧
      (market.records 1).collateralReturns = 2 ∧ ¬PaidWithin market := by
  have deals : ((Market.afterSteps exactScale plainHash (matchedMarket 10)
      [compileMatch, .completeDeal plainLedger 1, .completeDeal plainLedger 1]).view.deals 1).map worth = some 100 := by
    decide +kernel
  have credited : ((Market.afterSteps exactScale plainHash (matchedMarket 10)
      [compileMatch, .completeDeal plainLedger 1, .completeDeal plainLedger 1]).records 1).credited = 200 := by
    decide +kernel
  refine ⟨deals, credited, by decide +kernel, fun within => ?_⟩
  obtain ⟨deal, held, holds⟩ := Option.map_eq_some_iff.mp deals
  have paid := (within 1 deal held).1
  rw [holds, credited] at paid
  omega

end

end AdicProof.StorageMarket
