import AdicCore.Consensus.EscrowAccounting
import AdicCore.StorageMarket.Payouts

open AdicModel AdicModel.Economics AdicModel.StorageMarket AdicProof.Consensus Calls

namespace AdicProof.StorageMarket

def InRange (deal : StorageDeal) (proofEpoch currentEpoch : UInt64) : Prop :=
  ∃ startEpoch, deal.startEpoch = some startEpoch ∧ startEpoch ≤ proofEpoch ∧ proofEpoch ≤ currentEpoch

/-- The proofs that were taken for a deal are for different epochs, none before its start or after the proof. -/
def OncePerEpoch {L : Type} (market : Market L) : Prop :=
  ∀ dealId deal, market.view.deals dealId = some deal →
    ((market.records dealId).proven.map Prod.fst).Nodup ∧
      ∀ entry ∈ (market.records dealId).proven, InRange deal entry.1 entry.2

/-- A proof that is taken is for an epoch of the deal that no stored proof is for, and a new deal has no proofs. -/
def FreshProof {L : Type} (scale : Scale) (blake3 : List UInt8 → Bytes32) (market : Market L) : MarketStep L → Prop
  | .compileDeal ledger intentId acceptanceId =>
    succeeds (StorageMarketCoordinator.compileDeal (metered ledger) scale intentId acceptanceId) market.state →
      market.view.proofs market.view.nextDealId = []
  | .submitProof ledger states proof => ∀ deal, Accepted scale ledger blake3 states market.state proof deal →
    proof.proofEpoch ∉ (market.view.proofs proof.dealId).map StorageProof.proofEpoch ∧
      InRange deal proof.proofEpoch market.view.epoch
  | _ => True

structure Recorded {L : Type} (market : Market L) : Prop where
  identified : market.Identified
  stored : ∀ dealId, (market.records dealId).proven.map Prod.fst =
    (market.view.proofs dealId).map StorageProof.proofEpoch
  pending : ∀ dealId deal, market.view.deals dealId = some deal → deal.status = .pendingActivation →
    (market.records dealId).proven = []

section

variable {L : Type} {scale : Scale} {blake3 : List UInt8 → Bytes32} {market after : Market L} {step : MarketStep L}
  {dealId : UInt64} {deal : StorageDeal}

theorem once_of_starts (once : OncePerEpoch market)
    (starts : ∀ dealId, (after.view.deals dealId).map StorageDeal.startEpoch =
      (market.view.deals dealId).map StorageDeal.startEpoch)
    (proven : ∀ dealId, (after.records dealId).proven = (market.records dealId).proven) : OncePerEpoch after := by
  intro dealId deal held
  have mapped := starts dealId
  rw [held, Option.map_some] at mapped
  obtain ⟨before, heldBefore, start⟩ := Option.map_eq_some_iff.mp mapped.symm
  obtain ⟨distinct, ranged⟩ := once dealId before heldBefore
  rw [proven dealId]
  refine ⟨distinct, fun entry member => ?_⟩
  have range := ranged entry member
  unfold InRange at range ⊢
  rw [start] at range
  exact range

theorem once_of_same (once : OncePerEpoch market) (same : market.Same after) : OncePerEpoch after := by
  refine once_of_starts once (fun dealId => ?_) fun dealId => ?_
  · rw [same.1]
  · rw [same.2]

theorem once_of_update (once : OncePerEpoch market)
    (deals : after.view.deals = Function.update market.view.deals dealId (some deal))
    (records : after.records = market.records) (unproven : (market.records dealId).proven = []) :
    OncePerEpoch after := by
  intro other stored held
  rw [deals, Function.update_apply] at held
  rw [records]
  split at held
  · next here =>
    rw [here, unproven]
    exact ⟨List.nodup_nil, fun entry member => absurd member List.not_mem_nil⟩
  · exact once other stored held

theorem starts_update {deals : UInt64 → Option StorageDeal} {changed : StorageDeal} (held : deals dealId = some deal)
    (same : changed.startEpoch = deal.startEpoch) (other : UInt64) :
    (Function.update deals dealId (some changed) other).map StorageDeal.startEpoch =
      (deals other).map StorageDeal.startEpoch := by
  rw [Function.update_apply]
  split
  · next here => rw [here, held, Option.map_some, Option.map_some, same]
  · rfl

theorem proven_record (change : DealRecord → DealRecord) (keeps : ∀ record, (change record).proven = record.proven)
    (other : UInt64) : (market.record dealId change other).proven = (market.records other).proven := by
  rw [Market.record, Function.update_apply]
  split
  · next here => rw [here, keeps]
  · rfl

theorem once_compiled_iff (recorded : Recorded market) (once : OncePerEpoch market) (unstarted : deal.startEpoch = none)
    (deals : after.view.deals = Function.update market.view.deals dealId (some deal))
    (records : after.records = market.records) : OncePerEpoch after ↔ market.view.proofs dealId = [] := by
  have stored := recorded.stored dealId
  constructor
  · intro later
    have held : after.view.deals dealId = some deal := by rw [deals, Function.update_self]
    have ranged := (later dealId deal held).2
    rw [records] at ranged
    have none : (market.records dealId).proven = [] := by
      apply List.eq_nil_iff_forall_not_mem.mpr
      intro entry member
      obtain ⟨startEpoch, started, -⟩ := ranged entry member
      rw [unstarted] at started
      cases started
    rw [none, List.map_nil] at stored
    exact List.map_eq_nil_iff.mp stored.symm
  · intro none
    rw [none, List.map_nil] at stored
    exact once_of_update once deals records (List.map_eq_nil_iff.mp stored)

variable {proof : StorageProof}

theorem once_taken_iff (recorded : Recorded market) (once : OncePerEpoch market)
    (held : market.view.deals proof.dealId = some deal) (deals : after.view.deals = market.view.deals)
    (proven : ∀ other, (after.records other).proven = if other = proof.dealId then
      (market.records other).proven ++ [(proof.proofEpoch, market.view.epoch)] else (market.records other).proven) :
    OncePerEpoch after ↔ proof.proofEpoch ∉ (market.view.proofs proof.dealId).map StorageProof.proofEpoch ∧
      InRange deal proof.proofEpoch market.view.epoch := by
  obtain ⟨distinct, ranged⟩ := once proof.dealId deal held
  have here := proven proof.dealId
  rw [if_pos rfl] at here
  rw [← recorded.stored]
  have nodup : ((after.records proof.dealId).proven.map Prod.fst).Nodup ↔
      proof.proofEpoch ∉ (market.records proof.dealId).proven.map Prod.fst := by
    rw [here, List.map_append, List.map_singleton, List.nodup_append_comm, List.singleton_append, List.nodup_cons]
    exact and_iff_left distinct
  have inRange : (∀ entry ∈ (after.records proof.dealId).proven, InRange deal entry.1 entry.2) ↔
      InRange deal proof.proofEpoch market.view.epoch := by
    rw [here, List.forall_mem_append, List.forall_mem_singleton]
    exact and_iff_right ranged
  rw [← nodup, ← inRange]
  constructor
  · intro later
    rw [← deals] at held
    exact later proof.dealId deal held
  · intro now other stored holds
    rw [deals] at holds
    by_cases same : other = proof.dealId
    · rw [same] at holds ⊢
      rw [held] at holds
      cases holds
      exact now
    · rw [proven other, if_neg same]
      exact once other stored holds

theorem proven_taken {gained : Nat}
    (records : after.records = market.record proof.dealId fun record =>
      { record with
        instalments := record.instalments + gained
        proven := record.proven ++ [(proof.proofEpoch, market.view.epoch)] }) (other : UInt64) :
    (after.records other).proven = if other = proof.dealId then
      (market.records other).proven ++ [(proof.proofEpoch, market.view.epoch)] else (market.records other).proven := by
  rw [records, Market.record, Function.update_apply]
  split
  · next here => rw [here]
  · rfl

section

variable (recorded : Recorded market)

include recorded

theorem once_next_iff (once : OncePerEpoch market) (effect : market.Effect scale blake3 step after) :
    OncePerEpoch after ↔ FreshProof scale blake3 market step := by
  cases effect with
  | uncompiled fails same => exact iff_of_true (once_of_same once same) fun compiles => absurd compiles fails
  | compiled deal compiles id _ unstarted seen records =>
    have deals : after.view.deals = Function.update market.view.deals deal.dealId (some deal) := by rw [seen]
    have iff := once_compiled_iff recorded once unstarted deals records
    rw [id] at iff
    exact iff.trans (imp_iff_right compiles).symm
  | ticked seen records =>
    apply iff_of_true _ trivial
    refine once_of_starts once (fun other => ?_) fun other => ?_
    · rw [seen]
    · rw [records]
  | unactivated same => exact iff_of_true (once_of_same once same) trivial
  | rooted deal held pending seen records | activated deal held pending seen records =>
    apply iff_of_true _ trivial
    exact once_of_update once (by rw [seen]) records (recorded.pending _ deal held pending)
  | untaken none same => exact iff_of_true (once_of_same once same) fun deal accepted => absurd accepted (none deal)
  | @taken _ _ proof _ deal accepted seen records =>
    have iff := once_taken_iff recorded once accepted.held (by rw [seen]) (proven_taken records)
    apply iff.trans
    constructor
    · intro fresh other accepts
      have same : other = deal := Option.some.inj (accepts.held.symm.trans accepted.held)
      rw [same]
      exact fresh
    · intro fresh
      exact fresh deal accepted
  | checked expires records =>
    apply iff_of_true _ trivial
    refine once_of_starts once (fun other => ?_) fun other => ?_
    · rcases expires.deals other with same | ⟨deal, held, -, failed⟩
      · rw [same]
      · rw [failed, held]
        rfl
    · rw [records]
  | uncompleted missing same => exact iff_of_true (once_of_same once same) trivial
  | completed deal returned gained held seen completes records =>
    apply iff_of_true _ trivial
    refine once_of_starts once (fun other => ?_) fun other => ?_
    · rcases seen with seen | seen
      · rw [seen]
      · rw [seen]
        refine starts_update held ?_ other
        rfl
    · rw [records]
      apply proven_record
      intro record
      rfl

theorem Recorded.of_proven (identified : after.Identified) (proofs : after.view.proofs = market.view.proofs)
    (proven : ∀ other, (after.records other).proven = (market.records other).proven)
    (waits : ∀ dealId deal, after.view.deals dealId = some deal → deal.status = .pendingActivation → (market.records dealId).proven = []) :
    Recorded after := by
  refine ⟨identified, fun other => ?_, fun other deal held status => ?_⟩
  · rw [proven other, proofs]
    exact recorded.stored other
  · rw [proven other]
    exact waits other deal held status

theorem Recorded.of_same (identified : after.Identified) (same : market.Same after) : Recorded after := by
  refine recorded.of_proven identified ?_ (fun other => ?_) fun other deal held status => ?_
  · rw [same.1]
  · rw [same.2]
  · rw [same.1] at held
    exact recorded.pending other deal held status

theorem waits_update {deals : UInt64 → Option StorageDeal}
    (updated : deals = Function.update market.view.deals dealId (some deal))
    (new : deal.status = .pendingActivation → (market.records dealId).proven = []) (other : UInt64)
    (stored : StorageDeal) (held : deals other = some stored) (status : stored.status = .pendingActivation) :
    (market.records other).proven = [] := by
  rw [updated, Function.update_apply] at held
  split at held
  · next here =>
    cases held
    rw [here]
    exact new status
  · exact recorded.pending other stored held status

theorem recorded_taken (identified : after.Identified)
    (held : market.view.deals proof.dealId = some deal) (active : deal.status = .active)
    (deals : after.view.deals = market.view.deals)
    (proofs : after.view.proofs =
      Function.update market.view.proofs proof.dealId (market.view.proofs proof.dealId ++ [proof]))
    (proven : ∀ other, (after.records other).proven =
      if other = proof.dealId then (market.records other).proven ++ [(proof.proofEpoch, market.view.epoch)]
      else (market.records other).proven) :
    Recorded after := by
  refine ⟨identified, fun other => ?_, fun other stored holds status => ?_⟩
  · rw [proven other, proofs, Function.update_apply]
    split
    · next here =>
      rw [here, List.map_append, List.map_append, recorded.stored]
      rfl
    · exact recorded.stored other
  · rw [deals] at holds
    have different : other ≠ proof.dealId := by
      intro here
      rw [here, held] at holds
      cases holds
      rw [active] at status
      cases status
    rw [proven other, if_neg different]
    exact recorded.pending other stored holds status

theorem recorded_next (fresh : FreshProof scale blake3 market step) (effect : market.Effect scale blake3 step after) :
    Recorded after := by
  have identified := Market.identified_next recorded.identified effect
  cases effect with
  | uncompiled _ same | untaken _ same | uncompleted _ same => exact recorded.of_same identified same
  | unactivated same => exact recorded.of_same identified same
  | compiled deal compiles id _ _ seen records =>
    have stored := recorded.stored market.view.nextDealId
    rw [fresh compiles, List.map_nil, ← id] at stored
    refine recorded.of_proven identified ?_ (fun other => ?_)
      (waits_update recorded (by rw [seen]) fun _ => List.map_eq_nil_iff.mp stored)
    · rw [seen]
    · rw [records]
  | ticked seen records =>
    refine recorded.of_proven identified ?_ (fun other => ?_) fun other deal held status => ?_
    · rw [seen]
    · rw [records]
    · rw [seen] at held
      exact recorded.pending other deal held status
  | rooted deal held pending seen records | activated deal held pending seen records =>
    refine recorded.of_proven identified ?_ (fun other => ?_)
      (waits_update recorded (by rw [seen]) fun _ => recorded.pending _ deal held pending)
    · rw [seen]
    · rw [records]
  | taken deal accepted seen records =>
    have id := recorded.identified _ _ accepted.held
    refine recorded_taken recorded identified accepted.held accepted.active (by rw [seen]) ?_ (proven_taken records)
    rw [seen, id]
  | checked expires records =>
    refine recorded.of_proven identified ?_ (fun other => ?_) fun other deal held status => ?_
    · rw [expires.others]
    · rw [records]
    · rcases expires.deals other with same | ⟨before, holds, -, failed⟩
      · rw [same] at held
        exact recorded.pending other deal held status
      · rw [failed] at held
        cases held
        cases status
  | completed deal returned gained held seen completes records =>
    refine recorded.of_proven identified ?_ (fun other => ?_) ?_
    · rcases seen with seen | seen
      · rw [seen]
      · rw [seen]
    · rw [records]
      apply proven_record
      intro record
      rfl
    · rcases seen with seen | seen
      · rw [seen]
        exact recorded.pending
      · refine waits_update recorded (by rw [seen]) ?_
        intro impossible
        cases impossible

end

theorem recorded_new (intentManager : IntentManager) (jitcaConfig : JitcaConfig) (proofConfig : ProofCycleConfig)
    (ledger : Metered L) : Recorded (Market.new intentManager jitcaConfig proofConfig ledger) where
  identified dealId deal held := by cases held
  stored dealId := rfl
  pending dealId deal held := by cases held

/-- The proofs taken for a deal are for different epochs of it exactly if each is for a new epoch when it is taken. -/
theorem proven_epochs_iff (scale : Scale) (blake3 : List UInt8 → Bytes32) (intentManager : IntentManager)
    (jitcaConfig : JitcaConfig) (proofConfig : ProofCycleConfig) (ledger : Metered L) (steps : List (MarketStep L)) :
    (∀ before, before <+: steps →
      OncePerEpoch (Market.afterSteps scale blake3 (.new intentManager jitcaConfig proofConfig ledger) before)) ↔
    ∀ before step, before ++ [step] <+: steps →
      FreshProof scale blake3
        (Market.afterSteps scale blake3 (.new intentManager jitcaConfig proofConfig ledger) before) step := by
  refine @Runs.invariant_iff _ _ (Market.next scale blake3) (.new intentManager jitcaConfig proofConfig ledger) steps
    OncePerEpoch (fun market => Recorded market ∧ OncePerEpoch market)
    (fun step market => FreshProof scale blake3 market step) (fun _ _ => True)
    ⟨recorded_new _ _ _ _, fun dealId deal held => by cases held⟩ (fun market strong => strong.2) ?_ ?_
    fun _ _ _ => trivial
  · rintro market step ⟨recorded, once⟩ _ fresh
    have effect := @Market.next_effect _ scale blake3 market step
    exact ⟨recorded_next recorded fresh effect, (once_next_iff recorded once effect).mpr fresh⟩
  · rintro market step ⟨recorded, once⟩ _ later
    exact (once_next_iff recorded once (Market.next_effect market step)).mp later

end

section

def sampleChunk : List UInt8 := List.replicate 32 1

def chunkProof (timestamp : Int64) (proofEpoch : UInt64) : StorageProof :=
  ⟨timestamp, 1, bob, proofEpoch, [0], [⟨0, sampleChunk, []⟩]⟩

def proveChunk (timestamp : Int64) (proofEpoch : UInt64) : MarketStep (BalanceManager MemoryStorage) :=
  .submitProof (.ofBalanceManager sampleHash 0) (fun _ => some (Bytes32.replicate 3)) (chunkProof timestamp proofEpoch)

theorem stamped_twice :
    let market := Market.afterSteps exactScale sampleHash (matchedMarket 10)
      [compileMatch, activateFirst (sampleHash sampleChunk), proveChunk 0 0, proveChunk 1 0]
    (market.records 1).proven = [(0, 0), (0, 0)] ∧ (market.records 1).instalments = 10 ∧ ¬OncePerEpoch market := by
  have proven : ((Market.afterSteps exactScale sampleHash (matchedMarket 10)
      [compileMatch, activateFirst (sampleHash sampleChunk), proveChunk 0 0, proveChunk 1 0]).records 1).proven =
      [(0, 0), (0, 0)] := by decide +kernel
  have held : ((Market.afterSteps exactScale sampleHash (matchedMarket 10)
      [compileMatch, activateFirst (sampleHash sampleChunk), proveChunk 0 0, proveChunk 1 0]).view.deals 1).isSome := by
    decide +kernel
  refine ⟨proven, by decide +kernel, fun once => ?_⟩
  obtain ⟨deal, holds⟩ := Option.isSome_iff_exists.mp held
  have distinct := (once 1 deal holds).1
  rw [proven] at distinct
  exact absurd distinct (by decide)

end

end AdicProof.StorageMarket
