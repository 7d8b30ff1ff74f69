import AdicCore.Library.Runs
import AdicCore.StorageMarket.Jitca
import AdicCore.StorageMarket.Metering

open AdicModel AdicModel.Economics AdicModel.StorageMarket Calls

namespace AdicProof.StorageMarket

inductive JitcaCall (L : Type) where
  | compile (ledger : Ledger L) (intent : StorageDealIntent) (acceptance : ProviderAcceptance) (currentEpoch : UInt64)
  | activateDeal (order : HashMap.Order) (dealId currentEpoch : UInt64)

structure Compilation (L : Type) where
  state : Funded JitcaCompiler (Metered L)
  returned : List StorageDeal
  activated : List UInt64
  debited : Nat

namespace Compilation

variable {L : Type} (scale : Scale)

def new (config : JitcaConfig) (ledger : Metered L) : Compilation L := ⟨⟨.new config, ledger⟩, [], [], 0⟩

abbrev deals (run : Compilation L) : HashMap.Table Hash StorageDeal := run.state.manager.deals

def next (run : Compilation L) : JitcaCall L → Compilation L
  | .compile ledger intent acceptance currentEpoch =>
    match JitcaCompiler.compile (metered ledger) scale intent acceptance currentEpoch run.state with
    | .ok deal state =>
      { run with
        state := state
        returned := run.returned ++ [deal]
        debited := run.debited + (state.ledger.debited - run.state.ledger.debited) }
    | .error _ state => { run with state := state }
  | .activateDeal order dealId currentEpoch =>
    match run.state.manager.activateDeal order dealId currentEpoch with
    | .ok compiler =>
      { run with
        state := { run.state with manager := compiler }
        activated := run.activated ++ [dealId] }
    | .error _ => run

end Compilation

def terms (deal : StorageDeal) : StorageDeal := { deal with status := .pendingActivation, startEpoch := none }

def worth (deal : StorageDeal) : Nat := deal.clientPaymentEscrow.baseUnits.toNat + deal.providerCollateral.baseUnits.toNat

structure NoneLost {L : Type} (run : Compilation L) : Prop where
  distinct : (run.returned.map StorageDeal.dealId).Nodup
  stays : ∀ deal ∈ run.returned, ∀ order, ∃ intentId stored,
    run.state.manager.findDeal order deal.dealId = some (intentId, stored) ∧ terms stored = deal
  activates : ∀ deal ∈ run.returned, deal.dealId ∉ run.activated → ∀ order currentEpoch,
    currentEpoch ≤ deal.activationDeadline →
      ∃ compiler, run.state.manager.activateDeal order deal.dealId currentEpoch = .ok compiler
  funded : HashMap.total worth run.deals = run.debited

/-- A compile that succeeds meets no deal under its intent, and fewer deals than there are ids. -/
def Fresh {L : Type} (scale : Scale) (call : JitcaCall L) (run : Compilation L) : Prop :=
  match call with
  | .compile ledger intent acceptance currentEpoch =>
    (∃ deal state,
      JitcaCompiler.compile (metered ledger) scale intent acceptance currentEpoch run.state = .ok deal state) →
      run.deals.lookup intent.intentId = none ∧ run.returned.length < 2 ^ 64
  | .activateDeal .. => True

structure Tracked {L : Type} (run : Compilation L) : Prop where
  few : run.returned.length ≤ 2 ^ 64
  ids : run.returned.map StorageDeal.dealId = (List.range run.returned.length).map fun i => UInt64.ofNat (i + 1)
  nextId : run.state.manager.nextDealId = UInt64.ofNat (run.returned.length + 1)
  kept : ∀ deal ∈ run.returned, ∃ stored, run.deals.lookup deal.refIntent = some stored ∧ terms stored = deal
  origin : ∀ intentId stored, run.deals.lookup intentId = some stored →
    terms stored ∈ run.returned ∧ stored.refIntent = intentId
  pending : ∀ intentId stored, run.deals.lookup intentId = some stored → stored.dealId ∉ run.activated →
    stored.status = .pendingActivation
  funded : HashMap.total worth run.deals = run.debited

section

variable {L : Type} {scale : Scale} {ledger : Ledger L} {intent : StorageDealIntent} {acceptance : ProviderAcceptance}
  {currentEpoch : UInt64} {deal : StorageDeal} {error : StorageMarketError}

def dealOfTerms (config : JitcaConfig) (intent : StorageDealIntent) (acceptance : ProviderAcceptance)
    (dealId currentEpoch : UInt64) : StorageDeal :=
  terms (StorageDeal.fromIntentAndAcceptance intent acceptance dealId currentEpoch config.activationDeadline)

theorem validate_ok {config : JitcaConfig} {totalPayment : AdicAmount}
    (validated : JitcaCompiler.validate scale config intent acceptance currentEpoch = .ok totalPayment) :
    totalPayment = ⟨acceptance.offeredPricePerEpoch.baseUnits * intent.durationEpochs⟩ := by
  unfold JitcaCompiler.validate at validated
  obtain ⟨_, -, validated⟩ := Fallible.bind_ok validated
  obtain ⟨_, -, validated⟩ := Fallible.bind_ok validated
  obtain ⟨_, -, validated⟩ := Fallible.bind_ok validated
  obtain ⟨total, calculated, validated⟩ := Fallible.bind_ok validated
  have total_eq : total = totalPayment := by
    dsimp only at validated
    split at validated
    · cases validated
    · cases validated
      rfl
  unfold JitcaCompiler.calculateTotalPayment at calculated
  dsimp only at calculated
  split at calculated
  · cases calculated
    exact total_eq.symm
  · cases calculated

section

variable {state next : Funded JitcaCompiler L}

theorem compile_steps
    (ran : JitcaCompiler.compile ledger scale intent acceptance currentEpoch state = .ok deal next) :
    ∃ paid locked,
      onLedger (ledger.debit intent.client ⟨acceptance.offeredPricePerEpoch.baseUnits * intent.durationEpochs⟩) state =
        .ok () paid ∧
      onLedger (ledger.debit acceptance.provider acceptance.collateralCommitment) paid = .ok () locked ∧
      deal = dealOfTerms state.manager.config intent acceptance state.manager.nextDealId currentEpoch ∧
      next = ⟨{ state.manager with
        deals := state.manager.deals.insert intent.intentId deal
        nextDealId := state.manager.nextDealId + 1 }, locked.ledger⟩ := by
  unfold JitcaCompiler.compile at ran
  rw [getManager_bind] at ran
  obtain ⟨totalPayment, validated, ran⟩ := checked_bind_ok ran
  obtain rfl := validate_ok validated
  obtain ⟨_, paid, debited, ran⟩ := Fallible.run_bind_ok ran
  obtain ⟨_, locked, collected, ran⟩ := Fallible.run_bind_ok ran
  refine ⟨paid, locked, debited, collected, ?_⟩
  obtain ⟨first, -, rfl⟩ := onLedger_ok debited
  obtain ⟨second, -, rfl⟩ := onLedger_ok collected
  obtain ⟨dealId, _, took, ran⟩ := Fallible.run_bind_ok ran
  cases took
  obtain ⟨_, transitioned, ran⟩ := checked_bind_ok ran
  cases transitioned
  cases ran
  exact ⟨rfl, rfl⟩

theorem compile_fails
    (ran : JitcaCompiler.compile ledger scale intent acceptance currentEpoch state = .error error next) :
    next = state ∨ ∃ totalPayment,
      JitcaCompiler.validate scale state.manager.config intent acceptance currentEpoch = .ok totalPayment ∧
        (onLedger (ledger.debit intent.client totalPayment) state = .error error next ∨
          ∃ paid, onLedger (ledger.debit intent.client totalPayment) state = .ok () paid ∧
            onLedger (ledger.debit acceptance.provider acceptance.collateralCommitment) paid = .error error next) := by
  unfold JitcaCompiler.compile at ran
  rw [getManager_bind] at ran
  rcases checked_bind_error ran with rfl | ⟨totalPayment, validated, ran⟩
  · exact Or.inl rfl
  refine Or.inr ⟨totalPayment, validated, ?_⟩
  rcases Fallible.run_bind_error ran with failed | ⟨_, paid, debited, ran⟩
  · exact Or.inl failed
  refine Or.inr ⟨paid, debited, ?_⟩
  rcases Fallible.run_bind_error ran with failed | ⟨_, locked, collected, ran⟩
  · exact failed
  rcases Fallible.run_bind_error ran with failed | ⟨dealId, _, took, ran⟩
  · cases failed
  cases took
  rcases Fallible.run_bind_error ran with failed | ⟨_, _, transitioned, ran⟩
  · cases (checked_ends.error failed).1
  · cases ran

end

section

variable {state : Funded JitcaCompiler (Metered L)}

theorem compile_ends : Ends (JitcaCompiler.compile (metered ledger) scale intent acceptance currentEpoch) state
    (fun deal next =>
      deal = dealOfTerms state.manager.config intent acceptance state.manager.nextDealId currentEpoch ∧
        next.manager.deals = state.manager.deals.insert intent.intentId deal ∧
        next.manager.nextDealId = state.manager.nextDealId + 1 ∧
        next.ledger.debited = state.ledger.debited + worth deal ∧ next.ledger.credited = state.ledger.credited)
    fun _ next => next.manager = state.manager ∧ next.ledger.credited = state.ledger.credited := by
  refine ends_self.weaken (fun deal next ran => ?_) fun error next ran => ?_
  · obtain ⟨paid, locked, debited, collected, deal_eq, rfl⟩ := compile_steps ran
    obtain ⟨-, clientPaid, clientCredited⟩ := debit_ends.ok debited
    obtain ⟨-, providerPaid, providerCredited⟩ := debit_ends.ok collected
    refine ⟨deal_eq, rfl, rfl, ?_, providerCredited.trans clientCredited⟩
    show locked.ledger.debited = _
    rw [providerPaid, clientPaid, deal_eq, Nat.add_assoc]
    rfl
  · rcases compile_fails ran with rfl | ⟨totalPayment, -, failed | ⟨paid, debited, failed⟩⟩
    · exact ⟨rfl, rfl⟩
    · exact ⟨(debit_ends.error failed).1, (debit_ends.error failed).2.2⟩
    · obtain ⟨client, -, clientCredited⟩ := debit_ends.ok debited
      obtain ⟨provider, -, providerCredited⟩ := debit_ends.error failed
      exact ⟨provider.trans client, providerCredited.trans clientCredited⟩

end

end

section

variable {compiler next : JitcaCompiler} {order : HashMap.Order} {dealId currentEpoch : UInt64} {intentId : Hash}
  {stored : StorageDeal}

theorem findDeal_some (found : compiler.findDeal order dealId = some (intentId, stored)) :
    compiler.deals.lookup intentId = some stored ∧ stored.dealId = dealId := by
  unfold JitcaCompiler.findDeal at found
  have member := HashMap.Order.mem_iterate.mp (List.mem_of_find?_eq_some found)
  exact ⟨HashMap.mem_pairs.mp member, by simpa using List.find?_some found⟩

theorem findDeal_exists (order : HashMap.Order) (held : compiler.deals.lookup intentId = some stored)
    (id : stored.dealId = dealId) : ∃ other found, compiler.findDeal order dealId = some (other, found) := by
  have member : (intentId, stored) ∈ order.iterate (HashMap.pairs compiler.deals) :=
    HashMap.Order.mem_iterate.mpr (HashMap.mem_pairs.mpr held)
  cases found : compiler.findDeal order dealId with
  | some entry => exact ⟨entry.1, entry.2, rfl⟩
  | none =>
    unfold JitcaCompiler.findDeal at found
    have none := List.find?_eq_none.mp found _ member
    exact absurd (decide_eq_true id) none

theorem activated_ok {deal : StorageDeal} :
    JitcaCompiler.activated stored currentEpoch = .ok deal ↔
      stored.status = .pendingActivation ∧ currentEpoch ≤ stored.activationDeadline ∧
        deal = { stored with status := .active, startEpoch := some currentEpoch } := by
  unfold JitcaCompiler.activated
  by_cases pending : stored.status = .pendingActivation
  · by_cases late : currentEpoch > stored.activationDeadline
    · simp only [pending, ne_eq, not_true_eq_false, if_false, if_pos late, true_and]
      constructor
      · intro failed
        cases failed
      · rintro ⟨early, -⟩
        exact absurd early (UInt64.not_le.mpr late)
    · simp only [pending, ne_eq, not_true_eq_false, if_false, if_neg late, true_and]
      unfold StorageDeal.transitionTo
      rw [if_pos (by rw [pending]; rfl)]
      constructor
      · intro moved
        cases moved
        exact ⟨UInt64.not_lt.mp late, rfl⟩
      · rintro ⟨-, rfl⟩
        rfl
  · simp only [ne_eq, pending, not_false_eq_true, if_true, false_and, iff_false]
    intro failed
    cases failed

theorem activateDeal_ok (activates : compiler.activateDeal order dealId currentEpoch = .ok next) :
    ∃ intentId stored, compiler.deals.lookup intentId = some stored ∧ stored.dealId = dealId ∧
      stored.status = .pendingActivation ∧
      next = { compiler with deals :=
        compiler.deals.insert intentId { stored with status := .active, startEpoch := some currentEpoch } } := by
  unfold JitcaCompiler.activateDeal at activates
  cases found : compiler.findDeal order dealId with
  | none =>
    rw [found] at activates
    cases activates
  | some entry =>
    obtain ⟨intentId, stored⟩ := entry
    rw [found] at activates
    obtain ⟨deal, active, result⟩ := Fallible.bind_ok activates
    obtain ⟨pending, -, rfl⟩ := activated_ok.mp active
    cases result
    obtain ⟨held, id⟩ := findDeal_some found
    exact ⟨intentId, stored, held, id, pending, rfl⟩

theorem activateDeal_of_pending (found : compiler.findDeal order dealId = some (intentId, stored))
    (pending : stored.status = .pendingActivation) (early : currentEpoch ≤ stored.activationDeadline) :
    ∃ next, compiler.activateDeal order dealId currentEpoch = .ok next := by
  unfold JitcaCompiler.activateDeal
  rw [found]
  dsimp only
  rw [activated_ok.mpr ⟨pending, early, rfl⟩]
  exact ⟨_, rfl⟩

end

section

variable {L : Type} {scale : Scale} {run : Compilation L}

theorem ids_nodup {count : Nat} (few : count ≤ 2 ^ 64) :
    ((List.range count).map fun i => UInt64.ofNat (i + 1)).Nodup := by
  refine List.Nodup.map_on ?_ List.nodup_range
  intro i below j bound same
  rw [List.mem_range] at below bound
  have values := congrArg UInt64.toNat same
  rw [UInt64.toNat_ofNat', UInt64.toNat_ofNat'] at values
  omega

theorem Tracked.distinct (tracked : Tracked run) : (run.returned.map StorageDeal.dealId).Nodup := by
  rw [tracked.ids]
  exact ids_nodup tracked.few

theorem Tracked.found (tracked : Tracked run) {deal : StorageDeal} (member : deal ∈ run.returned)
    (order : HashMap.Order) : ∃ stored,
      run.state.manager.findDeal order deal.dealId = some (deal.refIntent, stored) ∧ terms stored = deal := by
  obtain ⟨held, kept, same⟩ := tracked.kept deal member
  have id : (terms held).dealId = deal.dealId := congrArg StorageDeal.dealId same
  obtain ⟨intentId, stored, found⟩ := findDeal_exists order kept id
  obtain ⟨lookup, storedId⟩ := findDeal_some found
  obtain ⟨origin, ref⟩ := tracked.origin intentId stored lookup
  have equal : terms stored = deal := List.inj_on_of_nodup_map tracked.distinct origin member storedId
  have ref_eq : deal.refIntent = intentId := by
    rw [← equal]
    exact ref
  rw [ref_eq]
  exact ⟨stored, found, equal⟩

theorem Tracked.noneLost (tracked : Tracked run) : NoneLost run where
  distinct := tracked.distinct
  stays deal member order := by
    obtain ⟨stored, found, same⟩ := tracked.found member order
    exact ⟨_, stored, found, same⟩
  activates deal member unused order currentEpoch early := by
    obtain ⟨stored, found, same⟩ := tracked.found member order
    obtain ⟨lookup, id⟩ := findDeal_some found
    have pending := tracked.pending _ stored lookup (by rw [id]; exact unused)
    have deadline : (terms stored).activationDeadline = deal.activationDeadline :=
      congrArg StorageDeal.activationDeadline same
    exact activateDeal_of_pending found pending (deadline ▸ early)
  funded := tracked.funded

theorem tracked_new (config : JitcaConfig) (ledger : Metered L) : Tracked (Compilation.new config ledger) where
  few := Nat.zero_le _
  ids := rfl
  nextId := rfl
  kept deal member := absurd member List.not_mem_nil
  origin intentId stored held := by cases held
  pending intentId stored held := by cases held
  funded := rfl

theorem tracked_activate (tracked : Tracked run) {order : HashMap.Order} {dealId currentEpoch : UInt64} :
    Tracked (run.next scale (.activateDeal order dealId currentEpoch)) := by
  simp only [Compilation.next]
  cases activates : run.state.manager.activateDeal order dealId currentEpoch with
  | error error => exact tracked
  | ok compiler =>
    obtain ⟨intentId, old, held, id, -, rfl⟩ := activateDeal_ok activates
    have origin := tracked.origin intentId old held
    exact {
      few := tracked.few
      ids := tracked.ids
      nextId := tracked.nextId
      kept := by
        intro deal member
        obtain ⟨stored, lookup, same⟩ := tracked.kept deal member
        show ∃ stored, (run.deals.insert intentId _).lookup deal.refIntent = some stored ∧ _
        rw [HashMap.lookup_insert_eq]
        by_cases here : deal.refIntent = intentId
        · rw [if_pos here]
          rw [here, held] at lookup
          cases lookup
          exact ⟨_, rfl, same⟩
        · rw [if_neg here]
          exact ⟨stored, lookup, same⟩
      origin := by
        intro other stored lookup
        change (run.deals.insert intentId _).lookup other = some stored at lookup
        rw [HashMap.lookup_insert_eq] at lookup
        split at lookup
        · next here =>
          cases lookup
          rw [here]
          exact origin
        · exact tracked.origin other stored lookup
      pending := by
        intro other stored lookup unused
        change (run.deals.insert intentId _).lookup other = some stored at lookup
        rw [List.mem_append, not_or, List.mem_singleton] at unused
        rw [HashMap.lookup_insert_eq] at lookup
        split at lookup
        · cases lookup
          exact absurd id unused.2
        · exact tracked.pending other stored lookup unused.1
      funded := by
        have total := HashMap.total_insert worth run.deals intentId
          { old with status := .active, startEpoch := some currentEpoch }
        rw [held, tracked.funded] at total
        exact Nat.add_right_cancel total }

theorem tracked_compile (tracked : Tracked run) {ledger : Ledger L} {intent : StorageDealIntent}
    {acceptance : ProviderAcceptance} {currentEpoch : UInt64}
    (fresh : Fresh scale (.compile ledger intent acceptance currentEpoch) run) :
    Tracked (run.next scale (.compile ledger intent acceptance currentEpoch)) := by
  simp only [Compilation.next]
  cases ran : JitcaCompiler.compile (metered ledger) scale intent acceptance currentEpoch run.state with
  | error error state =>
    have manager := (compile_ends.error ran).1
    obtain ⟨after, ledger⟩ := state
    obtain rfl : after = run.state.manager := manager
    exact ⟨tracked.few, tracked.ids, tracked.nextId, tracked.kept, tracked.origin, tracked.pending, tracked.funded⟩
  | ok deal state =>
    obtain ⟨unused, few⟩ := fresh ⟨deal, state, ran⟩
    obtain ⟨deal_eq, deals_eq, next_eq, debited_eq, -⟩ := compile_ends.ok ran
    have ref : deal.refIntent = intent.intentId := by
      rw [deal_eq]
      rfl
    have same : terms deal = deal := by
      rw [deal_eq]
      rfl
    have length : (run.returned ++ [deal]).length = run.returned.length + 1 := List.length_append
    have lookup_eq : ∀ other, state.manager.deals.lookup other =
        if other = intent.intentId then some deal else run.deals.lookup other := by
      intro other
      rw [deals_eq, HashMap.lookup_insert_eq]
    exact {
      few := by
        show (run.returned ++ [deal]).length ≤ 2 ^ 64
        omega
      ids := by
        show (run.returned ++ [deal]).map StorageDeal.dealId =
          (List.range (run.returned ++ [deal]).length).map _
        rw [length, List.range_succ, List.map_append, List.map_append, tracked.ids, deal_eq]
        show _ ++ [run.state.manager.nextDealId] = _
        rw [tracked.nextId]
        rfl
      nextId := by
        show state.manager.nextDealId = UInt64.ofNat ((run.returned ++ [deal]).length + 1)
        rw [next_eq, tracked.nextId, length, UInt64.ofNat_add (run.returned.length + 1)]
        rfl
      kept := by
        intro other member
        show ∃ stored, state.manager.deals.lookup other.refIntent = some stored ∧ _
        rw [lookup_eq]
        rcases List.mem_append.mp member with earlier | last
        · obtain ⟨stored, lookup, terms_eq⟩ := tracked.kept other earlier
          have different : other.refIntent ≠ intent.intentId := by
            intro here
            rw [here, unused] at lookup
            cases lookup
          rw [if_neg different]
          exact ⟨stored, lookup, terms_eq⟩
        · rw [List.mem_singleton.mp last, if_pos ref]
          exact ⟨deal, rfl, same⟩
      origin := by
        intro other stored lookup
        change state.manager.deals.lookup other = some stored at lookup
        rw [lookup_eq] at lookup
        split at lookup
        · next here =>
          cases lookup
          rw [same, here]
          exact ⟨List.mem_append_right _ (List.mem_singleton_self _), ref⟩
        · obtain ⟨origin, refIntent⟩ := tracked.origin other stored lookup
          exact ⟨List.mem_append_left _ origin, refIntent⟩
      pending := by
        intro other stored lookup notActivated
        change state.manager.deals.lookup other = some stored at lookup
        rw [lookup_eq] at lookup
        split at lookup
        · cases lookup
          rw [deal_eq]
          rfl
        · exact tracked.pending other stored lookup notActivated
      funded := by
        show HashMap.total worth state.manager.deals =
          run.debited + (state.ledger.debited - run.state.ledger.debited)
        have total := HashMap.total_insert worth run.deals intent.intentId deal
        rw [unused, tracked.funded] at total
        rw [deals_eq, debited_eq, Nat.add_sub_cancel_left]
        exact total }

theorem fresh_of_noneLost (tracked : Tracked run) {call : JitcaCall L} (noneLost : NoneLost (run.next scale call)) :
    Fresh scale call run := by
  cases call with
  | activateDeal order dealId currentEpoch => trivial
  | compile ledger intent acceptance currentEpoch =>
    rintro ⟨deal, state, ran⟩
    obtain ⟨deal_eq, deals_eq, -, -⟩ := compile_ends.ok ran
    simp only [Compilation.next, ran] at noneLost
    have distinct := noneLost.distinct
    rw [List.map_append, List.map_singleton, List.nodup_append] at distinct
    have newId : ∀ other ∈ run.returned, other.dealId ≠ deal.dealId := fun other member =>
      distinct.2.2 _ (List.mem_map_of_mem member) _ (List.mem_singleton_self _)
    constructor
    · cases unused : run.deals.lookup intent.intentId with
      | none => rfl
      | some old =>
        exfalso
        obtain ⟨origin, ref⟩ := tracked.origin _ old unused
        obtain ⟨intentId, stored, found, same⟩ :=
          noneLost.stays _ (List.mem_append_left _ origin) HashMap.Order.stored
        obtain ⟨lookup, id⟩ := findDeal_some found
        change state.manager.deals.lookup intentId = some stored at lookup
        rw [deals_eq, HashMap.lookup_insert_eq] at lookup
        split at lookup
        · cases lookup
          exact newId _ origin id.symm
        · next other =>
          have storedRef := (tracked.origin intentId stored lookup).2
          have refs : (terms stored).refIntent = (terms old).refIntent := congrArg StorageDeal.refIntent same
          exact other (storedRef.symm.trans (refs.trans ref))
    · by_contra many
      have full : run.returned.length = 2 ^ 64 := Nat.le_antisymm tracked.few (Nat.le_of_not_lt many)
      have wrapped : deal.dealId = UInt64.ofNat (2 ^ 64 + 1) := by
        rw [deal_eq]
        show run.state.manager.nextDealId = _
        rw [tracked.nextId, full]
      have first : UInt64.ofNat (0 + 1) ∈ run.returned.map StorageDeal.dealId := by
        rw [tracked.ids, full]
        exact List.mem_map.mpr ⟨0, List.mem_range.mpr (by decide), rfl⟩
      obtain ⟨other, member, id⟩ := List.mem_map.mp first
      refine newId other member ?_
      rw [id, wrapped, ← UInt64.toNat_inj, UInt64.toNat_ofNat', UInt64.toNat_ofNat']
      rfl

/-- No compiled deal is ever lost exactly if every compile that succeeds is the first of its intent. -/
theorem none_lost_iff (scale : Scale) (config : JitcaConfig) (ledger : Metered L) (calls : List (JitcaCall L)) :
    (∀ before, before <+: calls → NoneLost (Runs.after (Compilation.next scale) (.new config ledger) before)) ↔
      ∀ before call, before ++ [call] <+: calls →
        Fresh scale call (Runs.after (Compilation.next scale) (.new config ledger) before) := by
  refine @Runs.invariant_iff _ _ (Compilation.next scale) (.new config ledger) calls NoneLost Tracked (Fresh scale)
    (fun _ _ => True) (tracked_new config ledger) (fun _ tracked => tracked.noneLost) ?_ ?_ fun _ _ _ => trivial
  · intro run call tracked _ fresh
    cases call with
    | compile ledger intent acceptance currentEpoch => exact tracked_compile tracked fresh
    | activateDeal order dealId currentEpoch => exact tracked_activate tracked
  · intro run call tracked _ noneLost
    exact fresh_of_noneLost tracked noneLost

end

section

def exactScale : Scale := fun units fraction => UInt64.ofNat ((units.toNat : ℚ) * fraction).floor.toNat

def jitcaConfig : JitcaConfig := ⟨1, 100, 50, true⟩

def alice : AccountAddress := ⟨Bytes32.replicate 1⟩

def bob : AccountAddress := ⟨Bytes32.replicate 2⟩

def carol : AccountAddress := ⟨Bytes32.replicate 3⟩

def threeAccounts : Metered (BalanceManager MemoryStorage) :=
  ⟨.new { MemoryStorage.new with
    balances := HashMap.ofPairs [(alice, ⟨1000⟩), (bob, ⟨1000⟩), (carol, ⟨1000⟩)] }, 0, 0⟩

def twoCopies : StorageDealIntent where
  deposit := ⟨1⟩
  timestamp := 0
  intentId := Bytes32.replicate 7
  client := alice
  dataCid := Bytes32.replicate 8
  dataSize := 4096
  durationEpochs := 10
  maxPricePerEpoch := ⟨5⟩
  requiredRedundancy := 2
  expiresAt := 86400
  finalityStatus := .f2Complete true
  finalizedAtEpoch := some 0

def acceptanceOf (provider : AccountAddress) (acceptanceId : Hash) : ProviderAcceptance where
  deposit := ⟨1⟩
  timestamp := 0
  acceptanceId := acceptanceId
  refIntent := Bytes32.replicate 7
  provider := provider
  offeredPricePerEpoch := ⟨5⟩
  collateralCommitment := ⟨50⟩
  providerReputation := 20
  finalityStatus := .f2Complete true
  finalizedAtEpoch := some 0

def compileWith (provider : AccountAddress) (acceptanceId : Hash) : JitcaCall (BalanceManager MemoryStorage) :=
  .compile (.ofBalanceManager (fun _ => Bytes32.replicate 0) 0) twoCopies (acceptanceOf provider acceptanceId) 1

theorem second_copy_overwrites :
    let run := Runs.after (Compilation.next exactScale) (.new jitcaConfig threeAccounts)
      [compileWith bob (Bytes32.replicate 11), compileWith carol (Bytes32.replicate 12)]
    run.returned.map StorageDeal.dealId = [1, 2] ∧ run.debited = 200 ∧ HashMap.total worth run.deals = 100 ∧
      (run.state.manager.findDeal .stored 1).isNone ∧ ¬NoneLost run := by
  have funds : ∀ {run : Compilation (BalanceManager MemoryStorage)}, run.debited = 200 →
      HashMap.total worth run.deals = 100 → ¬NoneLost run := by
    intro run debited stored noneLost
    have funded := noneLost.funded
    rw [debited, stored] at funded
    omega
  have debited : (Runs.after (Compilation.next exactScale) (.new jitcaConfig threeAccounts)
      [compileWith bob (Bytes32.replicate 11), compileWith carol (Bytes32.replicate 12)]).debited = 200 := by
    decide +kernel
  have stored : HashMap.total worth (Runs.after (Compilation.next exactScale) (.new jitcaConfig threeAccounts)
      [compileWith bob (Bytes32.replicate 11), compileWith carol (Bytes32.replicate 12)]).deals = 100 := by
    decide +kernel
  exact ⟨by decide +kernel, debited, stored, by decide +kernel, funds debited stored⟩

end

end AdicProof.StorageMarket
