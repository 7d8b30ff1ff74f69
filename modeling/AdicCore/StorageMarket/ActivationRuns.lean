import AdicCore.StorageMarket.CoordinatorEffects

open AdicModel.Economics

namespace AdicModel.StorageMarket

/-- How far a call of `activateDeal` has come. It holds no guard between its steps. -/
inductive ActivationPhase where
  | epochRead (dealId : UInt64) (activation : DealActivation) (currentEpoch : UInt64)
  | rootSet (dealId currentEpoch : UInt64)
  | compilerAsked (dealId currentEpoch : UInt64)

def ActivationPhase.dealId : ActivationPhase → UInt64
  | .epochRead dealId _ _ => dealId
  | .rootSet dealId _ => dealId
  | .compilerAsked dealId _ => dealId

structure ActivatingMarket where
  coordinator : StorageMarketCoordinator
  calls : HashMap.Table Nat ActivationPhase

inductive ActivationStep where
  | advanceEpoch
  | readEpoch (call : Nat) (dealId : UInt64) (activation : DealActivation)
  | setRoot (call : Nat)
  | askCompiler (call : Nat) (order : HashMap.Order)
  | updateDeal (call : Nat)

def ActivationStep.caller : ActivationStep → Option Nat
  | .advanceEpoch => none
  | .readEpoch call _ _ => some call
  | .setRoot call => some call
  | .askCompiler call _ => some call
  | .updateDeal call => some call

namespace ActivatingMarket

abbrev Outcome := Option (Except StorageMarketError Unit)

section

variable (market : ActivatingMarket) (call : Nat)

def goesOn (coordinator : StorageMarketCoordinator) (phase : ActivationPhase) : ActivatingMarket × Outcome :=
  (⟨coordinator, market.calls.insert call phase⟩, none)

def returns (coordinator : StorageMarketCoordinator) (result : Except StorageMarketError Unit) :
    ActivatingMarket × Outcome :=
  (⟨coordinator, market.calls.erase call⟩, some result)

/-- The root is set before the compiler is asked. -/
def setRoot (dealId : UInt64) (activation : DealActivation) (currentEpoch : UInt64) : ActivatingMarket × Outcome :=
  match market.coordinator.activeDeals.lookup dealId with
  | none => market.returns call market.coordinator (.error (.dealNotFound dealId))
  | some deal =>
    if deal.status ≠ .pendingActivation then
      market.returns call market.coordinator (.error (.invalidStateTransition deal.status.debug "Active"))
    else
      let rooted := { deal with proofMerkleRoot := some activation.dataMerkleRoot }
      market.goesOn call
        { market.coordinator with activeDeals := market.coordinator.activeDeals.insert dealId rooted }
        (.rootSet dealId currentEpoch)

def askCompiler (order : HashMap.Order) (dealId currentEpoch : UInt64) : ActivatingMarket × Outcome :=
  match market.coordinator.jitcaCompiler.activateDeal order dealId currentEpoch with
  | .error error => market.returns call market.coordinator (.error error)
  | .ok compiler =>
    market.goesOn call { market.coordinator with jitcaCompiler := compiler } (.compilerAsked dealId currentEpoch)

def updateDeal (dealId currentEpoch : UInt64) : ActivatingMarket × Outcome :=
  match market.coordinator.activeDeals.lookup dealId with
  | none => market.returns call market.coordinator (.ok ())
  | some deal =>
    match deal.transitionTo .active with
    | .error error => market.returns call market.coordinator (.error error)
    | .ok active =>
      let started := { active with startEpoch := some currentEpoch }
      market.returns call
        { market.coordinator with activeDeals := market.coordinator.activeDeals.insert dealId started } (.ok ())

end

/-- A step that is not enabled does nothing. -/
def step (market : ActivatingMarket) : ActivationStep → ActivatingMarket × Outcome
  | .advanceEpoch =>
    ({ market with
      coordinator := { market.coordinator with currentEpoch := market.coordinator.currentEpoch + 1 } }, none)
  | .readEpoch call dealId activation =>
    match market.calls.lookup call with
    | none => market.goesOn call market.coordinator (.epochRead dealId activation market.coordinator.currentEpoch)
    | some _ => (market, none)
  | .setRoot call =>
    match market.calls.lookup call with
    | some (.epochRead dealId activation currentEpoch) => market.setRoot call dealId activation currentEpoch
    | _ => (market, none)
  | .askCompiler call order =>
    match market.calls.lookup call with
    | some (.rootSet dealId currentEpoch) => market.askCompiler call order dealId currentEpoch
    | _ => (market, none)
  | .updateDeal call =>
    match market.calls.lookup call with
    | some (.compilerAsked dealId currentEpoch) => market.updateDeal call dealId currentEpoch
    | _ => (market, none)

def next (market : ActivatingMarket) (step : ActivationStep) : ActivatingMarket := (market.step step).1

end ActivatingMarket

end AdicModel.StorageMarket

open AdicModel AdicModel.StorageMarket Calls

namespace AdicProof.StorageMarket

def CopiesAgree (coordinator : StorageMarketCoordinator) (dealId : UInt64) : Prop :=
  ∀ deal, coordinator.activeDeals.lookup dealId = some deal →
    ∀ intentId copy, coordinator.jitcaCompiler.deals.lookup intentId = some copy → copy.dealId = dealId →
      copy.status = deal.status ∧ copy.startEpoch = deal.startEpoch

/-- The copies of the named deals agree. -/
structure Paired (named : UInt64 → Prop) (coordinator : StorageMarketCoordinator) : Prop where
  unique : ∀ intentId other copy rival, coordinator.jitcaCompiler.deals.lookup intentId = some copy →
    coordinator.jitcaCompiler.deals.lookup other = some rival → copy.dealId = rival.dealId → intentId = other
  agree : ∀ dealId, named dealId → CopiesAgree coordinator dealId

def Updating (market : ActivatingMarket) (dealId : UInt64) : Prop :=
  ∃ call currentEpoch, market.calls.lookup call = some (.compilerAsked dealId currentEpoch)

structure Coherent (named : UInt64 → Prop) (market : ActivatingMarket) : Prop where
  unique : ∀ intentId other copy rival, market.coordinator.jitcaCompiler.deals.lookup intentId = some copy →
    market.coordinator.jitcaCompiler.deals.lookup other = some rival → copy.dealId = rival.dealId → intentId = other
  single : ∀ call other dealId epoch later, market.calls.lookup call = some (.compilerAsked dealId epoch) →
    market.calls.lookup other = some (.compilerAsked dealId later) → call = other
  asked : ∀ call dealId epoch, market.calls.lookup call = some (.compilerAsked dealId epoch) →
    (∃ intentId copy, market.coordinator.jitcaCompiler.deals.lookup intentId = some copy ∧ copy.dealId = dealId ∧
      copy.status = .active ∧ copy.startEpoch = some epoch) ∧
    ∃ deal, market.coordinator.activeDeals.lookup dealId = some deal ∧ deal.status = .pendingActivation
  names : ∀ call phase, market.calls.lookup call = some phase → named phase.dealId
  agree : ∀ dealId, named dealId → ¬Updating market dealId → CopiesAgree market.coordinator dealId
  held : ∀ call dealId epoch, market.calls.lookup call = some (.rootSet dealId epoch) →
    (market.coordinator.activeDeals.lookup dealId).isSome

variable {named : UInt64 → Prop} {coordinator : StorageMarketCoordinator}

section

variable {market : ActivatingMarket} {call : Nat} {dealId currentEpoch : UInt64} {activation : DealActivation}
  {order : HashMap.Order}

theorem coherent_new (paired : Paired named coordinator) :
    Coherent named ⟨coordinator, ∅⟩ where
  unique := paired.unique
  single _ _ _ _ _ found := by cases found
  asked _ _ _ found := by cases found
  names _ _ found := by cases found
  agree dealId names _ := paired.agree dealId names
  held _ _ _ found := by cases found

theorem coherent_calls {calls : HashMap.Table Nat ActivationPhase} (coherent : Coherent named market)
    (names : ∀ other phase, calls.lookup other = some phase → named phase.dealId)
    (asked : ∀ other dealId epoch, calls.lookup other = some (.compilerAsked dealId epoch) ↔
      market.calls.lookup other = some (.compilerAsked dealId epoch))
    (held : ∀ other dealId epoch, calls.lookup other = some (.rootSet dealId epoch) →
      (market.coordinator.activeDeals.lookup dealId).isSome) : Coherent named ⟨market.coordinator, calls⟩ where
  unique := coherent.unique
  single first second dealId epoch later one two :=
    coherent.single first second dealId epoch later ((asked ..).mp one) ((asked ..).mp two)
  asked other dealId epoch found := coherent.asked other dealId epoch ((asked ..).mp found)
  names := names
  agree dealId names idle := by
    refine coherent.agree dealId names fun ⟨other, epoch, found⟩ => idle ⟨other, epoch, (asked ..).mpr found⟩
  held := held

def progress (deal : StorageDeal) : StorageDealStatus × Option UInt64 := (deal.status, deal.startEpoch)

section

variable (coherent : Coherent named market)

include coherent

theorem names_insert {phase : ActivationPhase} (names : named phase.dealId) (other : Nat) (later : ActivationPhase)
    (held : (market.calls.insert call phase).lookup other = some later) : named later.dealId := by
  rw [HashMap.lookup_insert_eq] at held
  split at held
  · cases held
    exact names
  · exact coherent.names other later held

theorem names_erase (other : Nat) (later : ActivationPhase)
    (held : (market.calls.erase call).lookup other = some later) : named later.dealId := by
  rw [HashMap.lookup_erase_eq] at held
  split at held
  · cases held
  · exact coherent.names other later held

theorem coherent_deals {deals : HashMap.Table UInt64 StorageDeal}
    (same : ∀ other, (deals.lookup other).map progress = (market.coordinator.activeDeals.lookup other).map progress) :
    Coherent named ⟨{ market.coordinator with activeDeals := deals }, market.calls⟩ := by
  have after : ∀ {other old}, market.coordinator.activeDeals.lookup other = some old →
      ∃ deal, deals.lookup other = some deal ∧ progress deal = progress old := by
    intro other old found
    have mapped := same other
    rw [found, Option.map_some] at mapped
    exact Option.map_eq_some_iff.mp mapped
  refine ⟨coherent.unique, coherent.single, fun other dealId epoch found => ?_, coherent.names,
    fun dealId names idle deal found => ?_, fun other dealId epoch found => ?_⟩
  · obtain ⟨copied, old, heldBefore, pending⟩ := coherent.asked other dealId epoch found
    obtain ⟨deal, held, kept⟩ := after heldBefore
    exact ⟨copied, deal, held, (congrArg Prod.fst kept).trans pending⟩
  · have mapped := same dealId
    rw [found, Option.map_some] at mapped
    obtain ⟨old, heldBefore, kept⟩ := Option.map_eq_some_iff.mp mapped.symm
    rw [← show old.status = deal.status from congrArg Prod.fst kept,
      ← show old.startEpoch = deal.startEpoch from congrArg Prod.snd kept]
    exact coherent.agree dealId names idle old heldBefore
  · obtain ⟨old, heldBefore⟩ := Option.isSome_iff_exists.mp (coherent.held other dealId epoch found)
    obtain ⟨deal, held, -⟩ := after heldBefore
    exact Option.isSome_iff_exists.mpr ⟨deal, held⟩

theorem coherent_asked {compiler : JitcaCompiler}
    (phase : market.calls.lookup call = some (.rootSet dealId currentEpoch))
    (activates : market.coordinator.jitcaCompiler.activateDeal order dealId currentEpoch = .ok compiler) :
    Coherent named ⟨{ market.coordinator with jitcaCompiler := compiler },
      market.calls.insert call (.compilerAsked dealId currentEpoch)⟩ := by
  obtain ⟨intentId, stored, found, storedId, pending, rfl⟩ := activateDeal_ok activates
  have idle : ¬Updating market dealId := by
    rintro ⟨other, epoch, asked⟩
    obtain ⟨⟨key, copy, held, copyId, active, -⟩, -⟩ := coherent.asked other dealId epoch asked
    obtain rfl := coherent.unique intentId key stored copy found held (storedId.trans copyId.symm)
    rw [found] at held
    cases held
    rw [pending] at active
    cases active
  have lookup_eq : ∀ key, (market.coordinator.jitcaCompiler.deals.insert intentId
      { stored with status := .active, startEpoch := some currentEpoch }).lookup key =
        if key = intentId then some { stored with status := .active, startEpoch := some currentEpoch }
        else market.coordinator.jitcaCompiler.deals.lookup key := fun key => HashMap.lookup_insert_eq ..
  have before : ∀ {key copy}, (market.coordinator.jitcaCompiler.deals.insert intentId
      { stored with status := .active, startEpoch := some currentEpoch }).lookup key = some copy →
        ∃ old, market.coordinator.jitcaCompiler.deals.lookup key = some old ∧ old.dealId = copy.dealId := by
    intro key copy held
    rw [lookup_eq] at held
    split at held
    · next same =>
      cases held
      subst same
      exact ⟨stored, found, rfl⟩
    · exact ⟨copy, held, rfl⟩
  have others : ∀ {key copy}, copy.dealId ≠ dealId → (market.coordinator.jitcaCompiler.deals.lookup key = some copy ↔
      (market.coordinator.jitcaCompiler.deals.insert intentId
        { stored with status := .active, startEpoch := some currentEpoch }).lookup key = some copy) := by
    intro key copy different
    rw [lookup_eq]
    split
    · next same =>
      subst same
      rw [found]
      constructor
      · intro held
        cases held
        exact absurd storedId different
      · intro held
        cases held
        exact absurd storedId different
    · exact Iff.rfl
  have calls : ∀ {other id epoch}, (market.calls.insert call (.compilerAsked dealId currentEpoch)).lookup other =
      some (.compilerAsked id epoch) → other = call ∧ id = dealId ∧ epoch = currentEpoch ∨
        id ≠ dealId ∧ market.calls.lookup other = some (.compilerAsked id epoch) := by
    intro other id epoch asked
    rw [HashMap.lookup_insert_eq] at asked
    split at asked
    · next same =>
      cases asked
      exact Or.inl ⟨same, rfl, rfl⟩
    · refine Or.inr ⟨fun same => idle ⟨other, epoch, ?_⟩, asked⟩
      rw [asked, same]
  refine ⟨fun key other copy rival held heldOther same => ?_, fun first second id epoch later one two => ?_,
    fun other id epoch asked => ?_, names_insert coherent (coherent.names call (.rootSet dealId currentEpoch) phase),
    fun id names quiet deal held key copy heldCopy copyId => ?_, fun other id epoch rooted => ?_⟩
  · obtain ⟨old, heldOld, oldId⟩ := before held
    obtain ⟨oldRival, heldRival, rivalId⟩ := before heldOther
    exact coherent.unique key other old oldRival heldOld heldRival (oldId.trans (same.trans rivalId.symm))
  · rcases calls one with ⟨rfl, rfl, -⟩ | ⟨different, one⟩
    · rcases calls two with ⟨rfl, -, -⟩ | ⟨different, -⟩
      · rfl
      · exact absurd rfl different
    · rcases calls two with ⟨-, same, -⟩ | ⟨-, two⟩
      · exact absurd same different
      · exact coherent.single first second id epoch later one two
  · rcases calls asked with ⟨rfl, rfl, rfl⟩ | ⟨different, asked⟩
    · obtain ⟨deal, held⟩ := Option.isSome_iff_exists.mp (coherent.held _ _ _ phase)
      exact ⟨⟨intentId, _, (lookup_eq intentId).trans (if_pos rfl), storedId, rfl, rfl⟩, deal, held,
        (coherent.agree _ (coherent.names _ _ phase) idle deal held intentId stored found storedId).1.symm.trans pending⟩
    · obtain ⟨⟨key, copy, held, copyId, active, started⟩, waiting⟩ := coherent.asked other id epoch asked
      exact ⟨⟨key, copy, (others (copyId.trans_ne different)).mp held, copyId, active, started⟩, waiting⟩
  · have different : id ≠ dealId := by
      rintro rfl
      exact quiet ⟨call, currentEpoch, HashMap.lookup_insert_eq .. |>.trans (if_pos rfl)⟩
    have quietBefore : ¬Updating market id := by
      rintro ⟨other, epoch, asked⟩
      refine quiet ⟨other, epoch, ?_⟩
      rw [HashMap.lookup_insert_eq]
      split
      · next same =>
        rw [same, phase] at asked
        cases asked
      · exact asked
    exact coherent.agree id names quietBefore deal held key copy ((others (copyId.trans_ne different)).mpr heldCopy) copyId
  · rw [HashMap.lookup_insert_eq] at rooted
    split at rooted
    · cases rooted
    · exact coherent.held other id epoch rooted

theorem coherent_updated {deal : StorageDeal}
    (phase : market.calls.lookup call = some (.compilerAsked dealId currentEpoch))
    (updated : progress deal = (.active, some currentEpoch)) :
    Coherent named ⟨{ market.coordinator with activeDeals := market.coordinator.activeDeals.insert dealId deal },
      market.calls.erase call⟩ := by
  obtain ⟨⟨intentId, stored, found, storedId, active, started⟩, -⟩ := coherent.asked call dealId currentEpoch phase
  have calls : ∀ {other id epoch}, (market.calls.erase call).lookup other = some (.compilerAsked id epoch) →
      id ≠ dealId ∧ market.calls.lookup other = some (.compilerAsked id epoch) := by
    intro other id epoch asked
    rw [HashMap.lookup_erase_eq] at asked
    split at asked
    · cases asked
    · next different =>
      refine ⟨?_, asked⟩
      rintro rfl
      exact different (coherent.single other call id epoch currentEpoch asked phase)
  refine ⟨coherent.unique, fun first second id epoch later one two => ?_, fun other id epoch asked => ?_,
    names_erase coherent, fun id names quiet held heldDeal key copy heldCopy copyId => ?_,
    fun other id epoch rooted => ?_⟩
  · exact coherent.single first second id epoch later (calls one).2 (calls two).2
  · obtain ⟨different, asked⟩ := calls asked
    obtain ⟨copied, waiting, heldDeal, pending⟩ := coherent.asked other id epoch asked
    refine ⟨copied, waiting, ?_, pending⟩
    rw [HashMap.lookup_insert_eq, if_neg different]
    exact heldDeal
  · rw [HashMap.lookup_insert_eq] at heldDeal
    split at heldDeal
    · next same =>
      subst same
      cases heldDeal
      obtain rfl := coherent.unique intentId key stored copy found heldCopy (storedId.trans copyId.symm)
      rw [found] at heldCopy
      cases heldCopy
      exact ⟨active.trans (congrArg Prod.fst updated).symm, started.trans (congrArg Prod.snd updated).symm⟩
    · next different =>
      refine coherent.agree id names ?_ held heldDeal key copy heldCopy copyId
      rintro ⟨other, epoch, asked⟩
      refine quiet ⟨other, epoch, ?_⟩
      rw [HashMap.lookup_erase_eq, if_neg]
      · exact asked
      · rintro rfl
        rw [phase] at asked
        cases asked
        exact different rfl
  · rw [HashMap.lookup_erase_eq] at rooted
    split at rooted
    · cases rooted
    · have present := coherent.held other id epoch rooted
      rw [HashMap.lookup_insert_eq]
      split
      · rfl
      · exact present

theorem coherent_returns (early : ∀ dealId epoch, market.calls.lookup call ≠ some (.compilerAsked dealId epoch)) :
    Coherent named ⟨market.coordinator, market.calls.erase call⟩ := by
  refine coherent_calls coherent (names_erase coherent) (fun other dealId epoch => ?_)
    fun other dealId epoch rooted => ?_
  · rw [HashMap.lookup_erase_eq]
    split
    · next same =>
      subst same
      exact ⟨nofun, fun asked => absurd asked (early dealId epoch)⟩
    · exact Iff.rfl
  · rw [HashMap.lookup_erase_eq] at rooted
    split at rooted
    · cases rooted
    · exact coherent.held other dealId epoch rooted

theorem coherent_goesOn {phase : ActivationPhase} (names : named phase.dealId)
    (early : ∀ dealId epoch, market.calls.lookup call ≠ some (.compilerAsked dealId epoch))
    (stays : ∀ dealId epoch, phase ≠ .compilerAsked dealId epoch)
    (held : ∀ dealId epoch, phase = .rootSet dealId epoch → (market.coordinator.activeDeals.lookup dealId).isSome) :
    Coherent named ⟨market.coordinator, market.calls.insert call phase⟩ := by
  refine coherent_calls coherent (names_insert coherent names) (fun other dealId epoch => ?_)
    fun other dealId epoch rooted => ?_
  · rw [HashMap.lookup_insert_eq]
    split
    · next same =>
      subst same
      exact ⟨fun asked => absurd (Option.some.inj asked) (stays dealId epoch),
        fun asked => absurd asked (early dealId epoch)⟩
    · exact Iff.rfl
  · rw [HashMap.lookup_insert_eq] at rooted
    split at rooted
    · exact held dealId epoch (Option.some.inj rooted)
    · exact coherent.held other dealId epoch rooted

theorem coherent_setRoot {epoch : UInt64}
    (phase : market.calls.lookup call = some (.epochRead dealId activation epoch)) :
    Coherent named (market.setRoot call dealId activation epoch).1 := by
  have early : ∀ dealId epoch, market.calls.lookup call ≠ some (.compilerAsked dealId epoch) := by
    intro dealId epoch asked
    rw [phase] at asked
    cases asked
  unfold ActivatingMarket.setRoot
  cases found : market.coordinator.activeDeals.lookup dealId with
  | none => exact coherent_returns coherent early
  | some deal =>
    dsimp only
    split
    · exact coherent_returns coherent early
    · refine coherent_goesOn (coherent_deals coherent fun other => ?_) (coherent.names call (.epochRead ..) phase) early nofun
        fun id later same => ?_
      · rw [HashMap.lookup_insert_eq]
        split
        · next same =>
          rw [same, found]
          rfl
        · rfl
      · cases same
        exact Option.isSome_iff_exists.mpr ⟨_, (HashMap.lookup_insert_eq ..).trans (if_pos rfl)⟩

theorem coherent_askCompiler (phase : market.calls.lookup call = some (.rootSet dealId currentEpoch)) :
    Coherent named (market.askCompiler call order dealId currentEpoch).1 := by
  unfold ActivatingMarket.askCompiler
  cases activates : market.coordinator.jitcaCompiler.activateDeal order dealId currentEpoch with
  | error error =>
    refine coherent_returns coherent fun dealId epoch asked => ?_
    rw [phase] at asked
    cases asked
  | ok compiler => exact coherent_asked coherent phase activates

theorem coherent_updateDeal (phase : market.calls.lookup call = some (.compilerAsked dealId currentEpoch)) :
    Coherent named (market.updateDeal call dealId currentEpoch).1 ∧
      ∀ error, (market.updateDeal call dealId currentEpoch).2 ≠ some (.error error) := by
  obtain ⟨-, deal, found, pending⟩ := coherent.asked call dealId currentEpoch phase
  have moved : deal.transitionTo .active = .ok { deal with status := .active } := by
    unfold StorageDeal.transitionTo
    rw [pending]
    rfl
  unfold ActivatingMarket.updateDeal
  rw [found]
  dsimp only
  rw [moved]
  exact ⟨coherent_updated coherent phase rfl, nofun⟩

end

inductive Takes (market : ActivatingMarket) : ActivationStep → ActivatingMarket × ActivatingMarket.Outcome → Prop where
  | ticks : Takes market .advanceEpoch ({ market with
      coordinator := { market.coordinator with currentEpoch := market.coordinator.currentEpoch + 1 } }, none)
  | waits (step : ActivationStep) (late : ∀ call dealId activation epoch, step = .setRoot call →
      market.calls.lookup call ≠ some (.epochRead dealId activation epoch)) : Takes market step (market, none)
  | reads (call : Nat) (dealId : UInt64) (activation : DealActivation) (free : market.calls.lookup call = none) :
    Takes market (.readEpoch call dealId activation)
      (market.goesOn call market.coordinator (.epochRead dealId activation market.coordinator.currentEpoch))
  | sets (call : Nat) (dealId epoch : UInt64) (activation : DealActivation)
      (phase : market.calls.lookup call = some (.epochRead dealId activation epoch)) :
    Takes market (.setRoot call) (market.setRoot call dealId activation epoch)
  | asks (call : Nat) (order : HashMap.Order) (dealId epoch : UInt64)
      (phase : market.calls.lookup call = some (.rootSet dealId epoch)) :
    Takes market (.askCompiler call order) (market.askCompiler call order dealId epoch)
  | updates (call : Nat) (dealId epoch : UInt64)
      (phase : market.calls.lookup call = some (.compilerAsked dealId epoch)) :
    Takes market (.updateDeal call) (market.updateDeal call dealId epoch)

theorem takes_step (market : ActivatingMarket) (step : ActivationStep) : Takes market step (market.step step) := by
  unfold ActivatingMarket.step
  cases step with
  | advanceEpoch => exact .ticks
  | readEpoch call dealId activation =>
    dsimp only
    split
    · next free => exact .reads call dealId activation free
    · exact .waits _ nofun
  | setRoot call =>
    dsimp only
    split
    · next dealId activation epoch phase => exact .sets call dealId epoch activation phase
    · next late =>
      refine .waits _ fun other dealId activation epoch same => ?_
      cases same
      exact late dealId activation epoch
  | askCompiler call order =>
    dsimp only
    split
    · next dealId epoch phase => exact .asks call order dealId epoch phase
    · exact .waits _ nofun
  | updateDeal call =>
    dsimp only
    split
    · next dealId epoch phase => exact .updates call dealId epoch phase
    · exact .waits _ nofun

/-- The deal of a new call is a named one. -/
def NamedBy (named : UInt64 → Prop) : ActivationStep → Prop
  | .readEpoch _ dealId _ => named dealId
  | _ => True

theorem coherent_next {step : ActivationStep} (names : NamedBy named step) (coherent : Coherent named market) :
    Coherent named (market.next step) := by
  unfold ActivatingMarket.next
  have took := takes_step market step
  generalize market.step step = taken at took ⊢
  cases took with
  | ticks => exact ⟨coherent.unique, coherent.single, coherent.asked, coherent.names, coherent.agree, coherent.held⟩
  | waits => exact coherent
  | reads call dealId activation free =>
    refine coherent_goesOn coherent names (fun dealId epoch asked => ?_) nofun nofun
    rw [free] at asked
    cases asked
  | sets call dealId epoch activation phase => exact coherent_setRoot coherent phase
  | asks call order dealId epoch phase => exact coherent_askCompiler coherent phase
  | updates call dealId epoch phase => exact (coherent_updateDeal coherent phase).1

end

structure WatchedMarket where
  market : ActivatingMarket
  written : Nat → Option (StorageDeal × StorageDeal)

namespace WatchedMarket

def new (coordinator : StorageMarketCoordinator) : WatchedMarket := ⟨⟨coordinator, ∅⟩, fun _ => none⟩

def begun (watched : WatchedMarket) (call other : Nat) : Option (StorageDeal × StorageDeal) :=
  if other = call ∧ (watched.market.calls.lookup call).isNone then none else watched.written other

def rooted (watched : WatchedMarket) (call other : Nat) : Option (StorageDeal × StorageDeal) :=
  if other = call then
    match watched.market.calls.lookup call with
    | some (.epochRead dealId _ _) => do
      let found ← watched.market.coordinator.activeDeals.lookup dealId
      let left ← (watched.market.next (.setRoot call)).coordinator.activeDeals.lookup dealId
      return (found, left)
    | _ => watched.written other
  else watched.written other

def writtenNext (watched : WatchedMarket) : ActivationStep → Nat → Option (StorageDeal × StorageDeal)
  | .readEpoch call _ _ => watched.begun call
  | .setRoot call => watched.rooted call
  | _ => watched.written

def next (watched : WatchedMarket) (step : ActivationStep) : WatchedMarket :=
  ⟨watched.market.next step, watched.writtenNext step⟩

end WatchedMarket

def kept (deal : StorageDeal) : Option Bytes32 × StorageDealStatus × Option UInt64 :=
  (deal.proofMerkleRoot, deal.status, deal.startEpoch)

/-- A call that returns an error has changed nothing of its deal, and the two copies agree afterwards. -/
def FailsCleanly (watched : WatchedMarket) (step : ActivationStep) : Prop :=
  ∀ call phase error, step.caller = some call → watched.market.calls.lookup call = some phase →
    (watched.market.step step).2 = some (.error error) →
      (∀ found left, watched.written call = some (found, left) → kept left = kept found) ∧
      ((watched.next step).market.coordinator.activeDeals.lookup phase.dealId).map kept =
        (watched.market.coordinator.activeDeals.lookup phase.dealId).map kept ∧
      CopiesAgree (watched.next step).market.coordinator phase.dealId

/-- A call that the compiler refuses has found the root that it wrote, and no other call is updating the deal. -/
def RefusedInTime (watched : WatchedMarket) : ActivationStep → Prop
  | .askCompiler call order => ∀ dealId currentEpoch error,
    watched.market.calls.lookup call = some (.rootSet dealId currentEpoch) →
      watched.market.coordinator.jitcaCompiler.activateDeal order dealId currentEpoch = .error error →
        (∀ found left, watched.written call = some (found, left) → left.proofMerkleRoot = found.proofMerkleRoot) ∧
          ¬Updating watched.market dealId
  | _ => True

structure Watches (named : UInt64 → Prop) (watched : WatchedMarket) : Prop where
  coherent : Coherent named watched.market
  unwritten : ∀ call dealId activation currentEpoch,
    watched.market.calls.lookup call = some (.epochRead dealId activation currentEpoch) → watched.written call = none
  rootOnly : ∀ call found left, watched.written call = some (found, left) → progress left = progress found

section

variable {watched : WatchedMarket} {market : ActivatingMarket} {call other : Nat} {step : ActivationStep}
  {dealId currentEpoch : UInt64} {activation : DealActivation}

theorem read_returns {result : Except StorageMarketError Unit}
    (read : (market.returns call coordinator result).1.calls.lookup other =
      some (.epochRead dealId activation currentEpoch)) :
    other ≠ call ∧ market.calls.lookup other = some (.epochRead dealId activation currentEpoch) := by
  change (market.calls.erase call).lookup other = _ at read
  rw [HashMap.lookup_erase_eq] at read
  split at read
  · cases read
  · next different => exact ⟨different, read⟩

theorem read_goesOn {phase : ActivationPhase}
    (read : (market.goesOn call coordinator phase).1.calls.lookup other =
      some (.epochRead dealId activation currentEpoch))
    (later : ∀ dealId activation currentEpoch, phase ≠ .epochRead dealId activation currentEpoch) :
    other ≠ call ∧ market.calls.lookup other = some (.epochRead dealId activation currentEpoch) := by
  change (market.calls.insert call phase).lookup other = _ at read
  rw [HashMap.lookup_insert_eq] at read
  split at read
  · exact absurd (Option.some.inj read) (later dealId activation currentEpoch)
  · next different => exact ⟨different, read⟩

theorem read_next (read : (market.next step).calls.lookup other = some (.epochRead dealId activation currentEpoch)) :
    market.calls.lookup other = none ∧ (∃ dealId activation, step = .readEpoch other dealId activation) ∨
      market.calls.lookup other = some (.epochRead dealId activation currentEpoch) ∧ step ≠ .setRoot other := by
  unfold ActivatingMarket.next at read
  have took := takes_step market step
  generalize market.step step = taken at took read
  cases took with
  | ticks => exact Or.inr ⟨read, nofun⟩
  | waits step late => exact Or.inr ⟨read, fun same => late other _ _ _ same read⟩
  | reads call newId newActivation free =>
    change (market.calls.insert call _).lookup other = _ at read
    rw [HashMap.lookup_insert_eq] at read
    split at read
    · next same => exact Or.inl ⟨same ▸ free, newId, newActivation, by rw [same]⟩
    · exact Or.inr ⟨read, nofun⟩
  | sets call id epoch newActivation phase =>
    have left : other ≠ call ∧ market.calls.lookup other = some (.epochRead dealId activation currentEpoch) := by
      unfold ActivatingMarket.setRoot at read
      split at read
      · exact read_returns read
      · split at read
        · exact read_returns read
        · exact read_goesOn read nofun
    exact Or.inr ⟨left.2, fun same => left.1 (ActivationStep.setRoot.inj same).symm⟩
  | asks call order id epoch phase =>
    unfold ActivatingMarket.askCompiler at read
    split at read
    · exact Or.inr ⟨(read_returns read).2, nofun⟩
    · exact Or.inr ⟨(read_goesOn read nofun).2, nofun⟩
  | updates call id epoch phase =>
    unfold ActivatingMarket.updateDeal at read
    split at read
    · exact Or.inr ⟨(read_returns read).2, nofun⟩
    · split at read
      · exact Or.inr ⟨(read_returns read).2, nofun⟩
      · exact Or.inr ⟨(read_returns read).2, nofun⟩

theorem setRoot_progress {found left : StorageDeal}
    (before : market.coordinator.activeDeals.lookup dealId = some found)
    (after : (market.setRoot call dealId activation currentEpoch).1.coordinator.activeDeals.lookup dealId = some left) :
    progress left = progress found := by
  unfold ActivatingMarket.setRoot at after
  rw [before] at after
  dsimp only at after
  split at after
  · change market.coordinator.activeDeals.lookup dealId = some left at after
    rw [before] at after
    cases after
    rfl
  · change (market.coordinator.activeDeals.insert dealId _).lookup dealId = some left at after
    rw [HashMap.lookup_insert_eq, if_pos rfl] at after
    cases after
    rfl

theorem rootOnly_rooted (watches : Watches named watched) {found left : StorageDeal}
    (written : watched.rooted call other = some (found, left)) : progress left = progress found := by
  unfold WatchedMarket.rooted at written
  split at written
  · split at written
    · next dealId activation currentEpoch phase =>
      obtain ⟨old, before, written⟩ := Option.bind_eq_some_iff.mp written
      obtain ⟨new, after, written⟩ := Option.bind_eq_some_iff.mp written
      cases written
      unfold ActivatingMarket.next ActivatingMarket.step at after
      dsimp only at after
      rw [phase] at after
      exact setRoot_progress before after
    · exact watches.rootOnly other found left written
  · exact watches.rootOnly other found left written

theorem watches_next (names : NamedBy named step) (watches : Watches named watched) :
    Watches named (watched.next step) := by
  refine ⟨coherent_next names watches.coherent, fun call dealId activation currentEpoch read => ?_,
    fun call found left written => ?_⟩
  · rcases read_next read with ⟨free, _, _, rfl⟩ | ⟨earlier, apart⟩
    · change watched.begun call call = none
      unfold WatchedMarket.begun
      rw [if_pos ⟨rfl, by rw [free]; rfl⟩]
    · have before := watches.unwritten call dealId activation currentEpoch earlier
      cases step with
      | readEpoch caller newId newActivation =>
        change watched.begun caller call = none
        unfold WatchedMarket.begun
        split
        · rfl
        · exact before
      | setRoot caller =>
        change watched.rooted caller call = none
        unfold WatchedMarket.rooted
        rw [if_neg fun same : call = caller => apart (by rw [same])]
        exact before
      | advanceEpoch => exact before
      | askCompiler caller order => exact before
      | updateDeal caller => exact before
  · cases step with
    | readEpoch caller dealId activation =>
      change watched.begun caller call = some (found, left) at written
      unfold WatchedMarket.begun at written
      split at written
      · cases written
      · exact watches.rootOnly call found left written
    | setRoot caller => exact rootOnly_rooted watches written
    | advanceEpoch => exact watches.rootOnly call found left written
    | askCompiler caller order => exact watches.rootOnly call found left written
    | updateDeal caller => exact watches.rootOnly call found left written

variable {error : StorageMarketError}

theorem setRoot_fails (coherent : Coherent named market) (names : named dealId)
    (failed : (market.setRoot call dealId activation currentEpoch).2 = some (.error error)) :
    (market.setRoot call dealId activation currentEpoch).1.coordinator = market.coordinator ∧
      CopiesAgree market.coordinator dealId := by
  unfold ActivatingMarket.setRoot at failed ⊢
  cases found : market.coordinator.activeDeals.lookup dealId with
  | none =>
    refine ⟨rfl, fun deal held => ?_⟩
    rw [found] at held
    cases held
  | some deal =>
    rw [found] at failed
    dsimp only at failed ⊢
    split at failed
    · next status =>
      rw [if_pos status]
      refine ⟨rfl, coherent.agree dealId names ?_⟩
      rintro ⟨other, epoch, asked⟩
      obtain ⟨-, held, heldDeal, pending⟩ := coherent.asked other dealId epoch asked
      rw [found] at heldDeal
      cases heldDeal
      exact status pending
    · cases failed

theorem not_updating (coherent : Coherent named market) (agree : CopiesAgree market.coordinator dealId) :
    ¬Updating market dealId := by
  rintro ⟨call, epoch, asked⟩
  obtain ⟨⟨intentId, copy, held, copyId, active, -⟩, deal, found, pending⟩ := coherent.asked call dealId epoch asked
  have same := (agree deal found intentId copy held copyId).1
  rw [active, pending] at same
  cases same

theorem askCompiler_refused {order : HashMap.Order}
    (refused : market.coordinator.jitcaCompiler.activateDeal order dealId currentEpoch = .error error) :
    market.askCompiler call order dealId currentEpoch = market.returns call market.coordinator (.error error) := by
  unfold ActivatingMarket.askCompiler
  rw [refused]

theorem refused_of_returned {order : HashMap.Order}
    (failed : (market.askCompiler call order dealId currentEpoch).2 = some (.error error)) :
    market.coordinator.jitcaCompiler.activateDeal order dealId currentEpoch = .error error := by
  unfold ActivatingMarket.askCompiler at failed
  split at failed
  · next cause refused =>
    cases failed
    exact refused
  · cases failed

theorem failsCleanly_iff (watches : Watches named watched) (step : ActivationStep) :
    FailsCleanly watched step ↔ RefusedInTime watched step := by
  unfold FailsCleanly WatchedMarket.next ActivatingMarket.next
  constructor
  · intro clean
    cases step with
    | askCompiler call order =>
      intro dealId currentEpoch error phase refused
      have failed := clean call (.rootSet dealId currentEpoch) error rfl phase
      simp only [ActivatingMarket.step, phase, askCompiler_refused refused] at failed
      obtain ⟨same, -, agree⟩ := failed rfl
      exact ⟨fun old new written => congrArg Prod.fst (same old new written), not_updating watches.coherent agree⟩
    | advanceEpoch => trivial
    | readEpoch call dealId activation => trivial
    | setRoot call => trivial
    | updateDeal call => trivial
  · intro inTime caller phase error same found failed
    have took := takes_step watched.market step
    generalize watched.market.step step = taken at took failed ⊢
    cases took with
    | ticks => cases failed
    | waits => cases failed
    | reads => cases failed
    | sets call dealId epoch activation read =>
      cases same
      rw [read] at found
      cases found
      have names : named dealId := watches.coherent.names caller _ read
      obtain ⟨coordinator, agree⟩ := setRoot_fails watches.coherent names failed
      dsimp only
      rw [coordinator, watches.unwritten caller dealId activation epoch read]
      exact ⟨nofun, rfl, agree⟩
    | asks call order dealId epoch rooted =>
      cases same
      rw [rooted] at found
      cases found
      have refused := refused_of_returned failed
      rw [askCompiler_refused refused]
      obtain ⟨roots, idle⟩ := inTime dealId epoch error rooted refused
      refine ⟨fun old new written => ?_, rfl, watches.coherent.agree dealId (watches.coherent.names _ _ rooted) idle⟩
      have progressed := watches.rootOnly caller old new written
      unfold kept
      rw [roots old new written, show new.status = old.status from congrArg Prod.fst progressed,
        show new.startEpoch = old.startEpoch from congrArg Prod.snd progressed]
    | updates call dealId epoch asked => exact absurd failed ((coherent_updateDeal watches.coherent asked).2 error)

theorem watches_new (paired : Paired named coordinator) :
    Watches named (.new coordinator) where
  coherent := coherent_new paired
  unwritten _ _ _ _ _ := rfl
  rootOnly _ _ _ written := by cases written

/-- Failed activations change nothing exactly if every call that the compiler refuses finds its own root and no other
    call. -/
theorem activationsFailCleanly_iff (paired : Paired named coordinator)
    (steps : List ActivationStep) (names : ∀ step ∈ steps, NamedBy named step) :
    ((∀ before step, before ++ [step] <+: steps →
        FailsCleanly (Runs.after WatchedMarket.next (.new coordinator) before) step) ↔
      ∀ before step, before ++ [step] <+: steps →
        RefusedInTime (Runs.after WatchedMarket.next (.new coordinator) before) step) ∧
    ((∀ call, (Runs.after WatchedMarket.next (.new coordinator) steps).market.calls.lookup call = none) →
      Paired named (Runs.after WatchedMarket.next (.new coordinator) steps).market.coordinator) := by
  have watches : ∀ actions, actions <+: steps → Watches named (Runs.after WatchedMarket.next (.new coordinator) actions) :=
    Runs.invariant_of_conditions (watches_new paired) (fun watched step kept names => watches_next names kept)
      fun before step part => names step (part.subset (by simp))
  constructor
  · exact forall_congr' fun before => forall_congr' fun step => imp_congr_right fun part =>
      failsCleanly_iff (watches before ((List.prefix_append _ _).trans part)) step
  · intro idle
    have coherent := (watches steps (List.prefix_refl steps)).coherent
    refine ⟨coherent.unique, fun dealId names => coherent.agree dealId names ?_⟩
    rintro ⟨call, epoch, asked⟩
    rw [idle call] at asked
    cases asked

end

section

variable {L : Type} {state next : Funded StorageMarketCoordinator L} {calls : HashMap.Table Nat ActivationPhase}
  {call : Nat} {dealId : UInt64} {activation : DealActivation} {order : HashMap.Order}

theorem activateDeal_alone (free : calls.lookup call = none) :
    (Runs.after ActivatingMarket.next ⟨state.manager, calls⟩ [.readEpoch call dealId activation, .setRoot call,
      .askCompiler call order, .updateDeal call]).coordinator =
      (Calls.stateAfter (StorageMarketCoordinator.activateDeal order dealId activation) state).manager := by
  unfold Runs.after Calls.stateAfter
  simp only [List.foldl_cons, List.foldl_nil]
  rw [activateDeal_run]
  cases found : state.manager.activeDeals.lookup dealId with
  | none =>
    simp [ActivatingMarket.next, ActivatingMarket.step, free, ActivatingMarket.goesOn, ActivatingMarket.setRoot, found,
      ActivatingMarket.returns]
  | some deal =>
    by_cases pending : deal.status = .pendingActivation
    · cases activates : state.manager.jitcaCompiler.activateDeal order dealId state.manager.currentEpoch with
      | error error =>
        simp [ActivatingMarket.next, ActivatingMarket.step, free, ActivatingMarket.goesOn, ActivatingMarket.setRoot,
          found, pending, ActivatingMarket.askCompiler, activates, ActivatingMarket.returns, withDeal, rooted]
      | ok compiler =>
        simp [ActivatingMarket.next, ActivatingMarket.step, free, ActivatingMarket.goesOn, ActivatingMarket.setRoot,
          found, pending, ActivatingMarket.askCompiler, activates, ActivatingMarket.updateDeal,
          StorageDeal.transitionTo, StorageDealStatus.canTransitionTo, ActivatingMarket.returns, withDeal, rooted]
    · simp [ActivatingMarket.next, ActivatingMarket.step, free, ActivatingMarket.goesOn, ActivatingMarket.setRoot,
        found, pending, ActivatingMarket.returns]

end

section

variable {L : Type} {ledger : Ledger L} {scale : Scale} {state : Funded StorageMarketCoordinator (Metered L)}

theorem paired_new (intentManager : IntentManager) (config : JitcaConfig) (proofManager : ProofCycleManager) :
    Paired named (.new intentManager (.new config) proofManager) where
  unique _ _ _ _ found := by cases found
  agree _ _ _ found := by cases found

def Unused (compiler : JitcaCompiler) : Prop :=
  ∀ intentId copy, compiler.deals.lookup intentId = some copy → copy.dealId ≠ compiler.nextDealId

theorem paired_insert {intentId : Hash} {deal : StorageDeal}
    (paired : Paired named coordinator) (unused : Unused coordinator.jitcaCompiler)
    (id_eq : deal.dealId = coordinator.jitcaCompiler.nextDealId) :
    Paired named { coordinator with
      jitcaCompiler := { coordinator.jitcaCompiler with
        deals := coordinator.jitcaCompiler.deals.insert intentId deal
        nextDealId := coordinator.jitcaCompiler.nextDealId + 1 }
      activeDeals := coordinator.activeDeals.insert deal.dealId deal } := by
  have copies : ∀ {key copy}, (coordinator.jitcaCompiler.deals.insert intentId deal).lookup key = some copy →
      key = intentId ∧ copy = deal ∨
        copy.dealId ≠ deal.dealId ∧ coordinator.jitcaCompiler.deals.lookup key = some copy := by
    intro key copy held
    rw [HashMap.lookup_insert_eq] at held
    split at held
    · next same =>
      cases held
      exact Or.inl ⟨same, rfl⟩
    · exact Or.inr ⟨id_eq ▸ unused key copy held, held⟩
  refine ⟨fun key other copy rival held heldOther same => ?_, fun id names found stored key copy held copyId => ?_⟩
  · rcases copies held with ⟨rfl, rfl⟩ | ⟨different, held⟩
    · rcases copies heldOther with ⟨rfl, -⟩ | ⟨different, -⟩
      · rfl
      · exact absurd same.symm different
    · rcases copies heldOther with ⟨-, rfl⟩ | ⟨-, heldOther⟩
      · exact absurd same different
      · exact paired.unique key other copy rival held heldOther same
  · change (coordinator.activeDeals.insert deal.dealId deal).lookup id = some found at stored
    rw [HashMap.lookup_insert_eq] at stored
    rcases copies held with ⟨-, rfl⟩ | ⟨different, held⟩
    · rw [if_pos copyId.symm] at stored
      cases stored
      exact ⟨rfl, rfl⟩
    · rw [if_neg fun same => different (copyId.trans same)] at stored
      exact paired.agree id names found stored key copy held copyId

theorem paired_compileDeal {intentId acceptanceId : Hash} (paired : Paired named state.manager)
    (unused : Unused state.manager.jitcaCompiler) :
    Ends (StorageMarketCoordinator.compileDeal (metered ledger) scale intentId acceptanceId) state
      (fun _ next => Paired named next.manager) fun _ next => Paired named next.manager := by
  unfold StorageMarketCoordinator.compileDeal
  refine ends_getManager (getIntent_ends (fun intent => ?_) fun _ => paired)
  refine getAcceptance_ends (fun acceptance => ?_) fun _ => paired
  refine (onJitcaCompiler_ends ends_self).bind ?_ ?_
  · rintro deal _ ⟨_, compiled, rfl⟩
    obtain ⟨_, _, -, -, deal_eq, rfl⟩ := compile_steps compiled
    refine paired_insert paired unused ?_
    rw [deal_eq]
    rfl
  · rintro error _ ⟨inner, failed, rfl⟩
    dsimp only
    rw [(compile_ends.error failed).1]
    exact paired

end

section

def waitingDeal : StorageDeal := dealOfTerms jitcaConfig twoCopies (acceptanceOf bob (Bytes32.replicate 11)) 1 1

def oneDeal (currentEpoch : UInt64) : StorageMarketCoordinator :=
  { StorageMarketCoordinator.new (.new ⟨⟨0⟩, 0, 0, 0⟩)
      ⟨jitcaConfig, HashMap.ofPairs [(twoCopies.intentId, waitingDeal)], 2⟩ (.new ⟨2, 1 / 10, 1, 1 / 10, 5, false⟩) with
    activeDeals := HashMap.ofPairs [(1, waitingDeal)]
    currentEpoch := currentEpoch }

def givenRoot : DealActivation := ⟨1, bob, Bytes32.replicate 5⟩

theorem paired_oneDeal (currentEpoch : UInt64) : Paired (· = 1) (oneDeal currentEpoch) := by
  have copies : ∀ {intentId copy}, (oneDeal currentEpoch).jitcaCompiler.deals.lookup intentId = some copy →
      (intentId, copy) = (twoCopies.intentId, waitingDeal) :=
    fun held => List.mem_singleton.mp ((HashMap.lookup_ofPairs (by simp)).mp held)
  have deals : ∀ {dealId deal}, (oneDeal currentEpoch).activeDeals.lookup dealId = some deal →
      (dealId, deal) = (1, waitingDeal) :=
    fun found => List.mem_singleton.mp ((HashMap.lookup_ofPairs (by simp)).mp found)
  refine ⟨fun intentId other copy rival held heldOther _ => ?_, fun dealId _ deal found intentId copy held _ => ?_⟩
  · cases copies held
    cases copies heldOther
    rfl
  · cases copies held
    cases deals found
    exact ⟨rfl, rfl⟩

def twoActivations : List ActivationStep :=
  [.readEpoch 0 1 givenRoot, .readEpoch 1 1 givenRoot, .setRoot 0, .setRoot 1, .askCompiler 0 .stored, .updateDeal 0,
    .askCompiler 1 .stored]

/-- The second of them is refused, and the copies agree. -/
theorem activationsFailCleanly_twice :
    Paired (· = 1) (Runs.after WatchedMarket.next (.new (oneDeal 10)) twoActivations).market.coordinator := by
  refine (activationsFailCleanly_iff (paired_oneDeal 10) twoActivations ?_).2 fun call => ?_
  · simp [twoActivations, NamedBy]
  have ended : (Runs.after WatchedMarket.next (.new (oneDeal 10)) twoActivations).market.calls.keys = [] := by
    decide +kernel
  refine AList.lookup_eq_none.mpr fun inFlight => ?_
  rw [AList.mem_keys, ended] at inFlight
  cases inFlight

/-- The root of a refused call stays. -/
theorem lateActivation_leavesRoot : ¬FailsCleanly (Runs.after WatchedMarket.next (.new (oneDeal 100))
    [.readEpoch 0 1 givenRoot, .setRoot 0]) (.askCompiler 0 .stored) := by
  intro clean
  obtain ⟨same, -, -⟩ := clean 0 (.rootSet 1 100) (.activationDeadlineExceeded 51 100) rfl (by rfl) (by rfl)
  have unchanged := same waitingDeal { waitingDeal with proofMerkleRoot := some givenRoot.dataMerkleRoot } (by rfl)
  cases unchanged

end

end AdicProof.StorageMarket
