import AdicCore.Governance.ParameterChanges

open AdicModel AdicModel.Economics AdicModel.Governance AdicModel.AppCommon Calls

namespace AdicProof.Governance

section

variable {L : Type}

def paramValue (state : GovernanceState L) (key : String) : Option Json.Value :=
  state.parameterStore.bind fun store => store.values.lookup key

def storedGrant (state : GovernanceState L) (grantId : Hash) : Option GrantState :=
  state.treasuryExecutor.bind fun executor => executor.activeGrants.lookup grantId

structure SameHoldings (unchanged : L → L → Prop) (before after : GovernanceState L) : Prop where
  values : ∀ key, paramValue after key = paramValue before key
  ledger : unchanged before.ledger after.ledger
  grants : ∀ grantId, storedGrant after grantId = storedGrant before grantId

structure EnactsWholly (unchanged : L → L → Prop) (services : TreasuryServices L) (proposalId : Hash)
    (state : GovernanceState L) : Prop where
  failed : ∀ after, stateAfter (ProposalLifecycleManager.enactProposal services proposalId) state = after →
    (∃ error, ProposalLifecycleManager.enactProposal services proposalId state = .error error after) ∨
      storedStatus after proposalId = some .failed →
    SameHoldings unchanged state after
  enacted : ∀ after, stateAfter (ProposalLifecycleManager.enactProposal services proposalId) state = after →
    storedStatus state proposalId ≠ some .enacted → storedStatus after proposalId = some .enacted →
    ∀ proposal, proposalOf state proposalId = some proposal → ∀ key ∈ proposal.paramKeys,
      ∃ value, ProposalLifecycleManager.proposedValue proposal.newValues key = some value ∧
        paramValue after key = some value

def proposalChanges (proposal : GovernanceProposal) : List ParameterChange :=
  changesOf proposal.newValues proposal.paramKeys

def AllApplied (store : Option ParameterStore) (proposal : GovernanceProposal) : Prop :=
  ∀ configured, store = some configured → Applied configured (proposalChanges proposal)

def AllHeld (store : Option ParameterStore) (changes : List ParameterChange) : Prop :=
  ∀ configured, store = some configured → ∀ change ∈ changes, configured.values.lookup change.1 = some change.2

/-- What comes before a refused parameter or a failed payment does nothing, the payment leaves the ledger, and if
    nothing fails every key has a value and a store. -/
structure Whole (store : Option ParameterStore) (proposal : GovernanceProposal) (paymentFails paymentKeeps : Prop) :
    Prop where
  refused : ∀ configured, store = some configured → ∀ before change,
    RefusedAfter configured (proposalChanges proposal) before change → AllHeld store before
  payment : AllApplied store proposal → paymentFails → paymentKeeps ∧ AllHeld store (proposalChanges proposal)
  enacted : AllApplied store proposal → ¬paymentFails → ∀ key ∈ proposal.paramKeys,
    store.isSome ∧ (ProposalLifecycleManager.proposedValue proposal.newValues key).isSome

def atomicGrant (state : GovernanceState L) (proposal : GovernanceProposal) :
    Option (TreasuryExecutor × TreasuryGrant) :=
  match state.treasuryExecutor, proposal.treasuryGrant with
  | some executor, some grant => if grant.schedule = .atomic then some (executor, grant) else none
  | _, _ => none

def pay (services : TreasuryServices L) (due : TreasuryExecutor × TreasuryGrant) : Call L Unit :=
  services.transfer due.1.treasuryAddress (services.fromPublicKey due.2.recipient) due.2.totalAmount

def PaymentFails (services : TreasuryServices L) (state : GovernanceState L) (proposal : GovernanceProposal) : Prop :=
  ∃ due, atomicGrant state proposal = some due ∧ ∃ error ledger, pay services due state.ledger = .error error ledger

def PaymentKeeps (unchanged : L → L → Prop) (services : TreasuryServices L) (state : GovernanceState L)
    (proposal : GovernanceProposal) : Prop :=
  ∀ due, atomicGrant state proposal = some due → ∀ error ledger, pay services due state.ledger = .error error ledger →
    unchanged state.ledger ledger

variable {unchanged : L → L → Prop} {services : TreasuryServices L} {state : GovernanceState L} {proposalId : Hash}
  {proposal : GovernanceProposal} {store : ParameterStore}

def withChanges (state : GovernanceState L) (changes : List ParameterChange) : GovernanceState L :=
  { state with parameterStore := state.parameterStore.map fun store => Runs.after write store changes }

theorem withStore_self (configured : state.parameterStore = some store) : withStore state store = state := by
  unfold withStore
  rw [← configured]

theorem withChanges_configured (configured : state.parameterStore = some store) (changes : List ParameterChange) :
    withChanges state changes = withStore state (Runs.after write store changes) := by
  unfold withChanges withStore
  rw [configured]
  rfl

theorem params_applied (all : AllApplied state.parameterStore proposal) :
    proposal.paramKeys.forM (ProposalLifecycleManager.applyParam proposalId proposal) state =
      .ok () (withChanges state (proposalChanges proposal)) := by
  cases configured : state.parameterStore with
  | none =>
    rw [forM_unconfigured _ configured]
    unfold withChanges
    rw [configured, Option.map_none, ← configured]
  | some store =>
    have run := forM_applied state proposalId proposal.paramKeys (all store configured)
    rw [withStore_self configured] at run
    rw [run, withChanges_configured configured]
    rfl

variable {before : List ParameterChange} {change : ParameterChange}

theorem params_refused (proposalId : Hash) (configured : state.parameterStore = some store)
    (refused : RefusedAfter store (proposalChanges proposal) before change) :
    ∃ error, proposal.paramKeys.forM (ProposalLifecycleManager.applyParam proposalId proposal) state =
      .error error (markFailed (withChanges state before) proposalId proposal) := by
  have run := forM_refused state proposalId proposal.paramKeys refused
  rw [withStore_self configured] at run
  rw [withChanges_configured configured]
  exact run

theorem allApplied_or_refused (store : Option ParameterStore) (proposal : GovernanceProposal) :
    AllApplied store proposal ∨ ∃ configured, store = some configured ∧
      ∃ before change, RefusedAfter configured (proposalChanges proposal) before change := by
  cases store with
  | none =>
    left
    intro configured impossible
    cases impossible
  | some store =>
    rcases applied_or_refused store (proposalChanges proposal) with applied | refused
    · left
      intro configured same
      cases same
      exact applied
    · exact .inr ⟨store, rfl, refused⟩

theorem executeGrant_atomic {grant : TreasuryGrant} (atomic : grant.schedule = .atomic) (currentEpoch : UInt64) :
    TreasuryExecutor.executeGrant services grant currentEpoch =
      TreasuryExecutor.transferTo services grant .atomic grant.totalAmount := by
  unfold TreasuryExecutor.executeGrant
  rw [atomic]

variable {due : TreasuryExecutor × TreasuryGrant}

theorem atomicGrant_some (found : atomicGrant state proposal = some due) :
    state.treasuryExecutor = some due.1 ∧ proposal.treasuryGrant = some due.2 ∧ due.2.schedule = .atomic := by
  unfold atomicGrant at found
  split at found
  · next executor grant configured granted =>
    split at found
    · next atomic =>
      cases found
      exact ⟨configured, granted, atomic⟩
    · cases found
  · cases found

variable {ledger : L}

theorem enactGrant_fails (proposalId : Hash) {error : EconomicsError}
    (found : atomicGrant state proposal = some due) (failed : pay services due state.ledger = .error error ledger) :
    ∃ reason, ProposalLifecycleManager.enactGrant services proposalId proposal state =
      .error reason (markFailed { state with ledger } proposalId proposal) := by
  obtain ⟨configured, granted, atomic⟩ := atomicGrant_some found
  refine ⟨.grantFailed (.treasuryError (.economics error)), ?_⟩
  have run : ProposalLifecycleManager.onTreasury due.1
      (TreasuryExecutor.executeGrant services due.2 proposal.enactEpoch) state =
        .ok (.error (.treasuryError (.economics error))) { state with ledger } := by
    unfold pay at failed
    rw [executeGrant_atomic atomic]
    unfold ProposalLifecycleManager.onTreasury TreasuryExecutor.transferTo
    simp only [failed]
    rw [← configured]
  unfold ProposalLifecycleManager.enactGrant
  rw [bind_get, granted, configured]
  simp only
  rw [bind_ok run, ← configured, ← granted]
  rfl

theorem enactGrant_returns (proposalId : Hash) (paid : ¬PaymentFails services state proposal) :
    ∃ treasuryExecutor ledger, ProposalLifecycleManager.enactGrant services proposalId proposal state =
      .ok () { state with treasuryExecutor, ledger } := by
  unfold ProposalLifecycleManager.enactGrant
  rw [bind_get]
  cases granted : proposal.treasuryGrant with
  | none => exact ⟨state.treasuryExecutor, state.ledger, rfl⟩
  | some grant =>
    cases configured : state.treasuryExecutor with
    | none => exact ⟨state.treasuryExecutor, state.ledger, rfl⟩
    | some executor =>
      have run : ∃ treasury, TreasuryExecutor.executeGrant services grant proposal.enactEpoch
          ⟨executor, state.ledger⟩ = .ok () treasury := by
        cases schedule : grant.schedule with
        | atomic =>
          have found : atomicGrant state proposal = some (executor, grant) := by
            unfold atomicGrant
            rw [configured, granted]
            exact if_pos schedule
          rw [executeGrant_atomic schedule]
          unfold TreasuryExecutor.transferTo
          cases ran : pay services (executor, grant) state.ledger with
          | ok value ledger =>
            unfold pay at ran
            rw [ran]
            exact ⟨_, rfl⟩
          | error error ledger => exact absurd ⟨_, found, error, ledger, ran⟩ paid
        | streamed _ _ | milestone _ =>
          unfold TreasuryExecutor.executeGrant
          rw [schedule]
          exact ⟨_, rfl⟩
      obtain ⟨treasury, run⟩ := run
      refine ⟨some treasury.executor, treasury.ledger, ?_⟩
      have executed : ProposalLifecycleManager.onTreasury executor
          (TreasuryExecutor.executeGrant services grant proposal.enactEpoch) state =
            .ok (.ok ()) { state with treasuryExecutor := some treasury.executor, ledger := treasury.ledger } := by
        unfold ProposalLifecycleManager.onTreasury
        rw [run]
      simp only
      rw [bind_ok executed]
      rfl

theorem reads_ok {α : Type} {check : ProposalLifecycleManager → Except GovernanceError α} {value : α}
    (checked : check state.manager = .ok value) :
    (ProposalLifecycleManager.reads check : GovernanceCall L α) state = .ok value state := by
  unfold ProposalLifecycleManager.reads
  rw [checked]

variable {error : GovernanceError}

theorem enactProposal_unknown (services : TreasuryServices L)
    (refused : state.manager.proposalIn proposalId .enacting = .error error) :
    ProposalLifecycleManager.enactProposal services proposalId state = .error error state := by
  unfold ProposalLifecycleManager.enactProposal
  apply bind_error
  unfold ProposalLifecycleManager.reads
  rw [refused]

theorem enactProposal_refused (services : TreasuryServices L)
    (enacting : state.manager.proposalIn proposalId .enacting = .ok proposal)
    (configured : state.parameterStore = some store)
    (refused : RefusedAfter store (proposalChanges proposal) before change) :
    ∃ error, ProposalLifecycleManager.enactProposal services proposalId state =
      .error error (markFailed (withChanges state before) proposalId proposal) := by
  obtain ⟨error, run⟩ := params_refused proposalId configured refused
  refine ⟨error, ?_⟩
  unfold ProposalLifecycleManager.enactProposal
  rw [bind_ok (reads_ok enacting)]
  exact bind_error run

section

variable (enacting : state.manager.proposalIn proposalId .enacting = .ok proposal)
  (all : AllApplied state.parameterStore proposal)

include enacting all

theorem enactProposal_unpaid {error : EconomicsError}
    (found : atomicGrant state proposal = some due) (failed : pay services due state.ledger = .error error ledger) :
    ∃ reason, ProposalLifecycleManager.enactProposal services proposalId state =
      .error reason (markFailed { withChanges state (proposalChanges proposal) with ledger } proposalId proposal) := by
  have dueThen : atomicGrant (withChanges state (proposalChanges proposal)) proposal = some due := found
  obtain ⟨reason, run⟩ := enactGrant_fails proposalId dueThen failed
  refine ⟨reason, ?_⟩
  unfold ProposalLifecycleManager.enactProposal
  rw [bind_ok (reads_ok enacting), bind_ok (params_applied all)]
  exact bind_error run

theorem enactProposal_enacts (paid : ¬PaymentFails services state proposal) :
    ∃ treasuryExecutor ledger, ProposalLifecycleManager.enactProposal services proposalId state =
      .ok () { withChanges state (proposalChanges proposal) with
        manager := state.manager.setProposal proposalId { proposal with status := .enacted }
        treasuryExecutor
        ledger } := by
  have paidThen : ¬PaymentFails services (withChanges state (proposalChanges proposal)) proposal := paid
  obtain ⟨treasuryExecutor, ledger, run⟩ := enactGrant_returns proposalId paidThen
  refine ⟨treasuryExecutor, ledger, ?_⟩
  unfold ProposalLifecycleManager.enactProposal
  rw [bind_ok (reads_ok enacting), bind_ok (params_applied all), bind_ok run]
  rfl

end

theorem proposalOf_setProposal (state : GovernanceState L) (proposalId : Hash) (proposal : GovernanceProposal)
    (parameterStore : Option ParameterStore) (treasuryExecutor : Option TreasuryExecutor) (ledger : L) :
    proposalOf ⟨state.manager.setProposal proposalId proposal, parameterStore, treasuryExecutor, ledger⟩ proposalId =
      some proposal :=
  AList.lookup_insert _

theorem storedStatus_markFailed (state : GovernanceState L) :
    storedStatus (markFailed state proposalId proposal) proposalId = some .failed := by
  unfold storedStatus markFailed
  rw [proposalOf_setProposal]
  rfl

theorem paramValue_withChanges (changes : List ParameterChange)
    (agree : ∀ change ∈ changes, ProposalLifecycleManager.proposedValue proposal.newValues change.1 = some change.2)
    (configured : state.parameterStore = some store) (key : String) :
    paramValue (withChanges state changes) key = if key ∈ changes.map Prod.fst then
      ProposalLifecycleManager.proposedValue proposal.newValues key else paramValue state key := by
  unfold paramValue withChanges
  rw [configured]
  exact lookup_written store changes agree key

variable {changes : List ParameterChange}

theorem same_paramValue_iff
    (agree : ∀ change ∈ changes, ProposalLifecycleManager.proposedValue proposal.newValues change.1 = some change.2) :
    (∀ key, paramValue (withChanges state changes) key = paramValue state key) ↔
      AllHeld state.parameterStore changes := by
  unfold paramValue withChanges AllHeld
  cases configured : state.parameterStore with
  | none => simp
  | some store =>
    refine (same_values_iff agree).trans ?_
    constructor
    · intro held other same
      cases same
      exact held
    · intro held
      exact held store rfl

theorem agree_proposalChanges :
    ∀ change ∈ proposalChanges proposal,
      ProposalLifecycleManager.proposedValue proposal.newValues change.1 = some change.2 :=
  fun _ member => (mem_changesOf.mp member).2

theorem agree_before
    (refused : RefusedAfter store (proposalChanges proposal) before change) :
    ∀ change ∈ before, ProposalLifecycleManager.proposedValue proposal.newValues change.1 = some change.2 :=
  fun change member => agree_proposalChanges change (refused.1.subset (List.mem_append_left _ member))

theorem same_markFailed (proposalId : Hash)
    (agree : ∀ change ∈ changes, ProposalLifecycleManager.proposedValue proposal.newValues change.1 = some change.2)
    (held : AllHeld state.parameterStore changes) (kept : unchanged state.ledger ledger) :
    SameHoldings unchanged state (markFailed { withChanges state changes with ledger } proposalId proposal) where
  values := (same_paramValue_iff agree).mpr held
  ledger := kept
  grants _ := rfl

theorem held_of_same
    (agree : ∀ change ∈ changes, ProposalLifecycleManager.proposedValue proposal.newValues change.1 = some change.2)
    (same : SameHoldings unchanged state (markFailed { withChanges state changes with ledger } proposalId proposal)) :
    AllHeld state.parameterStore changes :=
  (same_paramValue_iff agree).mp same.values

variable {after : GovernanceState L}

theorem stateAfter_error {call : GovernanceCall L Unit}
    (run : call state = .error error after) : stateAfter call state = after := by
  unfold stateAfter
  rw [run]

theorem stateAfter_ok {call : GovernanceCall L Unit} (run : call state = .ok () after) :
    stateAfter call state = after := by
  unfold stateAfter
  rw [run]

theorem enactsWholly_of_unknown (reflexive : ∀ ledger, unchanged ledger ledger)
    (refused : state.manager.proposalIn proposalId .enacting = .error error) :
    EnactsWholly unchanged services proposalId state := by
  have run := enactProposal_unknown services refused
  constructor
  · intro after next _
    rw [stateAfter_error run] at next
    rw [← next]
    exact ⟨fun _ => rfl, reflexive _, fun _ => rfl⟩
  · intro after next before enacted
    rw [stateAfter_error run] at next
    rw [next] at before
    exact absurd enacted before

theorem enactsWholly_of_failed
    (run : ProposalLifecycleManager.enactProposal services proposalId state = .error error after)
    (marked : storedStatus after proposalId = some .failed) (same : SameHoldings unchanged state after) :
    EnactsWholly unchanged services proposalId state := by
  constructor
  · intro last next _
    rw [stateAfter_error run] at next
    rw [← next]
    exact same
  · intro last next _ enacted
    rw [stateAfter_error run] at next
    rw [← next, marked] at enacted
    cases enacted

theorem mem_changes_keys {key : String} {value : Json.Value} (member : key ∈ proposal.paramKeys)
    (proposed : ProposalLifecycleManager.proposedValue proposal.newValues key = some value) :
    key ∈ (proposalChanges proposal).map Prod.fst :=
  List.mem_map.mpr ⟨(key, value), mem_changesOf.mpr ⟨member, proposed⟩, rfl⟩

theorem enactsWholly_of_enacts (enacting : state.manager.proposalIn proposalId .enacting = .ok proposal)
    (all : AllApplied state.parameterStore proposal) (paid : ¬PaymentFails services state proposal)
    (settable : ∀ key ∈ proposal.paramKeys, state.parameterStore.isSome ∧
      (ProposalLifecycleManager.proposedValue proposal.newValues key).isSome) :
    EnactsWholly unchanged services proposalId state := by
  obtain ⟨treasuryExecutor, ledger, run⟩ := enactProposal_enacts enacting all paid
  constructor
  · intro after next failure
    rcases failure with ⟨error, failed⟩ | failed
    · rw [run] at failed
      cases failed
    · rw [stateAfter_ok run] at next
      rw [← next, storedStatus, proposalOf_setProposal] at failed
      cases failed
  · intro after next _ _ other stored key member
    have same : some other = some proposal := stored.symm.trans (proposalIn_ok_iff.mp enacting).1
    cases same
    obtain ⟨configured, proposed⟩ := settable key member
    obtain ⟨store, configured⟩ := Option.isSome_iff_exists.mp configured
    obtain ⟨value, proposed⟩ := Option.isSome_iff_exists.mp proposed
    have written := paramValue_withChanges (proposalChanges proposal) agree_proposalChanges configured key
    rw [if_pos (mem_changes_keys member proposed), proposed] at written
    rw [stateAfter_ok run] at next
    rw [← next]
    exact ⟨value, proposed, written⟩

theorem whole_of_enactsWholly (wholly : EnactsWholly unchanged services proposalId state)
    (enacting : state.manager.proposalIn proposalId .enacting = .ok proposal) :
    Whole state.parameterStore proposal (PaymentFails services state proposal)
      (PaymentKeeps unchanged services state proposal) := by
  constructor
  · intro store configured before change refused
    obtain ⟨error, run⟩ := enactProposal_refused services enacting configured refused
    exact held_of_same (agree_before refused) (wholly.failed _ (stateAfter_error run) (.inl ⟨error, run⟩))
  · rintro all ⟨due, found, error, ledger, failed⟩
    obtain ⟨reason, run⟩ := enactProposal_unpaid enacting all found failed
    have same := wholly.failed _ (stateAfter_error run) (.inl ⟨reason, run⟩)
    refine ⟨?_, held_of_same agree_proposalChanges same⟩
    intro other foundOther cause next failedOther
    rw [found] at foundOther
    cases foundOther
    rw [failed] at failedOther
    cases failedOther
    exact same.ledger
  · intro all paid key member
    obtain ⟨treasuryExecutor, ledger, run⟩ := enactProposal_enacts enacting all paid
    obtain ⟨stored, status⟩ := proposalIn_ok_iff.mp enacting
    have before : storedStatus state proposalId ≠ some .enacted := by
      rw [storedStatus, proposalOf, stored, Option.map_some, status]
      decide
    obtain ⟨value, proposed, written⟩ := wholly.enacted _ (stateAfter_ok run) before
      (by rw [storedStatus, proposalOf_setProposal]; rfl) proposal stored key member
    refine ⟨?_, by rw [proposed]; rfl⟩
    by_contra unconfigured
    rw [Option.not_isSome_iff_eq_none] at unconfigured
    unfold paramValue withChanges at written
    rw [unconfigured] at written
    cases written

theorem enactsWholly_of_whole (reflexive : ∀ ledger, unchanged ledger ledger)
    (enacting : state.manager.proposalIn proposalId .enacting = .ok proposal)
    (whole : Whole state.parameterStore proposal (PaymentFails services state proposal)
      (PaymentKeeps unchanged services state proposal)) :
    EnactsWholly unchanged services proposalId state := by
  rcases allApplied_or_refused state.parameterStore proposal with all | ⟨store, configured, before, change, refused⟩
  · by_cases fails : PaymentFails services state proposal
    · obtain ⟨keeps, held⟩ := whole.payment all fails
      obtain ⟨due, found, error, ledger, failed⟩ := fails
      obtain ⟨reason, run⟩ := enactProposal_unpaid enacting all found failed
      have kept := keeps due found error ledger failed
      exact enactsWholly_of_failed run (storedStatus_markFailed _) (same_markFailed proposalId agree_proposalChanges held kept)
    · exact enactsWholly_of_enacts enacting all fails (whole.enacted all fails)
  · obtain ⟨error, run⟩ := enactProposal_refused services enacting configured refused
    have held := whole.refused store configured before change refused
    have same := same_markFailed proposalId (agree_before refused) held (reflexive state.ledger)
    exact enactsWholly_of_failed run (storedStatus_markFailed _) same

theorem enactsWholly_iff (reflexive : ∀ ledger, unchanged ledger ledger) :
    EnactsWholly unchanged services proposalId state ↔
      ∀ proposal, state.manager.proposalIn proposalId .enacting = .ok proposal →
        Whole state.parameterStore proposal (PaymentFails services state proposal)
          (PaymentKeeps unchanged services state proposal) := by
  constructor
  · intro wholly proposal enacting
    exact whole_of_enactsWholly wholly enacting
  · intro whole
    cases enacting : state.manager.proposalIn proposalId .enacting with
    | error error => exact enactsWholly_of_unknown reflexive enacting
    | ok proposal => exact enactsWholly_of_whole reflexive enacting (whole proposal enacting)

end

end AdicProof.Governance
