import AdicCore.Governance.ContentRuns
import AdicCore.AppCommon.ParameterConsistency

open AdicModel AdicModel.Governance AdicModel.AppCommon AdicModel.Json Calls

namespace AdicProof.Governance

abbrev ParameterChange := String × Value

def changesOf (newValues : Value) (keys : List String) : List ParameterChange :=
  keys.filterMap fun key =>
    (ProposalLifecycleManager.proposedValue newValues key).map fun value => (key, value)

def write (store : ParameterStore) (change : ParameterChange) : ParameterStore :=
  { store with values := store.values.insert change.1 change.2 }

def Accepts (store : ParameterStore) (change : ParameterChange) : Prop :=
  (store.applyGovernanceChange change.1 change.2).isOk = true

def Applied (store : ParameterStore) (changes : List ParameterChange) : Prop :=
  ∀ before change, before ++ [change] <+: changes → Accepts (Runs.after write store before) change

def RefusedAfter (store : ParameterStore) (changes before : List ParameterChange) (change : ParameterChange) : Prop :=
  before ++ [change] <+: changes ∧ Applied store before ∧ ¬Accepts (Runs.after write store before) change

section

variable {store : ParameterStore} {change first : ParameterChange} {changes before : List ParameterChange}
  {newValues : Value} {keys : List String} {key : String}

theorem accepts_writes (accepts : Accepts store change) :
    store.applyGovernanceChange change.1 change.2 = .ok (write store change) := by
  unfold Accepts at accepts
  cases ran : store.applyGovernanceChange change.1 change.2 with
  | ok next =>
    rw [(AppCommon.applyGovernanceChange_ok ran).1]
    rfl
  | error error =>
    rw [ran] at accepts
    cases accepts

theorem refuses_error (refuses : ¬Accepts store change) :
    ∃ error, store.applyGovernanceChange change.1 change.2 = .error error := by
  unfold Accepts at refuses
  cases ran : store.applyGovernanceChange change.1 change.2 with
  | ok next =>
    rw [ran] at refuses
    exact absurd rfl refuses
  | error error => exact ⟨error, rfl⟩

theorem applied_cons :
    Applied store (change :: changes) ↔ Accepts store change ∧ Applied (write store change) changes := by
  unfold Applied
  rw [Runs.forall_steps_cons]
  rfl

theorem applied_or_refused (store : ParameterStore) (changes : List ParameterChange) :
    Applied store changes ∨ ∃ before change, RefusedAfter store changes before change := by
  induction changes generalizing store with
  | nil => exact .inl Runs.forall_steps_nil
  | cons first changes ih =>
    by_cases accepts : Accepts store first
    · rcases ih (write store first) with applied | ⟨before, change, part, applied, refuses⟩
      · exact .inl (applied_cons.mpr ⟨accepts, applied⟩)
      · refine .inr ⟨first :: before, change, ?_, applied_cons.mpr ⟨accepts, applied⟩, refuses⟩
        simpa using part
    · exact .inr ⟨[], first, by simp, Runs.forall_steps_nil, accepts⟩

theorem changesOf_cons_none (absent : ProposalLifecycleManager.proposedValue newValues key = none) :
    changesOf newValues (key :: keys) = changesOf newValues keys := by
  unfold changesOf
  rw [List.filterMap_cons_none (by rw [absent]; rfl)]

theorem changesOf_cons_some {value : Value}
    (proposed : ProposalLifecycleManager.proposedValue newValues key = some value) :
    changesOf newValues (key :: keys) = (key, value) :: changesOf newValues keys := by
  unfold changesOf
  rw [List.filterMap_cons_some (by rw [proposed]; rfl)]

theorem mem_changesOf :
    change ∈ changesOf newValues keys ↔
      change.1 ∈ keys ∧ ProposalLifecycleManager.proposedValue newValues change.1 = some change.2 := by
  unfold changesOf
  rw [List.mem_filterMap]
  constructor
  · rintro ⟨key, member, proposed⟩
    obtain ⟨value, found, rfl⟩ := Option.map_eq_some_iff.mp proposed
    exact ⟨member, found⟩
  · rintro ⟨member, proposed⟩
    exact ⟨change.1, member, by rw [proposed]; rfl⟩

theorem lookup_written {proposed : String → Option Value} (store : ParameterStore) (changes : List ParameterChange)
    (agree : ∀ change ∈ changes, proposed change.1 = some change.2) (key : String) :
    (Runs.after write store changes).values.lookup key =
      if key ∈ changes.map Prod.fst then proposed key else store.values.lookup key := by
  induction changes using List.reverseRecOn with
  | nil => simp
  | append_singleton before change ih =>
    have earlier := ih fun other member => agree other (List.mem_append_left _ member)
    rw [Runs.after_snoc]
    show ((Runs.after write store before).values.insert change.1 change.2).lookup key = _
    rw [HashMap.lookup_insert_eq, earlier]
    by_cases same : key = change.1
    · rw [if_pos same, if_pos (by simp [same]), same, agree change (by simp)]
    · rw [if_neg same, List.map_append, List.map_singleton]
      simp only [List.mem_append, List.mem_singleton, same, or_false]

theorem same_values_iff {proposed : String → Option Value}
    (agree : ∀ change ∈ changes, proposed change.1 = some change.2) :
    (∀ key, (Runs.after write store changes).values.lookup key = store.values.lookup key) ↔
      ∀ change ∈ changes, store.values.lookup change.1 = some change.2 := by
  constructor
  · intro same change member
    have written := lookup_written store changes agree change.1
    rw [if_pos (List.mem_map_of_mem member), agree change member, same] at written
    exact written
  · intro held key
    rw [lookup_written store changes agree]
    split
    · next member =>
      obtain ⟨change, changes, rfl⟩ := List.mem_map.mp member
      rw [agree change changes, held change changes]
    · rfl

end

section

variable {L : Type} {state : GovernanceState L} {store : ParameterStore} {proposalId : Hash}
  {proposal : GovernanceProposal}

def withStore (state : GovernanceState L) (store : ParameterStore) : GovernanceState L :=
  { state with parameterStore := some store }

def markFailed (state : GovernanceState L) (proposalId : Hash) (proposal : GovernanceProposal) : GovernanceState L :=
  { state with manager := state.manager.setProposal proposalId { proposal with status := .failed } }

theorem applyParam_skips {key : String}
    (absent : state.parameterStore = none ∨ ProposalLifecycleManager.proposedValue proposal.newValues key = none) :
    ProposalLifecycleManager.applyParam proposalId proposal key state = .ok () state := by
  unfold ProposalLifecycleManager.applyParam
  rw [bind_get]
  rcases absent with unconfigured | unproposed
  · rw [unconfigured]
    rfl
  · rw [unproposed]
    cases state.parameterStore <;> rfl

theorem applyParam_writes (change : ParameterChange)
    (proposed : ProposalLifecycleManager.proposedValue proposal.newValues change.1 = some change.2)
    (accepts : Accepts store change) :
    ProposalLifecycleManager.applyParam proposalId proposal change.1 (withStore state store) =
      .ok () (withStore state (write store change)) := by
  unfold ProposalLifecycleManager.applyParam
  rw [bind_get, proposed]
  simp only [withStore, accepts_writes accepts]
  rfl

theorem applyParam_refuses (state : GovernanceState L) (proposalId : Hash) {change : ParameterChange}
    (proposed : ProposalLifecycleManager.proposedValue proposal.newValues change.1 = some change.2)
    (refuses : ¬Accepts store change) :
    ∃ error, ProposalLifecycleManager.applyParam proposalId proposal change.1 (withStore state store) =
      .error error (markFailed (withStore state store) proposalId proposal) := by
  obtain ⟨reason, failed⟩ := refuses_error refuses
  refine ⟨.parameterUpdateFailed change.1 reason, ?_⟩
  unfold ProposalLifecycleManager.applyParam
  rw [bind_get, proposed]
  simp only [withStore, failed]
  rfl

theorem forM_unconfigured (keys : List String) (unconfigured : state.parameterStore = none) :
    keys.forM (ProposalLifecycleManager.applyParam proposalId proposal) state = .ok () state := by
  induction keys with
  | nil => rfl
  | cons key keys ih =>
    rw [forM_ok (applyParam_skips (.inl unconfigured))]
    exact ih

theorem forM_applied (state : GovernanceState L) (proposalId : Hash) (keys : List String)
    (applied : Applied store (changesOf proposal.newValues keys)) :
    keys.forM (ProposalLifecycleManager.applyParam proposalId proposal) (withStore state store) =
      .ok () (withStore state (Runs.after write store (changesOf proposal.newValues keys))) := by
  induction keys generalizing store with
  | nil => rfl
  | cons key keys ih =>
    cases proposed : ProposalLifecycleManager.proposedValue proposal.newValues key with
    | none =>
      rw [changesOf_cons_none proposed] at applied ⊢
      rw [forM_ok (applyParam_skips (.inr proposed))]
      exact ih applied
    | some value =>
      rw [changesOf_cons_some proposed] at applied ⊢
      obtain ⟨accepts, later⟩ := applied_cons.mp applied
      rw [forM_ok (applyParam_writes (key, value) proposed accepts)]
      exact ih later

theorem forM_refused (state : GovernanceState L) (proposalId : Hash) (keys : List String)
    {before : List ParameterChange} {change : ParameterChange}
    (refused : RefusedAfter store (changesOf proposal.newValues keys) before change) :
    ∃ error, keys.forM (ProposalLifecycleManager.applyParam proposalId proposal) (withStore state store) =
      .error error (markFailed (withStore state (Runs.after write store before)) proposalId proposal) := by
  induction keys generalizing store before with
  | nil => simp [RefusedAfter, changesOf] at refused
  | cons key keys ih =>
    cases proposed : ProposalLifecycleManager.proposedValue proposal.newValues key with
    | none =>
      rw [changesOf_cons_none proposed] at refused
      rw [forM_ok (applyParam_skips (.inr proposed))]
      exact ih refused
    | some value =>
      rw [changesOf_cons_some proposed] at refused
      obtain ⟨part, applied, refuses⟩ := refused
      cases before with
      | nil =>
        simp only [List.nil_append, List.cons_prefix_cons, List.nil_prefix, and_true] at part
        subst part
        obtain ⟨error, failed⟩ := applyParam_refuses state proposalId proposed refuses
        exact ⟨error, forM_error failed⟩
      | cons first before =>
        simp only [List.cons_append, List.cons_prefix_cons] at part
        obtain ⟨rfl, part⟩ := part
        obtain ⟨accepts, applied⟩ := applied_cons.mp applied
        rw [forM_ok (applyParam_writes (key, value) proposed accepts)]
        exact ih ⟨part, applied, refuses⟩

end

end AdicProof.Governance
