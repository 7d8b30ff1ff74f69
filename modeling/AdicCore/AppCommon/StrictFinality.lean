import AdicCore.Finality.OneGate

open AdicModel.Finality

namespace AdicModel.AppCommon

inductive FinalityPolicy where
  | strict
  | f1Only
  | f2Only
deriving DecidableEq

/-- An `Instant` is a number of milliseconds. -/
structure FinalityStatus where
  messageId : MessageId
  f1Final : Bool
  f2Final : Bool
  f1Time : Option Nat
  f2Time : Option Nat
  f2Confidence : Option ℚ
  checkedAt : Nat
deriving DecidableEq

def FinalityStatus.isFinal (status : FinalityStatus) : FinalityPolicy → Bool
  | .strict => status.f1Final && status.f2Final
  | .f1Only => status.f1Final
  | .f2Only => status.f2Final

inductive FinalityCheckError where
  | finalityCheckFailed (text : String)
deriving DecidableEq

structure FinalityAdapter where
  cache : HashMap.Table MessageId FinalityStatus
  cacheTtl : Nat

namespace FinalityAdapter

def new (cacheTtl : Nat) : FinalityAdapter := ⟨∅, cacheTtl⟩

def recent (adapter : FinalityAdapter) (now : Nat) (messageId : MessageId) : Option FinalityStatus :=
  (adapter.cache.lookup messageId).filter fun status => now - status.checkedAt < adapter.cacheTtl

def statusOf (engine : FinalityEngine) (now : Nat) (messageId : MessageId) :
    Except FinalityCheckError FinalityStatus :=
  if engine.isFinalized messageId then
    match engine.getArtifact messageId with
    | none => .error (.finalityCheckFailed "Artifact not found")
    | some artifact =>
      let f1Final := artifact.witness.kcoreRoot.isSome
      let f2Final := artifact.witness.h3Stable.isSome
      .ok
        { messageId
          f1Final
          f2Final
          f1Time := if f1Final then some now else none
          f2Time := if f2Final then some now else none
          f2Confidence := artifact.witness.f2Confidence
          checkedAt := now }
  else
    .ok
      { messageId
        f1Final := false
        f2Final := false
        f1Time := none
        f2Time := none
        f2Confidence := none
        checkedAt := now }

/-- The entries that were checked first go when there are more than a thousand. -/
def prune (order : HashMap.Order) (now : Nat) (cache : HashMap.Table MessageId FinalityStatus) :
    HashMap.Table MessageId FinalityStatus :=
  if cache.keys.length > 1000 then
    let checkedAt (key : MessageId) := ((cache.lookup key).map FinalityStatus.checkedAt).getD now
    let keys := (order.iterate cache.keys).mergeSort fun first second => checkedAt first ≤ checkedAt second
    (keys.take (cache.keys.length - 900)).foldl (fun cache key => cache.erase key) cache
  else cache

def checkFinality (engine : FinalityEngine) (order : HashMap.Order) (now : Nat) (messageId : MessageId)
    (adapter : FinalityAdapter) : Except FinalityCheckError FinalityStatus × FinalityAdapter :=
  match adapter.recent now messageId with
  | some status => (.ok status, adapter)
  | none =>
    match statusOf engine now messageId with
    | .error error => (.error error, adapter)
    | .ok status => (.ok status, { adapter with cache := prune order now (adapter.cache.insert messageId status) })

def isFinal (engine : FinalityEngine) (order : HashMap.Order) (now : Nat) (messageId : MessageId)
    (policy : FinalityPolicy) (adapter : FinalityAdapter) : Except FinalityCheckError Bool × FinalityAdapter :=
  let (status, adapter) := adapter.checkFinality engine order now messageId
  (status.map fun status => status.isFinal policy, adapter)

end FinalityAdapter

end AdicModel.AppCommon

open AdicModel AdicModel.Finality AdicModel.AppCommon AdicProof.Finality Calls

namespace AdicProof.AppCommon

inductive FinalityCall (ω : Type) where
  | addMessage (id : MessageId)
  | checkFinality
  | changeWorld (world : ω)
  | isFinal (order : HashMap.Order) (now : Nat) (messageId : MessageId) (policy : FinalityPolicy)

structure Finalizing (ω : Type) where
  node : Node ω
  adapter : FinalityAdapter

namespace Finalizing

variable {ω : Type} (surroundings : Surroundings ω)

def new (config : FinalityConfig) (cacheTtl : Nat) (world : ω) : Finalizing ω :=
  ⟨⟨.new config, world⟩, .new cacheTtl⟩

def next (state : Finalizing ω) : FinalityCall ω → Finalizing ω
  | .addMessage id => { state with node := { state.node with engine := state.node.engine.addMessage id } }
  | .checkFinality => { state with node := stateAfter (FinalityEngine.checkFinality surroundings) state.node }
  | .changeWorld world => { state with node := { state.node with world } }
  | .isFinal order now messageId policy =>
    { state with adapter := (state.adapter.isFinal state.node.engine order now messageId policy).2 }

abbrev after (state : Finalizing ω) (calls : List (FinalityCall ω)) : Finalizing ω :=
  Runs.after (next surroundings) state calls

def StrictlyFinal (state : Finalizing ω) (id : MessageId) : Prop :=
  ∃ order now, (state.adapter.isFinal state.node.engine order now id .strict).1 = .ok true

/-- No stored artifact and no remembered status shows both finalities. -/
structure NeverBoth (state : Finalizing ω) : Prop where
  artifacts : OneGateEach state.node.engine
  remembered : ∀ id status, state.adapter.cache.lookup id = some status → status.isFinal .strict = false

end Finalizing

def ReachesComposite (config : FinalityConfig) : Prop :=
  ∃ (ω : Type) (surroundings : Surroundings ω) (cacheTtl : Nat) (world : ω) (calls : List (FinalityCall ω))
    (id : MessageId), ((Finalizing.new config cacheTtl world).after surroundings calls).node.engine.hasCompositeFinality id

def ReachesStrict (config : FinalityConfig) : Prop :=
  ∃ (ω : Type) (surroundings : Surroundings ω) (cacheTtl : Nat) (world : ω) (calls : List (FinalityCall ω))
    (id : MessageId), ((Finalizing.new config cacheTtl world).after surroundings calls).StrictlyFinal id

section

variable {cache : HashMap.Table MessageId FinalityStatus} {engine : FinalityEngine} {adapter : FinalityAdapter}
  {now : Nat} {messageId : MessageId} {status : FinalityStatus}

theorem lookup_foldl_erase (keys : List MessageId) (id : MessageId)
    (held : (keys.foldl (fun cache key => cache.erase key) cache).lookup id = some status) :
    cache.lookup id = some status := by
  induction keys generalizing cache with
  | nil => exact held
  | cons key keys ih =>
    have kept := ih held
    rw [HashMap.lookup_erase_eq] at kept
    split at kept
    · cases kept
    · exact kept

variable {order : HashMap.Order}

theorem lookup_prune (id : MessageId)
    (held : (FinalityAdapter.prune order now cache).lookup id = some status) : cache.lookup id = some status := by
  unfold FinalityAdapter.prune at held
  split at held
  · exact lookup_foldl_erase _ id held
  · exact held

theorem statusOf_not_strict (each : OneGateEach engine)
    (found : FinalityAdapter.statusOf engine now messageId = .ok status) : status.isFinal .strict = false := by
  unfold FinalityAdapter.statusOf FinalityEngine.getArtifact at found
  split at found
  · split at found
    · cases found
    · next artifact held =>
      cases found
      exact (each messageId artifact held).not_both
  · cases found
    rfl

theorem checkFinality_not_strict (each : OneGateEach engine)
    (remembered : ∀ id status, adapter.cache.lookup id = some status → status.isFinal .strict = false)
    (found : (adapter.checkFinality engine order now messageId).1 = .ok status) :
    status.isFinal .strict = false := by
  unfold FinalityAdapter.checkFinality at found
  split at found
  · next recent held =>
    cases found
    exact remembered messageId status (Option.filter_eq_some_iff.mp held).1
  · split at found
    · cases found
    · next fresh held =>
      cases found
      exact statusOf_not_strict each held

theorem checkFinality_remembered (each : OneGateEach engine)
    (remembered : ∀ id status, adapter.cache.lookup id = some status → status.isFinal .strict = false)
    (id : MessageId)
    (held : (adapter.checkFinality engine order now messageId).2.cache.lookup id = some status) :
    status.isFinal .strict = false := by
  unfold FinalityAdapter.checkFinality at held
  split at held
  · exact remembered id status held
  · split at held
    · exact remembered id status held
    · next fresh found =>
      have inserted := lookup_prune id held
      rw [HashMap.lookup_insert_eq] at inserted
      split at inserted
      · cases inserted
        exact statusOf_not_strict each found
      · exact remembered id status inserted

end

section

variable {ω : Type} {surroundings : Surroundings ω} {state : Finalizing ω}

theorem neverBoth_next (never : state.NeverBoth) (call : FinalityCall ω) :
    (state.next surroundings call).NeverBoth := by
  cases call with
  | addMessage id => exact ⟨never.artifacts, never.remembered⟩
  | checkFinality => exact ⟨checkFinality_oneGate.stateAfter never.artifacts, never.remembered⟩
  | changeWorld world => exact ⟨never.artifacts, never.remembered⟩
  | isFinal order now messageId policy =>
    refine ⟨never.artifacts, fun id status held => ?_⟩
    exact checkFinality_remembered never.artifacts never.remembered id held

theorem neverBoth_new (config : FinalityConfig) (cacheTtl : Nat) (world : ω) :
    (Finalizing.new config cacheTtl world).NeverBoth where
  artifacts id artifact held := by cases held
  remembered id status held := by cases held

theorem neverBoth_after (config : FinalityConfig) (cacheTtl : Nat) (world : ω) (calls : List (FinalityCall ω)) :
    ((Finalizing.new config cacheTtl world).after surroundings calls).NeverBoth :=
  Runs.invariant_of_kept (neverBoth_new config cacheTtl world) (fun _ call never => neverBoth_next never call) calls

theorem NeverBoth.not_composite (never : state.NeverBoth) (id : MessageId) :
    state.node.engine.hasCompositeFinality id = false := by
  unfold FinalityEngine.hasCompositeFinality
  split
  · next artifact held => exact (never.artifacts id artifact held).not_composite
  · rfl

theorem NeverBoth.not_strict (never : state.NeverBoth) (id : MessageId) : ¬state.StrictlyFinal id := by
  rintro ⟨order, now, answer⟩
  have mapped : (state.adapter.checkFinality state.node.engine order now id).1.map
      (fun status => status.isFinal .strict) = .ok true := answer
  cases found : (state.adapter.checkFinality state.node.engine order now id).1 with
  | error error =>
    rw [found] at mapped
    cases mapped
  | ok status =>
    rw [found] at mapped
    have strict : status.isFinal .strict = true := Except.ok.inj mapped
    rw [checkFinality_not_strict never.artifacts never.remembered found] at strict
    cases strict

end

/-- No configuration reaches the composite or the strict finality of a message. -/
theorem governance_finality_unreachable (config : FinalityConfig) :
    ¬ReachesComposite config ∧ ¬ReachesStrict config := by
  constructor
  · rintro ⟨ω, surroundings, cacheTtl, world, calls, id, composite⟩
    rw [NeverBoth.not_composite (neverBoth_after config cacheTtl world calls) id] at composite
    cases composite
  · rintro ⟨ω, surroundings, cacheTtl, world, calls, id, strict⟩
    exact NeverBoth.not_strict (neverBoth_after config cacheTtl world calls) id strict

section

def bothEnabled : FinalityConfig := { FinalityConfig.default with f2Enabled := true }

theorem both_enabled_unreachable :
    ¬∀ config : FinalityConfig, config.f1Enabled = true → config.f2Enabled = true →
      ReachesComposite config ∧ ReachesStrict config := by
  intro reaches
  obtain ⟨-, ω, surroundings, cacheTtl, world, calls, id, strict⟩ := reaches bothEnabled rfl rfl
  exact NeverBoth.not_strict (neverBoth_after bothEnabled cacheTtl world calls) id strict

end

end AdicProof.AppCommon
