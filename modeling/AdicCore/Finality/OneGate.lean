import AdicCore.Finality.Engine

open AdicModel AdicModel.Finality Calls

namespace AdicProof.Finality

def OneGate (artifact : FinalityArtifact) : Prop :=
  artifact.gate = .f1KCore ∧ artifact.witness.h3Stable = none ∨
    artifact.gate = .f2PersistentHomology ∧ artifact.witness.kcoreRoot = none

variable {artifact : FinalityArtifact}

theorem OneGate.not_composite (one : OneGate artifact) :
    artifact.hasCompositeFinality = false := by
  unfold FinalityArtifact.hasCompositeFinality FinalityArtifact.hasF1Finality FinalityArtifact.hasF2Finality
  rcases one with ⟨gate, -⟩ | ⟨gate, -⟩
  · simp [gate]
  · simp [gate]

theorem OneGate.not_both (one : OneGate artifact) :
    (artifact.witness.kcoreRoot.isSome && artifact.witness.h3Stable.isSome) = false := by
  rcases one with ⟨-, absent⟩ | ⟨-, absent⟩
  · simp [absent]
  · simp [absent]

def OneGateEach (engine : FinalityEngine) : Prop :=
  ∀ id artifact, engine.finalized.lookup id = some artifact → OneGate artifact

abbrev KeepsGates {ω α : Type} (call : FinalityEngine.EngineM ω α) : Prop :=
  Triple (fun node => OneGateEach node.engine) call (fun _ node => OneGateEach node.engine)
    fun node => OneGateEach node.engine

section

variable {ω : Type} {surroundings : Surroundings ω} {engine : FinalityEngine}

theorem createArtifact_oneGate (timestamp : Int) (msgId : MessageId) (result : KCoreResult) :
    OneGate (engine.createArtifact timestamp msgId result) := Or.inl ⟨rfl, rfl⟩

theorem f2Artifact_oneGate (timestamp : Int) (msgId : MessageId) (h3Stable : Bool) (distance confidence : ℚ)
    (numFinalized : Nat) : OneGate (engine.f2Artifact timestamp msgId h3Stable distance confidence numFinalized) :=
  Or.inr ⟨rfl, rfl⟩

theorem insertArtifact_oneGateEach (each : OneGateEach engine) (id : MessageId)
    (one : OneGate artifact) : OneGateEach (engine.insertArtifact id artifact) := by
  intro other stored held
  have lookup : (engine.insertArtifact id artifact).finalized.lookup other = _ :=
    HashMap.lookup_insert_eq engine.finalized id other artifact
  rw [lookup] at held
  by_cases same : other = id
  · rw [if_pos same] at held
    cases held
    exact one
  · rw [if_neg same] at held
    exact each other stored held

theorem oneGateEach_same {changed : FinalityEngine} (same : changed.finalized = engine.finalized)
    (each : OneGateEach engine) : OneGateEach changed := by
  intro id artifact held
  rw [same] at held
  exact each id artifact held

end

structure EngineKeeps {ω : Type} (surroundings : Surroundings ω) (kept : Node ω → Prop) : Prop where
  other : ∀ node engine, engine.finalized = node.engine.finalized → kept node → kept { node with engine }
  artifact : ∀ (node : Node ω) id artifact, OneGate artifact → kept node →
    kept { node with engine := node.engine.insertArtifact id artifact }
  checkF2 : ∀ node messages, kept node → kept { node with world := (surroundings.checkF2 messages node.world).2 }
  analyze : ∀ node id, kept node → kept { node with world := (surroundings.analyze id node.world).2 }
  refund : ∀ node id, kept node → kept { node with world := (surroundings.refund id node.world).2 }
  goodUpdate : ∀ node proposer diversity depth, kept node →
    kept { node with world := surroundings.goodUpdate proposer diversity depth node.world }
  storeFinalityArtifact : ∀ node id artifact, kept node →
    kept { node with world := surroundings.storeFinalityArtifact id artifact node.world }

section

variable {ω : Type} {surroundings : Surroundings ω} {kept : Node ω → Prop} (keeps : EngineKeeps surroundings kept)

include keeps

theorem onEngine_keeps {change : FinalityEngine → FinalityEngine}
    (same : ∀ engine, (change engine).finalized = engine.finalized) :
    Triple kept (FinalityEngine.onEngine change) (fun _ => kept) kept :=
  triple_modify fun node holds => keeps.other node (change node.engine) (same node.engine) holds

theorem updateFinalizedDepth_keeps (depth : Nat) :
    Triple kept (FinalityEngine.onEngine (.updateFinalizedDepth depth)) (fun _ => kept) kept :=
  onEngine_keeps keeps fun _ => rfl

theorem insertArtifact_keeps (id : MessageId) (one : OneGate artifact) :
    Triple kept (FinalityEngine.onEngine (.insertArtifact id artifact)) (fun _ => kept) kept :=
  triple_modify fun node holds => keeps.artifact node id artifact one holds

theorem storeFinalityArtifact_keeps (id : MessageId) (artifact : FinalityArtifact) :
    Triple kept (FinalityEngine.onWorld (surroundings.storeFinalityArtifact id artifact)) (fun _ => kept) kept :=
  triple_modify fun node holds => keeps.storeFinalityArtifact node id artifact holds

theorem rewardProposer_keeps (msgId : MessageId) (diversity : ℚ) (depth : Nat) :
    Triple kept (FinalityEngine.rewardProposer surroundings msgId diversity depth) (fun _ => kept) kept := by
  apply Triple.get_any
  intro node
  cases surroundings.getProposer msgId node.world with
  | none => exact triple_pure fun _ holds => holds
  | some proposer =>
    have refunded : Triple kept (FinalityEngine.asks (surroundings.refund msgId)) (fun _ => kept) kept :=
      fun node holds => keeps.refund node msgId holds
    refine refunded.bind fun answer => ?_
    cases answer with
    | error text => exact triple_throw fun _ holds => holds
    | ok done => exact triple_modify fun node holds => keeps.goodUpdate node proposer diversity depth holds

theorem trackF1Finalized_keeps (messageId : MessageId) :
    Triple kept (FinalityEngine.trackF1Finalized messageId) (fun _ => kept) kept := by
  apply Triple.get_any
  intro node
  apply triple_ite
  · intro _
    exact triple_throw fun _ holds => holds
  · intro _
    apply Triple.bind (onEngine_keeps keeps ?_)
    · intro _
      refine Triple.get_any fun node => triple_ite ?_ ?_
      · intro _
        apply Triple.bind (onEngine_keeps keeps ?_)
        · intro _
          exact triple_throw fun _ holds => holds
        · exact fun _ => rfl
      · intro _
        exact triple_pure fun _ holds => holds
    · exact fun _ => rfl

theorem retainPending_keeps (newlyFinalized : List MessageId) :
    Triple kept (FinalityEngine.retainPending newlyFinalized) (fun _ => kept) kept := by
  apply triple_ite
  · intro _
    exact triple_pure fun _ holds => holds
  · intro _
    exact onEngine_keeps keeps fun _ => rfl

theorem finalizeMessageF2_keeps (msgId : MessageId) (h3Stable : Bool) (distance confidence : ℚ)
    (numFinalized : Nat) :
    Triple kept (FinalityEngine.finalizeMessageF2 surroundings msgId h3Stable distance confidence numFinalized)
      (fun _ => kept) kept := by
  apply Triple.get_any
  intro node
  refine (updateFinalizedDepth_keeps keeps _).bind fun _ => ?_
  refine (rewardProposer_keeps keeps msgId 1 3).bind fun _ => ?_
  refine (storeFinalityArtifact_keeps keeps msgId _).bind fun _ => ?_
  refine (insertArtifact_keeps keeps msgId (f2Artifact_oneGate _ _ _ _ _ _)).bind fun _ => ?_
  exact onEngine_keeps keeps fun _ => rfl

theorem tryF2Finality_keeps (pending : List MessageId) :
    Triple kept (FinalityEngine.tryF2Finality surroundings pending) (fun _ => kept) kept := by
  apply triple_ite
  · intro _
    exact triple_pure fun _ holds => holds
  · intro _
    refine Triple.get_any fun node => triple_ite ?_ ?_
    · intro _
      exact triple_pure fun _ holds => holds
    · intro _
      have asked : ∀ messages, Triple kept (FinalityEngine.asks (surroundings.checkF2 messages)) (fun _ => kept) kept :=
        fun messages node holds => keeps.checkF2 node messages holds
      refine (asked _).bind fun result => ?_
      cases result with
      | final hDStable distance confidence finalizedMessages => exact triple_pure fun _ holds => holds
      | timeout => exact triple_pure fun _ holds => holds
      | pending => exact triple_pure fun _ holds => holds
      | error message => exact triple_pure fun _ holds => holds

theorem checkF1_keeps (newlyFinalized : List MessageId) (msgId : MessageId) :
    Triple kept (FinalityEngine.checkF1 surroundings newlyFinalized msgId) (fun _ => kept) kept := by
  refine Triple.get_any fun node => triple_ite ?_ ?_
  · intro _
    exact triple_pure fun _ holds => holds
  · intro _
    have asked : Triple kept (FinalityEngine.asks (surroundings.analyze msgId)) (fun _ => kept) kept :=
      fun node holds => keeps.analyze node msgId holds
    refine asked.bind fun analysis => ?_
    cases analysis with
    | error text => exact triple_pure fun _ holds => holds
    | ok result =>
      apply triple_ite
      · intro _
        exact triple_pure fun _ holds => holds
      · intro _
        refine Triple.get_any fun node => ?_
        refine (updateFinalizedDepth_keeps keeps _).bind fun _ => ?_
        refine (rewardProposer_keeps keeps msgId _ _).bind fun _ => ?_
        refine (storeFinalityArtifact_keeps keeps msgId _).bind fun _ => ?_
        refine (insertArtifact_keeps keeps msgId (createArtifact_oneGate _ _ _)).bind fun _ => ?_
        exact (trackF1Finalized_keeps keeps msgId).bind fun _ => triple_pure fun _ holds => holds

theorem checkFinalityF1_keeps (pendingList : List MessageId) :
    Triple kept (FinalityEngine.checkFinalityF1 surroundings pendingList) (fun _ => kept) kept := by
  refine (triple_foldlM (checkF1_keeps keeps) pendingList []).bind fun newlyFinalized => ?_
  exact (retainPending_keeps keeps newlyFinalized).bind fun _ => triple_pure fun _ holds => holds

theorem checkFinality_keeps : Triple kept (FinalityEngine.checkFinality surroundings) (fun _ => kept) kept := by
  refine Triple.get_any fun node => ?_
  have fallback : Triple kept (if node.engine.config.f1Enabled = true then
      FinalityEngine.checkFinalityF1 surroundings node.engine.pending else pure []) (fun _ => kept) kept := by
    apply triple_ite
    · intro _
      exact checkFinalityF1_keeps keeps _
    · intro _
      exact triple_pure fun _ holds => holds
  apply triple_ite
  · intro _
    refine (tryF2Finality_keeps keeps _).bind fun answer => ?_
    cases answer with
    | error text => exact fallback
    | ok decided =>
      cases decided with
      | none => exact fallback
      | some finalized =>
        refine (triple_forM (fun msgId => finalizeMessageF2_keeps keeps msgId _ _ _ _) _).bind fun _ => ?_
        exact (retainPending_keeps keeps _).bind fun _ => triple_pure fun _ holds => holds
  · intro _
    exact fallback

end

theorem oneGateEach_keeps {ω : Type} (surroundings : Surroundings ω) :
    EngineKeeps surroundings fun node => OneGateEach node.engine where
  other _ _ same each := oneGateEach_same same each
  artifact _ id _ one each := insertArtifact_oneGateEach each id one
  checkF2 _ _ each := each
  analyze _ _ each := each
  refund _ _ each := each
  goodUpdate _ _ _ _ each := each
  storeFinalityArtifact _ _ _ each := each

theorem checkFinality_oneGate {ω : Type} {surroundings : Surroundings ω} :
    KeepsGates (FinalityEngine.checkFinality surroundings) :=
  checkFinality_keeps (oneGateEach_keeps surroundings)

end AdicProof.Finality
