import AdicCore.Finality.CheckpointOrder
import AdicCore.Library.Locks

open AdicModel.Finality.MerkleTreeBuilder Locks

namespace AdicModel.Finality

/-- The locks of the engine around its checkpoints. -/
inductive EngineLock where
  | config
  | checkpointHeight
  | f1FinalizedMessages
  | f2StabilizedMessages
  | finalized
  | checkpoints
deriving DecidableEq

abbrev CheckpointM (α : Type) : Type := LockM EngineLock CheckpointState α

namespace CheckpointState

def onEngine (change : FinalityEngine → FinalityEngine) (state : CheckpointState) : CheckpointState :=
  { state with engine := change state.engine }

def pushMessage (messageId : MessageId) : CheckpointState → CheckpointState :=
  onEngine fun engine => { engine with f1FinalizedMessages := engine.f1FinalizedMessages ++ [messageId] }

section

variable (sha256 : List UInt8 → Bytes32) (toVec : FinalityWitness → List (UInt32 × Nat) → Option (List UInt8))
  (iteration : ∀ engine, Iteration engine) (timestamp : Int)

/-- The guards that are dropped before the end of the call are released. -/
def createCheckpoint : CheckpointM Checkpoint := inScope do
  acquire .checkpointHeight .write
  let height ← reads fun state => state.engine.checkpointHeight
  writes (onEngine fun engine => { engine with checkpointHeight := height + 1 })
  acquire .f1FinalizedMessages .read
  acquire .f2StabilizedMessages .read
  acquire .finalized .read
  let engine ← reads engine
  let messageTree := engine.f1FinalizedMessages.foldl (MerkleTreeBuilder.addMessage sha256) .new
  let witnessTree := (witnessTexts toVec (iteration engine)).foldl (MerkleTreeBuilder.addWitness sha256) .new
  let maxKCore := ((iteration engine).artifacts.map fun entry => UInt64.ofNat entry.2.params.k).foldl max 0
  acquire .checkpoints .read
  let prevHash ← reads fun state => state.checkpoints.getLast?.map (Checkpoint.computeHash sha256)
  release .checkpoints .read
  let checkpoint : Checkpoint :=
    { height
      timestamp
      messagesMerkleRoot := messageTree.computeRoot sha256
      witnessesMerkleRoot := witnessTree.computeRoot sha256
      f1Metadata := .new maxKCore engine.f1FinalizedMessages
      f2Metadata := .new engine.f2StabilizedMessages none
      prevCheckpointHash := prevHash }
  acquire .checkpoints .write
  writes fun state => { state with checkpoints := state.checkpoints ++ [checkpoint] }
  release .f1FinalizedMessages .read
  release .f2StabilizedMessages .read
  acquire .f1FinalizedMessages .write
  acquire .f2StabilizedMessages .write
  writes (onEngine fun engine => { engine with f1FinalizedMessages := [], f2StabilizedMessages := [] })
  return checkpoint

/-- The new checkpoint is created while the messages are locked. -/
def trackF1Finalized (messageId : MessageId) : CheckpointM Unit := inScope do
  acquire .f1FinalizedMessages .write
  writes (pushMessage messageId)
  acquire .config .read
  let checkpointInterval ← reads fun state => state.engine.config.checkpointInterval
  release .config .read
  let f1Messages ← reads fun state => state.engine.f1FinalizedMessages
  if f1Messages.length ≥ checkpointInterval.toNat then
    let _ ← createCheckpoint sha256 toVec iteration timestamp

def trackAll (calls : List (MessageId × Int)) : CheckpointM Unit :=
  calls.forM fun call => trackF1Finalized sha256 toVec iteration call.2 call.1

end

end CheckpointState

end AdicModel.Finality

open AdicModel AdicModel.Finality Calls

namespace AdicProof.Finality

section

variable {sha256 : List UInt8 → Bytes32} {toVec : FinalityWitness → List (UInt32 × Nat) → Option (List UInt8)}
  {iteration : ∀ engine, Iteration engine} {timestamp : Int} {state : CheckpointState} {messageId : MessageId}

theorem createCheckpoint_free (free : state.engine.f1MessagesHeld = false) :
    ∃ (checkpoint : Checkpoint) (next : CheckpointState) (order : Iteration state.engine),
      CheckpointState.createCheckpoint sha256 toVec iteration timestamp ⟨state, []⟩ = .ok checkpoint ⟨next, []⟩ ∧
        createCheckpoint sha256 toVec timestamp state order = some (checkpoint, next) := by
  let order := iteration { state.engine with checkpointHeight := state.engine.checkpointHeight + 1 }
  refine ⟨_, _, ⟨order.artifacts, order.perm, order.balls, order.nodup, order.toFinset⟩, rfl, ?_⟩
  unfold createCheckpoint
  rw [free]
  rfl

theorem createCheckpoint_held {held : List (EngineLock × Locks.Mode)}
    (writing : held = [(.f1FinalizedMessages, .write)]) :
    ∃ held', CheckpointState.createCheckpoint sha256 toVec iteration timestamp ⟨state, held⟩ =
      .error ⟨.f1FinalizedMessages, .read⟩
        ⟨state.onEngine fun engine => { engine with checkpointHeight := engine.checkpointHeight + 1 }, held'⟩ := by
  rw [writing]
  exact ⟨_, rfl⟩

theorem length_pushMessage :
    (state.pushMessage messageId).engine.f1FinalizedMessages.length = state.engine.f1FinalizedMessages.length + 1 :=
  List.length_append

theorem track_below
    (below : state.engine.f1FinalizedMessages.length + 1 < state.engine.config.checkpointInterval.toNat) :
    CheckpointState.trackF1Finalized sha256 toVec iteration timestamp messageId ⟨state, []⟩ =
      .ok () ⟨state.pushMessage messageId, []⟩ := by
  have short : ¬ (state.pushMessage messageId).engine.f1FinalizedMessages.length ≥
      state.engine.config.checkpointInterval.toNat := by
    rw [length_pushMessage]
    omega
  unfold CheckpointState.trackF1Finalized
  let after : Locks.Guarded _ _ := ⟨state.pushMessage messageId, [(EngineLock.f1FinalizedMessages, .write)]⟩
  exact @Locks.inScope_ok _ _ _ _ _ after _ (congrFun (if_neg short) _)

theorem track_blocks
    (full : state.engine.config.checkpointInterval.toNat ≤ state.engine.f1FinalizedMessages.length + 1) :
    ∃ held, CheckpointState.trackF1Finalized sha256 toVec iteration timestamp messageId ⟨state, []⟩ =
      .error ⟨.f1FinalizedMessages, .read⟩ ⟨(state.pushMessage messageId).onEngine fun engine =>
        { engine with checkpointHeight := engine.checkpointHeight + 1 }, held⟩ := by
  have long : (state.pushMessage messageId).engine.f1FinalizedMessages.length ≥
      state.engine.config.checkpointInterval.toNat := by
    rw [length_pushMessage]
    exact full
  obtain ⟨held, run⟩ := @createCheckpoint_held sha256 toVec iteration timestamp (state.pushMessage messageId) _ rfl
  exact ⟨held, Locks.inScope_error ((congrFun (if_pos long) _).trans (bind_error run))⟩

def trackedMessages (state : CheckpointState) : List MessageId × List (List MessageId) :=
  (state.engine.f1FinalizedMessages, state.checkpoints.map fun checkpoint => checkpoint.f1Metadata.finalizedMessages)

def track (interval : Nat) (tracked : List MessageId × List (List MessageId)) (messageId : MessageId) :
    List MessageId × List (List MessageId) :=
  if tracked.1.length + 1 ≥ interval then ([], tracked.2 ++ [tracked.1 ++ [messageId]])
  else (tracked.1 ++ [messageId], tracked.2)

def NeverBlocks (sha256 : List UInt8 → Bytes32) (toVec : FinalityWitness → List (UInt32 × Nat) → Option (List UInt8))
    (iteration : ∀ engine, Iteration engine) (state : CheckpointState) (calls : List (MessageId × Int)) : Prop :=
  ∀ before, before <+: calls → ∃ next,
    CheckpointState.trackAll sha256 toVec iteration before ⟨state, []⟩ = .ok () ⟨next, []⟩ ∧
      trackedMessages next = (before.map Prod.fst).foldl (track state.engine.config.checkpointInterval.toNat)
        (trackedMessages state)

theorem trackAll_below (calls : List (MessageId × Int)) (state : CheckpointState)
    (below : state.engine.f1FinalizedMessages.length + calls.length < state.engine.config.checkpointInterval.toNat) :
    ∃ next, CheckpointState.trackAll sha256 toVec iteration calls ⟨state, []⟩ = .ok () ⟨next, []⟩ ∧
      trackedMessages next = (calls.map Prod.fst).foldl (track state.engine.config.checkpointInterval.toNat)
        (trackedMessages state) := by
  induction calls generalizing state with
  | nil => exact ⟨state, rfl, rfl⟩
  | cons call calls ih =>
    rw [List.length_cons] at below
    have first : state.engine.f1FinalizedMessages.length + 1 < state.engine.config.checkpointInterval.toNat := by omega
    have kept := @track_below sha256 toVec iteration call.2 state call.1 first
    have rest : (state.pushMessage call.1).engine.f1FinalizedMessages.length + calls.length <
        state.engine.config.checkpointInterval.toNat := by
      rw [length_pushMessage]
      omega
    obtain ⟨next, run, same⟩ := ih (state.pushMessage call.1) rest
    refine ⟨next, (bind_ok kept).trans run, same.trans ?_⟩
    have one : track state.engine.config.checkpointInterval.toNat (trackedMessages state) call.1 =
        (state.engine.f1FinalizedMessages ++ [call.1], (trackedMessages state).2) :=
      if_neg (Nat.not_le_of_lt first)
    rw [List.map_cons, List.foldl_cons, one]
    rfl

theorem trackAll_blocks (calls : List (MessageId × Int)) (state : CheckpointState) (some : calls ≠ [])
    (full : state.engine.config.checkpointInterval.toNat ≤ state.engine.f1FinalizedMessages.length + calls.length) :
    ∃ next, CheckpointState.trackAll sha256 toVec iteration calls ⟨state, []⟩ =
      .error ⟨.f1FinalizedMessages, .read⟩ next := by
  induction calls generalizing state with
  | nil => exact absurd rfl some
  | cons call calls ih =>
    rw [List.length_cons] at full
    by_cases below : state.engine.f1FinalizedMessages.length + 1 < state.engine.config.checkpointInterval.toNat
    · have kept := @track_below sha256 toVec iteration call.2 state call.1 below
      have more : calls ≠ [] := by
        rintro rfl
        rw [List.length_nil] at full
        omega
      have rest : state.engine.config.checkpointInterval.toNat ≤
          (state.pushMessage call.1).engine.f1FinalizedMessages.length + calls.length := by
        rw [length_pushMessage]
        omega
      obtain ⟨next, run⟩ := ih (state.pushMessage call.1) more rest
      exact ⟨next, (bind_ok kept).trans run⟩
    · obtain ⟨held, run⟩ := @track_blocks sha256 toVec iteration call.2 state call.1 (Nat.le_of_not_lt below)
      exact ⟨_, bind_error run⟩

theorem trackF1Finalized_ok {ω : Type} {node : Node ω} (free : node.engine.f1MessagesHeld = false)
    (below : node.engine.f1FinalizedMessages.length + 1 < node.engine.config.checkpointInterval.toNat) :
    FinalityEngine.trackF1Finalized messageId node = .ok () { node with engine :=
      { node.engine with f1FinalizedMessages := node.engine.f1FinalizedMessages ++ [messageId] } } := by
  have short : ¬ (node.engine.f1FinalizedMessages ++ [messageId]).length ≥
      node.engine.config.checkpointInterval.toNat := by
    rw [List.length_append, List.length_singleton]
    omega
  have unheld : ¬ node.engine.f1MessagesHeld = true := by
    rw [free]
    exact Bool.false_ne_true
  unfold FinalityEngine.trackF1Finalized
  rw [bind_get, if_neg unheld]
  refine (bind_ok rfl).trans ?_
  exact congrFun (if_neg short) _

theorem trackF1Finalized_full {ω : Type} {node : Node ω} (free : node.engine.f1MessagesHeld = false)
    (full : node.engine.config.checkpointInterval.toNat ≤ node.engine.f1FinalizedMessages.length + 1) :
    FinalityEngine.trackF1Finalized messageId node = .error .waiting { node with engine :=
      { node.engine with
        f1FinalizedMessages := node.engine.f1FinalizedMessages ++ [messageId]
        checkpointHeight := node.engine.checkpointHeight + 1
        f1MessagesHeld := true } } := by
  have long : (node.engine.f1FinalizedMessages ++ [messageId]).length ≥
      node.engine.config.checkpointInterval.toNat := by
    rw [List.length_append, List.length_singleton]
    exact full
  have unheld : ¬ node.engine.f1MessagesHeld = true := by
    rw [free]
    exact Bool.false_ne_true
  unfold FinalityEngine.trackF1Finalized
  rw [bind_get, if_neg unheld]
  refine (bind_ok rfl).trans ?_
  exact congrFun (if_pos long) _

theorem trackF1Finalized_locked {ω : Type} (world : ω) (free : state.engine.f1MessagesHeld = false) :
    (∃ next, CheckpointState.trackF1Finalized sha256 toVec iteration timestamp messageId ⟨state, []⟩ =
        .ok () ⟨next, []⟩ ∧
      FinalityEngine.trackF1Finalized messageId ⟨state.engine, world⟩ = .ok () ⟨next.engine, world⟩) ∨
    ∃ blocked next, CheckpointState.trackF1Finalized sha256 toVec iteration timestamp messageId ⟨state, []⟩ =
        .error blocked next ∧
      FinalityEngine.trackF1Finalized messageId ⟨state.engine, world⟩ =
        .error .waiting ⟨{ next.data.engine with f1MessagesHeld := true }, world⟩ := by
  rcases Nat.lt_or_ge (state.engine.f1FinalizedMessages.length + 1)
    state.engine.config.checkpointInterval.toNat with below | full
  · exact .inl ⟨_, track_below below, trackF1Finalized_ok free below⟩
  · obtain ⟨held, run⟩ := @track_blocks sha256 toVec iteration timestamp state messageId full
    exact .inr ⟨_, _, run, trackF1Finalized_full free full⟩

/-- Finalizations never block exactly if they do not fill the interval. -/
theorem checkpoints_never_block_iff (calls : List (MessageId × Int)) :
    NeverBlocks sha256 toVec iteration state calls ↔ calls = [] ∨
      state.engine.f1FinalizedMessages.length + calls.length < state.engine.config.checkpointInterval.toNat := by
  constructor
  · intro never
    by_contra reached
    rw [not_or, Nat.not_lt] at reached
    obtain ⟨next, run, -⟩ := never calls (List.prefix_refl calls)
    obtain ⟨last, stopped⟩ := @trackAll_blocks sha256 toVec iteration calls state reached.1 reached.2
    rw [run] at stopped
    cases stopped
  · rintro below before part
    rcases below with rfl | below
    · rw [List.prefix_nil.mp part]
      exact ⟨state, rfl, rfl⟩
    · have shorter := part.length_le
      exact trackAll_below before state (by omega)

end

theorem exists_iteration (engine : FinalityEngine) : Nonempty (Iteration engine) := by
  refine ⟨⟨HashMap.pairs engine.finalized, .refl _, fun id =>
    ((engine.finalized.lookup id).map fun artifact => artifact.witness.distinctBalls.toList).getD [], ?_, ?_⟩⟩
  · intro entry member
    rw [HashMap.mem_pairs.mp member]
    exact Finset.nodup_toList _
  · intro entry member
    rw [HashMap.mem_pairs.mp member]
    exact Finset.toList_toFinset _

/-- A checkpoint for every message: the first one blocks. -/
theorem first_checkpoint_blocks : ¬ ∀ interval : UInt64, 1 ≤ interval →
    ∀ sha256 toVec iteration calls, NeverBlocks sha256 toVec iteration
      ⟨FinalityEngine.new { FinalityConfig.default with checkpointInterval := interval }, []⟩ calls := by
  intro claim
  let calls : List (MessageId × Int) := [(⟨Bytes32.replicate 1⟩, 0)]
  obtain ⟨next, run, -⟩ := claim 1 (by decide) (fun _ => Bytes32.replicate 0) (fun _ _ => none)
    (fun engine => (exists_iteration engine).some) calls calls (List.prefix_refl calls)
  obtain ⟨last, stopped⟩ := @trackAll_blocks (fun _ => Bytes32.replicate 0) (fun _ _ => none)
    (fun engine => (exists_iteration engine).some) calls
    ⟨FinalityEngine.new { FinalityConfig.default with checkpointInterval := 1 }, []⟩ (by decide) (by decide)
  rw [run] at stopped
  cases stopped

end AdicProof.Finality
