import AdicCore.Economics.Types
import AdicCore.Library.Runs

open AdicModel.Economics

namespace AdicModel.Challenges

structure ChallengeConfig where
  windowDepth : UInt64
deriving DecidableEq

def ChallengeConfig.default : ChallengeConfig := ⟨100⟩

inductive ChallengeStatus where
  | active
  | challenged
  | finalized
  | slashed
deriving DecidableEq

structure ChallengeMetadata where
  id : String
  subjectId : MessageId
  challenger : PublicKey
  submittedAtEpoch : UInt64
  windowExpiryEpoch : UInt64
  status : ChallengeStatus
deriving DecidableEq

inductive ChallengeError where
  | windowExpired (id : String)
  | windowNotFound (id : String)
  | notActive (text : String)
deriving DecidableEq

structure ChallengeWindow where
  metadata : ChallengeMetadata
  config : ChallengeConfig
deriving DecidableEq

namespace ChallengeWindow

def new (subjectId : MessageId) (submittedAtEpoch : UInt64) (config : ChallengeConfig) : ChallengeWindow :=
  let windowExpiryEpoch := submittedAtEpoch + config.windowDepth
  { metadata :=
      { id := hexEncode subjectId.asBytes.bytes
        subjectId
        challenger := ⟨Bytes32.replicate 0⟩
        submittedAtEpoch
        windowExpiryEpoch
        status := .active }
    config }

def isActive (window : ChallengeWindow) (currentEpoch : UInt64) : Bool :=
  window.metadata.status = .active && currentEpoch ≤ window.metadata.windowExpiryEpoch

def isExpired (window : ChallengeWindow) (currentEpoch : UInt64) : Bool :=
  currentEpoch > window.metadata.windowExpiryEpoch

def withStatus (window : ChallengeWindow) (status : ChallengeStatus) : ChallengeWindow :=
  { window with metadata := { window.metadata with status } }

def markChallenged (window : ChallengeWindow) (challenger : PublicKey) : ChallengeWindow :=
  { window with metadata := { window.metadata with status := .challenged, challenger } }

def markFinalized (window : ChallengeWindow) : ChallengeWindow := window.withStatus .finalized

def markSlashed (window : ChallengeWindow) : ChallengeWindow := window.withStatus .slashed

end ChallengeWindow

structure ChallengeWindowManager where
  windows : HashMap.Table MessageId ChallengeWindow
  config : ChallengeConfig

namespace ChallengeWindowManager

def new (config : ChallengeConfig) : ChallengeWindowManager := ⟨∅, config⟩

def openWindow (subjectId : MessageId) (submittedAtEpoch : UInt64) (manager : ChallengeWindowManager) :
    ChallengeWindowManager :=
  let window := ChallengeWindow.new subjectId submittedAtEpoch manager.config
  { manager with windows := manager.windows.insert subjectId window }

def modifyWindow (subjectId : MessageId) (change : ChallengeWindow → Except ChallengeError ChallengeWindow)
    (manager : ChallengeWindowManager) : Except ChallengeError ChallengeWindowManager := do
  match manager.windows.lookup subjectId with
  | none => throw (.windowNotFound (hexEncode subjectId.asBytes.bytes))
  | some window =>
    let changed ← change window
    return { manager with windows := manager.windows.insert subjectId changed }

def submitChallenge (subjectId : MessageId) (challenger : PublicKey) (currentEpoch : UInt64) :
    ChallengeWindowManager → Except ChallengeError ChallengeWindowManager :=
  modifyWindow subjectId fun window =>
    if window.isActive currentEpoch = false then .error (.windowExpired window.metadata.id)
    else if window.metadata.status ≠ .active then .error (.notActive window.metadata.id)
    else .ok (window.markChallenged challenger)

def finalizeWindow (subjectId : MessageId) (currentEpoch : UInt64) :
    ChallengeWindowManager → Except ChallengeError ChallengeWindowManager :=
  modifyWindow subjectId fun window =>
    if window.isExpired currentEpoch = false then .error (.notActive "Window has not expired yet")
    else if window.metadata.status = .challenged then
      .error (.notActive "Cannot finalize: window has active challenge")
    else .ok window.markFinalized

def markSlashed (subjectId : MessageId) : ChallengeWindowManager → Except ChallengeError ChallengeWindowManager :=
  modifyWindow subjectId fun window => .ok window.markSlashed

def getWindow (manager : ChallengeWindowManager) (subjectId : MessageId) : Option ChallengeWindow :=
  manager.windows.lookup subjectId

def cleanupFinalized (manager : ChallengeWindowManager) : Nat × ChallengeWindowManager :=
  let windows := HashMap.retain (fun _ window =>
    !(window.metadata.status = .finalized || window.metadata.status = .slashed)) manager.windows
  (manager.windows.keys.length - windows.keys.length, { manager with windows })

end ChallengeWindowManager

end AdicModel.Challenges

open AdicModel AdicModel.Challenges

namespace AdicProof.Challenges

inductive WindowCall where
  | openWindow (subjectId : MessageId) (submittedAtEpoch : UInt64)
  | submitChallenge (subjectId : MessageId) (challenger : PublicKey) (currentEpoch : UInt64)
  | finalizeWindow (subjectId : MessageId) (currentEpoch : UInt64)
  | markSlashed (subjectId : MessageId)
  | cleanupFinalized

def WindowCall.apply : WindowCall → ChallengeWindowManager → ChallengeWindowManager
  | .openWindow subjectId submittedAtEpoch, manager => manager.openWindow subjectId submittedAtEpoch
  | .submitChallenge subjectId challenger currentEpoch, manager =>
    (manager.submitChallenge subjectId challenger currentEpoch).toOption.getD manager
  | .finalizeWindow subjectId currentEpoch, manager =>
    (manager.finalizeWindow subjectId currentEpoch).toOption.getD manager
  | .markSlashed subjectId, manager => (manager.markSlashed subjectId).toOption.getD manager
  | .cleanupFinalized, manager => manager.cleanupFinalized.2

structure Watched where
  manager : ChallengeWindowManager
  last : MessageId → Option ChallengeStatus

namespace Watched

def new (config : ChallengeConfig) : Watched := ⟨.new config, fun _ => none⟩

def status (manager : ChallengeWindowManager) (subjectId : MessageId) : Option ChallengeStatus :=
  (manager.getWindow subjectId).map fun window => window.metadata.status

def next (watched : Watched) (call : WindowCall) : Watched :=
  let manager := call.apply watched.manager
  ⟨manager, fun subjectId => (status manager subjectId).or (watched.last subjectId)⟩

abbrev after (config : ChallengeConfig) (calls : List WindowCall) : Watched := Runs.after next (new config) calls

structure Recorded (config : ChallengeConfig) (watched : Watched) : Prop where
  configured : watched.manager.config = config
  last : ∀ subjectId window, watched.manager.getWindow subjectId = some window →
    watched.last subjectId = some window.metadata.status
  expiry : ∀ subjectId window, watched.manager.getWindow subjectId = some window →
    window.metadata.windowExpiryEpoch = window.metadata.submittedAtEpoch + config.windowDepth

end Watched

def mayMove : Option ChallengeStatus → Option ChallengeStatus → Bool
  | none, some .active => true
  | some .active, some .challenged => true
  | some .challenged, some .slashed => true
  | some .active, some .finalized => true
  | before, after => before = after

def Accepts (manager : ChallengeWindowManager) (subjectId : MessageId) (challenger : PublicKey)
    (currentEpoch : UInt64) : Prop :=
  (manager.submitChallenge subjectId challenger currentEpoch).isOk

structure OneWayLifecycle (config : ChallengeConfig) (calls : List WindowCall) : Prop where
  moves : ∀ before call, before ++ [call] <+: calls → ∀ subjectId,
    mayMove ((Watched.after config before).last subjectId) ((Watched.after config (before ++ [call])).last subjectId)
  inTime : ∀ before subjectId challenger currentEpoch,
    before ++ [.submitChallenge subjectId challenger currentEpoch] <+: calls →
    Accepts (Watched.after config before).manager subjectId challenger currentEpoch →
    ∃ window, (Watched.after config before).manager.getWindow subjectId = some window ∧
      currentEpoch.toNat ≤ window.metadata.submittedAtEpoch.toNat + config.windowDepth.toNat
  challenged : ∀ before subjectId challenger currentEpoch,
    Accepts (Watched.after config before).manager subjectId challenger currentEpoch →
    ∀ later, before ++ [.submitChallenge subjectId challenger currentEpoch] <+: later → later <+: calls →
      (Watched.after config later).last subjectId = some .challenged ∨
        (Watched.after config later).last subjectId = some .slashed

/-- Only a new subject or an active one gets a window, only a challenged one is slashed, and a slashed one is not
    finalized. -/
def InOrder : WindowCall → Watched → Prop
  | .openWindow subjectId _, watched => watched.last subjectId = none ∨ watched.last subjectId = some .active
  | .submitChallenge _ _ _, _ => True
  | .finalizeWindow subjectId currentEpoch, watched =>
    ∀ window, watched.manager.getWindow subjectId = some window → window.isExpired currentEpoch = true →
      window.metadata.status ≠ .slashed
  | .markSlashed subjectId, watched =>
    ∀ window, watched.manager.getWindow subjectId = some window →
      window.metadata.status = .challenged ∨ window.metadata.status = .slashed
  | .cleanupFinalized, _ => True

variable {currentEpoch : UInt64}

section

variable {config : ChallengeConfig} {watched : Watched} {manager : ChallengeWindowManager} {subjectId : MessageId}
  {change : ChallengeWindow → Except ChallengeError ChallengeWindow} {window changed : ChallengeWindow}

theorem getWindow_insert (other : MessageId) :
    ({ manager with windows := manager.windows.insert subjectId window } : ChallengeWindowManager).getWindow other =
      if other = subjectId then some window else manager.getWindow other :=
  HashMap.lookup_insert_eq manager.windows subjectId other window

abbrev replaced (manager : ChallengeWindowManager) (subjectId : MessageId) (window : ChallengeWindow) :
    ChallengeWindowManager :=
  { manager with windows := manager.windows.insert subjectId window }

theorem modifyWindow_missing (missing : manager.getWindow subjectId = none) :
    (manager.modifyWindow subjectId change).toOption = none := by
  have absent : manager.windows.lookup subjectId = none := missing
  unfold ChallengeWindowManager.modifyWindow
  rw [absent]
  rfl

theorem modifyWindow_stored (stored : manager.getWindow subjectId = some window) :
    (manager.modifyWindow subjectId change).toOption = (change window).toOption.map (replaced manager subjectId) := by
  have found : manager.windows.lookup subjectId = some window := stored
  unfold ChallengeWindowManager.modifyWindow
  rw [found]
  dsimp only
  cases change window with
  | error error => rfl
  | ok changed => rfl

theorem modify_missing (missing : manager.getWindow subjectId = none) :
    (manager.modifyWindow subjectId change).toOption.getD manager = manager := by
  rw [modifyWindow_missing missing]
  rfl

theorem modify_changed (stored : manager.getWindow subjectId = some window) (changes : change window = .ok changed) :
    (manager.modifyWindow subjectId change).toOption.getD manager = replaced manager subjectId changed := by
  rw [modifyWindow_stored stored, changes]
  rfl

theorem modify_refused {error : ChallengeError} (stored : manager.getWindow subjectId = some window)
    (refuses : change window = .error error) :
    (manager.modifyWindow subjectId change).toOption.getD manager = manager := by
  rw [modifyWindow_stored stored, refuses]
  rfl

theorem forall_stored {property : ChallengeWindow → Prop} (stored : manager.getWindow subjectId = some window) :
    (∀ other, manager.getWindow subjectId = some other → property other) ↔ property window := by
  simp [stored]

theorem forall_missing {property : ChallengeWindow → Prop} (missing : manager.getWindow subjectId = none) :
    ∀ other, manager.getWindow subjectId = some other → property other := by
  simp [missing]

theorem isActive_iff :
    window.isActive currentEpoch = true ↔
      window.metadata.status = .active ∧ currentEpoch ≤ window.metadata.windowExpiryEpoch := by
  unfold ChallengeWindow.isActive
  rw [Bool.and_eq_true, decide_eq_true_eq, decide_eq_true_eq]

theorem getWindow_cleanup (other : MessageId) :
    manager.cleanupFinalized.2.getWindow other =
      (manager.getWindow other).filter fun window =>
        !(window.metadata.status = .finalized || window.metadata.status = .slashed) :=
  HashMap.lookup_retain_eq _ manager.windows other

end

@[simp] theorem mayMove_self (status : Option ChallengeStatus) : mayMove status status = true := by
  cases status with
  | none => rfl
  | some status => cases status <;> rfl

theorem mayMove_active_iff (status : Option ChallengeStatus) :
    mayMove status (some .active) ↔ status = none ∨ status = some .active := by
  cases status with
  | none => simp [mayMove]
  | some status => cases status <;> simp [mayMove]

theorem mayMove_slashed_iff (status : ChallengeStatus) :
    mayMove (some status) (some .slashed) ↔ status = .challenged ∨ status = .slashed := by
  cases status <;> simp [mayMove]

theorem mayMove_finalized_iff {status : ChallengeStatus} (unchallenged : status ≠ .challenged) :
    mayMove (some status) (some .finalized) ↔ status ≠ .slashed := by
  cases status <;> simp [mayMove] at unchallenged ⊢

namespace Watched

section

variable {config : ChallengeConfig} {watched : Watched} {call : WindowCall} {subjectId : MessageId}
  {window : ChallengeWindow}

section

variable (recorded : Recorded config watched)

include recorded

theorem last_same (same : call.apply watched.manager = watched.manager) : (watched.next call).last = watched.last := by
  funext other
  show (status (call.apply watched.manager) other).or (watched.last other) = watched.last other
  rw [same]
  unfold status
  cases held : watched.manager.getWindow other with
  | none => rfl
  | some window => exact (recorded.last other window held).symm

theorem last_replaced (replaces : call.apply watched.manager = replaced watched.manager subjectId window)
    (other : MessageId) : (watched.next call).last other =
      if other = subjectId then some window.metadata.status else watched.last other := by
  show (status (call.apply watched.manager) other).or (watched.last other) = _
  rw [replaces]
  unfold status
  rw [getWindow_insert]
  by_cases same : other = subjectId
  · rw [if_pos same, if_pos same]
    rfl
  · rw [if_neg same, if_neg same]
    cases held : watched.manager.getWindow other with
    | none => rfl
    | some window => exact (recorded.last other window held).symm

theorem last_cleanup : (watched.next .cleanupFinalized).last = watched.last := by
  funext other
  show (status watched.manager.cleanupFinalized.2 other).or (watched.last other) = watched.last other
  unfold status
  rw [getWindow_cleanup]
  cases held : watched.manager.getWindow other with
  | none => rfl
  | some window =>
    rw [recorded.last other window held, Option.filter_some]
    split
    · rfl
    · rfl

theorem recorded_same (same : call.apply watched.manager = watched.manager) : Recorded config (watched.next call) := by
  have manager : (watched.next call).manager = watched.manager := same
  constructor
  · rw [manager]
    exact recorded.configured
  · intro other window held
    rw [manager] at held
    rw [last_same recorded same]
    exact recorded.last other window held
  · intro other window held
    rw [manager] at held
    exact recorded.expiry other window held

theorem recorded_replaced (replaces : call.apply watched.manager = replaced watched.manager subjectId window)
    (expiry : window.metadata.windowExpiryEpoch = window.metadata.submittedAtEpoch + config.windowDepth) :
    Recorded config (watched.next call) := by
  have manager : (watched.next call).manager = replaced watched.manager subjectId window := replaces
  constructor
  · rw [manager]
    exact recorded.configured
  · intro other held stored
    rw [manager, getWindow_insert] at stored
    rw [last_replaced recorded replaces]
    by_cases same : other = subjectId
    · rw [if_pos same] at stored ⊢
      cases stored
      rfl
    · rw [if_neg same] at stored ⊢
      exact recorded.last other held stored
  · intro other held stored
    rw [manager, getWindow_insert] at stored
    by_cases same : other = subjectId
    · rw [if_pos same] at stored
      cases stored
      exact expiry
    · rw [if_neg same] at stored
      exact recorded.expiry other held stored

theorem recorded_cleanup : Recorded config (watched.next .cleanupFinalized) := by
  have kept (other : MessageId) (window : ChallengeWindow)
      (held : (watched.next .cleanupFinalized).manager.getWindow other = some window) :
      watched.manager.getWindow other = some window := by
    have filtered : (watched.manager.getWindow other).filter _ = some window := getWindow_cleanup other ▸ held
    exact (Option.filter_eq_some_iff.mp filtered).1
  constructor
  · exact recorded.configured
  · intro other window held
    rw [last_cleanup recorded]
    exact recorded.last other window (kept other window held)
  · intro other window held
    exact recorded.expiry other window (kept other window held)

end

inductive Changes (config : ChallengeConfig) (watched : Watched) (call : WindowCall) : Prop where
  | same (applied : call.apply watched.manager = watched.manager) (inOrder : InOrder call watched)
  | replaces {subjectId : MessageId} {window : ChallengeWindow}
    (applied : call.apply watched.manager = replaced watched.manager subjectId window)
    (expiry : window.metadata.windowExpiryEpoch = window.metadata.submittedAtEpoch + config.windowDepth)
    (moves : mayMove (watched.last subjectId) (some window.metadata.status) ↔ InOrder call watched)
  | cleans (cleanup : call = .cleanupFinalized)

theorem changes (recorded : Recorded config watched) : Changes config watched call := by
  cases call with
  | openWindow subjectId submittedAtEpoch =>
    have opened : (WindowCall.openWindow subjectId submittedAtEpoch).apply watched.manager =
        replaced watched.manager subjectId (.new subjectId submittedAtEpoch watched.manager.config) := rfl
    refine .replaces opened ?_ (mayMove_active_iff _)
    rw [← recorded.configured]
    rfl
  | submitChallenge subjectId challenger currentEpoch =>
    cases held : watched.manager.getWindow subjectId with
    | none => exact .same (modify_missing held) trivial
    | some window =>
      by_cases active : window.isActive currentEpoch = true
      · have status := (isActive_iff.mp active).1
        have applied : (WindowCall.submitChallenge subjectId challenger currentEpoch).apply watched.manager =
            replaced watched.manager subjectId (window.markChallenged challenger) :=
          modify_changed held (by simp [active, status])
        refine .replaces applied (recorded.expiry subjectId window held) (iff_of_true ?_ trivial)
        rw [recorded.last subjectId window held, status]
        rfl
      · rw [Bool.not_eq_true] at active
        exact .same (modify_refused held (if_pos active)) trivial
  | finalizeWindow subjectId currentEpoch =>
    cases held : watched.manager.getWindow subjectId with
    | none => exact .same (modify_missing held) (forall_missing held)
    | some window =>
      by_cases expired : window.isExpired currentEpoch = true
      · by_cases challenged : window.metadata.status = .challenged
        · refine .same (modify_refused held (by simp [expired, challenged]; rfl)) ((forall_stored held).mpr fun _ => ?_)
          rw [challenged]
          decide
        · have applied : (WindowCall.finalizeWindow subjectId currentEpoch).apply watched.manager =
              replaced watched.manager subjectId window.markFinalized :=
            modify_changed held (by simp [expired, challenged])
          refine .replaces applied (recorded.expiry subjectId window held) ?_
          rw [recorded.last subjectId window held, InOrder, forall_stored held, imp_iff_right expired]
          exact mayMove_finalized_iff challenged
      · refine .same (modify_refused held (if_pos (Bool.not_eq_true _ ▸ expired))) ((forall_stored held).mpr ?_)
        exact fun late => absurd late expired
  | markSlashed subjectId =>
    cases held : watched.manager.getWindow subjectId with
    | none => exact .same (modify_missing held) (forall_missing held)
    | some window =>
      have applied : (WindowCall.markSlashed subjectId).apply watched.manager =
          replaced watched.manager subjectId window.markSlashed := modify_changed held rfl
      refine .replaces applied (recorded.expiry subjectId window held) ?_
      rw [recorded.last subjectId window held, InOrder, forall_stored held]
      exact mayMove_slashed_iff window.metadata.status
  | cleanupFinalized => exact .cleans rfl

theorem recorded_next (recorded : Recorded config watched) : Recorded config (watched.next call) := by
  rcases @changes _ _ call recorded with ⟨applied, _⟩ | ⟨applied, expiry, _⟩ | rfl
  · exact recorded_same recorded applied
  · exact recorded_replaced recorded applied expiry
  · exact recorded_cleanup recorded

theorem recorded_new : Recorded config (new config) where
  configured := rfl
  last subjectId window held := by cases held
  expiry subjectId window held := by cases held

theorem recorded_after (calls : List WindowCall) : Recorded config (after config calls) :=
  Runs.invariant_of_kept recorded_new (fun _ _ recorded => recorded_next recorded) calls

end

end Watched

section

variable {config : ChallengeConfig} {watched : Watched} {call : WindowCall} {subjectId : MessageId}
  {window : ChallengeWindow}

def Forward (watched : Watched) (call : WindowCall) : Prop :=
  ∀ subjectId, mayMove (watched.last subjectId) ((watched.next call).last subjectId)

theorem forward_same (same : (watched.next call).last = watched.last) : Forward watched call := by
  intro subjectId
  rw [same]
  exact mayMove_self _

theorem forward_replaced_iff (recorded : Watched.Recorded config watched)
    (replaces : call.apply watched.manager = replaced watched.manager subjectId window) :
    Forward watched call ↔ mayMove (watched.last subjectId) (some window.metadata.status) := by
  have last := Watched.last_replaced recorded replaces
  constructor
  · intro forward
    have moves := forward subjectId
    rwa [last, if_pos rfl] at moves
  · intro moves other
    rw [last]
    by_cases same : other = subjectId
    · rw [if_pos same, same]
      exact moves
    · rw [if_neg same]
      exact mayMove_self _

theorem forward_iff (recorded : Watched.Recorded config watched) : Forward watched call ↔ InOrder call watched := by
  rcases @Watched.changes _ _ call recorded with ⟨applied, inOrder⟩ | ⟨applied, _, moves⟩ | rfl
  · exact iff_of_true (forward_same (Watched.last_same recorded applied)) inOrder
  · exact (forward_replaced_iff recorded applied).trans moves
  · exact iff_of_true (forward_same (Watched.last_cleanup recorded)) trivial

theorem accepts_iff {challenger : PublicKey} :
    Accepts watched.manager subjectId challenger currentEpoch ↔
      ∃ window, watched.manager.getWindow subjectId = some window ∧ window.isActive currentEpoch = true := by
  have accepted : Accepts watched.manager subjectId challenger currentEpoch ↔
      (watched.manager.modifyWindow subjectId fun window =>
        if window.isActive currentEpoch = false then .error (.windowExpired window.metadata.id)
        else if window.metadata.status ≠ .active then .error (.notActive window.metadata.id)
        else .ok (window.markChallenged challenger)).toOption.isSome := by
    unfold Accepts ChallengeWindowManager.submitChallenge
    cases watched.manager.modifyWindow subjectId _ with
    | error error => simp [Except.isOk, Except.toBool, Except.toOption]
    | ok after => simp [Except.isOk, Except.toBool, Except.toOption]
  rw [accepted]
  cases held : watched.manager.getWindow subjectId with
  | none => simp [modifyWindow_missing held]
  | some window =>
    rw [modifyWindow_stored held]
    by_cases active : window.isActive currentEpoch = true
    · simp [active, (isActive_iff.mp active).1, Except.toOption]
    · simp [active, Except.toOption]

section

variable (recorded : Watched.Recorded config watched) {challenger : PublicKey} {currentEpoch : UInt64}
  (accepts : Accepts watched.manager subjectId challenger currentEpoch)

include recorded accepts

theorem accepted_in_time : ∃ window, watched.manager.getWindow subjectId = some window ∧
      currentEpoch.toNat ≤ window.metadata.submittedAtEpoch.toNat + config.windowDepth.toNat := by
  obtain ⟨window, held, active⟩ := accepts_iff.mp accepts
  refine ⟨window, held, ?_⟩
  have early := (isActive_iff.mp active).2
  rw [recorded.expiry subjectId window held, UInt64.le_iff_toNat_le, UInt64.toNat_add] at early
  exact early.trans (Nat.mod_le _ _)

theorem accepted_challenged :
    (watched.next (.submitChallenge subjectId challenger currentEpoch)).last subjectId = some .challenged := by
  obtain ⟨window, held, active⟩ := accepts_iff.mp accepts
  have applied : (WindowCall.submitChallenge subjectId challenger currentEpoch).apply watched.manager =
      replaced watched.manager subjectId (window.markChallenged challenger) :=
    modify_changed held (by simp [active, (isActive_iff.mp active).1])
  rw [Watched.last_replaced recorded applied, if_pos rfl]
  rfl

end

theorem mayMove_challenged {status : Option ChallengeStatus}
    (moves : mayMove (some .challenged) status = true ∨ mayMove (some .slashed) status = true) :
    status = some .challenged ∨ status = some .slashed := by
  cases status with
  | none => simp [mayMove] at moves
  | some status => cases status <;> simp [mayMove] at moves ⊢

theorem challenged_later {calls : List WindowCall}
    (moves : ∀ before call, before ++ [call] <+: calls → Forward (Watched.after config before) call)
    {before : List WindowCall} {challenger : PublicKey}
    (accepts : Accepts (Watched.after config before).manager subjectId challenger currentEpoch) :
    ∀ later, before ++ [.submitChallenge subjectId challenger currentEpoch] <+: later → later <+: calls →
      (Watched.after config later).last subjectId = some .challenged ∨
        (Watched.after config later).last subjectId = some .slashed := by
  intro later
  induction later using List.reverseRecOn with
  | nil =>
    intro accepted _
    simp at accepted
  | append_singleton earlier call ih =>
    intro accepted part
    rcases List.prefix_concat_iff.mp accepted with last | accepted
    · rw [← last]
      left
      rw [Watched.after, Runs.after_snoc]
      exact accepted_challenged (Watched.recorded_after before) accepts
    · have moved := moves earlier call part subjectId
      rw [Watched.after, Runs.after_snoc]
      apply mayMove_challenged
      rcases ih accepted ((List.prefix_append earlier [call]).trans part) with challenged | slashed
      · left
        rw [challenged] at moved
        exact moved
      · right
        rw [slashed] at moved
        exact moved

/-- The lifecycle of every subject is one-way over a run exactly if each call of it is in order. -/
theorem one_way_iff (config : ChallengeConfig) (calls : List WindowCall) :
    OneWayLifecycle config calls ↔
      ∀ before call, before ++ [call] <+: calls → InOrder call (Watched.after config before) := by
  have forward (before : List WindowCall) (call : WindowCall) :
      Forward (Watched.after config before) call ↔ InOrder call (Watched.after config before) :=
    forward_iff (Watched.recorded_after before)
  constructor
  · intro oneWay before call part
    refine (forward before call).mp fun subjectId => ?_
    have moves := oneWay.moves before call part subjectId
    rwa [Watched.after, Watched.after, Runs.after_snoc] at moves
  · intro inOrder
    have moves (before : List WindowCall) (call : WindowCall) (part : before ++ [call] <+: calls) :=
      (forward before call).mpr (inOrder before call part)
    constructor
    · intro before call part subjectId
      rw [Watched.after, Watched.after, Runs.after_snoc]
      exact moves before call part subjectId
    · intro before subjectId challenger currentEpoch _ accepts
      exact accepted_in_time (Watched.recorded_after before) accepts
    · intro before subjectId challenger currentEpoch accepts
      exact challenged_later moves accepts

end

section

def subject : MessageId := ⟨Bytes32.replicate 1⟩

def challenger : PublicKey := ⟨Bytes32.replicate 2⟩

/-- The window of a slashed subject expires and is finalized. -/
theorem slashed_then_finalized :
    ¬OneWayLifecycle .default
      [.openWindow subject 0, .submitChallenge subject challenger 1, .markSlashed subject,
        .finalizeWindow subject 101] := by
  intro oneWay
  have moves := oneWay.moves
    [.openWindow subject 0, .submitChallenge subject challenger 1, .markSlashed subject]
    (.finalizeWindow subject 101) (List.prefix_refl _) subject
  revert moves
  decide +kernel

end

end AdicProof.Challenges
