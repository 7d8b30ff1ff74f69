import AdicCore.Library.Calls

namespace Locks

inductive Mode where
  | read
  | write
deriving DecidableEq

/-- Data behind locks, and the guards that a call holds. -/
structure Guarded (ι σ : Type) where
  data : σ
  held : List (ι × Mode)

/-- A request for a lock that the same call holds in a conflicting mode. It is never granted. -/
structure Blocked (ι : Type) where
  lock : ι
  mode : Mode

abbrev LockM (ι σ α : Type) : Type := EStateM (Blocked ι) (Guarded ι σ) α

variable {ι σ α : Type} [DecidableEq ι]

/-- Only readers share a lock. -/
def compatible (held : List (ι × Mode)) (lock : ι) (mode : Mode) : Bool :=
  held.all fun guard => guard.1 ≠ lock || (guard.2 = .read && mode = .read)

def acquire (lock : ι) (mode : Mode) : LockM ι σ Unit := fun state =>
  if compatible state.held lock mode then .ok () { state with held := (lock, mode) :: state.held }
  else .error ⟨lock, mode⟩ state

def release (lock : ι) (mode : Mode) : LockM ι σ Unit := fun state =>
  .ok () { state with held := state.held.erase (lock, mode) }

omit [DecidableEq ι] in
def inScope (call : LockM ι σ α) : LockM ι σ α := fun state =>
  match call state with
  | .ok value next => .ok value { next with held := state.held }
  | .error blocked next => .error blocked next

def reads (read : σ → α) : LockM ι σ α := fun state => .ok (read state.data) state

def writes (change : σ → σ) : LockM ι σ Unit := fun state => .ok () { state with data := change state.data }

section

variable {call : LockM ι σ α} {rest : Unit → LockM ι σ α} {data : σ} {held : List (ι × Mode)} {lock : ι} {mode : Mode}
  {state next : Guarded ι σ} {value : α} {blocked : Blocked ι}

omit [DecidableEq ι] in
theorem inScope_ok (run : call state = .ok value next) :
    inScope call state = .ok value { next with held := state.held } := by
  unfold inScope
  rw [run]

omit [DecidableEq ι] in
theorem inScope_error (run : call state = .error blocked next) : inScope call state = .error blocked next := by
  unfold inScope
  rw [run]

end

end Locks
