import Mathlib

variable {δ : Type}

namespace Calls

variable {ε σ τ α β : Type}

def Returns (view : σ → τ) (call : EStateM ε σ α) (state : σ) (value : α) (after : τ) : Prop :=
  ∃ next, call state = .ok value next ∧ view next = after

def Fails (view : σ → τ) (call : EStateM ε σ α) (state : σ) (after : τ) : Prop :=
  ∃ error next, call state = .error error next ∧ view next = after

section

variable {view : σ → τ} {call : EStateM ε σ α} {rest : α → EStateM ε σ β} {state : σ} {value : α} {result : β}
  {middle after : τ} {next : σ}

theorem bind_ok (run : call state = .ok value next) : (call >>= rest) state = rest value next := by
  show EStateM.bind call rest state = _
  unfold EStateM.bind
  rw [run]

theorem bind_error {error : ε} (run : call state = .error error next) :
    (call >>= rest) state = .error error next := by
  show EStateM.bind call rest state = _
  unfold EStateM.bind
  rw [run]

theorem bind_get {next : σ → EStateM ε σ β} : (MonadState.get >>= next) state = next state state := rfl

theorem no_error_of_ok (run : call state = .ok value next) :
    ¬∃ error last, call state = .error error last := by
  rintro ⟨error, last, failed⟩
  rw [run] at failed
  cases failed

theorem discard_error_iff {error : ε} :
    (discard call : EStateM ε σ PUnit) state = .error error next ↔ call state = .error error next := by
  cases run : call state with
  | ok value last =>
    have discarded : (discard call : EStateM ε σ PUnit) state = .ok ⟨⟩ last := bind_ok run
    rw [discarded]
    simp
  | error cause last =>
    have discarded : (discard call : EStateM ε σ PUnit) state = .error cause last := bind_error run
    rw [discarded]
    simp

theorem forM_ok {round : β → EStateM ε σ PUnit} {entry : β} {entries : List β}
    (run : round entry state = .ok ⟨⟩ next) : (entry :: entries).forM round state = entries.forM round next :=
  bind_ok run

theorem forM_error {round : β → EStateM ε σ PUnit} {entry : β} {entries : List β} {error : ε}
    (run : round entry state = .error error next) : (entry :: entries).forM round state = .error error next :=
  bind_error run

theorem Returns.bind (first : Returns view call state value middle)
    (second : ∀ next, view next = middle → Returns view (rest value) next result after) :
    Returns view (call >>= rest) state result after := by
  rcases first with ⟨next, run, seen⟩
  unfold Returns
  rw [bind_ok run]
  exact second next seen

theorem Returns.bind_fails (first : Returns view call state value middle)
    (second : ∀ next, view next = middle → Fails view (rest value) next after) :
    Fails view (call >>= rest) state after := by
  rcases first with ⟨next, run, seen⟩
  unfold Fails
  rw [bind_ok run]
  exact second next seen

theorem Fails.bind (first : Fails view call state after) : Fails view (call >>= rest) state after := by
  rcases first with ⟨error, next, run, seen⟩
  exact ⟨error, next, bind_error run, seen⟩

theorem Returns.bind_of_run (run : call state = .ok value next)
    (second : Returns view (rest value) next result after) : Returns view (call >>= rest) state result after := by
  unfold Returns
  rw [bind_ok run]
  exact second

theorem Fails.bind_of_run (run : call state = .ok value next) (second : Fails view (rest value) next after) :
    Fails view (call >>= rest) state after := by
  unfold Fails
  rw [bind_ok run]
  exact second

theorem returns_pure (seen : view state = after) : Returns view (pure value : EStateM ε σ α) state value after :=
  ⟨state, rfl, seen⟩

theorem fails_throw (error : ε) (seen : view state = after) : Fails view (throw error : EStateM ε σ α) state after :=
  ⟨error, state, rfl, seen⟩

theorem Returns.get {next : σ → EStateM ε σ β} (returns : Returns view (next state) state result after) :
    Returns view (MonadState.get >>= next) state result after := returns

theorem Fails.get {next : σ → EStateM ε σ β} (fails : Fails view (next state) state after) :
    Fails view (MonadState.get >>= next) state after := fails

theorem Returns.adapt (returns : Returns view call state value after) (mapped : ε → δ) :
    Returns view (EStateM.adaptExcept mapped call) state value after := by
  rcases returns with ⟨next, run, seen⟩
  refine ⟨next, ?_, seen⟩
  unfold EStateM.adaptExcept
  rw [run]

def Agrees (view : σ → τ) (call : EStateM ε σ α) (state : σ) (expected : Bool × τ) : Prop :=
  match call state with
  | .ok _ next => (true, view next) = expected
  | .error _ next => (false, view next) = expected

section

variable {expected expected' : Bool × τ} {yes no : EStateM ε σ α} {condition : Prop} [Decidable condition]

theorem Returns.agrees (returns : Returns view call state value after) : Agrees view call state (true, after) := by
  obtain ⟨next, run, rfl⟩ := returns
  unfold Agrees
  rw [run]

theorem Fails.agrees (fails : Fails view call state after) : Agrees view call state (false, after) := by
  obtain ⟨error, next, run, rfl⟩ := fails
  unfold Agrees
  rw [run]

theorem Agrees.returns (agrees : Agrees view call state (true, after)) :
    ∃ value, Returns view call state value after := by
  unfold Agrees at agrees
  cases run : call state with
  | ok value next =>
    rw [run] at agrees
    exact ⟨value, next, run, congrArg Prod.snd agrees⟩
  | error error next =>
    rw [run] at agrees
    cases agrees

theorem Agrees.fails (agrees : Agrees view call state (false, after)) : Fails view call state after := by
  unfold Agrees at agrees
  cases run : call state with
  | ok value next =>
    rw [run] at agrees
    cases agrees
  | error error next =>
    rw [run] at agrees
    exact ⟨error, next, run, congrArg Prod.snd agrees⟩

theorem agrees_pure (seen : view state = after) : Agrees view (pure value : EStateM ε σ α) state (true, after) :=
  congrArg (Prod.mk true) seen

theorem agrees_throw {error : ε} (seen : view state = after) :
    Agrees view (throw error : EStateM ε σ α) state (false, after) := congrArg (Prod.mk false) seen

theorem agrees_ite (first : condition → Agrees view yes state expected)
    (second : ¬condition → Agrees view no state expected') :
    Agrees view (if condition then yes else no) state (if condition then expected else expected') := by
  split
  · next holds => exact first holds
  · next fails => exact second fails

theorem Returns.agrees_bind (first : Returns view call state value middle)
    (second : ∀ next, view next = middle → Agrees view (rest value) next expected) :
    Agrees view (call >>= rest) state expected := by
  obtain ⟨next, run, seen⟩ := first
  unfold Agrees
  rw [bind_ok run]
  exact second next seen

theorem Agrees.get {next : σ → EStateM ε σ β} (agrees : Agrees view (next state) state expected) :
    Agrees view (MonadState.get >>= next) state expected := agrees

theorem Agrees.bind {outcome : Option τ} {done : τ → Bool × τ}
    (first : Agrees view call state (outcome.elim (false, middle) fun after => (true, after)))
    (second : ∀ value next after, outcome = some after → view next = after → Agrees view (rest value) next (done after)) :
    Agrees view (call >>= rest) state (outcome.elim (false, middle) done) := by
  cases outcome with
  | none => exact first.fails.bind.agrees
  | some after =>
    obtain ⟨value, returns⟩ := first.returns
    exact returns.agrees_bind fun next seen => second value next after rfl seen

theorem Agrees.adapt (agrees : Agrees view call state expected) (mapped : ε → δ) :
    Agrees view (EStateM.adaptExcept mapped call) state expected := by
  unfold Agrees EStateM.adaptExcept at *
  cases run : call state with
  | ok value next =>
    rw [run] at agrees
    exact agrees
  | error error next =>
    rw [run] at agrees
    exact agrees

theorem Agrees.discard (agrees : Agrees view call state expected) :
    Agrees view (discard call : EStateM ε σ PUnit) state expected := by
  obtain ⟨_ | _, after⟩ := expected
  · exact agrees.fails.bind.agrees
  · obtain ⟨value, returns⟩ := agrees.returns
    exact returns.agrees_bind fun next seen => agrees_pure seen

end

def stateAfter (call : EStateM ε σ α) (state : σ) : σ :=
  match call state with
  | .ok _ next => next
  | .error _ next => next

theorem stateAfter_bind_pure : stateAfter (call >>= fun _ => pure result) state = stateAfter call state := by
  unfold stateAfter
  cases run : call state with
  | ok value next =>
    rw [bind_ok run]
    rfl
  | error error next => rw [bind_error run]

section

variable (related : σ → σ → Prop)
  (trans : ∀ {first second third}, related first second → related second third → related first third)

include trans

theorem related_bind (first : related state (stateAfter call state))
    (second : ∀ value next, call state = .ok value next → related next (stateAfter (rest value) next)) :
    related state (stateAfter (call >>= rest) state) := by
  unfold stateAfter at first ⊢
  cases run : call state with
  | ok value next =>
    rw [run] at first
    rw [bind_ok run]
    exact trans first (second value next run)
  | error error next =>
    rw [run] at first
    rw [bind_error run]
    exact first

theorem related_forM {round : β → EStateM ε σ PUnit} {entries : List β} (refl : ∀ current, related current current)
    (each : ∀ entry ∈ entries, ∀ current, related current (stateAfter (round entry) current)) :
    related state (stateAfter (entries.forM round) state) := by
  induction entries generalizing state with
  | nil => exact refl state
  | cons entry entries ih =>
    refine related_bind related trans (each entry List.mem_cons_self state) fun _ next _ => ?_
    exact ih fun other member => each other (List.mem_cons_of_mem entry member)

end

theorem Returns.stateAfter (returns : Returns view call state value after) : view (stateAfter call state) = after := by
  rcases returns with ⟨next, run, seen⟩
  unfold Calls.stateAfter
  rw [run]
  exact seen

theorem Fails.stateAfter (fails : Fails view call state after) : view (stateAfter call state) = after := by
  rcases fails with ⟨error, next, run, seen⟩
  unfold Calls.stateAfter
  rw [run]
  exact seen

end

end Calls

namespace Calls

variable {ε σ τ α β : Type} {kept : σ → Prop}

section

variable {call : EStateM ε σ α} {rest : α → EStateM ε σ β} {state next : σ} {value : α} {cause : ε}
  {done done' : α → σ → Prop} {last : β → σ → Prop} {failed failed' : ε → σ → Prop}

/-- A call ends with a value and a state that meet one condition, or with an error and a state that meet the other. -/
def Ends (call : EStateM ε σ α) (state : σ) (done : α → σ → Prop) (failed : ε → σ → Prop) : Prop :=
  match call state with
  | .ok value next => done value next
  | .error error next => failed error next

theorem Ends.ok (ends : Ends call state done failed) (run : call state = .ok value next) : done value next := by
  unfold Ends at ends
  rw [run] at ends
  exact ends

theorem Ends.error (ends : Ends call state done failed) (run : call state = .error cause next) :
    failed cause next := by
  unfold Ends at ends
  rw [run] at ends
  exact ends

theorem Ends.weaken (ends : Ends call state done failed) (after : ∀ value next, done value next → done' value next)
    (fails : ∀ error next, failed error next → failed' error next) : Ends call state done' failed' := by
  unfold Ends
  cases run : call state with
  | ok value next => exact after value next (ends.ok run)
  | error error next => exact fails error next (ends.error run)

theorem Ends.bind (first : Ends call state done failed) (second : ∀ value next, done value next →
    Ends (rest value) next last failed') (fails : ∀ error next, failed error next → failed' error next) :
    Ends (call >>= rest) state last failed' := by
  cases run : call state with
  | ok value next =>
    unfold Ends
    rw [bind_ok run]
    exact second value next (first.ok run)
  | error error next =>
    unfold Ends
    rw [bind_error run]
    exact fails error next (first.error run)

theorem ends_self : Ends call state (fun value next => call state = .ok value next)
    fun error next => call state = .error error next := by
  unfold Ends
  cases run : call state with
  | ok value next => rfl
  | error error next => rfl

theorem ends_ite {condition : Prop} [Decidable condition] {yes no : EStateM ε σ α}
    (first : condition → Ends yes state done failed) (second : ¬condition → Ends no state done failed) :
    Ends (if condition then yes else no) state done failed := by
  split
  · next holds => exact first holds
  · next fails => exact second fails

theorem Ends.adapt {mapped : ε → δ} {failed : δ → σ → Prop}
    (ends : Ends call state done fun error => failed (mapped error)) :
    Ends (EStateM.adaptExcept mapped call) state done failed := by
  unfold Ends EStateM.adaptExcept
  cases run : call state with
  | ok value next => exact ends.ok run
  | error error next => exact ends.error run

theorem Ends.stateAfter (ends : Ends call state (fun _ => kept) fun _ => kept) :
    kept (stateAfter call state) := by
  unfold Calls.stateAfter
  cases run : call state with
  | ok value next => exact ends.ok run
  | error error next => exact ends.error run

end

/-- From the precondition a call ends in the postcondition of its value, or fails in that of failures. -/
def Triple (pre : σ → Prop) (call : EStateM ε σ α) (post : α → σ → Prop) (failed : σ → Prop) : Prop :=
  ∀ state, pre state → match call state with
    | .ok value next => post value next
    | .error _ next => failed next

variable {pre pre' : σ → Prop} {call : EStateM ε σ α} {rest : α → EStateM ε σ β} {middle middle' : α → σ → Prop}
  {post : β → σ → Prop} {failed failed' : σ → Prop}

theorem Triple.ends (triple : Triple pre call middle failed) {state : σ} (holds : pre state) :
    Ends call state middle fun _ => failed := triple state holds

theorem Triple.weaken (triple : Triple pre call middle failed) (before : ∀ state, pre' state → pre state)
    (after : ∀ value state, middle value state → middle' value state) (fails : ∀ state, failed state → failed' state) :
    Triple pre' call middle' failed' :=
  fun state holds => (triple.ends (before state holds)).weaken after fun _ => fails

theorem Triple.bind (first : Triple pre call middle failed)
    (second : ∀ value, Triple (middle value) (rest value) post failed) : Triple pre (call >>= rest) post failed :=
  fun _ holds => (first.ends holds).bind (fun value _ met => (second value).ends met) fun _ _ fails => fails

theorem triple_pure {value : β} (holds : ∀ state, pre state → post value state) :
    Triple pre (pure value : EStateM ε σ β) post failed := holds

theorem triple_throw {error : ε} (holds : ∀ state, pre state → failed state) :
    Triple pre (throw error : EStateM ε σ β) post failed := holds

theorem triple_modify {change : σ → σ} {done : Unit → σ → Prop} (holds : ∀ state, pre state → done () (change state)) :
    Triple pre (modify change : EStateM ε σ Unit) done failed := holds

theorem Triple.get {next : σ → EStateM ε σ β}
    (triple : ∀ current, pre current → Triple (fun state => state = current) (next current) post failed) :
    Triple pre (MonadState.get >>= next) post failed :=
  fun state holds => triple state holds state rfl

theorem Triple.get_met {next : σ → EStateM ε σ β}
    (triple : ∀ current, pre current → Triple pre (next current) post failed) :
    Triple pre (MonadState.get >>= next) post failed :=
  fun state holds => triple state holds state holds

theorem Triple.get_any {next : σ → EStateM ε σ β} (triple : ∀ current, Triple pre (next current) post failed) :
    Triple pre (MonadState.get >>= next) post failed :=
  .get_met fun current _ => triple current

theorem triple_ite {condition : Prop} [Decidable condition] {yes no : EStateM ε σ β}
    (first : condition → Triple pre yes post failed) (second : ¬ condition → Triple pre no post failed) :
    Triple pre (if condition then yes else no) post failed :=
  fun state met => ends_ite (fun holds => first holds state met) fun fails => second fails state met

theorem Triple.adapt (triple : Triple pre call middle failed) (mapped : ε → δ) :
    Triple pre (EStateM.adaptExcept mapped call) middle failed :=
  fun _ holds => (triple.ends holds).adapt

theorem triple_foldlM {round : δ → β → EStateM ε σ δ}
    (each : ∀ held entry, Triple kept (round held entry) (fun _ => kept) kept) (entries : List β) (initial : δ) :
    Triple kept (entries.foldlM round initial) (fun _ => kept) kept := by
  induction entries generalizing initial with
  | nil => exact triple_pure fun _ holds => holds
  | cons entry entries ih =>
    rw [List.foldlM_cons]
    exact (each initial entry).bind ih

theorem triple_forM_mem {round : β → EStateM ε σ PUnit} {entries : List β}
    (each : ∀ entry ∈ entries, Triple kept (round entry) (fun _ => kept) kept) :
    Triple kept (entries.forM round) (fun _ => kept) kept := by
  induction entries with
  | nil => exact triple_pure fun _ holds => holds
  | cons entry entries ih =>
    show Triple kept (round entry >>= fun _ => entries.forM round) _ _
    refine (each entry List.mem_cons_self).bind fun _ => ?_
    exact ih fun other member => each other (List.mem_cons_of_mem entry member)

theorem triple_forM {round : β → EStateM ε σ PUnit}
    (each : ∀ entry, Triple kept (round entry) (fun _ => kept) kept) (entries : List β) :
    Triple kept (entries.forM round) (fun _ => kept) kept :=
  triple_forM_mem fun entry _ => each entry

theorem Triple.stateAfter (triple : Triple pre call (fun _ => kept) kept) {state : σ}
    (holds : pre state) : kept (stateAfter call state) := (triple.ends holds).stateAfter

end Calls
