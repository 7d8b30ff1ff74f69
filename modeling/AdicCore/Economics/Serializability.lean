import AdicCore.Economics.Coherence
import AdicCore.Economics.TaskProgress

open AdicModel AdicModel.Economics Calls

namespace AdicProof.Economics

variable {adjustment : Adjustment}

section

variable {view after : View} {address other : AccountAddress} {amount : AdicAmount}

theorem apply_adjust (adjustment : Adjustment) : view.apply (Adjustment.call adjustment) = view.adjust adjustment := by
  cases adjustment with
  | credit address amount => rfl
  | debit address amount => rfl

theorem adjust_write (different : address ≠ adjustment.address)
    (adjusted : view.adjust adjustment = some after) :
    (view.write address amount).adjust adjustment = some (after.write address amount) := by
  rw [View.adjust_eq_some] at adjusted ⊢
  rcases adjusted with ⟨zero, same⟩ | ⟨positive, newBalance, isNew, same⟩
  · rw [same]
    exact .inl ⟨zero, rfl⟩
  · refine .inr ⟨positive, newBalance, ?_, ?_⟩
    · rw [View.write_read_of_ne different.symm]
      exact isNew
    · rw [← same]
      exact View.write_comm different.symm newBalance

theorem adjust_elsewhere (different : other ≠ adjustment.address)
    (adjusted : view.adjust adjustment = some after) :
    after.stored other = view.stored other ∧ after.read other = view.read other := by
  rcases View.adjust_eq_some.mp adjusted with ⟨_, rfl⟩ | ⟨_, newBalance, _, rfl⟩
  · exact ⟨rfl, rfl⟩
  · exact ⟨View.write_stored_of_ne different, View.write_read_of_ne different⟩

theorem applyAll_cons (call : LedgerCall) (rest : List LedgerCall) :
    view.applyAll (call :: rest) = (view.apply call).bind fun next => next.applyAll rest := rfl

section

variable {adjustments : List Adjustment} (same : ∀ adjustment ∈ adjustments, adjustment.address = address)
  (different : other ≠ address) (applied : view.applyAll (adjustments.map Adjustment.call) = some after)

include same different applied

theorem applyAll_write :
    (view.write other amount).applyAll (adjustments.map Adjustment.call) = some (after.write other amount) := by
  induction adjustments generalizing view with
  | nil =>
    rw [← Option.some.inj applied]
    rfl
  | cons first rest ih =>
    rw [List.map_cons, applyAll_cons, apply_adjust, Option.bind_eq_some_iff] at applied ⊢
    rcases applied with ⟨middle, adjusted, applied⟩
    have here := same first List.mem_cons_self
    refine ⟨middle.write other amount, adjust_write ?_ adjusted, ?_⟩
    · rw [here]
      exact different
    · exact ih (fun adjustment listed => same adjustment (List.mem_cons_of_mem _ listed)) applied

theorem applyAll_elsewhere : after.stored other = view.stored other ∧ after.read other = view.read other := by
  induction adjustments generalizing view with
  | nil =>
    rw [← Option.some.inj applied]
    exact ⟨rfl, rfl⟩
  | cons first rest ih =>
    rw [List.map_cons, applyAll_cons, apply_adjust, Option.bind_eq_some_iff] at applied
    rcases applied with ⟨middle, adjusted, applied⟩
    have here := same first List.mem_cons_self
    rcases ih (fun adjustment listed => same adjustment (List.mem_cons_of_mem _ listed)) applied with ⟨stored, read⟩
    rcases adjust_elsewhere (fun equal => different (equal.trans here)) adjusted with ⟨stored', read'⟩
    exact ⟨stored.trans stored', read.trans read'⟩

end

end

section

variable {tasks : List Task} {id : Nat} {task next : Task}

def settledCalls (tasks : List Task) : List LedgerCall := (tasks.filter Task.settled).map Task.call

theorem settledCalls_quiet (found : tasks[id]? = some task) (call : Task.call next = Task.call task)
    (settled : Task.settled next = Task.settled task) : settledCalls (tasks.set id next) = settledCalls tasks := by
  induction tasks generalizing id with
  | nil => rfl
  | cons first rest ih =>
    cases id with
    | zero =>
      cases found
      unfold settledCalls
      rw [List.set_cons_zero, List.filter_cons, List.filter_cons, settled]
      split
      · rw [List.map_cons, List.map_cons, call]
      · rfl
    | succ id =>
      have rest_eq := @ih id found
      unfold settledCalls at rest_eq ⊢
      rw [List.set_cons_succ, List.filter_cons, List.filter_cons]
      split
      · rw [List.map_cons, List.map_cons, rest_eq]
      · exact rest_eq

theorem settledCalls_settle (found : tasks[id]? = some task) (call : Task.call next = Task.call task)
    (before : Task.settled task = false) (settled : Task.settled next = true) :
    (settledCalls tasks ++ [Task.call task]).Perm (settledCalls (tasks.set id next)) := by
  induction tasks generalizing id with
  | nil => cases found
  | cons first rest ih =>
    cases id with
    | zero =>
      cases found
      unfold settledCalls
      rw [List.set_cons_zero, List.filter_cons_of_pos settled, List.filter_cons_of_neg (by simp [before]), List.map_cons,
        call]
      exact List.perm_append_singleton _ _
    | succ id =>
      have rest_perm := @ih id found
      unfold settledCalls at rest_perm ⊢
      rw [List.set_cons_succ, List.filter_cons, List.filter_cons]
      split
      · exact rest_perm.cons _
      · exact rest_perm

end

structure Tracks (world : World) (view : View) : Prop where
  shows : Shows world.shared view
  ok : ∀ id task, world.tasks[id]? = some task → TaskOk view world.shared.holder id task

section

variable {view after : View} {task next : Task} {holder holder' : Option Nat} {id : Nat}

theorem Progress.writes (progress : Progress view task next after) :
    after = view ∨ ∃ address amount, after = view.write address amount := by
  cases progress with
  | quiet call settled before halfway => exact .inl rfl
  | adjusted adjustment current newBalance positive isNew => exact .inr ⟨_, _, rfl⟩
  | sent movement toBalance newToBalance moves enough => exact .inr ⟨_, _, rfl⟩
  | received movement fromBalance newToBalance moves sum => exact .inr ⟨_, _, rfl⟩

theorem adjustOk_write {point : AdjustPoint} (ok : AdjustOk view adjustment point)
    (address : AccountAddress) (amount : AdicAmount) : AdjustOk (view.write address amount) adjustment point := by
  cases point with
  | getBalance reading => exact ⟨ok.1, ok.2.imp_right View.coherent_write⟩
  | write current newBalance =>
    refine ⟨ok.1, ok.2.1, ?_⟩
    by_cases same : adjustment.address = address
    · rw [same]
      exact .inr View.coherent_write_self
    · rw [View.write_read_of_ne same]
      exact ok.2.2.imp_right View.coherent_write
  | update newBalance => exact View.coherent_write ok
  | returned result => trivial

theorem moveOk_write {movement : Movement} {point : MovePoint} {holds : Prop} (ok : MoveOk view holds movement point)
    (address : AccountAddress) (amount : AdicAmount) : MoveOk (view.write address amount) holds movement point := by
  cases point with
  | writeRecipient fromBalance toBalance newToBalance =>
    exact ⟨ok.1, ok.2.1, ok.2.2.1, ok.2.2.2.1, View.coherent_write ok.2.2.2.2⟩
  | updateCache fromBalance newToBalance =>
    exact ⟨ok.1, View.coherent_write ok.2.1, View.coherent_write ok.2.2.1, ok.2.2.2⟩
  | _ => exact ok

theorem moveOk_holds {movement : Movement} {point : MovePoint} {holds holds' : Prop} (ok : MoveOk view holds movement point)
    (kept : holds → holds') : MoveOk view holds' movement point := by
  cases point with
  | readSender => exact ⟨ok.1, kept ok.2⟩
  | readRecipient fromBalance => exact ⟨ok.1, ok.2.1, kept ok.2.2⟩
  | writeSender fromBalance toBalance newToBalance => exact ⟨ok.1, ok.2.1, ok.2.2.1, kept ok.2.2.2⟩
  | writeRecipient fromBalance toBalance newToBalance => exact ⟨ok.1, ok.2.1, ok.2.2.1, kept ok.2.2.2.1, ok.2.2.2.2⟩
  | updateCache fromBalance newToBalance => exact ⟨ok.1, ok.2.1, ok.2.2.1, kept ok.2.2.2⟩
  | _ => exact ok

theorem taskOk_kept (ok : TaskOk view holder id task) (writes : after = view ∨ ∃ address amount, after = view.write address amount)
    (kept : holder = some id → holder' = some id) : TaskOk after holder' id task := by
  rcases writes with rfl | ⟨address, amount, rfl⟩
  · cases task with
    | adjust adjustment point => exact ok
    | move movement point => exact moveOk_holds ok kept
  · cases task with
    | adjust adjustment point => exact adjustOk_write ok address amount
    | move movement point => exact moveOk_write (moveOk_holds ok kept) address amount

end

variable {task : Task}

section

variable (blake3 : List UInt8 → Bytes32) {world next : World} {view : View} {turn : Nat × Int}

theorem step_eq_some : world.step blake3 turn = some next ↔ ∃ task, world.tasks[turn.1]? = some task ∧
    ∃ after shared, task.step blake3 turn.2 turn.1 world.shared = some (after, shared) ∧
      next = ⟨shared, world.tasks.set turn.1 after⟩ := by
  unfold World.step
  cases world.tasks[turn.1]? with
  | none => simp
  | some task =>
    simp only [Option.map_eq_some_iff, Prod.exists, Option.some.injEq, exists_eq_left']
    exact exists_congr fun after => exists_congr fun shared => and_congr_right fun _ => eq_comm

theorem tracks_step (tracks : Tracks world view) (run : world.step blake3 turn = some next)
    (upToDate : ∀ task, world.tasks[turn.1]? = some task → Task.UpToDate world.shared task)
    (succeeds : ∀ task ∈ next.tasks, Task.failing task = false) :
    ∃ task after view', world.tasks[turn.1]? = some task ∧ next.tasks = world.tasks.set turn.1 after ∧
      Progress view task after view' ∧ Tracks next view' := by
  rcases (step_eq_some blake3).mp run with ⟨task, found, after, shared, stepped, rfl⟩
  have inside : turn.1 < world.tasks.length := (List.getElem?_eq_some_iff.mp found).1
  have unfailing : Task.failing after = false := succeeds after (List.mem_set inside after)
  have single : ∃ view', Progress view task after view' ∧ TaskOk view' shared.holder turn.1 after ∧ Shows shared view' ∧
      Handed turn.1 world.shared shared := by
    cases task with
    | adjust adjustment point =>
      simp only [Task.step, Option.map_eq_some_iff] at stepped
      rcases stepped with ⟨⟨reached, shared'⟩, stepped, same⟩
      cases same
      rcases adjust_step tracks.shows (tracks.ok _ _ found) stepped (upToDate _ found) unfailing with
        ⟨view', progress, ok, shows, holder⟩
      exact ⟨view', progress, ok, shows, .inl holder⟩
    | move movement point =>
      simp only [Task.step, Option.map_eq_some_iff] at stepped
      rcases stepped with ⟨⟨reached, shared'⟩, stepped, same⟩
      cases same
      exact move_step blake3 tracks.shows (tracks.ok _ _ found) stepped (upToDate _ found) unfailing
  rcases single with ⟨view', progress, ok, shows, handed⟩
  refine ⟨task, after, view', found, rfl, progress, shows, fun id other listed => ?_⟩
  have listed : (world.tasks.set turn.1 after)[id]? = some other := listed
  rw [List.getElem?_set] at listed
  by_cases same : turn.1 = id
  · rw [if_pos same, if_pos (same ▸ inside)] at listed
    cases listed
    rw [← same]
    exact ok
  · rw [if_neg same] at listed
    refine taskOk_kept (tracks.ok id other listed) progress.writes fun held => ?_
    rcases handed with kept | free | mine
    · exact kept.trans held
    · rw [held] at free
      cases free
    · rw [held] at mine
      exact absurd (Option.some.inj mine).symm same

theorem failing_step {id : Nat} (run : world.step blake3 turn = some next)
    (found : world.tasks[id]? = some task) (fails : Task.failing task = true) :
    ∃ after, next.tasks[id]? = some after ∧ Task.failing after = true := by
  rcases (step_eq_some blake3).mp run with ⟨mover, mine, after, shared, stepped, rfl⟩
  show ∃ later, (world.tasks.set turn.1 after)[id]? = some later ∧ _
  rw [List.getElem?_set]
  by_cases same : turn.1 = id
  · have inside : turn.1 < world.tasks.length := (List.getElem?_eq_some_iff.mp mine).1
    rw [if_pos same, if_pos (same ▸ inside)]
    refine ⟨after, rfl, ?_⟩
    rw [same, found] at mine
    cases mine
    cases task with
    | adjust adjustment point =>
      cases point with
      | returned result => cases stepped
      | _ => cases fails
    | move movement point =>
      cases point with
      | rollbackTransaction error =>
        cases stepped
        rfl
      | returned result => cases stepped
      | _ => cases fails
  · rw [if_neg same]
    exact ⟨task, found, fails⟩

end

/-- The settled calls in an order that leads to the view. Behind a half written transfer come the later calls on its
    sender. -/
inductive Ordered (start : View) (tasks : List Task) (view : View) : Prop
  | idle (order : List LedgerCall) (applied : start.applyAll order = some view)
    (calls : order.Perm (settledCalls tasks)) (still : ∀ task ∈ tasks, Task.halfway task = false)
  | moving (order : List LedgerCall) (later : List Adjustment) (base : View) (id : Nat) (movement : Movement)
    (toBalance newToBalance : AdicAmount) (applied : start.applyAll order = some base)
    (moves : Movement.Moves movement) (enough : ¬ base.stored movement.sender < movement.amount)
    (rest : (base.write movement.sender ((base.stored movement.sender).saturatingSub movement.amount)).applyAll
      (later.map Adjustment.call) = some view)
    (same : ∀ adjustment ∈ later, adjustment.address = movement.sender)
    (calls : (order ++ later.map Adjustment.call).Perm (settledCalls tasks))
    (pending : tasks[id]? = some
      (.move movement (.writeRecipient (base.stored movement.sender) toBalance newToBalance)))
    (only : ∀ other task, tasks[other]? = some task → Task.halfway task = true → other = id)

section

variable {start view after : View} {tasks : List Task} {task next : Task} {id : Nat}

theorem halfway_set {others : List Task} (here : Task.halfway next = false)
    (still : ∀ task ∈ others, Task.halfway task = false) : ∀ task ∈ others.set id next, Task.halfway task = false := by
  intro task listed
  rcases List.mem_or_eq_of_mem_set listed with old | same
  · exact still task old
  · rw [same]
    exact here

theorem only_set {other : Nat} (here : Task.halfway next = false)
    (only : ∀ index task, tasks[index]? = some task → Task.halfway task = true → index = other) :
    ∀ index task, (tasks.set id next)[index]? = some task → Task.halfway task = true → index = other := by
  intro index task listed halfway
  rw [List.getElem?_set] at listed
  split at listed
  · split at listed
    · cases listed
      rw [here] at halfway
      cases halfway
    · cases listed
  · exact only index task listed halfway

theorem ordered_step {holder : Option Nat} (ok : ∀ id task, tasks[id]? = some task → TaskOk view holder id task)
    (ordered : Ordered start tasks view) (found : tasks[id]? = some task) (progress : Progress view task next after) :
    Ordered start (tasks.set id next) after := by
  have inside : id < tasks.length := (List.getElem?_eq_some_iff.mp found).1
  have member : task ∈ tasks := List.mem_of_getElem? found
  cases ordered with
  | idle order applied calls still =>
    cases progress with
    | quiet call settled before halfway =>
      refine .idle order applied ?_ (halfway_set halfway still)
      rw [settledCalls_quiet found call settled]
      exact calls
    | adjusted adjustment current newBalance positive isNew =>
      refine .idle (order ++ [Adjustment.call adjustment]) ?_ ?_ (halfway_set rfl still)
      · rw [View.applyAll_snoc applied, apply_adjust, View.adjust_eq_some]
        exact .inr ⟨positive, newBalance, isNew, rfl⟩
      · exact (calls.append_right _).trans (settledCalls_settle found rfl rfl rfl)
    | sent movement toBalance newToBalance moves enough =>
      refine .moving order [] view id movement toBalance newToBalance applied moves enough rfl ?_ ?_ ?_ ?_
      · exact fun adjustment listed => absurd listed List.not_mem_nil
      · have unsettled : settledCalls (tasks.set id (.move movement
            (.writeRecipient (view.stored movement.sender) toBalance newToBalance))) = settledCalls tasks :=
          settledCalls_quiet found rfl rfl
        rw [unsettled, List.map_nil, List.append_nil]
        exact calls
      · rw [List.getElem?_set_self inside]
      · intro other task listed halfway
        rw [List.getElem?_set] at listed
        split at listed
        · next same => exact same.symm
        · rw [still task (List.mem_of_getElem? listed)] at halfway
          cases halfway
    | received movement fromBalance newToBalance moves sum =>
      have impossible := still _ member
      cases impossible
  | moving order later base pendingId movement toBalance newToBalance applied moves enough rest same calls pending only =>
    cases progress with
    | quiet call settled before halfway =>
      have different : id ≠ pendingId := by
        intro equal
        rw [equal, pending] at found
        cases found
        cases before
      refine .moving order later base pendingId movement toBalance newToBalance applied moves enough rest same ?_ ?_
        (only_set halfway only)
      · rw [settledCalls_quiet found call settled]
        exact calls
      · rw [List.getElem?_set_ne different]
        exact pending
    | adjusted adjustment current newBalance positive isNew =>
      have different : id ≠ pendingId := by
        intro equal
        rw [equal, pending] at found
        cases found
      have pending' : (tasks.set id (.adjust adjustment (.update newBalance)))[pendingId]? = some
          (.move movement (.writeRecipient (base.stored movement.sender) toBalance newToBalance)) := by
        rw [List.getElem?_set_ne different]
        exact pending
      have settles : (settledCalls tasks ++ [Adjustment.call adjustment]).Perm
          (settledCalls (tasks.set id (.adjust adjustment (.update newBalance)))) :=
        settledCalls_settle found rfl rfl rfl
      by_cases here : adjustment.address = movement.sender
      · refine .moving order (later ++ [adjustment]) base pendingId movement toBalance newToBalance applied moves enough
          ?_ ?_ ?_ pending' (only_set rfl only)
        · rw [List.map_append, List.map_singleton, View.applyAll_snoc rest, apply_adjust, View.adjust_eq_some]
          exact .inr ⟨positive, newBalance, isNew, rfl⟩
        · intro listed member
          rcases List.mem_append.mp member with old | new
          · exact same listed old
          · rw [List.mem_singleton.mp new]
            exact here
        · rw [List.map_append, List.map_singleton, ← List.append_assoc]
          exact (calls.append_right _).trans settles
      · have elsewhere := applyAll_elsewhere same here rest
        have seen : base.read adjustment.address = view.read adjustment.address := by
          rw [elsewhere.2, View.write_read_of_ne here]
        have kept : (base.write adjustment.address newBalance).stored movement.sender = base.stored movement.sender :=
          View.write_stored_of_ne fun equal => here equal.symm
        refine .moving (order ++ [Adjustment.call adjustment]) later (base.write adjustment.address newBalance) pendingId
          movement toBalance newToBalance ?_ moves ?_ ?_ same ?_ ?_ (only_set rfl only)
        · rw [View.applyAll_snoc applied, apply_adjust, View.adjust_eq_some]
          refine .inr ⟨positive, newBalance, ?_, rfl⟩
          rw [seen]
          exact isNew
        · rw [kept]
          exact enough
        · rw [kept, View.write_comm fun equal => here equal.symm]
          exact applyAll_write same here rest
        · refine List.Perm.trans ?_ ((calls.append_right _).trans settles)
          rw [List.append_assoc, List.append_assoc]
          exact (List.perm_append_comm).append_left order
        · rw [kept]
          exact pending'
    | sent other toBalance' newToBalance' moves' enough' =>
      have mine := (ok id _ found).2.2.2
      have theirs := (ok pendingId _ pending).2.2.2.1
      rw [mine] at theirs
      rw [Option.some.inj theirs, pending] at found
      cases found
    | received other fromBalance newToBalance' moves' sum =>
      have equal := only id _ found rfl
      rw [equal, pending] at found
      cases found
      have different : movement.recipient ≠ movement.sender := fun equal => moves.2.2 equal.symm
      have elsewhere := applyAll_elsewhere same different rest
      have seen : base.stored movement.recipient = view.stored movement.recipient := by
        rw [elsewhere.1, View.write_stored_of_ne different]
      refine .idle (order ++ .transfer movement.sender movement.recipient movement.amount :: later.map Adjustment.call)
        ?_ ?_ ?_
      · rw [View.applyAll_append, applied]
        show (base.apply (.transfer movement.sender movement.recipient movement.amount)).bind _ = _
        have moved : base.apply (.transfer movement.sender movement.recipient movement.amount) = some
            ((base.write movement.sender ((base.stored movement.sender).saturatingSub movement.amount)).write
              movement.recipient newToBalance) := by
          refine View.transfer_eq_some.mpr (.inr ⟨moves.2.1, moves.2.2, enough, newToBalance, ?_, rfl⟩)
          rw [seen]
          exact sum
        rw [moved, Option.bind_some]
        exact applyAll_write same different rest
      · rw [equal] at *
        refine List.Perm.trans ?_ ((calls.append_right _).trans (settledCalls_settle pending rfl rfl rfl))
        rw [List.append_assoc]
        exact (List.perm_append_singleton _ _).symm.append_left order
      · intro listed member'
        by_contra halfway
        rcases List.mem_iff_getElem?.mp member' with ⟨index, listed'⟩
        have index_eq := listed'
        rw [List.getElem?_set] at index_eq
        split at index_eq
        · cases index_eq
          exact halfway rfl
        · next other =>
          have again := only index listed index_eq (by simpa using halfway)
          exact other (equal.trans again.symm)

end

section

variable (blake3 : List UInt8 → Bytes32) {world final : World} {start view : View}

theorem run_cons (turn : Nat × Int) (schedule : List (Nat × Int)) :
    world.run blake3 (turn :: schedule) = (world.step blake3 turn).bind fun next => next.run blake3 schedule := rfl

theorem failing_run {id : Nat} (schedule : List (Nat × Int))
    (run : world.run blake3 schedule = some final) (found : world.tasks[id]? = some task)
    (fails : Task.failing task = true) : ∃ after ∈ final.tasks, Task.failing after = true := by
  induction schedule generalizing world task with
  | nil =>
    cases run
    exact ⟨task, List.mem_of_getElem? found, fails⟩
  | cons turn schedule ih =>
    rw [run_cons, Option.bind_eq_some_iff] at run
    rcases run with ⟨next, step, run⟩
    rcases failing_step blake3 step found fails with ⟨after, found', fails'⟩
    exact ih run found' fails'

def WritesCurrent (world : World) (schedule : List (Nat × Int)) : Prop :=
  ∀ before turn, before ++ [turn] <+: schedule → ∀ middle, world.run blake3 before = some middle →
    ∀ task, middle.tasks[turn.1]? = some task → Task.UpToDate middle.shared task

theorem WritesCurrent.tail {turn : Nat × Int} {schedule : List (Nat × Int)} {next : World}
    (current : WritesCurrent blake3 world (turn :: schedule)) (step : world.step blake3 turn = some next) :
    WritesCurrent blake3 next schedule := by
  intro before later part middle run
  refine current (turn :: before) later ?_ middle ?_
  · simpa using part
  · rw [run_cons, step]
    exact run

theorem ordered_run (schedule : List (Nat × Int)) (run : world.run blake3 schedule = some final)
    (succeeds : ∀ task ∈ final.tasks, Task.failing task = false) (current : WritesCurrent blake3 world schedule)
    (tracks : Tracks world view) (ordered : Ordered start world.tasks view) :
    ∃ view', Tracks final view' ∧ Ordered start final.tasks view' := by
  induction schedule generalizing world view with
  | nil =>
    cases run
    exact ⟨view, tracks, ordered⟩
  | cons turn schedule ih =>
    have whole := run
    rw [run_cons, Option.bind_eq_some_iff] at run
    rcases run with ⟨next, step, run⟩
    have unfailing : ∀ task ∈ next.tasks, Task.failing task = false := by
      intro task listed
      by_contra fails
      rcases List.mem_iff_getElem?.mp listed with ⟨id, found⟩
      rcases failing_run blake3 schedule run found (by simpa using fails) with ⟨after, kept, failed⟩
      rw [succeeds after kept] at failed
      cases failed
    have upToDate := current [] turn ⟨schedule, rfl⟩ world rfl
    rcases tracks_step blake3 tracks step upToDate unfailing with ⟨task, after, view', found, tasks, progress, tracks'⟩
    refine ih run (current.tail blake3 step) tracks' ?_
    rw [tasks]
    exact ordered_step tracks.ok ordered found progress

theorem start_ok (holder : Option Nat) (id : Nat) (call : LedgerCall) : TaskOk view holder id (Task.start call) := by
  cases call with
  | credit address amount =>
    show TaskOk view holder id (Task.credit address amount)
    unfold Task.credit
    split
    · trivial
    · next positive => exact ⟨positive, .inl rfl⟩
  | debit address amount =>
    show TaskOk view holder id (Task.debit address amount)
    unfold Task.debit
    split
    · trivial
    · next positive => exact ⟨positive, .inl rfl⟩
  | transfer sender recipient amount =>
    show TaskOk view holder id (Task.transfer sender recipient amount)
    unfold Task.transfer
    split
    · trivial
    · next positive =>
      split
      · trivial
      · next different => exact ⟨rfl, positive, different⟩

theorem call_start (call : LedgerCall) : Task.call (Task.start call) = call := by
  cases call with
  | credit address amount => rfl
  | debit address amount => rfl
  | transfer sender recipient amount => rfl

theorem apply_settled {call : LedgerCall} (settled : Task.settled (Task.start call) = true) :
    view.apply call = some view := by
  cases call with
  | credit address amount =>
    have settled : Task.settled (Task.credit address amount) = true := settled
    unfold Task.credit at settled
    split at settled
    · next zero => exact if_pos zero
    · cases settled
  | debit address amount =>
    have settled : Task.settled (Task.debit address amount) = true := settled
    unfold Task.debit at settled
    split at settled
    · next zero => exact if_pos zero
    · cases settled
  | transfer sender recipient amount =>
    have settled : Task.settled (Task.transfer sender recipient amount) = true := settled
    unfold Task.transfer at settled
    split at settled
    · next zero => exact if_pos zero
    · split at settled
      · cases settled
      · cases settled

theorem halfway_start (call : LedgerCall) : Task.halfway (Task.start call) = false := by
  cases call with
  | credit address amount => rfl
  | debit address amount => rfl
  | transfer sender recipient amount =>
    show Task.halfway (Task.transfer sender recipient amount) = false
    unfold Task.transfer
    split
    · rfl
    · split
      · rfl
      · rfl

theorem ordered_start (calls : List LedgerCall) : Ordered view (calls.map Task.start) view := by
  refine .idle (settledCalls (calls.map Task.start)) ?_ (List.Perm.refl _) ?_
  · induction calls with
    | nil => rfl
    | cons call rest ih =>
      unfold settledCalls at ih ⊢
      rw [List.map_cons, List.filter_cons]
      split
      · next settled =>
        rw [List.map_cons, applyAll_cons, call_start, apply_settled settled, Option.bind_some]
        exact ih
      · exact ih
  · intro task listed
    rcases List.mem_map.mp listed with ⟨call, _, rfl⟩
    exact halfway_start call

theorem tracks_start (manager : BalanceManager MemoryStorage) (calls : List LedgerCall) :
    Tracks (World.start manager (calls.map Task.start)) (booksOf manager).view where
  shows := by
    refine ⟨rfl, fun address incoherent => ?_⟩
    have looked : (booksOf manager).cache address = (manager.cache.lookup address).map entryOf := cache_booksOf
    show (manager.cache.lookup address).map AccountInfo.balance = some ((booksOf manager).entry address).balance
    cases found : manager.cache.lookup address with
    | some info =>
      rw [found] at looked
      rw [Books.entry_cached looked]
      rfl
    | none =>
      rw [found] at looked
      refine absurd ?_ incoherent
      show ((booksOf manager).entry address).balance = (booksOf manager).accounts.balance address
      unfold Books.entry
      rw [looked]
      rfl
  ok := by
    intro id task found
    have found : (calls.map Task.start)[id]? = some task := found
    rw [List.getElem?_map, Option.map_eq_some_iff] at found
    rcases found with ⟨call, _, rfl⟩
    exact start_ok none id call

theorem failing_of_result (succeeded : task.result = some true) : Task.failing task = false := by
  cases task with
  | adjust adjustment point =>
    cases point with
    | returned result =>
      cases result with
      | ok value => rfl
      | error error => cases succeeded
    | _ => rfl
  | move movement point =>
    cases point with
    | returned result =>
      cases result with
      | ok value => rfl
      | error error => cases succeeded
    | rollbackTransaction error => cases succeeded
    | _ => rfl

theorem settled_of_result (succeeded : task.result = some true) :
    Task.settled task = true ∧ Task.halfway task = false := by
  cases task with
  | adjust _ point | move _ point =>
    cases point with
    | returned result =>
      cases result with
      | ok value => exact ⟨rfl, rfl⟩
      | error error => cases succeeded
    | _ => cases succeeded

theorem calls_step {world next : World} {turn : Nat × Int} (step : world.step blake3 turn = some next) :
    next.tasks.map Task.call = world.tasks.map Task.call := by
  rcases (step_eq_some blake3).mp step with ⟨task, found, after, shared, stepped, rfl⟩
  have same : Task.call after = Task.call task := by
    cases task with
    | adjust _ point | move _ point =>
      simp only [Task.step, Option.map_eq_some_iff] at stepped
      rcases stepped with ⟨reached, _, equal⟩
      cases equal
      rfl
  rw [List.map_set, same]
  refine List.ext_getElem? fun index => ?_
  rw [List.getElem?_set]
  split
  · next equal =>
    subst equal
    rw [List.getElem?_map, found]
    split
    · rfl
    · next outside => exact absurd (by simpa using (List.getElem?_eq_some_iff.mp found).1) outside
  · rfl

theorem calls_run (schedule : List (Nat × Int)) (run : world.run blake3 schedule = some final) :
    final.tasks.map Task.call = world.tasks.map Task.call := by
  induction schedule generalizing world with
  | nil =>
    cases run
    rfl
  | cons turn schedule ih =>
    rw [run_cons, Option.bind_eq_some_iff] at run
    rcases run with ⟨next, step, run⟩
    rw [ih run, calls_step blake3 step]

end

/-- Successful calls whose writes are computed from the stored balances leave what they leave in some serial order. -/
theorem serializable (blake3 : List UInt8 → Bytes32) (manager : BalanceManager MemoryStorage) (calls : List LedgerCall)
    (schedule : List (Nat × Int)) (final : World)
    (run : (World.start manager (calls.map Task.start)).run blake3 schedule = some final)
    (succeeded : ∀ task ∈ final.tasks, task.result = some true)
    (current : WritesCurrent blake3 (World.start manager (calls.map Task.start)) schedule) :
    ∃ order : List LedgerCall, order.Perm calls ∧
      ∀ now, Shared.stored ⟨serially blake3 now manager order, none⟩ = final.shared.stored := by
  rcases ordered_run blake3 schedule run (fun task listed => failing_of_result (succeeded task listed)) current
    (tracks_start manager calls) (ordered_start calls) with ⟨view, tracks, ordered⟩
  have same := calls_run blake3 schedule run
  have calls_eq : final.tasks.map Task.call = calls := by
    rw [same]
    show (calls.map Task.start).map Task.call = calls
    rw [List.map_map]
    exact (List.map_congr_left fun call _ => call_start call).trans (List.map_id calls)
  cases ordered with
  | idle order applied perm still =>
    have all : final.tasks.filter Task.settled = final.tasks :=
      List.filter_eq_self.mpr fun task listed => (settled_of_result (succeeded task listed)).1
    unfold settledCalls at perm
    rw [all, calls_eq] at perm
    refine ⟨order, perm, fun now => ?_⟩
    rw [tracks.shows.stored, ← serially_view blake3 now order applied]
    rfl
  | moving order later base id movement toBalance newToBalance applied moves enough rest same calls pending only =>
    cases (settled_of_result (succeeded _ (List.mem_of_getElem? pending))).2

def zeroHash (_ : List UInt8) : Bytes32 := Bytes32.replicate 0

/-- Two credits in turns, where the second reads the account after the first has written it. -/
theorem serializable_credits :
    ∃ order : List LedgerCall, order.Perm [.credit (account 1) ⟨5⟩, .credit (account 1) ⟨7⟩] ∧ ∀ now,
      Shared.stored ⟨serially zeroHash now (BalanceManager.new .new) order, none⟩ (account 1) = ⟨12⟩ := by
  let calls : List LedgerCall := [.credit (account 1) ⟨5⟩, .credit (account 1) ⟨7⟩]
  let schedule : List (Nat × Int) :=
    [(0, 0), (1, 0), (0, 0), (0, 0), (0, 0), (1, 0), (0, 0), (1, 0), (1, 0), (1, 0)]
  have current : WritesCurrent zeroHash (World.start (BalanceManager.new .new) (calls.map Task.start)) schedule := by
    unfold WritesCurrent
    simp only [schedule, Runs.forall_steps_cons]
    refine ⟨?_, ?_, ?_, ?_, ?_, ?_, ?_, ?_, ?_, ?_, Runs.forall_steps_nil⟩ <;>
      intro middle run task found <;> cases run <;> cases found
    · trivial
    · trivial
    · trivial
    · trivial
    · rfl
    · trivial
    · trivial
    · trivial
    · rfl
    · trivial
  rcases serializable zeroHash (BalanceManager.new .new) calls schedule _ rfl (by decide) current with
    ⟨order, perm, same⟩
  exact ⟨order, perm, fun now => (congrFun (same now) (account 1)).trans (by decide)⟩

/-- Two credits that read the account before either of them writes it. -/
theorem credit_lost :
    (∃ final, (World.start (BalanceManager.new .new)
        ([LedgerCall.credit (account 1) ⟨5⟩, .credit (account 1) ⟨7⟩].map Task.start)).run zeroHash
        [(0, 0), (1, 0), (0, 0), (1, 0), (0, 0), (1, 0), (0, 0), (1, 0), (0, 0), (1, 0)] = some final ∧
      (∀ task ∈ final.tasks, task.result = some true) ∧ final.shared.stored (account 1) = ⟨7⟩) ∧
    ∀ order : List LedgerCall, order.Perm [.credit (account 1) ⟨5⟩, .credit (account 1) ⟨7⟩] → ∀ now,
      Shared.stored ⟨serially zeroHash now (BalanceManager.new .new) order, none⟩ (account 1) = ⟨12⟩ := by
  refine ⟨⟨_, rfl, by decide, by decide⟩, fun order perm now => ?_⟩
  have applied : ∃ view, (booksOf (BalanceManager.new MemoryStorage.new)).view.applyAll order = some view ∧
      view.stored (account 1) = ⟨12⟩ := by
    rcases List.perm_pair.mp perm with rfl | rfl
    · exact ⟨_, rfl, by decide⟩
    · exact ⟨_, rfl, by decide⟩
  rcases applied with ⟨view, applied, total⟩
  rw [← serially_view zeroHash now order applied] at total
  exact total

end AdicProof.Economics
