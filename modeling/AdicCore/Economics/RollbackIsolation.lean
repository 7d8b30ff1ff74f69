import AdicCore.Economics.RollbackMirror

open AdicModel AdicModel.Economics Calls

namespace AdicProof.Economics

def Early (holds : Prop) : MovePoint → Prop
  | .getBalance _ => True
  | .readNonce => True
  | .loadNonce => True
  | .cacheNonce _ => True
  | .beginTransaction => True
  | .lockCache => True
  | .readSender => holds
  | .readRecipient _ => holds
  | .rollbackTransaction _ => True
  | .returned (.error _) => True
  | _ => False

def Late : MovePoint → Prop
  | .writeSender _ _ _ => True
  | .writeRecipient _ _ _ => True
  | .updateCache _ _ => True
  | .incrementNonce _ => True
  | .storeNonce _ _ => True
  | .loadOldNonce _ => True
  | .storeNewNonce _ _ => True
  | .insertSender _ _ => True
  | .commitTransaction _ => True
  | .recordTransaction _ => True
  | .returned (.ok _) => True
  | _ => False

def nextSlot (id : Nat) (slot : Option (AccountAddress → AdicAmount)) (world : World) (turn : Nat × Int) :
    Option (AccountAddress → AdicAmount) :=
  if turn.1 = id then slot
  else
    match world.tasks[turn.1]? with
    | some task => slotAfter world.shared.stored slot task
    | none => slot

/-- A rollback finds the slot empty or with the stored balances. The call caches only a stored balance. -/
structure Isolated (id : Nat) (slot : Option (AccountAddress → AdicAmount)) (world : World) (turn : Nat × Int) :
    Prop where
  rollback : ∀ movement error, world.tasks[turn.1]? = some (.move movement (.rollbackTransaction error)) →
    Harmless (slotBalances world.shared) world.shared ∧ (turn.1 ≠ id → Harmless slot world.shared)
  insert : ∀ movement balance, turn.1 = id →
    world.tasks[turn.1]? = some (.move movement (.getBalance (.insert balance))) →
      balance = world.shared.stored movement.sender ∧
        ∀ cached, cachedBalance world.shared movement.sender = some cached → cached = balance

def IsolatedRun (blake3 : List UInt8 → Bytes32) (id : Nat) (slot : Option (AccountAddress → AdicAmount))
    (world : World) :
    List (Nat × Int) → Prop
  | [] => True
  | turn :: rest => Isolated id slot world turn ∧ ∀ next, world.step blake3 turn = some next →
      IsolatedRun blake3 id (nextSlot id slot world turn) next rest

structure Mirrors (id : Nat) (movement : Movement) (world without : World)
    (slot : Option (AccountAddress → AdicAmount)) : Prop where
  reflects : Reflects id world.shared without.shared slot (Unsettled world.tasks world.shared.holder)
  others : ∀ index, index ≠ id → without.tasks[index]? = world.tasks[index]?
  plain : ∀ index task, index ≠ id → world.tasks[index]? = some task →
    Plain world.shared.holder index (fun account => cachedBalance without.shared account ≠ none) task
  mine : ∃ point, world.tasks[id]? = some (.move movement point) ∧ Early (world.shared.holder = some id) point

section

variable (blake3 : List UInt8 → Bytes32) {shared next other : Shared} {movement : Movement} {point after : MovePoint}
  {now : Int} {id : Nat} {slot : Option (AccountAddress → AdicAmount)} {unsettled unsettled' : AccountAddress → Prop}

theorem late_step (late : Late point) (run : point.step blake3 now id movement shared = some (after, next)) :
    Late after := by
  cases point with
  | writeSender fromBalance toBalance newToBalance =>
    cases run
    trivial
  | writeRecipient fromBalance toBalance newToBalance =>
    cases run
    trivial
  | updateCache fromBalance newToBalance =>
    simp only [MovePoint.step, MovePoint.afterTransfer] at run
    cases nonce : movement.nonce with
    | none =>
      rw [nonce] at run
      cases run
      trivial
    | some value =>
      rw [nonce] at run
      cases run
      trivial
  | incrementNonce txHash =>
    simp only [MovePoint.step] at run
    split at run
    · cases run
    cases found : shared.cached movement.sender with
    | some info =>
      rw [found] at run
      cases run
      trivial
    | none =>
      rw [found] at run
      cases run
      trivial
  | storeNonce txHash nonce =>
    cases run
    trivial
  | loadOldNonce txHash =>
    cases run
    trivial
  | storeNewNonce txHash nonce =>
    cases run
    trivial
  | insertSender txHash nonce =>
    cases run
    trivial
  | commitTransaction txHash =>
    cases run
    trivial
  | recordTransaction txHash =>
    cases run
    trivial
  | returned result => cases run
  | _ => exact late.elim

theorem early_afterBalance (balance : AdicAmount) (holds : Prop) : Early holds (.afterBalance movement balance) := by
  unfold MovePoint.afterBalance
  split
  · trivial
  · trivial

theorem early_afterNonce (nonce : UInt64) (holds : Prop) : Early holds (.afterNonce movement nonce) := by
  unfold MovePoint.afterNonce
  cases movement.nonce with
  | none => trivial
  | some value =>
    dsimp only
    split
    · trivial
    · trivial

theorem own_mirrored (early : Early (shared.holder = some id) point)
    (reflects : Reflects id shared other slot unsettled)
    (settled : shared.holder = none → ∀ account, ¬ unsettled account)
    (mine : shared.holder = some id → ∀ account, ¬ unsettled account)
    (kept : next.holder = shared.holder → ∀ account, unsettled account → unsettled' account)
    (harmless : ∀ error, point = .rollbackTransaction error → Harmless (slotBalances shared) shared)
    (insert : ∀ balance, point = .getBalance (.insert balance) → balance = shared.stored movement.sender ∧
      ∀ cached, cachedBalance shared movement.sender = some cached → cached = balance)
    (run : point.step blake3 now id movement shared = some (after, next)) (open' : ¬ Late after) :
    Reflects id next other slot unsettled' ∧ Early (next.holder = some id) after ∧ Handed id shared next := by
  cases point with
  | getBalance reading =>
    cases reading with
    | lookup =>
      simp only [MovePoint.step, Reading.step] at run
      split at run
      · cases run
      cases found : shared.cached movement.sender with
      | some info =>
        rw [found] at run
        cases run
        exact ⟨reflects.mono (kept rfl), early_afterBalance _ _, .inl rfl⟩
      | none =>
        rw [found] at run
        cases run
        exact ⟨reflects.mono (kept rfl), trivial, .inl rfl⟩
    | load =>
      cases run
      exact ⟨reflects.mono (kept rfl), trivial, .inl rfl⟩
    | insert balance =>
      simp only [MovePoint.step, Reading.step] at run
      split at run
      · cases run
      next free =>
      cases run
      obtain ⟨current, same⟩ := insert balance rfl
      refine ⟨⟨reflects.stored, reflects.slot, reflects.holder, fun account => ?_⟩, early_afterBalance _ _, .inl rfl⟩
      show cachedBalance other account = cachedBalance (shared.perform (BalanceManager.cacheInsert movement.sender _))
        account ∨ _ ∧ (cachedBalance (shared.perform (BalanceManager.cacheInsert movement.sender _)) account = _ ∨ _)
      rw [cachedBalance_insert]
      by_cases here : account = movement.sender
      · rw [here, Function.update_self]
        rcases reflects.cached movement.sender with equal | ⟨missing, _⟩
        · cases entry : cachedBalance shared movement.sender with
          | none =>
            rw [entry] at equal
            exact .inr ⟨equal, .inl (congrArg some current)⟩
          | some cached =>
            rw [entry, same cached entry] at equal
            exact .inl equal
        · exact .inr ⟨missing, .inl (congrArg some current)⟩
      · rw [Function.update_of_ne here]
        exact (reflects.mono (kept rfl)).cached account
  | readNonce =>
    simp only [MovePoint.step] at run
    split at run
    · cases run
    cases found : shared.cached movement.sender with
    | some info =>
      rw [found] at run
      cases run
      exact ⟨reflects.mono (kept rfl), early_afterNonce _ _, .inl rfl⟩
    | none =>
      rw [found] at run
      cases run
      exact ⟨reflects.mono (kept rfl), trivial, .inl rfl⟩
  | loadNonce =>
    cases run
    exact ⟨reflects.mono (kept rfl), trivial, .inl rfl⟩
  | cacheNonce nonce =>
    simp only [MovePoint.step] at run
    split at run
    · cases run
    cases found : shared.cached movement.sender with
    | some info =>
      rw [found] at run
      cases run
      refine ⟨⟨reflects.stored, reflects.slot, reflects.holder, fun account => ?_⟩, early_afterNonce _ _, .inl rfl⟩
      have unchanged : cachedBalance (shared.perform (BalanceManager.cacheInsert movement.sender
          { info with nonce := nonce })) = cachedBalance shared := by
        rw [cachedBalance_insert]
        refine Function.update_eq_self_iff.mpr ?_
        show some info.balance = (shared.cached movement.sender).map AccountInfo.balance
        rw [found]
        rfl
      rw [unchanged]
      exact (reflects.mono (kept rfl)).cached account
    | none =>
      rw [found] at run
      cases run
      exact ⟨reflects.mono (kept rfl), early_afterNonce _ _, .inl rfl⟩
  | beginTransaction =>
    cases run
    exact ⟨reflects.reslot (kept rfl) rfl rfl rfl rfl rfl rfl reflects.slot, trivial, .inl rfl⟩
  | lockCache =>
    simp only [MovePoint.step] at run
    split at run
    · cases run
    next free =>
    cases run
    have none := holder_of_not_isSome free
    refine ⟨reflects.rehold (settled none) ?_, rfl, .inr (.inl none)⟩
    rw [reflects.holder, none]
    simp
  | readSender =>
    have held : shared.holder = some id := early
    simp only [MovePoint.step] at run
    split at run
    · cases run
      refine ⟨reflects.rehold (mine held) ?_, trivial, .inr (.inr held)⟩
      rw [reflects.holder, held]
      simp
    · cases run
      exact ⟨reflects.mono (kept rfl), held, .inl rfl⟩
  | readRecipient fromBalance =>
    have held : shared.holder = some id := early
    simp only [MovePoint.step] at run
    split at run
    · cases run
      refine ⟨reflects.rehold (mine held) ?_, trivial, .inr (.inr held)⟩
      rw [reflects.holder, held]
      simp
    · cases run
      exact absurd trivial open'
  | rollbackTransaction error =>
    cases run
    obtain ⟨stored, _, cache⟩ := stored_rollback (harmless error rfl)
    exact ⟨reflects.reslot (kept rfl) stored rfl cache rfl rfl rfl reflects.slot, trivial, .inl rfl⟩
  | returned result => cases run
  | _ => exact early.elim

variable {index : Nat}

theorem handed_kept (handed : Handed index shared next) {other : Nat} (different : index ≠ other)
    (held : shared.holder = some other) : next.holder = some other := by
  rcases handed with same | free | mine
  · exact same.trans held
  · rw [held] at free
    cases free
  · rw [held] at mine
    exact absurd (Option.some.inj mine).symm different

theorem early_kept {holds holds' : Prop} (early : Early holds point) (kept : holds → holds') : Early holds' point := by
  cases point with
  | readSender => exact kept early
  | readRecipient fromBalance => exact kept early
  | returned result =>
    cases result with
    | ok value => exact early
    | error error => trivial
  | _ => exact early

theorem early_quiet {holds : Prop} (early : Early holds point) (account : AccountAddress) :
    ¬ Task.Unsettles account (.move movement point) := by
  cases point with
  | writeRecipient fromBalance toBalance newToBalance => exact early.elim
  | updateCache fromBalance newToBalance => exact early.elim
  | _ => exact fun impossible => impossible

theorem plain_kept {holder holder' : Option Nat} {entry entry' : AccountAddress → Prop} {task : Task}
    (plain : Plain holder index entry task) (kept : holder = some index → holder' = some index)
    (grows : ∀ account, entry account → entry' account) : Plain holder' index entry' task := by
  cases task with
  | adjust adjustment point =>
    cases point with
    | write current newBalance => exact grows _ plain
    | update newBalance => exact grows _ plain
    | _ => exact plain
  | move movement point =>
    obtain ⟨standard, known⟩ := plain
    refine ⟨standard, ?_⟩
    cases point with
    | readSender => exact kept known
    | readRecipient fromBalance => exact kept known
    | writeSender fromBalance toBalance newToBalance => exact kept known
    | writeRecipient fromBalance toBalance newToBalance => exact kept known
    | updateCache fromBalance newToBalance => exact kept known
    | _ => exact known

variable {world nextWorld without final : World} {turn : Nat × Int}

theorem mirror_own (mirrors : Mirrors id movement world without slot) (isolated : Isolated id slot world turn)
    (own : turn.1 = id) (step : world.step blake3 turn = some nextWorld)
    (open' : ∀ point, nextWorld.tasks[id]? = some (.move movement point) → ¬ Late point) :
    Mirrors id movement nextWorld without slot := by
  obtain ⟨point, found, early⟩ := mirrors.mine
  obtain ⟨task, listed, later, shared, stepped, rfl⟩ := (step_eq_some blake3).mp step
  rw [own] at listed stepped ⊢
  cases found.symm.trans listed
  obtain ⟨inside, _⟩ := List.getElem?_eq_some_iff.mp found
  simp only [Task.step, Option.map_eq_some_iff] at stepped
  obtain ⟨⟨after, shared'⟩, stepped, same⟩ := stepped
  cases same
  have here : (world.tasks.set id (.move movement after))[id]? = some (.move movement after) :=
    List.getElem?_set_self inside
  have elsewhere (index : Nat) (different : index ≠ id) :
      (world.tasks.set id (.move movement after))[index]? = world.tasks[index]? :=
    List.getElem?_set_ne different.symm
  obtain ⟨reflects, early', handed⟩ := @own_mirrored blake3 _ _ _ _ _ _ _ _ _ _
    (Unsettled (world.tasks.set id (.move movement after)) shared'.holder) early mirrors.reflects
    (fun free account pending => by
      obtain ⟨holder, holding, held, _⟩ := pending
      rw [free] at held
      cases held)
    (fun held account pending => by
      obtain ⟨holder, holding, held', listed, unsettles⟩ := pending
      rw [held] at held'
      cases held'
      cases found.symm.trans listed
      exact early_quiet early account unsettles)
    (fun same account pending => by
      rw [same]
      exact unsettled_kept found (early_quiet early account) pending)
    (fun error rollback => (isolated.rollback movement error (by rw [own, found, rollback])).1)
    (fun balance reading => isolated.insert movement balance own (by rw [own, found, reading]))
    stepped (open' after (by rw [own]; exact here))
  refine ⟨reflects, ?_, ?_, after, here, early'⟩
  · intro index different
    rw [elsewhere index different]
    exact mirrors.others index different
  · intro index task different listed
    rw [elsewhere index different] at listed
    exact plain_kept (mirrors.plain index task different listed) (handed_kept handed different.symm) fun _ kept => kept

theorem mirror_other (mirrors : Mirrors id movement world without slot) (isolated : Isolated id slot world turn)
    (different : turn.1 ≠ id) (step : world.step blake3 turn = some nextWorld) :
    ∃ turns without', (∀ turn ∈ turns, turn.1 ≠ id) ∧ without.run blake3 turns = some without' ∧
      Mirrors id movement nextWorld without' (nextSlot id slot world turn) := by
  obtain ⟨task, found, after, shared, stepped, rfl⟩ := (step_eq_some blake3).mp step
  obtain ⟨inside, _⟩ := List.getElem?_eq_some_iff.mp found
  have found' : without.tasks[turn.1]? = some task := (mirrors.others turn.1 different).trans found
  obtain ⟨inside', _⟩ := List.getElem?_eq_some_iff.mp found'
  have settled : world.shared.holder = none → ∀ account, ¬ Unsettled world.tasks world.shared.holder account := by
    rintro free account ⟨holder, holding, held, _⟩
    rw [free] at held
    cases held
  have plain := mirrors.plain turn.1 task different found
  have mirrored : ∃ other', Mirrored blake3 id turn.1 task after world.shared shared without.shared other'
      (slotAfter world.shared.stored slot task) (Unsettled (world.tasks.set turn.1 after) shared.holder) := by
    cases task with
    | adjust adjustment point =>
      simp only [Task.step, Option.map_eq_some_iff] at stepped
      obtain ⟨⟨reached, shared'⟩, stepped, same⟩ := stepped
      cases same
      obtain ⟨other', mirrored, holder⟩ := @adjust_mirrored blake3 _ _ _ turn.1 _ _ _ _ _ _ _
        mirrors.reflects settled plain stepped
      refine ⟨other', mirrored.steps, mirrored.reflects.mono fun account pending => ?_, mirrored.plain, mirrored.grows,
        mirrored.handed⟩
      have holder : shared'.holder = world.shared.holder := holder
      rw [holder]
      exact unsettled_kept found (fun impossible => impossible) pending
    | move other point =>
      simp only [Task.step, Option.map_eq_some_iff] at stepped
      obtain ⟨⟨reached, shared'⟩, stepped, same⟩ := stepped
      cases same
      refine move_mirrored different mirrors.reflects plain settled ?_ ?_ ?_ ?_ stepped
      · rintro held account ⟨holder, holding, held', listed, unsettles⟩
        rw [held] at held'
        cases held'
        cases found.symm.trans listed
        exact unsettles
      · intro error rollback
        have both := isolated.rollback other error (by rw [found, rollback])
        exact ⟨both.1, both.2 different⟩
      · intro held account unsettles
        exact ⟨turn.1, _, held, List.getElem?_set_self inside, unsettles⟩
      · intro same quiet account pending
        rw [same]
        exact unsettled_kept found (quiet account) pending
  obtain ⟨other', mirrored⟩ := mirrored
  obtain ⟨turns, mine, run⟩ := run_of_steps mirrored.steps found'
  have slot_eq : nextSlot id slot world turn = slotAfter world.shared.stored slot task := by
    unfold nextSlot
    rw [if_neg different, found]
  refine ⟨turns, ⟨other', without.tasks.set turn.1 after⟩, ?_, run, ?_, ?_, ?_, ?_⟩
  · intro other listed
    rw [mine other listed]
    exact different
  · rw [slot_eq]
    exact mirrored.reflects
  · intro index other
    show (without.tasks.set turn.1 after)[index]? = (world.tasks.set turn.1 after)[index]?
    by_cases same : turn.1 = index
    · rw [← same, List.getElem?_set_self inside', List.getElem?_set_self inside]
    · rw [List.getElem?_set_ne same, List.getElem?_set_ne same]
      exact mirrors.others index other
  · intro index other different' listed
    have listed : (world.tasks.set turn.1 after)[index]? = some other := listed
    by_cases same : turn.1 = index
    · rw [← same, List.getElem?_set_self inside] at listed
      cases listed
      rw [← same]
      exact mirrored.plain
    · rw [List.getElem?_set_ne same] at listed
      exact plain_kept (mirrors.plain index other different' listed) (handed_kept mirrored.handed same)
        fun account present => mirrored.grows account present
  · obtain ⟨point, mine, early⟩ := mirrors.mine
    refine ⟨point, ?_, early_kept early (handed_kept mirrored.handed different)⟩
    show (world.tasks.set turn.1 after)[id]? = _
    rw [List.getElem?_set_ne different]
    exact mine

theorem step_point (found : world.tasks[index]? = some (.move movement point))
    (step : world.step blake3 turn = some nextWorld) :
    ∃ after, nextWorld.tasks[index]? = some (.move movement after) ∧ (Late point → Late after) := by
  obtain ⟨task, listed, later, shared, stepped, rfl⟩ := (step_eq_some blake3).mp step
  obtain ⟨inside, _⟩ := List.getElem?_eq_some_iff.mp listed
  by_cases own : turn.1 = index
  · rw [own] at listed inside stepped ⊢
    cases found.symm.trans listed
    simp only [Task.step, Option.map_eq_some_iff] at stepped
    obtain ⟨⟨after, shared'⟩, stepped, same⟩ := stepped
    cases same
    exact ⟨after, List.getElem?_set_self inside, fun late => late_step blake3 late stepped⟩
  · refine ⟨point, ?_, fun late => late⟩
    show (world.tasks.set turn.1 later)[index]? = _
    rw [List.getElem?_set_ne own]
    exact found

theorem late_run (schedule : List (Nat × Int)) (found : world.tasks[index]? = some (.move movement point))
    (late : Late point) (run : world.run blake3 schedule = some final) :
    ∃ after, final.tasks[index]? = some (.move movement after) ∧ Late after := by
  induction schedule generalizing world point with
  | nil =>
    cases run
    exact ⟨point, found, late⟩
  | cons turn schedule ih =>
    rw [run_cons, Option.bind_eq_some_iff] at run
    obtain ⟨next, step, run⟩ := run
    obtain ⟨after, found', later⟩ := step_point blake3 found step
    exact ih found' (later late) run

theorem late_succeeds (found : final.tasks[index]? = some (.move movement point)) (late : Late point)
    (failed : ∃ task, final.tasks[index]? = some task ∧ task.result = some false) : False := by
  obtain ⟨task, listed, result⟩ := failed
  cases found.symm.trans listed
  cases point with
  | returned outcome =>
    cases outcome with
    | ok value => cases result
    | error error => exact late
  | _ => cases result

theorem mirror_run (schedule : List (Nat × Int)) (mirrors : Mirrors id movement world without slot)
    (run : world.run blake3 schedule = some final) (isolated : IsolatedRun blake3 id slot world schedule)
    (failed : ∃ task, final.tasks[id]? = some task ∧ task.result = some false) :
    ∃ alone without', (∀ turn ∈ alone, turn.1 ≠ id) ∧ without.run blake3 alone = some without' ∧
      ∃ slot', Mirrors id movement final without' slot' := by
  induction schedule generalizing world without slot with
  | nil =>
    cases run
    exact ⟨[], without, fun turn listed => absurd listed List.not_mem_nil, rfl, slot, mirrors⟩
  | cons turn schedule ih =>
    rw [run_cons, Option.bind_eq_some_iff] at run
    obtain ⟨next, step, run⟩ := run
    obtain ⟨here, later⟩ := isolated
    have open' : ∀ point, next.tasks[id]? = some (.move movement point) → ¬ Late point := by
      intro point found late
      obtain ⟨after, found', late'⟩ := late_run blake3 schedule found late run
      exact late_succeeds found' late' failed
    by_cases own : turn.1 = id
    · have mirrors' := mirror_own blake3 mirrors here own step open'
      have rest := later next step
      unfold nextSlot at rest
      rw [if_pos own] at rest
      exact ih mirrors' run rest
    · obtain ⟨turns, middle, others, run', mirrors'⟩ := mirror_other blake3 mirrors here own step
      obtain ⟨alone, without', others', run'', slot', final'⟩ := ih mirrors' run (later next step)
      refine ⟨turns ++ alone, without', ?_, ?_, slot', final'⟩
      · intro turn listed
        rcases List.mem_append.mp listed with first | second
        · exact others turn first
        · exact others' turn second
      · unfold World.run at run' run'' ⊢
        rw [List.foldlM_append, run']
        exact run''

end

def Task.IsTransfer (task : Task) : Prop :=
  (∃ sender recipient amount, task = Task.transfer sender recipient amount) ∨
    ∃ sender recipient amount nonce, task = Task.processMessageTransfer sender recipient amount nonce

theorem isTransfer_start {task : Task} (transfer : Task.IsTransfer task) :
    ∃ movement point, task = .move movement point ∧ ∀ holds, Early holds point ∨ Late point := by
  rcases transfer with ⟨sender, recipient, amount, rfl⟩ | ⟨sender, recipient, amount, nonce, rfl⟩
  · refine ⟨_, _, rfl, fun holds => ?_⟩
    split
    · exact .inr trivial
    · split
      · exact .inl trivial
      · exact .inl trivial
  · unfold Task.processMessageTransfer
    split
    · refine ⟨_, _, rfl, fun holds => ?_⟩
      split
      · exact .inl trivial
      · split
        · exact .inl trivial
        · exact .inl trivial
    · exact ⟨_, _, rfl, fun holds => .inl trivial⟩

theorem plain_start (index : Nat) (entry : AccountAddress → Prop) (call : LedgerCall) :
    Plain none index entry (Task.start call) := by
  cases call with
  | credit address amount =>
    show Plain none index entry (Task.credit address amount)
    unfold Task.credit
    split
    · trivial
    · trivial
  | debit address amount =>
    show Plain none index entry (Task.debit address amount)
    unfold Task.debit
    split
    · trivial
    · trivial
  | transfer sender recipient amount =>
    show Plain none index entry (Task.transfer sender recipient amount)
    unfold Task.transfer
    refine ⟨rfl, ?_⟩
    by_cases zero : amount = AdicAmount.zero
    · rw [if_pos zero]
      trivial
    · rw [if_neg zero]
      by_cases same : sender = recipient
      · rw [if_pos same]
        trivial
      · rw [if_neg same]
        trivial

theorem mirrors_start {tasks : List Task} (manager : BalanceManager MemoryStorage) {id : Nat} {movement : Movement}
    {point : MovePoint} (listed : tasks[id]? = some (.move movement point)) (early : ∀ holds, Early holds point)
    (others : ∀ index task, index ≠ id → tasks[index]? = some task → ∃ call, task = Task.start call) :
    Mirrors id movement (World.start manager tasks) (World.start manager tasks) (slotBalances ⟨manager, none⟩) where
  reflects := ⟨rfl, rfl, rfl, fun _ => .inl rfl⟩
  others _ _ := rfl
  plain index task different found := by
    obtain ⟨call, rfl⟩ := others index task different found
    exact plain_start index _ call
  mine := ⟨point, listed, early _⟩

/-- A transfer that fails in an isolated run leaves the balances of the other calls. -/
theorem rollback_isolated (blake3 : List UInt8 → Bytes32) (manager : BalanceManager MemoryStorage) (tasks : List Task)
    (id : Nat) (transfer : Task) (isTransfer : Task.IsTransfer transfer) (listed : tasks[id]? = some transfer)
    (others : ∀ index task, index ≠ id → tasks[index]? = some task → ∃ call, task = Task.start call)
    (schedule : List (Nat × Int)) (final : World) (run : (World.start manager tasks).run blake3 schedule = some final)
    (failed : ∃ task, final.tasks[id]? = some task ∧ task.result = some false)
    (isolated : IsolatedRun blake3 id (slotBalances ⟨manager, none⟩) (World.start manager tasks) schedule) :
    ∃ alone without, (∀ turn ∈ alone, turn.1 ≠ id) ∧ (World.start manager tasks).run blake3 alone = some without ∧
      without.shared.stored = final.shared.stored ∧
      ∀ index, index ≠ id → without.tasks[index]? = final.tasks[index]? := by
  obtain ⟨movement, point, rfl, ready⟩ := isTransfer_start isTransfer
  have early (holds : Prop) : Early holds point := by
    rcases ready holds with early | late
    · exact early
    · obtain ⟨after, found, late'⟩ := late_run blake3 schedule listed late run
      exact (late_succeeds found late' failed).elim
  obtain ⟨alone, without, mine, run', slot, mirrors⟩ :=
    mirror_run blake3 schedule (mirrors_start manager listed early others) run isolated failed
  exact ⟨alone, without, mine, run', mirrors.reflects.stored, mirrors.others⟩

def Task.Quiet : Task → Prop
  | .adjust _ _ => True
  | .move _ (.rollbackTransaction _) => False
  | .move _ (.getBalance (.insert _)) => False
  | .move _ _ => True

theorem isolated_quiet {world : World} {turn : Nat × Int} {task : Task} {id : Nat}
    {slot : Option (AccountAddress → AdicAmount)} (found : world.tasks[turn.1]? = some task) (quiet : Task.Quiet task) :
    Isolated id slot world turn where
  rollback movement error listed := by
    cases found.symm.trans listed
    exact quiet.elim
  insert movement balance _ listed := by
    cases found.symm.trans listed
    exact quiet.elim

theorem isolatedRun_adjust {blake3 : List UInt8 → Bytes32} {world : World} {id : Nat}
    {slot : Option (AccountAddress → AdicAmount)} {adjustment : Adjustment} {point : AdjustPoint} (index : Nat)
    (schedule : List (Nat × Int)) (only : ∀ turn ∈ schedule, turn.1 = index)
    (found : world.tasks[index]? = some (.adjust adjustment point)) : IsolatedRun blake3 id slot world schedule := by
  induction schedule generalizing world slot point with
  | nil => trivial
  | cons turn schedule ih =>
    have here : world.tasks[turn.1]? = some (.adjust adjustment point) := by
      rw [only turn List.mem_cons_self]
      exact found
    refine ⟨isolated_quiet here trivial, fun next step => ?_⟩
    obtain ⟨task, listed, after, shared, stepped, rfl⟩ := (step_eq_some blake3).mp step
    obtain ⟨inside, _⟩ := List.getElem?_eq_some_iff.mp here
    cases here.symm.trans listed
    simp only [Task.step, Option.map_eq_some_iff] at stepped
    obtain ⟨⟨reached, shared'⟩, stepped, same⟩ := stepped
    cases same
    refine @ih _ _ reached (fun turn listed => only turn (List.mem_cons_of_mem _ listed)) ?_
    rw [← only turn List.mem_cons_self]
    exact List.getElem?_set_self inside

def poorTransfer : List Task := [Task.transfer (account 1) (account 2) ⟨100⟩, Task.start (.credit (account 3) ⟨5⟩)]

theorem poorTransfer_others (index : Nat) (task : Task) (different : index ≠ 0)
    (found : poorTransfer[index]? = some task) :
    ∃ call, task = Task.start call := by
  match index with
  | 0 => exact absurd rfl different
  | 1 =>
    cases found
    exact ⟨_, rfl⟩
  | index + 2 => cases found

/-- The transfer fails before the credit starts. -/
theorem rollback_isolated_poor : ∃ alone without, (∀ turn ∈ alone, turn.1 ≠ 0) ∧
    (World.start (BalanceManager.new .new) poorTransfer).run zeroHash alone = some without ∧
      without.shared.stored (account 3) = ⟨5⟩ := by
  let world := World.start (BalanceManager.new .new) poorTransfer
  let schedule : List (Nat × Int) := [(0, 0), (0, 0), (0, 0), (0, 0), (1, 0), (1, 0), (1, 0), (1, 0), (1, 0)]
  have isolated : IsolatedRun zeroHash 0 (slotBalances ⟨BalanceManager.new .new, none⟩) world schedule := by
    refine ⟨isolated_quiet rfl trivial, fun next step => ?_⟩
    cases step
    refine ⟨isolated_quiet rfl trivial, fun next step => ?_⟩
    cases step
    refine ⟨isolated_quiet rfl trivial, fun next step => ?_⟩
    cases step
    refine ⟨⟨fun movement error found => ⟨?_, fun other => absurd rfl other⟩, fun movement balance own found => ?_⟩,
      fun next step => ?_⟩
    · intro balances kept
      cases kept
      rfl
    · cases found
    cases step
    refine isolatedRun_adjust 1 _ (by simp) rfl
  obtain ⟨alone, without, mine, run, stored, _⟩ := rollback_isolated zeroHash (BalanceManager.new .new) poorTransfer 0 _
    (.inl ⟨account 1, account 2, ⟨100⟩, rfl⟩) rfl poorTransfer_others schedule _ rfl ⟨_, rfl, rfl⟩ isolated
  exact ⟨alone, without, mine, run, (congrFun stored (account 3)).trans (by decide)⟩

def CreditAlone (shared : Shared) : AdjustPoint → Prop
  | .getBalance .lookup => shared.stored (account 3) = AdicAmount.zero ∧ shared.cached (account 3) = none
  | .getBalance .load => shared.stored (account 3) = AdicAmount.zero
  | .getBalance (.insert balance) => balance = AdicAmount.zero
  | .write _ newBalance => newBalance = ⟨5⟩
  | .update _ => shared.stored (account 3) = ⟨5⟩
  | .returned _ => shared.stored (account 3) = ⟨5⟩

theorem creditAlone_step {shared next : Shared} {point after : AdjustPoint} {now : Int}
    (alone : CreditAlone shared point)
    (step : point.step now (.credit (account 3) ⟨5⟩) shared = some (after, next)) : CreditAlone next after := by
  cases point with
  | getBalance reading =>
    cases reading with
    | lookup =>
      simp only [AdjustPoint.step, Reading.step] at step
      split at step
      · cases step
      rw [show shared.cached (Adjustment.credit (account 3) ⟨5⟩).address = none from alone.2] at step
      cases step
      exact alone.1
    | load =>
      cases step
      exact alone
    | insert balance =>
      have zero : balance = AdicAmount.zero := alone
      simp only [AdjustPoint.step, Reading.step] at step
      split at step
      · cases step
      rw [zero] at step
      cases step
      rfl
  | write current newBalance =>
    have five : newBalance = ⟨5⟩ := alone
    cases step
    show (shared.perform (BalanceManager.onStorage (MemoryStorage.setBalance (account 3) newBalance))).stored (account 3) =
      ⟨5⟩
    rw [stored_setBalance, Function.update_self, five]
  | update newBalance =>
    simp only [AdjustPoint.step] at step
    split at step
    · cases step
    cases step
    have same := (@stored_of_storage shared _
      (storage_of_touches (touches_updateCache now newBalance (.credit (account 3) ⟨5⟩)))).1
    exact (congrFun same (account 3)).trans alone
  | returned result => cases step

theorem creditAlone_run {world final : World} (schedule : List (Nat × Int)) (others : ∀ turn ∈ schedule, turn.1 ≠ 0)
    (alone : ∃ first point, world.tasks = [first, .adjust (.credit (account 3) ⟨5⟩) point] ∧
      CreditAlone world.shared point)
    (run : world.run zeroHash schedule = some final) :
    ∃ first point, final.tasks = [first, .adjust (.credit (account 3) ⟨5⟩) point] ∧ CreditAlone final.shared point := by
  induction schedule generalizing world with
  | nil =>
    cases run
    exact alone
  | cons turn schedule ih =>
    rw [run_cons, Option.bind_eq_some_iff] at run
    obtain ⟨next, step, run⟩ := run
    refine ih (fun turn listed => others turn (List.mem_cons_of_mem _ listed)) ?_ run
    obtain ⟨first, point, tasks, alone⟩ := alone
    obtain ⟨task, found, after, shared, stepped, rfl⟩ := (step_eq_some zeroHash).mp step
    have second : turn.1 = 1 := by
      have inside := (List.getElem?_eq_some_iff.mp found).1
      have different := others turn List.mem_cons_self
      rw [tasks, List.length_cons, List.length_cons, List.length_nil] at inside
      omega
    rw [second] at found stepped ⊢
    rw [tasks] at found ⊢
    cases found
    simp only [Task.step, Option.map_eq_some_iff] at stepped
    obtain ⟨⟨reached, shared'⟩, stepped, same⟩ := stepped
    cases same
    exact ⟨first, reached, rfl, creditAlone_step alone stepped⟩

/-- The transfer begins, the credit runs and returns, and the transfer then fails. -/
theorem credit_rolled_back :
    (∃ final, (World.start (BalanceManager.new .new) poorTransfer).run zeroHash
        [(0, 0), (1, 0), (1, 0), (1, 0), (1, 0), (1, 0), (0, 0), (0, 0), (0, 0)] = some final ∧
      final.tasks.map Task.result = [some false, some true] ∧ final.shared.stored (account 3) = AdicAmount.zero) ∧
    ∀ alone without, (∀ turn ∈ alone, turn.1 ≠ 0) →
      (World.start (BalanceManager.new .new) poorTransfer).run zeroHash alone = some without →
        (∃ task, without.tasks[1]? = some task ∧ task.result.isSome = true) →
          without.shared.stored (account 3) = ⟨5⟩ := by
  refine ⟨⟨_, rfl, by decide, by decide⟩, fun alone without others run returned => ?_⟩
  obtain ⟨first, point, tasks, credited⟩ := creditAlone_run alone others
    ⟨_, .getBalance .lookup, rfl, rfl, rfl⟩ run
  obtain ⟨task, found, returned⟩ := returned
  rw [tasks] at found
  cases found
  cases point with
  | returned result => exact credited
  | _ => cases returned

end AdicProof.Economics
