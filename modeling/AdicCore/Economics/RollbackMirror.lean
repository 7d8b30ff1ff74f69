import AdicCore.Economics.Serializability

open AdicModel AdicModel.Economics Calls

namespace AdicProof.Economics

def slotBalances (shared : Shared) : Option (AccountAddress → AdicAmount) :=
  shared.manager.storage.transactionBackup.map fun backup => fun address =>
    (backup.1.lookup address).getD AdicAmount.zero

def Harmless (slot : Option (AccountAddress → AdicAmount)) (shared : Shared) : Prop :=
  ∀ balances, slot = some balances → balances = shared.stored

def Task.Unsettles (address : AccountAddress) : Task → Prop
  | .move movement (.writeRecipient _ _ _) => movement.sender = address
  | .move movement (.updateCache _ _) => movement.sender = address ∨ movement.recipient = address
  | _ => False

def Unsettled (tasks : List Task) (holder : Option Nat) (address : AccountAddress) : Prop :=
  ∃ index task, holder = some index ∧ tasks[index]? = some task ∧ Task.Unsettles address task

structure Reflects (id : Nat) (shared other : Shared) (slot : Option (AccountAddress → AdicAmount))
    (unsettled : AccountAddress → Prop) : Prop where
  stored : other.stored = shared.stored
  slot : slotBalances other = slot
  holder : other.holder = if shared.holder = some id then none else shared.holder
  cached : ∀ address, cachedBalance other address = cachedBalance shared address ∨
    cachedBalance other address = none ∧
      (cachedBalance shared address = some (shared.stored address) ∨ unsettled address)

def Plain (holder : Option Nat) (index : Nat) (entry : AccountAddress → Prop) : Task → Prop
  | .adjust adjustment (.write _ _) => entry adjustment.address
  | .adjust adjustment (.update _) => entry adjustment.address
  | .adjust _ _ => True
  | .move movement point => movement.nonce = none ∧
    match point with
    | .beginTransaction => True
    | .lockCache => True
    | .readSender => holder = some index
    | .readRecipient _ => holder = some index
    | .writeSender _ _ _ => holder = some index
    | .writeRecipient _ _ _ => holder = some index
    | .updateCache _ _ => holder = some index
    | .commitTransaction _ => True
    | .recordTransaction _ => True
    | .rollbackTransaction _ => True
    | .returned _ => True
    | _ => False

inductive Steps (blake3 : List UInt8 → Bytes32) (index : Nat) : Shared → Task → Shared → Task → Prop
  | none {shared : Shared} {task : Task} : Steps blake3 index shared task shared task
  | one {shared middle last : Shared} {task next after : Task} (now : Int)
    (first : task.step blake3 now index shared = some (next, middle))
    (rest : Steps blake3 index middle next last after) :
    Steps blake3 index shared task last after

section

variable {blake3 : List UInt8 → Bytes32} {shared next other last : Shared} {task after : Task} {tasks : List Task}
  {address : AccountAddress} {amount : AdicAmount} {index id : Nat} {now : Int}
  {slot slot' : Option (AccountAddress → AdicAmount)} {unsettled unsettled' : AccountAddress → Prop}

theorem Steps.single (step : task.step blake3 now index shared = some (after, next)) :
    Steps blake3 index shared task next after := .one now step .none

theorem run_of_steps (steps : Steps blake3 index shared task last after) (found : tasks[index]? = some task) :
    ∃ turns : List (Nat × Int), (∀ turn ∈ turns, turn.1 = index) ∧
      World.run blake3 ⟨shared, tasks⟩ turns = some ⟨last, tasks.set index after⟩ := by
  induction steps generalizing tasks with
  | none =>
    refine ⟨[], fun turn listed => absurd listed List.not_mem_nil, ?_⟩
    obtain ⟨inside, here⟩ := List.getElem?_eq_some_iff.mp found
    rw [← here, List.set_getElem_self]
    rfl
  | @one shared middle last task next after now first rest ih =>
    obtain ⟨inside, _⟩ := List.getElem?_eq_some_iff.mp found
    obtain ⟨turns, mine, run⟩ := @ih (tasks.set index next) (List.getElem?_set_self inside)
    refine ⟨(index, now) :: turns, ?_, ?_⟩
    · intro turn listed
      rcases List.mem_cons.mp listed with rfl | later
      · rfl
      · exact mine turn later
    · have stepped : World.step blake3 ⟨shared, tasks⟩ (index, now) = some ⟨middle, tasks.set index next⟩ :=
        (step_eq_some blake3).mpr ⟨task, found, next, middle, first, rfl⟩
      rw [run_cons, stepped, Option.bind_some, run, List.set_set]

theorem unsettled_kept (found : tasks[index]? = some task) (quiet : ¬ Task.Unsettles address task)
    (kept : Unsettled tasks shared.holder address) : Unsettled (tasks.set index after) shared.holder address := by
  obtain ⟨holder, holding, held, listed, unsettles⟩ := kept
  refine ⟨holder, holding, held, ?_, unsettles⟩
  have different : index ≠ holder := by
    rintro rfl
    rw [found] at listed
    cases listed
    exact quiet unsettles
  rw [List.getElem?_set_ne different]
  exact listed

theorem cachedBalance_insert (info : AccountInfo) :
    cachedBalance (shared.perform (BalanceManager.cacheInsert address info)) =
      Function.update (cachedBalance shared) address (some info.balance) := by
  funext other
  unfold cachedBalance
  have looked : (shared.perform (BalanceManager.cacheInsert address info)).cached other =
      (shared.manager.cache.insert address info).lookup other := rfl
  rw [looked, HashMap.lookup_insert_eq]
  by_cases same : other = address
  · rw [if_pos same, same, Function.update_self]
    rfl
  · rw [if_neg same, Function.update_of_ne same]
    rfl

theorem perform_get {next : BalanceManager MemoryStorage → Call (BalanceManager MemoryStorage) Unit} :
    shared.perform (MonadState.get >>= next) = shared.perform (next shared.manager) := rfl

theorem cachedBalance_cacheBalance (now : Int) :
    cachedBalance (shared.perform (BalanceManager.cacheBalance now address amount)) =
      Function.update (cachedBalance shared) address (some amount) := by
  unfold BalanceManager.cacheBalance
  rw [perform_get]
  cases shared.manager.cache.lookup address with
  | some info => exact cachedBalance_insert _
  | none => exact cachedBalance_insert _

theorem cachedBalance_updateCache {adjustment : Adjustment}
    (entry : cachedBalance shared adjustment.address ≠ none) :
    cachedBalance (shared.perform (adjustment.updateCache now amount)) =
      Function.update (cachedBalance shared) adjustment.address (some amount) := by
  cases adjustment with
  | credit address credited => exact cachedBalance_cacheBalance now
  | debit address debited =>
    simp only [Adjustment.updateCache, perform_get]
    cases found : shared.manager.cache.lookup address with
    | some info => exact cachedBalance_insert _
    | none =>
      refine absurd ?_ entry
      show (shared.manager.cache.lookup address).map AccountInfo.balance = none
      rw [found]
      rfl

theorem storage_of_touches {call : Call (BalanceManager MemoryStorage) Unit} (touches : Touches address call) :
    (shared.perform call).manager.storage = shared.manager.storage := by
  obtain ⟨cache, run, _⟩ := touches shared.manager
  simp only [Shared.perform, stateAfter, run]

theorem stored_of_storage (same : next.manager.storage = shared.manager.storage) :
    next.stored = shared.stored ∧ slotBalances next = slotBalances shared := by
  constructor
  · funext address
    unfold Shared.stored
    rw [same]
  · unfold slotBalances
    rw [same]

end

section

variable {blake3 : List UInt8 → Bytes32} {shared next other shared' other' : Shared} {address : AccountAddress}
  {amount balance : AdicAmount} {index id : Nat} {now : Int} {slot : Option (AccountAddress → AdicAmount)}
  {unsettled unsettled' : AccountAddress → Prop}

section

variable (reflects : Reflects id shared other slot unsettled)

include reflects

theorem Reflects.free (free : ¬ shared.holder.isSome = true) : ¬ other.holder.isSome = true := by
  have none := holder_of_not_isSome free
  rw [reflects.holder, none]
  simp

theorem Reflects.mono (implies : ∀ address, unsettled address → unsettled' address) :
    Reflects id shared other slot unsettled' where
  stored := reflects.stored
  slot := reflects.slot
  holder := reflects.holder
  cached address := (reflects.cached address).imp_right fun cached =>
    ⟨cached.1, cached.2.imp_right (implies address)⟩

theorem Reflects.update (storage : shared'.manager.storage = shared.manager.storage)
    (storage' : other'.manager.storage = other.manager.storage) (holder : shared'.holder = shared.holder)
    (holder' : other'.holder = other.holder)
    (cached : cachedBalance shared' = Function.update (cachedBalance shared) address (some amount))
    (cached' : cachedBalance other' = Function.update (cachedBalance other) address (some amount)) :
    Reflects id shared' other' slot unsettled where
  stored := by rw [(stored_of_storage storage').1, (stored_of_storage storage).1, reflects.stored]
  slot := by rw [(stored_of_storage storage').2, reflects.slot]
  holder := by rw [holder', reflects.holder, holder]
  cached := by
    intro account
    rw [cached, cached', (stored_of_storage storage).1]
    by_cases same : account = address
    · rw [same, Function.update_self, Function.update_self]
      exact .inl rfl
    · rw [Function.update_of_ne same, Function.update_of_ne same]
      exact reflects.cached account

theorem Reflects.fill (storage : other'.manager.storage = other.manager.storage) (holder : other'.holder = other.holder)
    (found : cachedBalance shared address = some amount)
    (cached : cachedBalance other' = Function.update (cachedBalance other) address (some amount)) :
    Reflects id shared other' slot unsettled where
  stored := by rw [(stored_of_storage storage).1, reflects.stored]
  slot := by rw [(stored_of_storage storage).2, reflects.slot]
  holder := by rw [holder, reflects.holder]
  cached := by
    intro account
    rw [cached]
    by_cases same : account = address
    · rw [same, Function.update_self, found]
      exact .inl rfl
    · rw [Function.update_of_ne same]
      exact reflects.cached account

theorem Reflects.store (implies : ∀ account, unsettled account → unsettled' account)
    (known : cachedBalance other address = none → unsettled' address) :
    Reflects id (shared.perform (BalanceManager.onStorage (MemoryStorage.setBalance address amount)))
      (other.perform (BalanceManager.onStorage (MemoryStorage.setBalance address amount))) slot unsettled' where
  stored := by rw [stored_setBalance, stored_setBalance, reflects.stored]
  slot := reflects.slot
  holder := reflects.holder
  cached := by
    intro account
    rw [stored_setBalance]
    rcases reflects.cached account with same | ⟨missing, known'⟩
    · exact .inl same
    · refine .inr ⟨missing, ?_⟩
      by_cases same : account = address
      · rw [same] at missing ⊢
        exact .inr (known missing)
      · rw [Function.update_of_ne same]
        exact known'.imp_right (implies account)

end

def afterReading (adjustment : Adjustment) : Reading ⊕ AdicAmount → AdjustPoint
  | .inl reading => .getBalance reading
  | .inr current => .afterBalance adjustment current

theorem step_reading {reading : Reading} {out : Reading ⊕ AdicAmount} {adjustment : Adjustment}
    (step : reading.step now adjustment.address shared = some (out, next)) :
    (AdjustPoint.getBalance reading).step now adjustment shared = some (afterReading adjustment out, next) := by
  simp only [AdjustPoint.step, step, Option.map_some]
  cases out with
  | inl reading => rfl
  | inr current => rfl

theorem reading_mirrored {reading : Reading} {out : Reading ⊕ AdicAmount} (adjustment : Adjustment)
    (reflects : Reflects id shared other slot unsettled)
    (settled : shared.holder = none → ∀ account, ¬ unsettled account)
    (run : reading.step now adjustment.address shared = some (out, next)) :
    ∃ other', Reflects id next other' slot unsettled ∧ next.holder = shared.holder ∧
      (∀ account, cachedBalance other account ≠ none → cachedBalance other' account ≠ none) ∧
      Steps blake3 index other (.adjust adjustment (.getBalance reading)) other'
        (.adjust adjustment (afterReading adjustment out)) ∧
      ∀ current, out = .inr current → cachedBalance other' adjustment.address ≠ none := by
  have single {later : Reading ⊕ AdicAmount} {reached : Shared}
      (step : reading.step now adjustment.address other = some (later, reached)) :
      Steps blake3 index other (.adjust adjustment (.getBalance reading)) reached
        (.adjust adjustment (afterReading adjustment later)) := by
    apply @Steps.single _ _ _ _ _ _ now
    simp only [Task.step, step_reading step, Option.map_some]
  have inserted (state : Shared) (info : AccountInfo) (account : AccountAddress)
      (present : cachedBalance state account ≠ none) :
      cachedBalance (state.perform (BalanceManager.cacheInsert adjustment.address info)) account ≠ none := by
    rw [cachedBalance_insert]
    by_cases same : account = adjustment.address
    · rw [same, Function.update_self]
      exact Option.some_ne_none _
    · rw [Function.update_of_ne same]
      exact present
  cases reading with
  | lookup =>
    simp only [Reading.step] at run
    split at run
    · cases run
    next free =>
    have free' := reflects.free free
    cases found : shared.cached adjustment.address with
    | some info =>
      rw [found] at run
      cases run
      have balance : cachedBalance shared adjustment.address = some info.balance := by
        show (shared.cached adjustment.address).map AccountInfo.balance = _
        rw [found]
        rfl
      cases found' : other.cached adjustment.address with
      | some info' =>
        have balance' : cachedBalance other adjustment.address = some info'.balance := by
          show (other.cached adjustment.address).map AccountInfo.balance = _
          rw [found']
          rfl
        rcases reflects.cached adjustment.address with same | ⟨missing, _⟩
        · rw [balance, balance'] at same
          refine ⟨other, reflects, rfl, fun account present => present, ?_, fun current _ => ?_⟩
          · have step : Reading.lookup.step now adjustment.address other = some (.inr info.balance, other) := by
              simp only [Reading.step, if_neg free', found', Option.some.inj same]
            exact single step
          · rw [balance']
            exact Option.some_ne_none _
        · rw [balance'] at missing
          cases missing
      | none =>
        have balance' : cachedBalance other adjustment.address = none := by
          show (other.cached adjustment.address).map AccountInfo.balance = _
          rw [found']
          rfl
        have current : info.balance = other.stored adjustment.address := by
          rcases reflects.cached adjustment.address with same | ⟨_, coherent | pending⟩
          · rw [balance, balance'] at same
            cases same
          · rw [balance] at coherent
            rw [reflects.stored]
            exact Option.some.inj coherent
          · exact absurd pending (settled (holder_of_not_isSome free) _)
        let loaded := other.perform (BalanceManager.cacheInsert adjustment.address
          ⟨adjustment.address, other.stored adjustment.address, 0, AdicAmount.zero, now⟩)
        refine ⟨loaded, ?_, rfl, inserted other _, ?_, fun _ _ => ?_⟩
        · refine reflects.fill rfl rfl balance ?_
          rw [current]
          exact cachedBalance_insert _
        · have look : Task.step blake3 now index other (.adjust adjustment (.getBalance .lookup)) =
              some (.adjust adjustment (.getBalance .load), other) := by
            simp only [Task.step, AdjustPoint.step, Reading.step, if_neg free', found', Option.map_some]
          have load : Task.step blake3 now index other (.adjust adjustment (.getBalance .load)) =
              some (.adjust adjustment (.getBalance (.insert (other.stored adjustment.address))), other) := rfl
          have insert : Task.step blake3 now index other
              (.adjust adjustment (.getBalance (.insert (other.stored adjustment.address)))) =
              some (.adjust adjustment (.afterBalance adjustment info.balance), loaded) := by
            simp only [Task.step, AdjustPoint.step, Reading.step, if_neg free', Option.map_some, current]
            rfl
          exact .one now look (.one now load (.one now insert .none))
        · show cachedBalance (other.perform _) adjustment.address ≠ none
          rw [cachedBalance_insert, Function.update_self]
          exact Option.some_ne_none _
    | none =>
      rw [found] at run
      cases run
      have missing : other.cached adjustment.address = none := by
        have absent : cachedBalance shared adjustment.address = none := by
          show (shared.cached adjustment.address).map AccountInfo.balance = _
          rw [found]
          rfl
        have absent' : cachedBalance other adjustment.address = none := by
          rcases reflects.cached adjustment.address with same | ⟨missing, _⟩
          · exact same.trans absent
          · exact missing
        exact Option.map_eq_none_iff.mp absent'
      have step : Reading.lookup.step now adjustment.address other = some (.inl .load, other) := by
        simp only [Reading.step, if_neg free', missing]
      exact ⟨other, reflects, rfl, fun account present => present, single step, fun current out => by cases out⟩
  | load =>
    cases run
    have step : Reading.load.step now adjustment.address other =
        some (.inl (.insert (shared.stored adjustment.address)), other) := by
      simp only [Reading.step, reflects.stored]
    exact ⟨other, reflects, rfl, fun account present => present, single step, fun current out => by cases out⟩
  | insert balance =>
    simp only [Reading.step] at run
    split at run
    · cases run
    next free =>
    cases run
    have step : (Reading.insert balance).step now adjustment.address other = some (.inr balance, other.perform
        (BalanceManager.cacheInsert adjustment.address ⟨adjustment.address, balance, 0, AdicAmount.zero, now⟩)) := by
      simp only [Reading.step, if_neg (reflects.free free)]
    refine ⟨other.perform (BalanceManager.cacheInsert adjustment.address
      ⟨adjustment.address, balance, 0, AdicAmount.zero, now⟩), ?_, rfl, inserted other _, single step, fun _ _ => ?_⟩
    · exact reflects.update rfl rfl rfl rfl (cachedBalance_insert _) (cachedBalance_insert _)
    rw [cachedBalance_insert, Function.update_self]
    exact Option.some_ne_none _

theorem update_ne_none {entry : AccountAddress → Option AdicAmount} {account : AccountAddress}
    (present : entry account ≠ none) : Function.update entry address (some amount) account ≠ none := by
  by_cases same : account = address
  · rw [same, Function.update_self]
    exact Option.some_ne_none _
  · rw [Function.update_of_ne same]
    exact present

structure Mirrored (blake3 : List UInt8 → Bytes32) (id index : Nat) (task after : Task)
    (shared next other other' : Shared) (slot' : Option (AccountAddress → AdicAmount))
    (unsettled' : AccountAddress → Prop) : Prop where
  steps : Steps blake3 index other task other' after
  reflects : Reflects id next other' slot' unsettled'
  plain : Plain next.holder index (fun account => cachedBalance other' account ≠ none) after
  grows : ∀ account, cachedBalance other account ≠ none → cachedBalance other' account ≠ none
  handed : Handed index shared next

theorem adjust_mirrored {adjustment : Adjustment} {point after : AdjustPoint}
    (reflects : Reflects id shared other slot unsettled)
    (settled : shared.holder = none → ∀ account, ¬ unsettled account)
    (plain : Plain shared.holder index (fun account => cachedBalance other account ≠ none) (.adjust adjustment point))
    (run : point.step now adjustment shared = some (after, next)) :
    ∃ other', Mirrored blake3 id index (.adjust adjustment point) (.adjust adjustment after) shared next other other'
      slot unsettled ∧ next.holder = shared.holder := by
  have single {later : AdjustPoint} {reached : Shared}
      (step : point.step now adjustment other = some (later, reached)) :
      Steps blake3 index other (.adjust adjustment point) reached (.adjust adjustment later) := by
    apply @Steps.single _ _ _ _ _ _ now
    simp only [Task.step, step, Option.map_some]
  cases point with
  | getBalance reading =>
    cases read : reading.step now adjustment.address shared with
    | none =>
      simp only [AdjustPoint.step, read, Option.map_none] at run
      cases run
    | some reached =>
      obtain ⟨out, reached⟩ := reached
      rw [step_reading read] at run
      cases run
      obtain ⟨other', reflects', holder, grows, steps, entry⟩ :=
        @reading_mirrored blake3 _ _ _ index _ _ _ _ _ _ adjustment reflects settled read
      refine ⟨other', ⟨steps, reflects', ?_, grows, .inl holder⟩, holder⟩
      cases out with
      | inl reading => trivial
      | inr current =>
        show Plain _ _ _ (.adjust adjustment (.afterBalance adjustment current))
        unfold AdjustPoint.afterBalance
        cases adjustment.newBalance current with
        | ok newBalance => exact entry current rfl
        | error error => trivial
  | write current newBalance =>
    cases run
    refine ⟨_, ⟨single rfl, ?_, plain, fun account present => present, .inl rfl⟩, rfl⟩
    exact reflects.store (fun account pending => pending) fun missing => absurd missing plain
  | update newBalance =>
    simp only [AdjustPoint.step] at run
    split at run
    · cases run
    next free =>
    cases run
    have present : cachedBalance other adjustment.address ≠ none := plain
    have entry : cachedBalance shared adjustment.address ≠ none := by
      rcases reflects.cached adjustment.address with same | ⟨missing, _⟩
      · rw [← same]
        exact present
      · exact absurd missing present
    have step : (AdjustPoint.update newBalance).step now adjustment other =
        some (.returned (.ok ()), other.perform (adjustment.updateCache now newBalance)) := by
      simp only [AdjustPoint.step, if_neg (reflects.free free)]
    refine ⟨other.perform (adjustment.updateCache now newBalance), ⟨single step, ?_, trivial, ?_, .inl rfl⟩, rfl⟩
    · exact reflects.update (storage_of_touches (touches_updateCache now newBalance adjustment))
        (storage_of_touches (touches_updateCache now newBalance adjustment)) rfl rfl (cachedBalance_updateCache entry)
        (cachedBalance_updateCache present)
    · intro account kept
      rw [cachedBalance_updateCache present]
      exact update_ne_none kept
  | returned result => cases run

def slotAfter (stored : AccountAddress → AdicAmount) (slot : Option (AccountAddress → AdicAmount)) :
    Task → Option (AccountAddress → AdicAmount)
  | .move _ .beginTransaction => some stored
  | .move _ (.commitTransaction _) => none
  | .move _ (.rollbackTransaction _) => none
  | _ => slot

theorem perform_onStorage {call : Call MemoryStorage Unit} :
    shared.perform (BalanceManager.onStorage call) =
      { shared with manager := { shared.manager with storage := stateAfter call shared.manager.storage } } := by
  unfold Shared.perform stateAfter BalanceManager.onStorage
  cases call shared.manager.storage with
  | ok value storage => rfl
  | error error storage => rfl

theorem rollback_none {storage : MemoryStorage} (backup : storage.transactionBackup = none) :
    stateAfter MemoryStorage.rollbackTransaction storage = storage := by
  simp only [MemoryStorage.rollbackTransaction, stateAfter, modify, modifyGet, MonadStateOf.modifyGet,
    EStateM.modifyGet, backup]

theorem rollback_some {storage : MemoryStorage} {kept : BalanceMap × BalanceMap}
    (backup : storage.transactionBackup = some kept) :
    stateAfter MemoryStorage.rollbackTransaction storage =
      { storage with balances := kept.1, lockedBalances := kept.2, transactionBackup := none } := by
  simp only [MemoryStorage.rollbackTransaction, stateAfter, modify, modifyGet, MonadStateOf.modifyGet,
    EStateM.modifyGet, backup]

theorem stored_rollback (harmless : Harmless (slotBalances shared) shared) :
    (shared.perform (BalanceManager.onStorage MemoryStorage.rollbackTransaction)).stored = shared.stored ∧
      slotBalances (shared.perform (BalanceManager.onStorage MemoryStorage.rollbackTransaction)) = none ∧
      (shared.perform (BalanceManager.onStorage MemoryStorage.rollbackTransaction)).manager.cache =
        shared.manager.cache := by
  unfold Harmless slotBalances at harmless
  cases backup : shared.manager.storage.transactionBackup with
  | none =>
    have run : shared.perform (BalanceManager.onStorage MemoryStorage.rollbackTransaction) = shared := by
      rw [perform_onStorage, rollback_none backup]
    rw [run]
    refine ⟨rfl, ?_, rfl⟩
    unfold slotBalances
    rw [backup]
    rfl
  | some kept =>
    rw [perform_onStorage, rollback_some backup]
    refine ⟨?_, rfl, rfl⟩
    rw [backup] at harmless
    exact harmless _ rfl

theorem Reflects.rehold {holder holder' : Option Nat} (reflects : Reflects id shared other slot unsettled)
    (settled : ∀ account, ¬ unsettled account) (held : holder' = if holder = some id then none else holder) :
    Reflects id { shared with holder := holder } { other with holder := holder' } slot unsettled' where
  stored := reflects.stored
  slot := reflects.slot
  holder := held
  cached account := (reflects.cached account).imp_right fun cached =>
    ⟨cached.1, cached.2.imp_right fun pending => absurd pending (settled account)⟩

theorem Reflects.reslot {slot' : Option (AccountAddress → AdicAmount)}
    (reflects : Reflects id shared other slot unsettled)
    (implies : ∀ account, unsettled account → unsettled' account)
    (stored : shared'.stored = shared.stored) (stored' : other'.stored = other.stored)
    (cache : shared'.manager.cache = shared.manager.cache) (cache' : other'.manager.cache = other.manager.cache)
    (holder : shared'.holder = shared.holder) (holder' : other'.holder = other.holder)
    (isSlot : slotBalances other' = slot') : Reflects id shared' other' slot' unsettled' where
  stored := by rw [stored, stored', reflects.stored]
  slot := isSlot
  holder := by rw [holder, holder', reflects.holder]
  cached := by
    have same : cachedBalance shared' = cachedBalance shared := by
      unfold cachedBalance Shared.cached
      rw [cache]
    have same' : cachedBalance other' = cachedBalance other := by
      unfold cachedBalance Shared.cached
      rw [cache']
    rw [same, same', stored]
    exact (reflects.mono implies).cached

theorem move_mirrored {movement : Movement} {point after : MovePoint} (different : index ≠ id)
    (reflects : Reflects id shared other slot unsettled)
    (plain : Plain shared.holder index (fun account => cachedBalance other account ≠ none) (.move movement point))
    (settled : shared.holder = none → ∀ account, ¬ unsettled account)
    (mine : shared.holder = some index → ∀ account, unsettled account → Task.Unsettles account (.move movement point))
    (harmless : ∀ error, point = .rollbackTransaction error →
      Harmless (slotBalances shared) shared ∧ Harmless slot shared)
    (mine' : next.holder = some index → ∀ account, Task.Unsettles account (.move movement after) → unsettled' account)
    (kept : next.holder = shared.holder → (∀ account, ¬ Task.Unsettles account (.move movement point)) →
      ∀ account, unsettled account → unsettled' account)
    (run : point.step blake3 now index movement shared = some (after, next)) :
    ∃ other', Mirrored blake3 id index (.move movement point) (.move movement after) shared next other other'
      (slotAfter shared.stored slot (.move movement point)) unsettled' := by
  have single {later : MovePoint} {reached : Shared}
      (step : point.step blake3 now index movement other = some (later, reached)) :
      Steps blake3 index other (.move movement point) reached (.move movement later) := by
    apply @Steps.single _ _ _ _ _ _ now
    simp only [Task.step, step, Option.map_some]
  have quiet : (∀ account, ¬ Task.Unsettles account (.move movement point)) → shared.holder = some index →
      ∀ account, ¬ unsettled account :=
    fun nothing held account pending => nothing account (mine held account pending)
  obtain ⟨standard, known⟩ := plain
  cases point with
  | beginTransaction =>
    cases run
    refine ⟨other.perform (BalanceManager.onStorage MemoryStorage.beginTransaction),
      single rfl, ?_, ⟨standard, trivial⟩, fun account present => present, .inl rfl⟩
    refine reflects.reslot (kept rfl fun _ impossible => impossible) rfl rfl rfl rfl rfl rfl ?_
    show some other.stored = some shared.stored
    rw [reflects.stored]
  | lockCache =>
    simp only [MovePoint.step] at run
    split at run
    · cases run
    next free =>
    cases run
    have step : MovePoint.lockCache.step blake3 now index movement other = some (.readSender, other.lock index) := by
      simp only [MovePoint.step, if_neg (reflects.free free)]
    refine ⟨other.lock index, single step, ?_, ⟨standard, rfl⟩, fun account present => present,
      .inr (.inl (holder_of_not_isSome free))⟩
    refine reflects.rehold (settled (holder_of_not_isSome free)) ?_
    rw [if_neg fun same => different (Option.some.inj same)]
  | readSender =>
    have held : shared.holder = some index := known
    have nothing := quiet (fun _ impossible => impossible) held
    simp only [MovePoint.step] at run
    split at run
    · next short =>
      cases run
      refine ⟨other.unlock, single ?_, reflects.rehold nothing rfl, ⟨standard, trivial⟩, fun account present => present,
        .inr (.inr held)⟩
      simp only [MovePoint.step, reflects.stored, if_pos short]
    · next enough =>
      cases run
      refine ⟨other, single ?_, reflects.mono fun account pending => absurd pending (nothing account), ⟨standard, held⟩,
        fun account present => present, .inl rfl⟩
      simp only [MovePoint.step, reflects.stored, if_neg enough]
  | readRecipient fromBalance =>
    have held : shared.holder = some index := known
    have nothing := quiet (fun _ impossible => impossible) held
    simp only [MovePoint.step] at run
    split at run
    · next exceeds =>
      cases run
      refine ⟨other.unlock, single ?_, reflects.rehold nothing rfl, ⟨standard, trivial⟩, fun account present => present,
        .inr (.inr held)⟩
      simp only [MovePoint.step, reflects.stored, exceeds]
    · next newToBalance sum =>
      cases run
      refine ⟨other, single ?_, reflects.mono fun account pending => absurd pending (nothing account), ⟨standard, held⟩,
        fun account present => present, .inl rfl⟩
      simp only [MovePoint.step, reflects.stored, sum]
  | writeSender fromBalance toBalance newToBalance =>
    have held : shared.holder = some index := known
    cases run
    refine ⟨_, single rfl, ?_, ⟨standard, held⟩, fun account present => present, .inl rfl⟩
    exact reflects.store (kept rfl fun _ impossible => impossible) fun _ => mine' held _ rfl
  | writeRecipient fromBalance toBalance newToBalance =>
    have held : shared.holder = some index := known
    cases run
    refine ⟨_, single rfl, ?_, ⟨standard, held⟩, fun account present => present, .inl rfl⟩
    exact reflects.store (fun account pending => mine' held account (.inl (mine held account pending)))
      fun _ => mine' held _ (.inr rfl)
  | updateCache fromBalance newToBalance =>
    have held : shared.holder = some index := known
    have plainly : MovePoint.afterTransfer movement (MovePoint.txHash blake3 now movement) =
        .commitTransaction (MovePoint.txHash blake3 now movement) := by
      unfold MovePoint.afterTransfer
      rw [standard]
    simp only [MovePoint.step, plainly] at run
    cases run
    have step : (MovePoint.updateCache fromBalance newToBalance).step blake3 now index movement other =
        some (.commitTransaction (MovePoint.txHash blake3 now movement),
          ((other.perform (BalanceManager.cacheBalance now movement.sender
            (fromBalance.saturatingSub movement.amount))).perform
            (BalanceManager.cacheBalance now movement.recipient newToBalance)).unlock) := by
      simp only [MovePoint.step, plainly]
    have first := reflects.update (storage_of_touches (touches_cacheBalance now))
      (storage_of_touches (touches_cacheBalance now)) rfl rfl
      (@cachedBalance_cacheBalance _ movement.sender (fromBalance.saturatingSub movement.amount) now)
      (@cachedBalance_cacheBalance _ movement.sender (fromBalance.saturatingSub movement.amount) now)
    have second := first.update (storage_of_touches (touches_cacheBalance now))
      (storage_of_touches (touches_cacheBalance now)) rfl rfl
      (@cachedBalance_cacheBalance _ movement.recipient newToBalance now)
      (@cachedBalance_cacheBalance _ movement.recipient newToBalance now)
    have grows : ∀ account, cachedBalance other account ≠ none →
        cachedBalance ((other.perform (BalanceManager.cacheBalance now movement.sender
          (fromBalance.saturatingSub movement.amount))).perform
            (BalanceManager.cacheBalance now movement.recipient newToBalance)) account ≠ none := by
      intro account present
      rw [cachedBalance_cacheBalance, cachedBalance_cacheBalance]
      exact update_ne_none (update_ne_none present)
    refine ⟨_, single step, ⟨second.stored, second.slot, rfl, fun account => ?_⟩, ⟨standard, trivial⟩, grows,
      .inr (.inr held)⟩
    rcases second.cached account with same | ⟨missing, known⟩
    · exact .inl same
    · refine .inr ⟨missing, known.imp_right fun pending => absurd missing ?_⟩
      show cachedBalance ((other.perform (BalanceManager.cacheBalance now movement.sender
        (fromBalance.saturatingSub movement.amount))).perform
          (BalanceManager.cacheBalance now movement.recipient newToBalance)) account ≠ none
      rw [cachedBalance_cacheBalance, cachedBalance_cacheBalance]
      rcases mine held account pending with rfl | rfl
      · apply update_ne_none
        rw [Function.update_self]
        exact Option.some_ne_none _
      · rw [Function.update_self]
        exact Option.some_ne_none _
  | commitTransaction txHash =>
    cases run
    refine ⟨other.perform (BalanceManager.onStorage MemoryStorage.commitTransaction), single rfl, ?_,
      ⟨standard, trivial⟩, fun account present => present, .inl rfl⟩
    exact reflects.reslot (kept rfl fun _ impossible => impossible) rfl rfl rfl rfl rfl rfl rfl
  | recordTransaction txHash =>
    cases run
    refine ⟨_, single rfl, ?_, ⟨standard, trivial⟩, fun account present => present, .inl rfl⟩
    exact reflects.reslot (kept rfl fun _ impossible => impossible) rfl rfl rfl rfl rfl rfl reflects.slot
  | rollbackTransaction error =>
    cases run
    obtain ⟨here, there⟩ := harmless error rfl
    have without : Harmless (slotBalances other) other := by
      intro balances kept
      rw [reflects.slot] at kept
      rw [reflects.stored]
      exact there balances kept
    obtain ⟨stored, _, cache⟩ := stored_rollback here
    obtain ⟨stored', slot', cache'⟩ := stored_rollback without
    refine ⟨other.perform (BalanceManager.onStorage MemoryStorage.rollbackTransaction), single rfl, ?_,
      ⟨standard, trivial⟩, ?_, .inl rfl⟩
    · exact reflects.reslot (kept rfl fun _ impossible => impossible) stored stored' cache cache' rfl rfl slot'
    · intro account present
      unfold cachedBalance Shared.cached at present ⊢
      rw [cache']
      exact present
  | returned result => cases run
  | getBalance reading => exact known.elim
  | readNonce => exact known.elim
  | loadNonce => exact known.elim
  | cacheNonce nonce => exact known.elim
  | incrementNonce txHash => exact known.elim
  | storeNonce txHash nonce => exact known.elim
  | loadOldNonce txHash => exact known.elim
  | storeNewNonce txHash nonce => exact known.elim
  | insertSender txHash nonce => exact known.elim

end

end AdicProof.Economics
