import AdicCore.Economics.SerialLedger

open AdicModel AdicModel.Economics Calls

namespace AdicProof.Economics

def Touches (address : AccountAddress) (call : Call (BalanceManager MemoryStorage) Unit) : Prop :=
  ∀ manager, ∃ cache, call manager = .ok () ⟨manager.storage, cache⟩ ∧
    ∀ other, other ≠ address → cache.lookup other = manager.cache.lookup other

section

variable {shared : Shared} {address : AccountAddress} {amount : AdicAmount}

theorem touches_cacheInsert (info : AccountInfo) : Touches address (BalanceManager.cacheInsert address info) :=
  fun _ => ⟨_, rfl, fun _ different => AList.lookup_insert_ne different⟩

theorem touches_get {next : BalanceManager MemoryStorage → Call (BalanceManager MemoryStorage) Unit}
    (touches : ∀ manager, Touches address (next manager)) : Touches address (MonadState.get >>= next) :=
  fun manager => touches manager manager

theorem touches_pure : Touches address (pure ()) := fun manager => ⟨manager.cache, rfl, fun _ _ => rfl⟩

theorem touches_cacheBalance (now : Int) : Touches address (BalanceManager.cacheBalance now address amount) := by
  unfold BalanceManager.cacheBalance
  apply touches_get
  intro manager
  cases manager.cache.lookup address with
  | some info => exact touches_cacheInsert _
  | none => exact touches_cacheInsert _

theorem touches_updateCache (now : Int) (newBalance : AdicAmount) (adjustment : Adjustment) :
    Touches adjustment.address (adjustment.updateCache now newBalance) := by
  cases adjustment with
  | credit address amount => exact touches_cacheBalance now
  | debit address amount =>
    apply touches_get
    intro manager
    dsimp only [Adjustment.address]
    cases manager.cache.lookup address with
    | some info => exact touches_cacheInsert _
    | none => exact touches_pure

theorem perform_touches {call : Call (BalanceManager MemoryStorage) Unit} (touches : Touches address call) :
    (shared.perform call).stored = shared.stored ∧
      ∀ other, other ≠ address → (shared.perform call).cached other = shared.cached other := by
  rcases touches shared.manager with ⟨cache, run, others⟩
  have after : shared.perform call = ⟨⟨shared.manager.storage, cache⟩, shared.holder⟩ := by
    simp only [Shared.perform, stateAfter, run]
  rw [after]
  exact ⟨rfl, others⟩

theorem stored_setBalance :
    (shared.perform (BalanceManager.onStorage (MemoryStorage.setBalance address amount))).stored =
      Function.update shared.stored address amount :=
  HashMap.getD_store shared.manager.storage.balances address amount AdicAmount.zero

def cachedBalance (shared : Shared) (address : AccountAddress) : Option AdicAmount :=
  (shared.cached address).map AccountInfo.balance

end

/-- The shared balances are those of the view, and what is cached otherwise is what is read. -/
structure Shows (shared : Shared) (view : View) : Prop where
  stored : shared.stored = view.stored
  cached : ∀ address, ¬ view.Coherent address → cachedBalance shared address = some (view.read address)

def Movement.Moves (movement : Movement) : Prop :=
  movement.nonce = none ∧ movement.amount ≠ AdicAmount.zero ∧ movement.sender ≠ movement.recipient

def AdjustOk (view : View) (adjustment : Adjustment) : AdjustPoint → Prop
  | .getBalance reading =>
    adjustment.amount ≠ AdicAmount.zero ∧ (reading = .lookup ∨ view.Coherent adjustment.address)
  | .write current newBalance => adjustment.amount ≠ AdicAmount.zero ∧ adjustment.newBalance current = .ok newBalance ∧
    (current = view.read adjustment.address ∨ view.Coherent adjustment.address)
  | .update _ => view.Coherent adjustment.address
  | .returned _ => True

def MoveOk (view : View) (holds : Prop) (movement : Movement) : MovePoint → Prop
  | .beginTransaction => Movement.Moves movement
  | .lockCache => Movement.Moves movement
  | .readSender => Movement.Moves movement ∧ holds
  | .readRecipient fromBalance => Movement.Moves movement ∧ ¬ fromBalance < movement.amount ∧ holds
  | .writeSender fromBalance toBalance newToBalance => Movement.Moves movement ∧ ¬ fromBalance < movement.amount ∧
    toBalance.checkedAdd movement.amount = some newToBalance ∧ holds
  | .writeRecipient fromBalance toBalance newToBalance => Movement.Moves movement ∧ ¬ fromBalance < movement.amount ∧
    toBalance.checkedAdd movement.amount = some newToBalance ∧ holds ∧ view.Coherent movement.sender
  | .updateCache _ _ =>
    movement.nonce = none ∧ view.Coherent movement.sender ∧ view.Coherent movement.recipient ∧ holds
  | .commitTransaction _ => True
  | .recordTransaction _ => True
  | .rollbackTransaction _ => True
  | .returned _ => True
  | _ => False

def TaskOk (view : View) (holder : Option Nat) (id : Nat) : Task → Prop
  | .adjust adjustment point => AdjustOk view adjustment point
  | .move movement point => MoveOk view (holder = some id) movement point

def Adjustment.call : Adjustment → LedgerCall
  | .credit address amount => .credit address amount
  | .debit address amount => .debit address amount

namespace Task

def call : Task → LedgerCall
  | .adjust adjustment _ => Adjustment.call adjustment
  | .move movement _ => .transfer movement.sender movement.recipient movement.amount

def settled : Task → Bool
  | .adjust _ (.update _) => true
  | .adjust _ (.returned (.ok _)) => true
  | .move _ (.updateCache _ _) => true
  | .move _ (.commitTransaction _) => true
  | .move _ (.recordTransaction _) => true
  | .move _ (.returned (.ok _)) => true
  | _ => false

def halfway : Task → Bool
  | .move _ (.writeRecipient _ _ _) => true
  | _ => false

def failing : Task → Bool
  | .adjust _ (.returned (.error _)) => true
  | .move _ (.rollbackTransaction _) => true
  | .move _ (.returned (.error _)) => true
  | _ => false

def UpToDate (shared : Shared) : Task → Prop
  | .adjust adjustment (.write current _) => shared.stored adjustment.address = current
  | .move movement (.writeSender fromBalance _ _) => shared.stored movement.sender = fromBalance
  | .move movement (.writeRecipient _ toBalance _) => shared.stored movement.recipient = toBalance
  | _ => True

end Task

inductive Progress (view : View) : Task → Task → View → Prop
  | quiet {task next : Task} (call : Task.call next = Task.call task) (settled : Task.settled next = Task.settled task)
    (before : Task.halfway task = false) (after : Task.halfway next = false) : Progress view task next view
  | adjusted (adjustment : Adjustment) (current newBalance : AdicAmount) (positive : adjustment.amount ≠ AdicAmount.zero)
    (isNew : adjustment.newBalance (view.read adjustment.address) = .ok newBalance) :
    Progress view (.adjust adjustment (.write current newBalance)) (.adjust adjustment (.update newBalance))
      (view.write adjustment.address newBalance)
  | sent (movement : Movement) (toBalance newToBalance : AdicAmount) (moves : Movement.Moves movement)
    (enough : ¬ view.stored movement.sender < movement.amount) :
    Progress view (.move movement (.writeSender (view.stored movement.sender) toBalance newToBalance))
      (.move movement (.writeRecipient (view.stored movement.sender) toBalance newToBalance))
      (view.write movement.sender ((view.stored movement.sender).saturatingSub movement.amount))
  | received (movement : Movement) (fromBalance newToBalance : AdicAmount) (moves : Movement.Moves movement)
    (sum : (view.stored movement.recipient).checkedAdd movement.amount = some newToBalance) :
    Progress view (.move movement (.writeRecipient fromBalance (view.stored movement.recipient) newToBalance))
      (.move movement (.updateCache fromBalance newToBalance)) (view.write movement.recipient newToBalance)

section

variable {shared next : Shared} {view : View} {address : AccountAddress} {now : Int} {id : Nat}

theorem Shows.touched (shows : Shows shared view) {call : Call (BalanceManager MemoryStorage) Unit}
    (touches : Touches address call) (coherent : view.Coherent address) : Shows (shared.perform call) view := by
  rcases @perform_touches shared _ _ touches with ⟨stored, others⟩
  refine ⟨stored.trans shows.stored, fun other incoherent => ?_⟩
  have different : other ≠ address := by
    rintro rfl
    exact incoherent coherent
  unfold cachedBalance
  rw [others other different]
  exact shows.cached other incoherent

theorem Shows.stores (shows : Shows shared view) (amount : AdicAmount) :
    Shows (shared.perform (BalanceManager.onStorage (MemoryStorage.setBalance address amount)))
      (view.write address amount) := by
  refine ⟨?_, fun other incoherent => ?_⟩
  · rw [stored_setBalance, shows.stored]
    rfl
  · have different : other ≠ address := by
      rintro rfl
      exact incoherent View.coherent_write_self
    rw [View.write_read_of_ne different]
    exact shows.cached other fun coherent => incoherent (View.coherent_write coherent)

theorem reading_step {reading : Reading} (shows : Shows shared view) (ok : reading = .lookup ∨ view.Coherent address)
    {out : Reading ⊕ AdicAmount} (run : reading.step now address shared = some (out, next)) :
    Shows next view ∧ next.holder = shared.holder ∧
      match out with
      | .inl _ => view.Coherent address
      | .inr current => current = view.read address ∨ view.Coherent address := by
  cases reading with
  | lookup =>
    simp only [Reading.step] at run
    split at run
    · cases run
    · cases found : shared.cached address with
      | some info =>
        rw [found] at run
        cases run
        refine ⟨shows, rfl, ?_⟩
        by_cases coherent : view.Coherent address
        · exact .inr coherent
        · have cached := shows.cached address coherent
          unfold cachedBalance at cached
          rw [found] at cached
          exact .inl (Option.some.inj cached)
      | none =>
        rw [found] at run
        cases run
        refine ⟨shows, rfl, ?_⟩
        by_contra incoherent
        have cached := shows.cached address incoherent
        unfold cachedBalance at cached
        rw [found] at cached
        cases cached
  | load =>
    cases run
    exact ⟨shows, rfl, ok.resolve_left Reading.noConfusion⟩
  | insert balance =>
    have coherent := ok.resolve_left Reading.noConfusion
    simp only [Reading.step] at run
    split at run
    · cases run
    · cases run
      exact ⟨shows.touched (touches_cacheInsert _) coherent, rfl, .inr coherent⟩

theorem afterBalance_ok {adjustment : Adjustment} {current : AdicAmount} (positive : adjustment.amount ≠ AdicAmount.zero)
    (known : current = view.read adjustment.address ∨ view.Coherent adjustment.address) :
    AdjustOk view adjustment (.afterBalance adjustment current) := by
  unfold AdjustPoint.afterBalance
  cases isNew : adjustment.newBalance current with
  | ok newBalance => exact ⟨positive, isNew, known⟩
  | error error => trivial

theorem adjust_step {adjustment : Adjustment} {point after : AdjustPoint} (shows : Shows shared view)
    (ok : AdjustOk view adjustment point) (run : point.step now adjustment shared = some (after, next))
    (upToDate : Task.UpToDate shared (.adjust adjustment point))
    (succeeds : Task.failing (.adjust adjustment after) = false) :
    ∃ view', Progress view (.adjust adjustment point) (.adjust adjustment after) view' ∧ AdjustOk view' adjustment after ∧
      Shows next view' ∧ next.holder = shared.holder := by
  cases point with
  | getBalance reading =>
    rcases ok with ⟨positive, known⟩
    simp only [AdjustPoint.step, Option.map_eq_some_iff] at run
    rcases run with ⟨⟨out, reached⟩, read, same⟩
    rcases reading_step shows known read with ⟨shows', holder, result⟩
    cases out with
    | inl reading =>
      cases same
      exact ⟨view, .quiet rfl rfl rfl rfl, ⟨positive, .inr result⟩, shows', holder⟩
    | inr current =>
      cases same
      refine ⟨view, .quiet rfl ?_ rfl rfl, afterBalance_ok positive result, shows', holder⟩
      unfold AdjustPoint.afterBalance at succeeds ⊢
      cases isNew : adjustment.newBalance current with
      | ok newBalance => rfl
      | error error =>
        rw [isNew] at succeeds
        cases succeeds
  | write current newBalance =>
    rcases ok with ⟨positive, isNew, known⟩
    have upToDate : shared.stored adjustment.address = current := upToDate
    rw [shows.stored] at upToDate
    have read : view.read adjustment.address = current := by
      rcases known with same | coherent
      · exact same.symm
      · exact coherent.trans upToDate
    cases run
    rw [← read] at isNew
    exact ⟨_, .adjusted adjustment current newBalance positive isNew, View.coherent_write_self, shows.stores newBalance,
      rfl⟩
  | update newBalance =>
    simp only [AdjustPoint.step] at run
    split at run
    · cases run
    · cases run
      exact ⟨view, .quiet rfl rfl rfl rfl, trivial, shows.touched (touches_updateCache now newBalance adjustment) ok, rfl⟩
  | returned result => cases run

def Handed (id : Nat) (shared next : Shared) : Prop :=
  next.holder = shared.holder ∨ shared.holder = none ∨ shared.holder = some id

theorem holder_of_not_isSome (free : ¬ shared.holder.isSome = true) : shared.holder = none :=
  Option.not_isSome_iff_eq_none.mp free

theorem move_step (blake3 : List UInt8 → Bytes32) {movement : Movement} {point after : MovePoint}
    (shows : Shows shared view) (ok : MoveOk view (shared.holder = some id) movement point)
    (run : point.step blake3 now id movement shared = some (after, next))
    (upToDate : Task.UpToDate shared (.move movement point)) (succeeds : Task.failing (.move movement after) = false) :
    ∃ view', Progress view (.move movement point) (.move movement after) view' ∧
      MoveOk view' (next.holder = some id) movement after ∧ Shows next view' ∧ Handed id shared next := by
  cases point with
  | beginTransaction =>
    cases run
    exact ⟨view, .quiet rfl rfl rfl rfl, ok, ⟨shows.stored, shows.cached⟩, .inl rfl⟩
  | lockCache =>
    simp only [MovePoint.step] at run
    split at run
    · cases run
    · next free =>
      cases run
      exact ⟨view, .quiet rfl rfl rfl rfl, ⟨ok, rfl⟩, ⟨shows.stored, shows.cached⟩, .inr (.inl (holder_of_not_isSome free))⟩
  | readSender =>
    rcases ok with ⟨moves, held⟩
    simp only [MovePoint.step] at run
    split at run
    · cases run
      cases succeeds
    · next enough =>
      cases run
      exact ⟨view, .quiet rfl rfl rfl rfl, ⟨moves, enough, held⟩, shows, .inl rfl⟩
  | readRecipient fromBalance =>
    rcases ok with ⟨moves, enough, held⟩
    simp only [MovePoint.step] at run
    split at run
    · cases run
      cases succeeds
    · next newToBalance sum =>
      cases run
      exact ⟨view, .quiet rfl rfl rfl rfl, ⟨moves, enough, sum, held⟩, shows, .inl rfl⟩
  | writeSender fromBalance toBalance newToBalance =>
    rcases ok with ⟨moves, enough, sum, held⟩
    have upToDate : shared.stored movement.sender = fromBalance := upToDate
    rw [shows.stored] at upToDate
    subst upToDate
    cases run
    exact ⟨_, .sent movement toBalance newToBalance moves enough,
      ⟨moves, enough, sum, held, View.coherent_write_self⟩, shows.stores _, .inl rfl⟩
  | writeRecipient fromBalance toBalance newToBalance =>
    rcases ok with ⟨moves, enough, sum, held, sent⟩
    have upToDate : shared.stored movement.recipient = toBalance := upToDate
    rw [shows.stored] at upToDate
    subst upToDate
    cases run
    exact ⟨_, .received movement fromBalance newToBalance moves sum,
      ⟨moves.1, View.coherent_write sent, View.coherent_write_self, held⟩, shows.stores _, .inl rfl⟩
  | updateCache fromBalance newToBalance =>
    rcases ok with ⟨standard, sender, recipient, held⟩
    simp only [MovePoint.step, MovePoint.afterTransfer, standard] at run
    cases run
    have first := shows.touched (@touches_cacheBalance _ (fromBalance.saturatingSub movement.amount) now) sender
    have second := first.touched (@touches_cacheBalance _ newToBalance now) recipient
    exact ⟨view, .quiet rfl rfl rfl rfl, trivial, ⟨second.stored, second.cached⟩, .inr (.inr held)⟩
  | commitTransaction txHash | recordTransaction txHash =>
    cases run
    exact ⟨view, .quiet rfl rfl rfl rfl, trivial, ⟨shows.stored, shows.cached⟩, .inl rfl⟩
  | rollbackTransaction error =>
    cases run
    cases succeeds
  | returned result => cases run
  | getBalance reading => exact ok.elim
  | readNonce => exact ok.elim
  | loadNonce => exact ok.elim
  | cacheNonce nonce => exact ok.elim
  | incrementNonce txHash => exact ok.elim
  | storeNonce txHash nonce => exact ok.elim
  | loadOldNonce txHash => exact ok.elim
  | storeNewNonce txHash nonce => exact ok.elim
  | insertSender txHash nonce => exact ok.elim

end

end AdicProof.Economics
