import AdicCore.Library.Runs
import AdicCore.Economics.Operations

open AdicModel AdicModel.Economics Calls

namespace AdicProof.Economics

namespace Books

def CoherentAt (books : Books) (address : AccountAddress) : Prop :=
  ∀ entry, books.cache address = some entry →
    entry.balance = books.accounts.balance address ∧ entry.locked = books.accounts.locked address ∧
      entry.nonce = books.accounts.nonce address

def Cached (books : Books) (address : AccountAddress) : Prop := (books.cache address).isSome

def Loadable (books : Books) (address : AccountAddress) : Prop :=
  books.Cached address ∨ books.accounts.locked address = AdicAmount.zero ∧ books.accounts.nonce address = 0

variable {books : Books} {address other : AccountAddress}

theorem cachedLocked_eq (coherent : books.CoherentAt address) :
    books.cachedLocked address = books.accounts.locked address ↔
      books.Cached address ∨ books.accounts.locked address = AdicAmount.zero := by
  unfold cachedLocked Cached
  cases cached : books.cache address with
  | some entry => simpa using (coherent entry cached).2.1
  | none => simpa using eq_comm

theorem cachedNonce_eq (coherent : books.CoherentAt address) :
    books.cachedNonce address = books.accounts.nonce address ↔
      books.Cached address ∨ books.accounts.nonce address = 0 := by
  unfold cachedNonce Cached
  cases cached : books.cache address with
  | some entry => simpa using (coherent entry cached).2.2
  | none => simpa using eq_comm

theorem entry_balance (coherent : books.CoherentAt address) :
    (books.entry address).balance = books.accounts.balance address := by
  unfold Books.entry
  cases cached : books.cache address with
  | some entry => simpa [cached] using (coherent entry cached).1
  | none => simp

theorem coherentAt_setEntry_self (entry : Entry) :
    (books.setEntry address entry).CoherentAt address ↔ entry.balance = books.accounts.balance address ∧
      entry.locked = books.accounts.locked address ∧ entry.nonce = books.accounts.nonce address := by
  simp [CoherentAt, setEntry]

theorem coherentAt_setEntry_other (different : other ≠ address) (entry : Entry) :
    (books.setEntry address entry).CoherentAt other ↔ books.CoherentAt other := by
  simp [CoherentAt, setEntry, different]

theorem coherentAt_load (coherent : books.CoherentAt address) :
    (books.load address).CoherentAt address ↔ books.Loadable address := by
  have balance := entry_balance coherent
  have locked := cachedLocked_eq coherent
  have nonce := cachedNonce_eq coherent
  unfold load Loadable
  rw [coherentAt_setEntry_self]
  simp only [balance, true_and]
  show books.cachedLocked address = _ ∧ books.cachedNonce address = _ ↔ _
  rw [locked, nonce]
  tauto

theorem coherentAt_write (coherent : books.CoherentAt address) (amount : AdicAmount) :
    (books.write address amount).CoherentAt address ↔ books.Loadable address := by
  have locked := cachedLocked_eq coherent
  have nonce := cachedNonce_eq coherent
  unfold write Loadable
  rw [coherentAt_setEntry_self]
  simp only [Accounts.setBalance, Function.update_self, true_and, locked, nonce]
  tauto

theorem coherentAt_write_other (different : other ≠ address) (amount : AdicAmount) :
    (books.write address amount).CoherentAt other ↔ books.CoherentAt other := by
  unfold write
  rw [coherentAt_setEntry_other different]
  simp [CoherentAt, Accounts.setBalance, different]

theorem loadable_write_other (different : other ≠ address) (amount : AdicAmount) :
    (books.write address amount).Loadable other ↔ books.Loadable other := by
  simp [Loadable, Cached, write, setEntry, Accounts.setBalance, different]

def Coherent (books : Books) : Prop := ∀ address, books.CoherentAt address

theorem coherent_iff_at {after : Books} (coherent : books.Coherent)
    (others : ∀ other, other ≠ address → (after.CoherentAt other ↔ books.CoherentAt other)) :
    after.Coherent ↔ after.CoherentAt address := by
  constructor
  · intro all
    exact all address
  · intro here other
    by_cases same : other = address
    · rw [same]
      exact here
    · exact (others other same).mpr (coherent other)

theorem coherent_load (coherent : books.Coherent) : (books.load address).Coherent ↔ books.Loadable address := by
  unfold load
  rw [coherent_iff_at coherent fun other different => coherentAt_setEntry_other different _]
  exact coherentAt_load (coherent address)

theorem coherent_write (coherent : books.Coherent) (amount : AdicAmount) :
    (books.write address amount).Coherent ↔ books.Loadable address := by
  rw [coherent_iff_at coherent fun other different => coherentAt_write_other different amount]
  exact coherentAt_write (coherent address) amount

variable {sender recipient : AccountAddress}

theorem coherentAt_writes (senderAt : books.CoherentAt recipient) (different : sender ≠ recipient)
    (first second : AdicAmount) :
    ((books.write sender first).write recipient second).CoherentAt other ↔
      if other = recipient then books.Loadable recipient else (books.write sender first).CoherentAt other := by
  by_cases same : other = recipient
  · rw [if_pos same, same]
    have kept := (coherentAt_write_other different.symm first).mpr senderAt
    rw [coherentAt_write kept, loadable_write_other different.symm]
  · rw [if_neg same, coherentAt_write_other same]

theorem coherent_writes (coherent : books.Coherent) (different : sender ≠ recipient) (first second : AdicAmount) :
    ((books.write sender first).write recipient second).Coherent ↔
      books.Loadable sender ∧ books.Loadable recipient := by
  constructor
  · intro all
    have atRecipient := all recipient
    have atSender := all sender
    rw [coherentAt_writes (coherent recipient) different, if_pos rfl] at atRecipient
    rw [coherentAt_writes (coherent recipient) different, if_neg different,
      coherentAt_write (coherent sender)] at atSender
    exact ⟨atSender, atRecipient⟩
  · rintro ⟨atSender, atRecipient⟩ other
    rw [coherentAt_writes (coherent recipient) different]
    by_cases same : other = recipient
    · rw [if_pos same]
      exact atRecipient
    · rw [if_neg same]
      exact (coherent_write coherent first).mpr atSender other

theorem setLocked_coherentAt {entry : Entry} (amount : AdicAmount) :
    (books.setLocked address entry amount).CoherentAt address ↔
      entry.balance = books.accounts.balance address ∧ entry.nonce = books.accounts.nonce address := by
  unfold setLocked
  rw [coherentAt_setEntry_self]
  simp [Accounts.setLocked]

theorem setLocked_coherentAt_other {entry : Entry} (different : other ≠ address) (amount : AdicAmount) :
    (books.setLocked address entry amount).CoherentAt other ↔ books.CoherentAt other := by
  unfold setLocked
  rw [coherentAt_setEntry_other different]
  simp [CoherentAt, Accounts.setLocked, different]

theorem bumpNonce_coherentAt :
    (books.bumpNonce address).CoherentAt address ↔ (books.entry address).balance = books.accounts.balance address ∧
      (books.entry address).locked = books.accounts.locked address := by
  unfold bumpNonce
  rw [coherentAt_setEntry_self]
  simp [Accounts.setNonce]

theorem bumpNonce_coherentAt_other (different : other ≠ address) :
    (books.bumpNonce address).CoherentAt other ↔ books.CoherentAt other := by
  unfold bumpNonce
  rw [coherentAt_setEntry_other different]
  simp [CoherentAt, Accounts.setNonce, different]

/-- The nonce that is written is the cached one, so the sender may be loaded with any. -/
theorem coherent_messageTransfer (coherent : books.Coherent) {amount nonce : UInt64} {after : Books}
    (accepted : books.messageTransfer sender recipient amount nonce = some after) :
    after.Coherent ↔
      (books.Cached sender ∨ books.accounts.locked sender = AdicAmount.zero) ∧ books.Loadable recipient := by
  obtain ⟨different, moved, moving, rfl⟩ := messageTransfer_eq accepted
  have cached := move_cached moving different
  obtain ⟨-, newToBalance, -, moved_eq⟩ := move_eq moving
  have loaded : (books.load sender).CoherentAt recipient :=
    (coherentAt_setEntry_other different.symm _).mpr (coherent recipient)
  have atRecipient : (books.load sender).Loadable recipient ↔ books.Loadable recipient := by
    simp [Loadable, Cached, load, setEntry, different.symm]
  have locked : (books.load sender).cachedLocked sender = books.cachedLocked sender := by
    simp [cachedLocked, Books.entry]
  have atSender : (moved.bumpNonce sender).CoherentAt sender ↔
      books.Cached sender ∨ books.accounts.locked sender = AdicAmount.zero := by
    rw [bumpNonce_coherentAt, entry_cached cached, ← cachedLocked_eq (coherent sender), moved_eq]
    simp [write, setEntry, Accounts.setBalance, different, locked]
  have others : ∀ other, other ≠ sender → ((moved.bumpNonce sender).CoherentAt other ↔
      if other = recipient then books.Loadable recipient else books.CoherentAt other) := by
    intro other isOther
    rw [bumpNonce_coherentAt_other isOther, moved_eq, coherentAt_writes loaded different, atRecipient,
      coherentAt_write_other isOther]
    unfold load
    rw [coherentAt_setEntry_other isOther]
  constructor
  · intro all
    have there := (others recipient different.symm).mp (all recipient)
    rw [if_pos rfl] at there
    exact ⟨atSender.mp (all sender), there⟩
  · rintro ⟨senderKept, recipientKept⟩ other
    by_cases isSender : other = sender
    · rw [isSender]
      exact atSender.mpr senderKept
    · rw [others other isSender]
      by_cases isRecipient : other = recipient
      · rw [if_pos isRecipient]
        exact recipientKept
      · rw [if_neg isRecipient]
        exact coherent other

end Books

/-- A successful operation keeps the cache coherent: what it caches anew may be cached with nonce and locked balance
    zero. -/
def Operation.Keeps (books : Books) : Operation → Prop
  | .getBalance address => books.Loadable address
  | .credit address amount => amount = AdicAmount.zero ∨ books.Loadable address
  | .debit address amount => amount = AdicAmount.zero ∨ books.Loadable address
  | .transfer sender recipient amount =>
    amount = AdicAmount.zero ∨ books.Loadable sender ∧ books.Loadable recipient
  | .lock address _ =>
    books.Cached address ∨ books.accounts.balance address = AdicAmount.zero ∧ books.accounts.nonce address = 0
  | .processMessageTransfer sender recipient _ _ =>
    ∀ fromAddr toAddr, AccountAddress.fromBytes sender = some fromAddr →
      AccountAddress.fromBytes recipient = some toAddr →
      (books.Cached fromAddr ∨ books.accounts.locked fromAddr = AdicAmount.zero) ∧ books.Loadable toAddr
  | _ => True

theorem Operation.coherent_outcome {books after : Books} {operation : Operation} (coherent : books.Coherent)
    (accepted : operation.outcome books = some after) : after.Coherent ↔ operation.Keeps books := by
  cases Operation.effect_of_outcome accepted with
  | getBalance address => exact Books.coherent_load coherent
  | getLockedBalance | getNonce => exact iff_of_true coherent trivial
  | clearCache | restart =>
    refine iff_of_true (fun address entry cached => ?_) trivial
    cases cached
  | creditNothing nothing | debitNothing nothing | transferNothing nothing => exact iff_of_true coherent (.inl nothing)
  | credit something _ _ | debit something _ =>
    exact (Books.coherent_write coherent _).trans (or_iff_right something).symm
  | transfer something different moving =>
    obtain ⟨-, newToBalance, -, rfl⟩ := Books.move_eq moving
    exact (Books.coherent_writes coherent different _ newToBalance).trans (or_iff_right something).symm
  | @lock address =>
    rw [Books.coherent_iff_at coherent fun other different => Books.setLocked_coherentAt_other different _,
      Books.setLocked_coherentAt]
    unfold Books.lockEntry Operation.Keeps Books.Cached
    cases cached : books.cache address with
    | some entry =>
      rcases coherent address entry cached with ⟨balance, _, nonce⟩
      simp [cached, balance, nonce]
    | none =>
      simp only [cached, Option.getD_none, Option.isSome_none, Bool.false_eq_true, false_or]
      exact and_congr eq_comm eq_comm
  | @unlock address _ entry cached =>
    rcases coherent address entry cached with ⟨balance, _, nonce⟩
    rw [Books.coherent_iff_at coherent fun other different => Books.setLocked_coherentAt_other different _,
      Books.setLocked_coherentAt]
    exact iff_of_true ⟨balance, nonce⟩ trivial
  | processMessageTransfer isSender isRecipient transferred =>
    rw [Books.coherent_messageTransfer coherent transferred]
    simp [Operation.Keeps, isSender, isRecipient]

section

variable {σ : Type} [EconomicsStorage σ] (blake3 : List UInt8 → Bytes32)

def nextManager (manager : BalanceManager σ) (call : Int × Operation) : BalanceManager σ :=
  match call.2.call blake3 call.1 manager with
  | .ok _ next => next
  | .error _ next => next

def Succeeds (call : Int × Operation) (manager : BalanceManager σ) : Prop :=
  match call.2.call blake3 call.1 manager with
  | .ok _ _ => True
  | .error _ _ => False

instance (call : Int × Operation) (manager : BalanceManager σ) : Decidable (Succeeds blake3 call manager) := by
  unfold Succeeds
  cases call.2.call blake3 call.1 manager with
  | ok => exact isTrue trivial
  | error => exact isFalse id

def managerAfter (storage : σ) (calls : List (Int × Operation)) : BalanceManager σ :=
  Runs.after (nextManager blake3) (BalanceManager.new storage) calls

variable [LawfulStorage σ]

theorem succeeds_iff {call : Int × Operation} {manager : BalanceManager σ} :
    Succeeds blake3 call manager ↔ (call.2.outcome (booksOf manager)).isSome := by
  unfold Succeeds
  cases outcome : call.2.outcome (booksOf manager) with
  | some after =>
    rcases Operation.call_returns blake3 call.1 outcome with ⟨next, run, _⟩
    rw [run]
    simp
  | none =>
    rcases Operation.call_fails blake3 call.1 outcome with ⟨error, next, run, _⟩
    rw [run]
    simp

theorem booksOf_nextManager (manager : BalanceManager σ) (call : Int × Operation) :
    booksOf (nextManager blake3 manager call) =
      (call.2.outcome (booksOf manager)).getD (call.2.residue (booksOf manager)) := by
  unfold nextManager
  cases outcome : call.2.outcome (booksOf manager) with
  | some after =>
    rcases Operation.call_returns blake3 call.1 outcome with ⟨next, run, seen⟩
    rw [run]
    exact seen
  | none =>
    rcases Operation.call_fails blake3 call.1 outcome with ⟨error, next, run, seen⟩
    rw [run]
    exact seen

def CacheCoherent (manager : BalanceManager σ) : Prop :=
  ∀ address info, manager.cache.lookup address = some info →
    info.balance = (LawfulStorage.accounts manager.storage).balance address ∧
      info.lockedBalance = (LawfulStorage.accounts manager.storage).locked address ∧
      info.nonce = (LawfulStorage.accounts manager.storage).nonce address

theorem cacheCoherent_iff {manager : BalanceManager σ} : CacheCoherent manager ↔ (booksOf manager).Coherent := by
  unfold CacheCoherent Books.Coherent Books.CoherentAt
  simp only [cache_booksOf, accounts_booksOf, Option.map_eq_some_iff]
  constructor
  · rintro coherent address entry ⟨info, found, rfl⟩
    exact coherent address info found
  · intro coherent address info found
    exact coherent address (entryOf info) ⟨info, found, rfl⟩

/-- The cache is coherent in a run exactly if every call only caches accounts that the balance alone determines. -/
theorem cache_coherent_iff (storage : σ) (calls : List (Int × Operation))
    (successful : ∀ before call, before ++ [call] <+: calls → Succeeds blake3 call (managerAfter blake3 storage before)) :
    (∀ before, before <+: calls → CacheCoherent (managerAfter blake3 storage before)) ↔
      ∀ before call, before ++ [call] <+: calls → call.2.Keeps (booksOf (managerAfter blake3 storage before)) := by
  have step : ∀ (manager : BalanceManager σ) call, CacheCoherent manager → Succeeds blake3 call manager →
      (CacheCoherent (nextManager blake3 manager call) ↔ call.2.Keeps (booksOf manager)) := by
    intro manager call coherent succeeds
    rw [cacheCoherent_iff] at coherent ⊢
    rw [succeeds_iff, Option.isSome_iff_exists] at succeeds
    rcases succeeds with ⟨after, outcome⟩
    rw [booksOf_nextManager, outcome, Option.getD_some]
    exact Operation.coherent_outcome coherent outcome
  refine @Runs.invariant_iff _ _ (nextManager blake3) (BalanceManager.new storage) calls CacheCoherent CacheCoherent
    (fun call manager => call.2.Keeps (booksOf manager)) (Succeeds blake3) ?_ (fun _ coherent => coherent) ?_ ?_
    successful
  · intro address info found
    cases found
  · intro manager call coherent succeeds keeps
    exact (step manager call coherent succeeds).mpr keeps
  · intro manager call coherent succeeds kept
    exact (step manager call coherent succeeds).mp kept

end

def account (byte : UInt8) : AccountAddress := ⟨Bytes32.replicate byte⟩

theorem cache_coherent_iff_credit :
    (∀ before, before <+: [(0, Operation.credit (account 1) ⟨5⟩)] →
      CacheCoherent (managerAfter (fun _ => Bytes32.replicate 0) MemoryStorage.new before)) ↔
      ∀ before call, before ++ [call] <+: [(0, Operation.credit (account 1) ⟨5⟩)] →
        call.2.Keeps (booksOf (managerAfter (fun _ => Bytes32.replicate 0) MemoryStorage.new before)) :=
  cache_coherent_iff _ _ _ fun before call part => by
    rcases before with _ | ⟨first, rest⟩
    · simp only [List.nil_append, List.cons_prefix_cons, List.prefix_rfl, and_true] at part
      rw [part]
      decide +kernel
    · simp at part

def usedStorage : MemoryStorage := { MemoryStorage.new with nonces := (∅ : HashMap.Table _ _).insert (account 1) 1 }

/-- Reading the balance caches the account with nonce zero. -/
theorem cache_incoherent_getBalance :
    Succeeds (fun _ => Bytes32.replicate 0) (0, .getBalance (account 1)) (BalanceManager.new usedStorage) ∧
      ¬ CacheCoherent (managerAfter (fun _ => Bytes32.replicate 0) usedStorage [(0, .getBalance (account 1))]) := by
  refine ⟨by decide +kernel, fun coherent => ?_⟩
  have cached : ((managerAfter (fun _ => Bytes32.replicate 0) usedStorage
      [(0, .getBalance (account 1))]).cache.lookup (account 1)) =
      some ⟨account 1, AdicAmount.zero, 0, AdicAmount.zero, 0⟩ := by decide +kernel
  have stored : (LawfulStorage.accounts (managerAfter (fun _ => Bytes32.replicate 0) usedStorage
      [(0, .getBalance (account 1))]).storage).nonce (account 1) = 1 := by decide +kernel
  have nonce := (coherent _ _ cached).2.2
  rw [stored] at nonce
  cases nonce

end AdicProof.Economics
