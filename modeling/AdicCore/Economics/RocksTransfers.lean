import AdicCore.Economics.Amounts
import AdicCore.Economics.RocksBooks

open AdicModel AdicModel.Economics Calls

namespace AdicProof.Economics

theorem attempt_fails {σ τ α : Type} {view : σ → τ} {call : Call σ α} {state : σ} {after : τ}
    (fails : Fails view call state after) : ∃ error, Returns view (attempt call) state (.error error) after := by
  rcases fails with ⟨error, next, run, seen⟩
  exact ⟨error, next, by simp only [attempt, run], seen⟩

def Books.take (books : Books) (sender : AccountAddress) (amount : AdicAmount) : Books :=
  let rest := (books.accounts.balance sender).saturatingSub amount
  { books with accounts := books.accounts.setBalance sender rest }

section

variable {books moved : Books} {sender recipient : AccountAddress} {amount : AdicAmount}

def Taken (books after : Books) (sender : AccountAddress) : Prop :=
  after.accounts.balance sender ≠ books.accounts.balance sender

theorem rest_ne {balance : AdicAmount} (positive : amount ≠ AdicAmount.zero) (enough : ¬ balance < amount) :
    balance.saturatingSub amount ≠ balance := by
  intro same
  have rest := congrArg units same
  rw [units_saturatingSub] at rest
  rw [amount_lt, not_lt] at enough
  have nothing := units_eq_zero.not.mpr positive
  omega

theorem enough_of_move (accepted : books.move sender recipient amount = some moved) :
    ¬ books.accounts.balance sender < amount := by
  intro short
  rw [Books.move, if_pos short] at accepted
  cases accepted

theorem taken_take (positive : amount ≠ AdicAmount.zero) (accepted : books.move sender recipient amount = some moved) :
    Taken books (books.take sender amount) sender := by
  unfold Taken Books.take Accounts.setBalance
  simpa using rest_ne positive (enough_of_move accepted)

theorem taken_move (positive : amount ≠ AdicAmount.zero) (different : sender ≠ recipient)
    (accepted : books.move sender recipient amount = some moved) : Taken books moved sender := by
  have rest := rest_ne positive (enough_of_move accepted)
  unfold Books.move at accepted
  rw [if_neg (enough_of_move (by unfold Books.move; exact accepted))] at accepted
  rcases Option.map_eq_some_iff.mp accepted with ⟨newToBalance, -, rfl⟩
  unfold Taken
  simpa [Books.write, Accounts.setBalance, different] using rest

end

section

variable [RecordJson] {manager : BalanceManager RocksDbStorage} {books moved : Books} {faults : List Bool}
  {sender recipient : AccountAddress} {amount : AdicAmount} (blake3 : List UInt8 → Bytes32) (now : Int)

theorem setBalance_rocks_fails {address : AccountAddress} (seen : rocksBooks manager = (books, faults))
    (breaks : faulty faults 0 = true) :
    Fails rocksBooks (BalanceManager.onStorage (EconomicsStorage.setBalance address amount)) manager
      (books, faults.tail) := by
  show Fails rocksBooks (BalanceManager.onStorage (RocksDbStorage.setBalance address amount)) _ _
  unfold RocksDbStorage.setBalance
  exact write_fails seen breaks

theorem transferInternal_rocks_refused (seen : rocksBooks manager = (books, faults))
    (refused : books.move sender recipient amount = none) :
    Fails rocksBooks (BalanceManager.transferInternal blake3 now sender recipient amount) manager (books, faults) := by
  unfold BalanceManager.transferInternal
  unfold Books.move at refused
  refine (getBalance_stored_rocks seen).bind_fails fun first firstSeen => ?_
  by_cases short : books.accounts.balance sender < amount
  · rw [if_pos short]
    exact fails_throw _ firstSeen
  · rw [if_neg short] at refused ⊢
    rw [Option.map_eq_none_iff] at refused
    refine (getBalance_stored_rocks firstSeen).bind_fails fun second secondSeen => ?_
    simp only [refused]
    exact fails_throw _ secondSeen

section

variable (seen : rocksBooks manager = (books, faults)) (accepted : books.move sender recipient amount = some moved)

include seen accepted

theorem transferInternal_rocks_first (breaks : faulty faults 0 = true) :
    Fails rocksBooks (BalanceManager.transferInternal blake3 now sender recipient amount) manager
      (books, faults.tail) := by
  unfold BalanceManager.transferInternal
  unfold Books.move at accepted
  refine (getBalance_stored_rocks seen).bind_fails fun first firstSeen => ?_
  split at accepted
  · cases accepted
  · next enough =>
    rcases Option.map_eq_some_iff.mp accepted with ⟨newToBalance, sum, rfl⟩
    rw [if_neg enough]
    refine (getBalance_stored_rocks firstSeen).bind_fails fun second secondSeen => ?_
    simp only [sum]
    exact (setBalance_rocks_fails secondSeen breaks).bind

theorem transferInternal_rocks_second (works : faulty faults 0 = false) (breaks : faulty faults 1 = true) :
    Fails rocksBooks (BalanceManager.transferInternal blake3 now sender recipient amount) manager
      (books.take sender amount, faults.tail.tail) := by
  unfold BalanceManager.transferInternal
  unfold Books.move at accepted
  refine (getBalance_stored_rocks seen).bind_fails fun first firstSeen => ?_
  split at accepted
  · cases accepted
  · next enough =>
    rcases Option.map_eq_some_iff.mp accepted with ⟨newToBalance, sum, rfl⟩
    rw [if_neg enough]
    refine (getBalance_stored_rocks firstSeen).bind_fails fun second secondSeen => ?_
    simp only [sum]
    refine (setBalance_rocks secondSeen works).bind_fails fun third thirdSeen => ?_
    refine (setBalance_rocks_fails thirdSeen ?_).bind
    rw [faulty_tail]
    exact breaks

theorem transferInternal_rocks_returns (different : sender ≠ recipient) (first : faulty faults 0 = false)
    (second : faulty faults 1 = false) :
    ∃ txHash, Returns rocksBooks (BalanceManager.transferInternal blake3 now sender recipient amount) manager txHash
      (moved, faults.tail.tail) := by
  unfold Books.move at accepted
  split at accepted
  · cases accepted
  · next enough =>
    rcases Option.map_eq_some_iff.mp accepted with ⟨newToBalance, sum, rfl⟩
    refine ⟨hexEncode (blake3 (sender.asBytes.bytes ++ recipient.asBytes.bytes ++
      toLeBytes amount.baseUnits.toNat ++ toLeBytes now)).bytes, ?_⟩
    unfold BalanceManager.transferInternal
    refine (getBalance_stored_rocks seen).bind fun one oneSeen => ?_
    rw [if_neg enough]
    refine (getBalance_stored_rocks oneSeen).bind fun two twoSeen => ?_
    simp only [sum]
    refine (setBalance_rocks twoSeen first).bind fun three threeSeen => ?_
    refine (setBalance_rocks threeSeen ?_).bind fun four fourSeen => ?_
    · rw [faulty_tail]
      exact second
    refine (cacheBalance_rocks fourSeen now _).bind fun five fiveSeen => ?_
    refine (cacheBalance_rocks fiveSeen now _).bind fun six sixSeen => returns_pure ?_
    rw [sixSeen]
    simp [Books.write, Books.setEntry, Books.cachedLocked, Books.cachedNonce, different.symm]

end

theorem begin_rocks (seen : rocksBooks manager = (books, faults)) :
    Returns rocksBooks (BalanceManager.onStorage EconomicsStorage.beginTransaction) manager () (books, faults) := by
  cases seen
  exact ⟨manager, rfl, rfl⟩

theorem rollback_rocks (seen : rocksBooks manager = (books, faults)) :
    Returns rocksBooks (BalanceManager.onStorage EconomicsStorage.rollbackTransaction) manager () (books, faults) := by
  cases seen
  exact ⟨manager, rfl, rfl⟩

theorem recordTransfer_rocks (manager : BalanceManager RocksDbStorage) (txHash : String) :
    ∃ next, BalanceManager.recordTransfer now sender recipient amount txHash manager = .ok () next := by
  unfold BalanceManager.recordTransfer
  have attempted : ∃ outcome middle, attempt (BalanceManager.onStorage (EconomicsStorage.recordTransaction
      ⟨sender, recipient, amount, ⟨now, 0⟩, txHash, "confirmed"⟩)) manager = .ok outcome middle := by
    unfold attempt
    cases BalanceManager.onStorage (EconomicsStorage.recordTransaction
      ⟨sender, recipient, amount, ⟨now, 0⟩, txHash, "confirmed"⟩) manager with
    | ok value middle => exact ⟨_, _, rfl⟩
    | error error middle => exact ⟨_, _, rfl⟩
  rcases attempted with ⟨outcome, middle, run⟩
  rw [bind_ok run]
  exact ⟨middle, rfl⟩

structure RocksSpec {α : Type} (call : Call (BalanceManager RocksDbStorage) α) (manager : BalanceManager RocksDbStorage)
    (faults : List Bool) (late : Nat) (before after : Books) (sender : AccountAddress) : Prop where
  first : faulty faults 0 = true → ∃ rest, Fails rocksBooks call manager (after, rest)
  later : faulty faults 0 = false → (∃ index, index < late ∧ faulty faults (index + 1) = true) →
    ∃ taken rest, Fails rocksBooks call manager (taken, rest) ∧ Taken before taken sender
  works : (∀ index, index ≤ late → faulty faults index = false) → ∃ value next, call manager = .ok value next

structure FinishSpec {α : Type} (call : Call (BalanceManager RocksDbStorage) α) (manager : BalanceManager RocksDbStorage)
    (faults : List Bool) (writes : Nat) (before : Books) (sender : AccountAddress) : Prop where
  breaks : (∃ index, index < writes ∧ faulty faults index = true) →
    ∃ taken rest, Fails rocksBooks call manager (taken, rest) ∧ Taken before taken sender
  works : (∀ index, index < writes → faulty faults index = false) → ∃ value next, call manager = .ok value next

def transaction (sender recipient : AccountAddress) (amount : AdicAmount)
    (finish : String → Call (BalanceManager RocksDbStorage) String) : Call (BalanceManager RocksDbStorage) String := do
  BalanceManager.onStorage EconomicsStorage.beginTransaction
  match ← attempt (BalanceManager.transferInternal blake3 now sender recipient amount) with
  | .ok txHash => finish txHash
  | .error error =>
    BalanceManager.onStorage EconomicsStorage.rollbackTransaction
    throw error

variable {finish : String → Call (BalanceManager RocksDbStorage) String}

theorem transaction_rocks_fails {after : Books} {rest : List Bool} (seen : rocksBooks manager = (books, faults))
    (internal : ∀ begun, rocksBooks begun = (books, faults) → Fails rocksBooks
      (BalanceManager.transferInternal blake3 now sender recipient amount) begun (after, rest)) :
    Fails rocksBooks (transaction blake3 now sender recipient amount finish) manager (after, rest) := by
  unfold transaction
  refine (begin_rocks seen).bind_fails fun begun begunSeen => ?_
  rcases attempt_fails (internal begun begunSeen) with ⟨error, attempted⟩
  refine attempted.bind_fails fun second secondSeen => ?_
  exact (rollback_rocks secondSeen).bind_fails fun last lastSeen => fails_throw _ lastSeen

theorem transaction_rocks {writes : Nat} {before : Books} (seen : rocksBooks manager = (books, faults))
    (positive : amount ≠ AdicAmount.zero) (different : sender ≠ recipient)
    (accepted : books.move sender recipient amount = some moved)
    (balance : books.accounts.balance sender = before.accounts.balance sender)
    (finished : ∀ txHash next, rocksBooks next = (moved, faults.tail.tail) →
      FinishSpec (finish txHash) next faults.tail.tail writes before sender) :
    RocksSpec (transaction blake3 now sender recipient amount finish) manager faults (writes + 1) before books
      sender := by
  constructor
  · intro breaks
    exact ⟨_, transaction_rocks_fails blake3 now seen fun begun begunSeen =>
      transferInternal_rocks_first blake3 now begunSeen accepted breaks⟩
  · rintro works ⟨index, bounded, breaks⟩
    cases second : faulty faults 1 with
    | true =>
      refine ⟨_, _, transaction_rocks_fails blake3 now seen fun begun begunSeen =>
        transferInternal_rocks_second blake3 now begunSeen accepted works second, ?_⟩
      have taken := taken_take positive accepted
      unfold Taken at taken ⊢
      rwa [balance] at taken
    | false =>
      cases index with
      | zero =>
        rw [second] at breaks
        cases breaks
      | succ index =>
        rcases begin_rocks seen with ⟨begun, beginning, begunSeen⟩
        rcases transferInternal_rocks_returns blake3 now begunSeen accepted different works second with
          ⟨txHash, internal⟩
        rcases attempt_returns internal with ⟨next, attempted, nextSeen⟩
        have late : faulty faults.tail.tail index = true := by
          rw [faulty_tail, faulty_tail]
          exact breaks
        rcases (finished txHash next nextSeen).breaks ⟨index, by omega, late⟩ with ⟨taken, rest, fails, difference⟩
        refine ⟨taken, rest, ?_, difference⟩
        unfold transaction
        exact Fails.bind_of_run beginning (Fails.bind_of_run attempted fails)
  · intro works
    rcases begin_rocks seen with ⟨begun, beginning, begunSeen⟩
    rcases transferInternal_rocks_returns blake3 now begunSeen accepted different (works 0 (by omega))
      (works 1 (by omega)) with ⟨txHash, internal⟩
    rcases attempt_returns internal with ⟨next, attempted, nextSeen⟩
    have rest : ∀ index, index < writes → faulty faults.tail.tail index = false := by
      intro index bounded
      rw [faulty_tail, faulty_tail]
      exact works (index + 1 + 1) (by omega)
    rcases (finished txHash next nextSeen).works rest with ⟨value, last, run⟩
    refine ⟨value, last, ?_⟩
    unfold transaction
    rw [bind_ok beginning, bind_ok attempted]
    exact run

omit [RecordJson] in
theorem RocksSpec.bind_of_run {α β : Type} {call : Call (BalanceManager RocksDbStorage) α}
    {rest : α → Call (BalanceManager RocksDbStorage) β} {value : α} {next : BalanceManager RocksDbStorage} {late : Nat}
    {before after : Books} (run : call manager = .ok value next)
    (spec : RocksSpec (rest value) next faults late before after sender) :
    RocksSpec (call >>= rest) manager faults late before after sender := by
  constructor
  · intro breaks
    rcases spec.first breaks with ⟨left, fails⟩
    exact ⟨left, Fails.bind_of_run run fails⟩
  · intro works breaks
    rcases spec.later works breaks with ⟨taken, left, fails, difference⟩
    exact ⟨taken, left, Fails.bind_of_run run fails, difference⟩
  · intro works
    rw [bind_ok run]
    exact spec.works works

theorem commit_finish {before : Books} {txHash : String} (seen : rocksBooks manager = (books, faults))
    (taken : Taken before books sender) :
    FinishSpec (do
      BalanceManager.onStorage EconomicsStorage.commitTransaction
      BalanceManager.recordTransfer now sender recipient amount txHash
      return txHash) manager faults 1 before sender := by
  constructor
  · rintro ⟨index, bounded, breaks⟩
    have first : faulty faults 0 = true := by
      rw [show index = 0 by omega] at breaks
      exact breaks
    exact ⟨_, _, (write_fails seen first).bind, taken⟩
  · intro works
    rcases commit_rocks seen (works 0 (by omega)) with ⟨next, committed, _⟩
    rcases @recordTransfer_rocks _ sender recipient amount now next txHash with
      ⟨last, recorded⟩
    refine ⟨txHash, last, ?_⟩
    rw [bind_ok committed, bind_ok recorded]
    rfl

theorem transfer_rocks_refused (seen : rocksBooks manager = (books, faults)) (positive : amount ≠ AdicAmount.zero)
    (refused : sender = recipient ∨ books.move sender recipient amount = none) :
    Fails rocksBooks (BalanceManager.transfer blake3 now sender recipient amount) manager (books, faults) := by
  unfold BalanceManager.transfer
  rw [if_neg positive]
  by_cases same : sender = recipient
  · rw [if_pos same]
    exact fails_throw _ seen
  · rw [if_neg same]
    exact transaction_rocks_fails blake3 now seen fun begun begunSeen =>
      transferInternal_rocks_refused blake3 now begunSeen (refused.resolve_left same)

theorem transfer_rocks (seen : rocksBooks manager = (books, faults)) (positive : amount ≠ AdicAmount.zero)
    (different : sender ≠ recipient) (accepted : books.move sender recipient amount = some moved) :
    RocksSpec (BalanceManager.transfer blake3 now sender recipient amount) manager faults 2 books books sender := by
  unfold BalanceManager.transfer
  rw [if_neg positive, if_neg different]
  exact transaction_rocks blake3 now seen positive different accepted rfl fun txHash next nextSeen =>
    commit_finish now nextSeen (taken_move positive different accepted)

theorem incrementNonce_rocks {entry : Entry} (seen : rocksBooks manager = (books, faults))
    (cached : books.cache sender = some entry) (works : faulty faults 0 = false) :
    Returns rocksBooks (BalanceManager.incrementNonce now sender) manager () (books.bumpNonce sender, faults.tail) := by
  unfold Books.bumpNonce
  rw [Books.entry_cached cached]
  rw [cached_rocks seen] at cached
  rcases Option.map_eq_some_iff.mp cached with ⟨info, found, rfl⟩
  unfold BalanceManager.incrementNonce
  apply Returns.get
  simp only [found]
  exact (rocksBooks_insert seen _ _).bind fun updated updatedSeen => setNonce_rocks updatedSeen works

theorem incrementNonce_rocks_fails {entry : Entry} (seen : rocksBooks manager = (books, faults))
    (cached : books.cache sender = some entry) (breaks : faulty faults 0 = true) :
    ∃ bumped, Fails rocksBooks (BalanceManager.incrementNonce now sender) manager (bumped, faults.tail) ∧
      bumped.accounts = books.accounts := by
  rw [cached_rocks seen] at cached
  rcases Option.map_eq_some_iff.mp cached with ⟨info, found, rfl⟩
  refine ⟨books.setEntry sender (entryOf { info with nonce := info.nonce + 1 }), ?_, rfl⟩
  unfold BalanceManager.incrementNonce
  apply Fails.get
  simp only [found]
  refine (rocksBooks_insert seen _ _).bind_fails fun updated updatedSeen => ?_
  show Fails rocksBooks (BalanceManager.onStorage (RocksDbStorage.setNonce sender _)) _ _
  unfold RocksDbStorage.setNonce
  exact write_fails updatedSeen breaks

theorem nonce_finish {before : Books} {txHash : String} {entry : Entry} (seen : rocksBooks manager = (books, faults))
    (cached : books.cache sender = some entry) (taken : Taken before books sender) :
    FinishSpec (do
      match ← attempt (BalanceManager.incrementNonce now sender) with
      | .error error =>
        BalanceManager.onStorage EconomicsStorage.rollbackTransaction
        throw error
      | .ok () =>
        BalanceManager.onStorage EconomicsStorage.commitTransaction
        BalanceManager.recordTransfer now sender recipient amount txHash
        return txHash) manager faults 2 before sender := by
  cases first : faulty faults 0 with
  | true =>
    rcases incrementNonce_rocks_fails now seen cached first with ⟨bumped, fails, same⟩
    rcases attempt_fails fails with ⟨error, attempted⟩
    constructor
    · intro _
      refine ⟨bumped, faults.tail, attempted.bind_fails fun next nextSeen => ?_, ?_⟩
      · exact (rollback_rocks nextSeen).bind_fails fun last lastSeen => fails_throw _ lastSeen
      · unfold Taken at taken ⊢
        rwa [same]
    · intro works
      rw [works 0 (by omega)] at first
      cases first
  | false =>
    rcases attempt_returns (incrementNonce_rocks now seen cached first) with ⟨next, attempted, nextSeen⟩
    have bumped : Taken before (books.bumpNonce sender) sender := taken
    have rest := @commit_finish _ _ _ _ sender recipient amount now before txHash nextSeen bumped
    constructor
    · rintro ⟨index, bounded, breaks⟩
      cases index with
      | zero =>
        rw [first] at breaks
        cases breaks
      | succ index =>
        rw [← faulty_tail] at breaks
        rcases rest.breaks ⟨index, by omega, breaks⟩ with ⟨after, left, fails, difference⟩
        exact ⟨after, left, Fails.bind_of_run attempted fails, difference⟩
    · intro works
      rcases rest.works fun index bounded => by
        rw [faulty_tail]
        exact works (index + 1) (by omega) with ⟨value, last, run⟩
      refine ⟨value, last, ?_⟩
      rw [bind_ok attempted]
      exact run

section

variable {fromBytes toBytes : List UInt8} {quantity nonce : UInt64}

theorem validateTransfer_rocks (seen : rocksBooks manager = (books, faults))
    (from_eq : AccountAddress.fromBytes fromBytes = some sender)
    (to_eq : AccountAddress.fromBytes toBytes = some recipient)
    (valid : ¬ (sender = recipient ∨ quantity = 0 ∨ (books.entry sender).balance < AdicAmount.fromBaseUnits quantity ∨
      nonce ≠ (books.entry sender).nonce + 1)) :
    Returns rocksBooks (BalanceManager.validateTransfer now fromBytes toBytes quantity nonce) manager ()
      (books.load sender, faults) := by
  simp only [not_or] at valid
  rcases valid with ⟨different, positive, enough, next⟩
  unfold BalanceManager.validateTransfer
  simp only [from_eq, to_eq]
  rw [if_neg different, if_neg positive]
  refine (getBalance_rocks seen now sender).bind fun loaded loadedSeen => ?_
  simp only [if_neg enough]
  refine (getNonce_rocks loadedSeen sender).bind fun read readSeen => ?_
  rw [currentNonce_load, if_neg next]
  exact returns_pure readSeen

theorem validateTransfer_rocks_fails (seen : rocksBooks manager = (books, faults))
    (from_eq : AccountAddress.fromBytes fromBytes = some sender)
    (to_eq : AccountAddress.fromBytes toBytes = some recipient)
    (invalid : sender = recipient ∨ quantity = 0 ∨ (books.entry sender).balance < AdicAmount.fromBaseUnits quantity ∨
      nonce ≠ (books.entry sender).nonce + 1) :
    Fails rocksBooks (BalanceManager.validateTransfer now fromBytes toBytes quantity nonce) manager
      (books.refused sender recipient quantity, faults) := by
  unfold BalanceManager.validateTransfer Books.refused
  simp only [from_eq, to_eq]
  by_cases same : sender = recipient
  · rw [if_pos same, if_pos (.inl same)]
    exact fails_throw _ seen
  · rw [if_neg same]
    by_cases nothing : quantity = 0
    · rw [if_pos nothing, if_pos (.inr nothing)]
      exact fails_throw _ seen
    · rw [if_neg nothing, if_neg (not_or.mpr ⟨same, nothing⟩)]
      refine (getBalance_rocks seen now sender).bind_fails fun loaded loadedSeen => ?_
      by_cases short : (books.entry sender).balance < AdicAmount.fromBaseUnits quantity
      · simp only [if_pos short]
        exact fails_throw _ loadedSeen
      · simp only [if_neg short]
        have wrong := ((invalid.resolve_left same).resolve_left nothing).resolve_left short
        refine (getNonce_rocks loadedSeen sender).bind_fails fun read readSeen => ?_
        rw [currentNonce_load, if_pos wrong]
        exact fails_throw _ readSeen

theorem messageTransfer_rocks_length (seen : rocksBooks manager = (books, faults))
    (malformed : AccountAddress.fromBytes fromBytes = none ∨ AccountAddress.fromBytes toBytes = none) :
    Fails rocksBooks (BalanceManager.processMessageTransfer blake3 now fromBytes toBytes quantity nonce) manager
      (books, faults) := by
  unfold BalanceManager.processMessageTransfer
  cases from_eq : AccountAddress.fromBytes fromBytes with
  | none => exact fails_throw _ seen
  | some sender =>
    rw [malformed.resolve_left (by simp [from_eq])]
    exact fails_throw _ seen

theorem messageTransfer_rocks_refused (seen : rocksBooks manager = (books, faults))
    (from_eq : AccountAddress.fromBytes fromBytes = some sender)
    (to_eq : AccountAddress.fromBytes toBytes = some recipient)
    (refused : books.messageTransfer sender recipient quantity nonce = none) :
    Fails rocksBooks (BalanceManager.processMessageTransfer blake3 now fromBytes toBytes quantity nonce) manager
      (books.refused sender recipient quantity, faults) := by
  unfold BalanceManager.processMessageTransfer
  simp only [from_eq, to_eq]
  unfold Books.messageTransfer at refused
  split at refused
  · next invalid => exact (validateTransfer_rocks_fails now seen from_eq to_eq invalid).bind
  · next valid =>
    rw [Option.map_eq_none_iff] at refused
    have residue : books.refused sender recipient quantity = books.load sender := by
      simp only [not_or] at valid
      rw [Books.refused, if_neg (not_or.mpr ⟨valid.1, valid.2.1⟩)]
    rw [residue]
    refine (validateTransfer_rocks now seen from_eq to_eq valid).bind_fails fun checked checkedSeen => ?_
    exact transaction_rocks_fails blake3 now checkedSeen fun begun begunSeen =>
      transferInternal_rocks_refused blake3 now begunSeen refused

theorem messageTransfer_rocks (seen : rocksBooks manager = (books, faults))
    (from_eq : AccountAddress.fromBytes fromBytes = some sender)
    (to_eq : AccountAddress.fromBytes toBytes = some recipient)
    (accepts : books.Accepts sender recipient quantity nonce) :
    RocksSpec (BalanceManager.processMessageTransfer blake3 now fromBytes toBytes quantity nonce) manager faults 3 books
      (books.load sender) sender := by
  rcases Option.isSome_iff_exists.mp (Books.messageTransfer_isSome.mpr accepts) with ⟨after, accepted⟩
  unfold Books.messageTransfer at accepted
  split at accepted
  · cases accepted
  · next valid =>
    rcases Option.map_eq_some_iff.mp accepted with ⟨moved, moving, -⟩
    have positive : AdicAmount.fromBaseUnits quantity ≠ AdicAmount.zero := fun zero =>
      accepts.positive (congrArg AdicAmount.baseUnits zero)
    unfold BalanceManager.processMessageTransfer
    simp only [from_eq, to_eq]
    rcases validateTransfer_rocks now seen from_eq to_eq valid with ⟨checked, validates, checkedSeen⟩
    refine RocksSpec.bind_of_run validates ?_
    refine transaction_rocks blake3 now checkedSeen positive accepts.different moving rfl fun txHash next nextSeen => ?_
    refine nonce_finish now nextSeen (move_cached moving accepts.different) ?_
    have taken := taken_move positive accepts.different moving
    exact taken

end

end

end AdicProof.Economics
