import AdicCore.Economics.RocksTransfers

open AdicModel AdicModel.Economics Calls

namespace AdicProof.Economics

inductive TransferCall where
  | transfer (sender recipient : AccountAddress) (amount : AdicAmount)
  | message (sender recipient : List UInt8) (amount nonce : UInt64)

namespace TransferCall

def call {σ : Type} [EconomicsStorage σ] (blake3 : List UInt8 → Bytes32) (now : Int) :
    TransferCall → Call (BalanceManager σ) String
  | .transfer sender recipient amount => BalanceManager.transfer blake3 now sender recipient amount
  | .message sender recipient amount nonce =>
    BalanceManager.processMessageTransfer blake3 now sender recipient amount nonce

def accounts : TransferCall → List AccountAddress
  | .transfer sender recipient _ => [sender, recipient]
  | .message sender recipient _ _ => [sender, recipient].filterMap AccountAddress.fromBytes

def Ready (books : Books) : TransferCall → Prop
  | .transfer sender recipient amount =>
    amount ≠ AdicAmount.zero ∧ sender ≠ recipient ∧ ¬ books.accounts.balance sender < amount ∧
      ((books.accounts.balance recipient).checkedAdd amount).isSome
  | .message fromBytes toBytes amount nonce => ∃ sender recipient,
    AccountAddress.fromBytes fromBytes = some sender ∧ AccountAddress.fromBytes toBytes = some recipient ∧
      books.Accepts sender recipient amount nonce

def laterWrites : TransferCall → Nat
  | .transfer .. => 2
  | .message .. => 3

def HalfWritten (books : Books) (faults : List Bool) (call : TransferCall) : Prop :=
  call.Ready books ∧ faulty faults 0 = false ∧ ∃ index, index < call.laterWrites ∧ faulty faults (index + 1) = true

/-- A message transfer that fails after it cached its sender with nonce zero. -/
def ForgetsNonce (books : Books) (faults : List Bool) : TransferCall → Prop
  | .transfer .. => False
  | .message fromBytes toBytes amount nonce => ∃ sender recipient,
    AccountAddress.fromBytes fromBytes = some sender ∧ AccountAddress.fromBytes toBytes = some recipient ∧
      sender ≠ recipient ∧ amount ≠ 0 ∧ books.cache sender = none ∧ books.accounts.nonce sender ≠ 0 ∧
      (¬ books.Accepts sender recipient amount nonce ∨ faulty faults 0 = true)

end TransferCall

def valueOf {σ α : Type} (call : Call σ α) (state : σ) : Option α :=
  match call state with
  | .ok value _ => some value
  | .error _ _ => none

structure Unchanged {σ : Type} [EconomicsStorage σ] (stored : σ → Accounts) (now : Int) (addresses : List AccountAddress)
    (before after : BalanceManager σ) : Prop where
  balance : (stored after.storage).balance = (stored before.storage).balance
  nonce : (stored after.storage).nonce = (stored before.storage).nonce
  balanceRead : ∀ address ∈ addresses,
    valueOf (BalanceManager.getBalance now address) after = valueOf (BalanceManager.getBalance now address) before
  nonceRead : ∀ address ∈ addresses,
    valueOf (BalanceManager.getNonce address) after = valueOf (BalanceManager.getNonce address) before

def FailsAtomically {σ : Type} [EconomicsStorage σ] (stored : σ → Accounts) (blake3 : List UInt8 → Bytes32) (now : Int)
    (call : TransferCall) (manager : BalanceManager σ) : Prop :=
  ∀ error next, call.call blake3 now manager = .error error next → Unchanged stored now call.accounts manager next

namespace Books

theorem move_isSome {books : Books} {sender recipient : AccountAddress} {amount : AdicAmount} :
    (books.move sender recipient amount).isSome ↔ ¬ books.accounts.balance sender < amount ∧
      ((books.accounts.balance recipient).checkedAdd amount).isSome := by
  unfold move
  split
  · next short => simp [short]
  · next enough => simp [enough]

structure SameFor (addresses : List AccountAddress) (books after : Books) : Prop where
  balance : after.accounts.balance = books.accounts.balance
  nonce : after.accounts.nonce = books.accounts.nonce
  entry : ∀ address ∈ addresses, (after.entry address).balance = (books.entry address).balance
  current : ∀ address ∈ addresses, after.currentNonce address = books.currentNonce address

variable {books : Books} {addresses : List AccountAddress} {sender recipient address : AccountAddress}

theorem SameFor.refl (books : Books) (addresses : List AccountAddress) : books.SameFor addresses books :=
  ⟨rfl, rfl, fun _ _ => rfl, fun _ _ => rfl⟩

theorem sameFor_load (member : sender ∈ addresses) :
    books.SameFor addresses (books.load sender) ↔ ¬ (books.cache sender = none ∧ books.accounts.nonce sender ≠ 0) := by
  have here : (books.load sender).currentNonce sender = books.currentNonce sender ↔
      ¬ (books.cache sender = none ∧ books.accounts.nonce sender ≠ 0) := by
    rw [currentNonce_load]
    unfold Books.entry cachedNonce currentNonce
    cases books.cache sender with
    | some entry => simp
    | none => simpa using eq_comm
  constructor
  · intro same
    exact here.mp (same.current sender member)
  · intro shown
    refine ⟨rfl, rfl, fun address _ => ?_, fun address _ => ?_⟩
    · by_cases equal : address = sender
      · rw [equal, entry_load]
      · unfold Books.load setEntry Books.entry
        simp [equal]
    · by_cases equal : address = sender
      · rw [equal]
        exact here.mpr shown
      · unfold Books.load setEntry currentNonce
        simp [equal]

theorem not_sameFor_taken {after : Books} (taken : Taken books after sender) : ¬ books.SameFor addresses after :=
  fun same => taken (congrFun same.balance sender)

end Books

theorem valueOf_returns {σ τ α : Type} {view : σ → τ} {call : Call σ α} {state : σ} {value : α} {after : τ}
    (returns : Returns view call state value after) : valueOf call state = some value := by
  rcases returns with ⟨next, run, _⟩
  unfold valueOf
  rw [run]

variable {now : Int}

theorem unchanged_memory {addresses : List AccountAddress} {before after : BalanceManager MemoryStorage} :
    Unchanged memoryAccounts now addresses before after ↔ (booksOf before).SameFor addresses (booksOf after) := by
  constructor
  · rintro ⟨balance, nonce, balanceRead, nonceRead⟩
    refine ⟨balance, nonce, fun address member => ?_, fun address member => ?_⟩
    · have read := balanceRead address member
      rw [valueOf_returns (getBalance_returns now), valueOf_returns (getBalance_returns now)] at read
      exact Option.some.inj read
    · have read := nonceRead address member
      rw [valueOf_returns getNonce_returns, valueOf_returns getNonce_returns] at read
      exact Option.some.inj read
  · rintro ⟨balance, nonce, entry, current⟩
    refine ⟨balance, nonce, fun address member => ?_, fun address member => ?_⟩
    · rw [valueOf_returns (getBalance_returns now), valueOf_returns (getBalance_returns now), entry address member]
    · rw [valueOf_returns getNonce_returns, valueOf_returns getNonce_returns, current address member]

theorem unchanged_rocks [RecordJson] {addresses : List AccountAddress}
    {before after : BalanceManager RocksDbStorage} :
    Unchanged rocksAccounts now addresses before after ↔
      (rocksBooks before).1.SameFor addresses (rocksBooks after).1 := by
  have balances : ∀ (manager : BalanceManager RocksDbStorage) address,
      valueOf (BalanceManager.getBalance now address) manager = some ((rocksBooks manager).1.entry address).balance :=
    fun manager address => valueOf_returns (getBalance_rocks rfl now address)
  have nonces : ∀ (manager : BalanceManager RocksDbStorage) address,
      valueOf (BalanceManager.getNonce address) manager = some ((rocksBooks manager).1.currentNonce address) :=
    fun manager address => valueOf_returns (getNonce_rocks rfl address)
  constructor
  · rintro ⟨balance, nonce, balanceRead, nonceRead⟩
    refine ⟨balance, nonce, fun address member => ?_, fun address member => ?_⟩
    · have read := balanceRead address member
      rw [balances, balances] at read
      exact Option.some.inj read
    · have read := nonceRead address member
      rw [nonces, nonces] at read
      exact Option.some.inj read
  · rintro ⟨balance, nonce, entry, current⟩
    refine ⟨balance, nonce, fun address member => ?_, fun address member => ?_⟩
    · rw [balances, balances, entry address member]
    · rw [nonces, nonces, current address member]

section

variable {σ : Type} [EconomicsStorage σ] {stored : σ → Accounts} {blake3 : List UInt8 → Bytes32} {now : Int}
  {call : TransferCall} {manager : BalanceManager σ}

theorem failsAtomically_of_ok (returns : ∃ value next, call.call blake3 now manager = .ok value next) :
    FailsAtomically stored blake3 now call manager := by
  intro error next failed
  rcases returns with ⟨value, last, run⟩
  rw [run] at failed
  cases failed

theorem failsAtomically_of_error {error : EconomicsError} {next : BalanceManager σ}
    (failed : call.call blake3 now manager = .error error next) :
    FailsAtomically stored blake3 now call manager ↔ Unchanged stored now call.accounts manager next := by
  constructor
  · intro atomic
    exact atomic error next failed
  · intro unchanged other last run
    rw [failed] at run
    cases run
    exact unchanged

end

variable {blake3 : List UInt8 → Bytes32} {call : TransferCall}

theorem failsAtomically_memory_iff
    {manager : BalanceManager MemoryStorage} {expected : Bool × Books}
    (agrees : Agrees booksOf (call.call blake3 now) manager expected) :
    FailsAtomically memoryAccounts blake3 now call manager ↔
      expected.1 = true ∨ (booksOf manager).SameFor call.accounts expected.2 := by
  obtain ⟨_ | _, after⟩ := expected
  · rcases agrees.fails with ⟨error, next, run, rfl⟩
    rw [failsAtomically_of_error run, unchanged_memory]
    simp
  · rcases agrees.returns with ⟨value, next, run, _⟩
    exact iff_of_true (failsAtomically_of_ok ⟨value, next, run⟩) (.inl rfl)

theorem failsAtomically_rocks_of_fails [RecordJson]
    {manager : BalanceManager RocksDbStorage} {after : Books} {rest : List Bool}
    (fails : Fails rocksBooks (call.call blake3 now) manager (after, rest)) :
    FailsAtomically rocksAccounts blake3 now call manager ↔
      (rocksBooks manager).1.SameFor call.accounts after := by
  rcases fails with ⟨error, next, run, seen⟩
  rw [failsAtomically_of_error run, unchanged_rocks, seen]

theorem mem_accounts {fromBytes toBytes : List UInt8} {amount nonce : UInt64} {sender : AccountAddress}
    (from_eq : AccountAddress.fromBytes fromBytes = some sender) :
    sender ∈ (TransferCall.message fromBytes toBytes amount nonce).accounts := by
  simp [TransferCall.accounts, from_eq]

section

variable {books : Books} {faults : List Bool} {fromBytes toBytes : List UInt8} {amount nonce : UInt64}
  {sender recipient : AccountAddress} (from_eq : AccountAddress.fromBytes fromBytes = some sender)
  (to_eq : AccountAddress.fromBytes toBytes = some recipient)

include from_eq to_eq

theorem forgetsNonce_iff : TransferCall.ForgetsNonce books faults (.message fromBytes toBytes amount nonce) ↔
      sender ≠ recipient ∧ amount ≠ 0 ∧ books.cache sender = none ∧ books.accounts.nonce sender ≠ 0 ∧
      (¬ books.Accepts sender recipient amount nonce ∨ faulty faults 0 = true) := by
  simp [TransferCall.ForgetsNonce, from_eq, to_eq]

theorem sameFor_refused (refused : ¬ books.Accepts sender recipient amount nonce) :
    books.SameFor (TransferCall.message fromBytes toBytes amount nonce).accounts
        (books.refused sender recipient amount) ↔
      ¬ TransferCall.ForgetsNonce books faults (.message fromBytes toBytes amount nonce) := by
  rw [forgetsNonce_iff from_eq to_eq]
  unfold Books.refused
  split
  · next invalid =>
    refine iff_of_true (.refl _ _) ?_
    rintro ⟨different, positive, -⟩
    rcases invalid with same | nothing
    · exact different same
    · exact positive nothing
  · next valid =>
    rw [not_or] at valid
    rw [Books.sameFor_load (mem_accounts from_eq)]
    simp [valid, refused]

end

theorem failsAtomically_memory (blake3 : List UInt8 → Bytes32) (now : Int) (call : TransferCall)
    (manager : BalanceManager MemoryStorage) :
    FailsAtomically memoryAccounts blake3 now call manager ↔ ¬ call.ForgetsNonce (booksOf manager) [] := by
  cases call with
  | transfer sender recipient amount =>
    have agrees : Agrees booksOf ((TransferCall.transfer sender recipient amount).call blake3 now) manager _ :=
      transfer_agrees blake3 now
    refine iff_of_true ((failsAtomically_memory_iff agrees).mpr ?_) id
    unfold Operation.result
    cases (Operation.transfer sender recipient amount).outcome (booksOf manager) with
    | some after => exact .inl rfl
    | none => exact .inr (.refl _ _)
  | message fromBytes toBytes amount nonce =>
    have malformed (malformed : AccountAddress.fromBytes fromBytes = none ∨ AccountAddress.fromBytes toBytes = none) :
        FailsAtomically memoryAccounts blake3 now (.message fromBytes toBytes amount nonce) manager := by
      have agrees : Agrees booksOf ((TransferCall.message fromBytes toBytes amount nonce).call blake3 now) manager _ :=
        processMessageTransfer_malformed blake3 now malformed
      exact (failsAtomically_memory_iff agrees).mpr (.inr (.refl _ _))
    cases from_eq : AccountAddress.fromBytes fromBytes with
    | none =>
      refine iff_of_true (malformed (.inl from_eq)) ?_
      simp [TransferCall.ForgetsNonce, from_eq]
    | some sender =>
      cases to_eq : AccountAddress.fromBytes toBytes with
      | none =>
        refine iff_of_true (malformed (.inr to_eq)) ?_
        simp [TransferCall.ForgetsNonce, to_eq]
      | some recipient =>
        have agrees : Agrees booksOf ((TransferCall.message fromBytes toBytes amount nonce).call blake3 now) manager _ :=
          processMessageTransfer_agrees blake3 now from_eq to_eq
        rw [failsAtomically_memory_iff agrees]
        cases outcome : (booksOf manager).messageTransfer sender recipient amount nonce with
        | some after =>
          have accepts := Books.messageTransfer_isSome.mp (Option.isSome_of_eq_some outcome)
          refine iff_of_true (.inl rfl) ?_
          rw [forgetsNonce_iff from_eq to_eq]
          rintro ⟨-, -, -, -, refused | faults⟩
          · exact refused accepts
          · cases faults
        | none =>
          have refused : ¬ (booksOf manager).Accepts sender recipient amount nonce := by
            rw [← Books.messageTransfer_isSome, outcome]
            simp
          refine (or_iff_right Bool.false_ne_true).trans ?_
          exact sameFor_refused from_eq to_eq refused

theorem failsAtomically_of_spec [RecordJson]
    {manager : BalanceManager RocksDbStorage} {faults : List Bool} {late : Nat} {after : Books} {sender : AccountAddress}
    (spec : RocksSpec (call.call blake3 now) manager faults late (rocksBooks manager).1 after sender) :
    FailsAtomically rocksAccounts blake3 now call manager ↔
      ¬ (faulty faults 0 = false ∧ ∃ index, index < late ∧ faulty faults (index + 1) = true) ∧
        (faulty faults 0 = true → (rocksBooks manager).1.SameFor call.accounts after) := by
  cases first : faulty faults 0 with
  | true =>
    rcases spec.first first with ⟨rest, fails⟩
    rw [failsAtomically_rocks_of_fails fails]
    simp
  | false =>
    by_cases later : ∃ index, index < late ∧ faulty faults (index + 1) = true
    · rcases spec.later first later with ⟨taken, rest, fails, difference⟩
      rw [failsAtomically_rocks_of_fails fails]
      refine iff_of_false (Books.not_sameFor_taken difference) ?_
      rintro ⟨never, _⟩
      exact never ⟨rfl, later⟩
    · have works : ∀ index, index ≤ late → faulty faults index = false := by
        intro index bounded
        cases index with
        | zero => exact first
        | succ index =>
          rw [← Bool.not_eq_true]
          exact fun breaks => later ⟨index, by omega, breaks⟩
      refine iff_of_true (failsAtomically_of_ok (spec.works works)) ⟨fun broken => later broken.2, ?_⟩
      intro impossible
      cases impossible

theorem failsAtomically_rocks [RecordJson] (blake3 : List UInt8 → Bytes32) (now : Int) (call : TransferCall)
    (manager : BalanceManager RocksDbStorage) :
    FailsAtomically rocksAccounts blake3 now call manager ↔
      ¬ (call.HalfWritten (rocksBooks manager).1 manager.storage.faults ∨
        call.ForgetsNonce (rocksBooks manager).1 manager.storage.faults) := by
  have seen : rocksBooks manager = ((rocksBooks manager).1, manager.storage.faults) := rfl
  cases call with
  | transfer sender recipient amount =>
    have forgets : ¬ (TransferCall.transfer sender recipient amount).ForgetsNonce (rocksBooks manager).1
        manager.storage.faults := id
    simp only [forgets, or_false]
    by_cases nothing : amount = AdicAmount.zero
    · have returns : BalanceManager.transfer blake3 now sender recipient amount manager = .ok "" manager := by
        unfold BalanceManager.transfer
        rw [if_pos nothing]
        rfl
      exact iff_of_true (failsAtomically_of_ok ⟨_, _, returns⟩) fun half => half.1.1 nothing
    · by_cases refused : sender = recipient ∨ (rocksBooks manager).1.move sender recipient amount = none
      · have fails : Fails rocksBooks ((TransferCall.transfer sender recipient amount).call blake3 now) manager _ :=
          transfer_rocks_refused blake3 now seen nothing refused
        refine iff_of_true ((failsAtomically_rocks_of_fails fails).mpr (.refl _ _)) fun half => ?_
        rcases half.1 with ⟨_, different, moves⟩
        rw [← Books.move_isSome] at moves
        rw [refused.resolve_left different] at moves
        cases moves
      · rw [not_or, Option.eq_none_iff_forall_ne_some] at refused
        push Not at refused
        rcases refused with ⟨different, moved, moving⟩
        have spec : RocksSpec ((TransferCall.transfer sender recipient amount).call blake3 now) manager
            manager.storage.faults 2 _ _ sender := transfer_rocks blake3 now seen nothing different moving
        have ready : (TransferCall.transfer sender recipient amount).Ready (rocksBooks manager).1 :=
          ⟨nothing, different, Books.move_isSome.mp (Option.isSome_of_eq_some moving)⟩
        rw [failsAtomically_of_spec spec, TransferCall.HalfWritten]
        simp only [ready, true_and, TransferCall.laterWrites]
        exact and_iff_left fun _ => .refl _ _
  | message fromBytes toBytes amount nonce =>
    have malformed : AccountAddress.fromBytes fromBytes = none ∨ AccountAddress.fromBytes toBytes = none →
        FailsAtomically rocksAccounts blake3 now (.message fromBytes toBytes amount nonce) manager := by
      intro malformed
      have fails : Fails rocksBooks ((TransferCall.message fromBytes toBytes amount nonce).call blake3 now) manager _ :=
        messageTransfer_rocks_length blake3 now seen malformed
      exact (failsAtomically_rocks_of_fails fails).mpr (.refl _ _)
    cases from_eq : AccountAddress.fromBytes fromBytes with
    | none =>
      refine iff_of_true (malformed (.inl from_eq)) ?_
      simp [TransferCall.HalfWritten, TransferCall.Ready, TransferCall.ForgetsNonce, from_eq]
    | some sender =>
      cases to_eq : AccountAddress.fromBytes toBytes with
      | none =>
        refine iff_of_true (malformed (.inr to_eq)) ?_
        simp [TransferCall.HalfWritten, TransferCall.Ready, TransferCall.ForgetsNonce, to_eq]
      | some recipient =>
        have ready : (TransferCall.message fromBytes toBytes amount nonce).Ready (rocksBooks manager).1 ↔
            (rocksBooks manager).1.Accepts sender recipient amount nonce := by
          simp [TransferCall.Ready, from_eq, to_eq]
        by_cases accepts : (rocksBooks manager).1.Accepts sender recipient amount nonce
        · have spec : RocksSpec ((TransferCall.message fromBytes toBytes amount nonce).call blake3 now) manager
              manager.storage.faults 3 _ _ sender := messageTransfer_rocks blake3 now seen from_eq to_eq accepts
          rw [failsAtomically_of_spec spec, TransferCall.HalfWritten, forgetsNonce_iff from_eq to_eq,
            Books.sameFor_load (mem_accounts from_eq), not_or]
          simp only [ready, accepts, TransferCall.laterWrites, true_and, not_true, false_or]
          refine and_congr_right fun _ => ?_
          have different := accepts.different
          have positive := accepts.positive
          tauto
        · have refused : (rocksBooks manager).1.messageTransfer sender recipient amount nonce = none := by
            rw [← Option.not_isSome_iff_eq_none, Books.messageTransfer_isSome]
            exact accepts
          have fails : Fails rocksBooks ((TransferCall.message fromBytes toBytes amount nonce).call blake3 now) manager
              _ := messageTransfer_rocks_refused blake3 now seen from_eq to_eq refused
          have half : ¬ (TransferCall.message fromBytes toBytes amount nonce).HalfWritten (rocksBooks manager).1
              manager.storage.faults := fun half => accepts (ready.mp half.1)
          rw [failsAtomically_rocks_of_fails fails]
          simp only [half, false_or]
          exact sameFor_refused from_eq to_eq accepts

/-- A failed transfer leaves balances and nonces exactly if no write fails after the first and no nonce is forgotten. -/
theorem failure_atomic_iff [RecordJson] (blake3 : List UInt8 → Bytes32) (now : Int) (call : TransferCall) :
    (∀ manager : BalanceManager MemoryStorage, FailsAtomically memoryAccounts blake3 now call manager ↔
      ¬ call.ForgetsNonce (booksOf manager) []) ∧
    ∀ manager : BalanceManager RocksDbStorage, FailsAtomically rocksAccounts blake3 now call manager ↔
      ¬ (call.HalfWritten (rocksBooks manager).1 manager.storage.faults ∨
        call.ForgetsNonce (rocksBooks manager).1 manager.storage.faults) :=
  ⟨failsAtomically_memory blake3 now call, failsAtomically_rocks blake3 now call⟩

def failingDatabase : RocksDbStorage := { RocksDbStorage.new with
  cfBalances := (∅ : BalanceMap).insert (account 1) ⟨10⟩
  faults := [false, true] }

/-- A refused message transfer forgets the stored nonce, and a transfer is left half written. -/
theorem not_failsAtomically :
    ¬ FailsAtomically memoryAccounts (fun _ => Bytes32.replicate 0) 0
        (.message (List.replicate 32 1) (List.replicate 32 2) 1 1) (BalanceManager.new usedStorage) ∧
      ∀ _ : RecordJson, ¬ FailsAtomically rocksAccounts (fun _ => Bytes32.replicate 0) 0
        (.transfer (account 1) (account 2) ⟨1⟩) (BalanceManager.new failingDatabase) := by
  constructor
  · rw [failsAtomically_memory, not_not]
    refine ⟨account 1, account 2, by decide, by decide, by decide, by decide, by decide, by decide +kernel, .inl ?_⟩
    intro accepts
    have enough := accepts.storedEnough
    revert enough
    decide +kernel
  · intro _
    rw [failsAtomically_rocks, not_not]
    exact .inl ⟨⟨by decide, by decide, by decide +kernel, by decide +kernel⟩, by decide, 0, by decide, by decide⟩

end AdicProof.Economics
