import AdicCore.Consensus.Deposit
import AdicCore.Economics.Operations

open AdicModel AdicModel.Economics AdicModel.Consensus AdicProof.Economics Calls

namespace AdicProof.Consensus

inductive DepositOperation where
  | escrow (messageId : MessageId) (proposer : PublicKey)
  | refund (messageId : MessageId)
  | slash (messageId : MessageId)
  | setDepositAmount (amount : AdicAmount)
  | ledger (operation : Operation)

structure Escrows where
  depositAmount : AdicAmount
  deposits : HashMap.Table MessageId Deposit
  books : Books

namespace Escrows

variable (blake3 : List UInt8 → Bytes32) (escrows : Escrows)

def address (deposit : Deposit) : AccountAddress := AccountAddress.fromPublicKey blake3 deposit.proposerPk

def held (messageId : MessageId) : Option Deposit :=
  (escrows.deposits.lookup messageId).filter fun deposit => deposit.status = .escrowed

def result (now : Int) : DepositOperation → Bool × Escrows
  | .escrow messageId proposer =>
    let proposerAddr := AccountAddress.fromPublicKey blake3 proposer
    let entry := escrows.books.entry proposerAddr
    let loaded := escrows.books.load proposerAddr
    if entry.balance.saturatingSub entry.locked < escrows.depositAmount then (false, { escrows with books := loaded })
    else (true, { escrows with
      books := loaded.setLocked proposerAddr entry (entry.locked.saturatingAdd escrows.depositAmount)
      deposits := escrows.deposits.insert messageId ⟨messageId, proposer, escrows.depositAmount, .escrowed, now⟩ })
  | .refund messageId =>
    match escrows.held messageId with
    | none => (false, escrows)
    | some deposit =>
      match (Operation.unlock (address blake3 deposit) deposit.amount).outcome escrows.books with
      | none => (false, escrows)
      | some unlocked => (true, { escrows with
          books := unlocked
          deposits := escrows.deposits.insert messageId { deposit with status := .refunded } })
  | .slash messageId =>
    match escrows.held messageId with
    | none => (false, escrows)
    | some deposit =>
      match (Operation.unlock (address blake3 deposit) deposit.amount).outcome escrows.books with
      | none => (false, escrows)
      | some unlocked =>
        match (Operation.transfer (address blake3 deposit) AccountAddress.treasury deposit.amount).outcome unlocked with
        | none => (false, { escrows with books := unlocked })
        | some sent => (true, { escrows with
            books := sent
            deposits := escrows.deposits.insert messageId { deposit with status := .slashed } })
  | .setDepositAmount amount => (true, { escrows with depositAmount := amount })
  | .ledger operation =>
    match operation.outcome escrows.books with
    | some after => (true, { escrows with books := after })
    | none => (false, { escrows with books := operation.residue escrows.books })

end Escrows

section

variable {σ : Type} [EconomicsStorage σ] (blake3 : List UInt8 → Bytes32) (now : Int)

def ran {ε τ α : Type} : EStateM.Result ε τ α → Bool × τ
  | .ok _ next => (true, next)
  | .error _ next => (false, next)

def DepositOperation.run (manager : DepositManager σ) : DepositOperation → Bool × DepositManager σ
  | .escrow messageId proposer => ran (DepositManager.escrow blake3 now messageId proposer manager)
  | .refund messageId => ran (DepositManager.refund blake3 messageId manager)
  | .slash messageId => ran (DepositManager.slash blake3 now messageId manager)
  | .setDepositAmount amount => ran (DepositManager.setDepositAmount amount manager)
  | .ledger operation =>
    match manager.balanceManager with
    | none => (true, manager)
    | some balances =>
      let called := ran (operation.call blake3 now balances)
      (called.1, { manager with balanceManager := some called.2 })

variable [LawfulStorage σ]

def escrowsOf (manager : DepositManager σ) : Option Escrows :=
  manager.balanceManager.map fun balances => ⟨manager.depositAmount, manager.deposits, booksOf balances⟩

theorem ran_agrees {ε τ υ α : Type} {view : τ → υ} {call : EStateM ε τ α} {state : τ} {expected : Bool × υ}
    (agrees : Agrees view call state expected) :
    (ran (call state)).1 = expected.1 ∧ view (ran (call state)).2 = expected.2 := by
  unfold Agrees at agrees
  cases run : call state with
  | ok value next =>
    rw [run] at agrees
    exact ⟨congrArg Prod.fst agrees, congrArg Prod.snd agrees⟩
  | error error next =>
    rw [run] at agrees
    exact ⟨congrArg Prod.fst agrees, congrArg Prod.snd agrees⟩

section

variable {balances : BalanceManager σ} {address : AccountAddress} {amount : AdicAmount}

theorem getUnlockedBalance_returns : Returns booksOf (BalanceManager.getUnlockedBalance now address) balances
    (((booksOf balances).entry address).balance.saturatingSub ((booksOf balances).entry address).locked)
    ((booksOf balances).load address) := by
  unfold BalanceManager.getUnlockedBalance
  refine (getBalance_returns now).bind fun loaded seen => ?_
  have cached : (booksOf loaded).cache address = some ((booksOf balances).entry address) := by
    rw [seen]
    exact Books.cache_load _ _
  exact (getLockedBalance_cached cached).bind fun last lastSeen => returns_pure (by rw [lastSeen, seen])

theorem lockEntry_load (books : Books) : (books.load address).lockEntry address = books.entry address := by
  unfold Books.lockEntry
  rw [Books.cache_load]
  rfl

theorem lockDeposit_agrees : Agrees booksOf (DepositManager.lockDeposit now address amount) balances
    (if ((booksOf balances).entry address).balance.saturatingSub ((booksOf balances).entry address).locked < amount then
        (false, (booksOf balances).load address)
      else (true, ((booksOf balances).load address).setLocked address ((booksOf balances).entry address)
        (((booksOf balances).entry address).locked.saturatingAdd amount))) := by
  unfold DepositManager.lockDeposit
  refine ((getUnlockedBalance_returns now).adapt _).agrees_bind fun loaded seen => ?_
  refine agrees_ite (fun _ => agrees_throw seen) fun enough => ?_
  have locks := @lock_agrees _ _ _ loaded address amount now
  unfold Operation.result Operation.outcome at locks
  dsimp only at locks
  rw [seen, lockEntry_load, if_neg enough] at locks
  exact locks.adapt _

theorem forfeit_agrees : Agrees booksOf (DepositManager.forfeit blake3 now address amount) balances
    (((Operation.unlock address amount).outcome (booksOf balances)).elim (false, booksOf balances)
      (Operation.transfer address AccountAddress.treasury amount).result) := by
  unfold DepositManager.forfeit
  refine (unlock_agrees.adapt _).bind fun _ next after _ seen => ?_
  rw [← seen]
  exact ((transfer_agrees blake3 now).adapt _).discard

end

section

variable {manager : DepositManager σ} {escrows : Escrows} {balances : BalanceManager σ}
  {messageId : MessageId}

theorem onBalanceManager_agrees {block : EStateM DepositError (BalanceManager σ) Unit} {expected : Bool × Books}
    (managed : manager.balanceManager = some balances) (agrees : Agrees booksOf block balances expected) :
    Agrees escrowsOf (DepositManager.onBalanceManager block) manager
      (expected.1, some ⟨manager.depositAmount, manager.deposits, expected.2⟩) := by
  unfold Agrees at agrees ⊢
  unfold DepositManager.onBalanceManager
  simp only [managed]
  cases run : block balances with
  | ok value next =>
    rw [run] at agrees
    rw [← agrees]
    rfl
  | error error next =>
    rw [run] at agrees
    rw [← agrees]
    rfl

theorem insertDeposit_returns (seen : escrowsOf manager = some escrows) (messageId : MessageId) (deposit : Deposit) :
    Returns escrowsOf (DepositManager.insertDeposit messageId deposit) manager ()
      (some { escrows with deposits := escrows.deposits.insert messageId deposit }) := by
  rcases Option.map_eq_some_iff.mp seen with ⟨balances, managed, rfl⟩
  refine ⟨{ manager with deposits := manager.deposits.insert messageId deposit }, rfl, ?_⟩
  unfold escrowsOf
  simp only [managed, Option.map_some]

theorem recorded_agrees {block : EStateM DepositError (BalanceManager σ) Unit} {expected : Bool × Books}
    (managed : manager.balanceManager = some balances) (agrees : Agrees booksOf block balances expected)
    (messageId : MessageId) (deposit : Deposit) :
    Agrees escrowsOf
      (DepositManager.onBalanceManager block >>= fun _ => DepositManager.insertDeposit messageId deposit) manager
      (expected.1, some ⟨manager.depositAmount,
        if expected.1 then manager.deposits.insert messageId deposit else manager.deposits, expected.2⟩) := by
  have first := onBalanceManager_agrees managed agrees
  obtain ⟨_ | _, after⟩ := expected
  · exact first.fails.bind.agrees
  · obtain ⟨_, returns⟩ := first.returns
    exact returns.agrees_bind fun next seen => (insertDeposit_returns seen messageId deposit).agrees

theorem held_eq_some {messageId : MessageId} {deposit : Deposit} (held : escrows.held messageId = some deposit) :
    escrows.deposits.lookup messageId = some deposit ∧ deposit.status = .escrowed := by
  unfold Escrows.held at held
  rw [Option.filter_eq_some_iff] at held
  simpa using held

/-- A refund or a slash of an escrowed deposit is recorded if what is done to the balances succeeds. -/
theorem settle_agrees {block : Deposit → EStateM DepositError (BalanceManager σ) Unit} {settled : Deposit → Deposit}
    {expected : Deposit → Bool × Books} (managed : manager.balanceManager = some balances)
    (agrees : ∀ deposit, Agrees booksOf (block deposit) balances (expected deposit)) :
    Agrees escrowsOf (do
      match (← get).deposits.lookup messageId with
      | none => throw (.noDeposit messageId)
      | some deposit =>
        if deposit.status ≠ .escrowed then throw (.notEscrowed messageId)
        else
          DepositManager.onBalanceManager (block deposit)
          DepositManager.insertDeposit messageId (settled deposit)) manager
      ((Escrows.held ⟨manager.depositAmount, manager.deposits, booksOf balances⟩ messageId).elim
        (false, some ⟨manager.depositAmount, manager.deposits, booksOf balances⟩) fun deposit =>
        ((expected deposit).1, some ⟨manager.depositAmount, if (expected deposit).1 then
          manager.deposits.insert messageId (settled deposit) else manager.deposits, (expected deposit).2⟩)) := by
  have seen : escrowsOf manager = some ⟨manager.depositAmount, manager.deposits, booksOf balances⟩ := by
    unfold escrowsOf
    rw [managed]
    rfl
  apply Agrees.get
  unfold Escrows.held
  cases found : manager.deposits.lookup messageId with
  | none => exact agrees_throw seen
  | some deposit =>
    by_cases escrowed : deposit.status = .escrowed
    · simp only [Option.filter_some, escrowed, decide_true, if_true, ne_eq, not_true, if_false]
      exact recorded_agrees managed (agrees deposit) messageId (settled deposit)
    · simp only [Option.filter_some, escrowed, decide_false, ne_eq, not_false_eq_true, if_true]
      exact agrees_throw seen

theorem DepositOperation.run_result (operation : DepositOperation) (seen : escrowsOf manager = some escrows) :
    (operation.run blake3 now manager).1 = (escrows.result blake3 now operation).1 ∧
      escrowsOf (operation.run blake3 now manager).2 = some (escrows.result blake3 now operation).2 := by
  rcases Option.map_eq_some_iff.mp seen with ⟨balances, managed, rfl⟩
  cases operation with
  | escrow messageId proposer =>
    have agrees := ran_agrees (recorded_agrees managed (@lockDeposit_agrees _ _ now _ balances
      (AccountAddress.fromPublicKey blake3 proposer) manager.depositAmount) messageId
      ⟨messageId, proposer, manager.depositAmount, .escrowed, now⟩)
    simp only [Escrows.result]
    split at agrees
    · next short =>
      rw [if_pos short]
      exact agrees
    · next enough =>
      rw [if_neg enough]
      exact agrees
  | refund messageId =>
    have agrees := ran_agrees (@settle_agrees _ _ _ _ _ messageId _
      (fun deposit => { deposit with status := .refunded }) _ managed fun deposit =>
        (@unlock_agrees _ _ _ balances (Escrows.address blake3 deposit) deposit.amount).adapt DepositError.unlock)
    simp only [Escrows.result]
    cases held : Escrows.held ⟨manager.depositAmount, manager.deposits, booksOf balances⟩ messageId with
    | none =>
      rw [held] at agrees
      exact agrees
    | some deposit =>
      rw [held] at agrees
      unfold Operation.result at agrees
      cases unlocks : (Operation.unlock (Escrows.address blake3 deposit) deposit.amount).outcome (booksOf balances) with
      | none =>
        simp only [Option.elim_some, unlocks] at agrees
        simp only [unlocks]
        exact agrees
      | some unlocked =>
        simp only [Option.elim_some, unlocks] at agrees
        simp only [unlocks]
        exact agrees
  | slash messageId =>
    have agrees := ran_agrees (@settle_agrees _ _ _ _ _ messageId _
      (fun deposit => { deposit with status := .slashed }) _ managed fun deposit =>
        @forfeit_agrees _ _ blake3 now _ balances (Escrows.address blake3 deposit) deposit.amount)
    simp only [Escrows.result]
    cases held : Escrows.held ⟨manager.depositAmount, manager.deposits, booksOf balances⟩ messageId with
    | none =>
      rw [held] at agrees
      exact agrees
    | some deposit =>
      rw [held] at agrees
      cases unlocks : (Operation.unlock (Escrows.address blake3 deposit) deposit.amount).outcome (booksOf balances) with
      | none =>
        simp only [Option.elim_some, unlocks] at agrees
        simp only [unlocks]
        exact agrees
      | some unlocked =>
        unfold Operation.result at agrees
        cases sends : (Operation.transfer (Escrows.address blake3 deposit) AccountAddress.treasury
            deposit.amount).outcome unlocked with
        | none =>
          simp only [Option.elim_some, unlocks, sends] at agrees
          simp only [unlocks, sends]
          exact agrees
        | some sent =>
          simp only [Option.elim_some, unlocks, sends] at agrees
          simp only [unlocks, sends]
          exact agrees
  | setDepositAmount amount =>
    refine ⟨rfl, ?_⟩
    show escrowsOf { manager with depositAmount := amount } = _
    unfold escrowsOf
    simp only [managed, Option.map_some, Escrows.result]
  | ledger operation =>
    obtain ⟨ends, left⟩ := ran_agrees (@Operation.agrees _ _ _ balances operation blake3 now)
    simp only [DepositOperation.run, managed, Escrows.result]
    unfold Operation.result at ends left
    cases outcome : operation.outcome (booksOf balances) with
    | some after =>
      rw [outcome] at ends left
      exact ⟨ends, congrArg (fun books => some (Escrows.mk manager.depositAmount manager.deposits books)) left⟩
    | none =>
      rw [outcome] at ends left
      exact ⟨ends, congrArg (fun books => some (Escrows.mk manager.depositAmount manager.deposits books)) left⟩

end

end

end AdicProof.Consensus
