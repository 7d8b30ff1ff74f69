import AdicCore.Economics.Operations

open AdicModel AdicModel.Economics

namespace AdicProof.Economics

def Accounts.entry (accounts : Accounts) (address : AccountAddress) : Entry where
  balance := accounts.balance address
  locked := accounts.locked address
  nonce := accounts.nonce address

namespace Accounts

def move (accounts : Accounts) (sender recipient : AccountAddress) (amount : AdicAmount) : Option Accounts :=
  if accounts.balance sender < amount then none
  else ((accounts.balance recipient).checkedAdd amount).map fun newToBalance =>
    (accounts.setBalance sender ((accounts.balance sender).saturatingSub amount)).setBalance recipient newToBalance

def messageTransfer (accounts : Accounts) (sender recipient : AccountAddress) (amount nonce : UInt64) :
    Option Accounts :=
  if sender = recipient ∨ amount = 0 ∨ accounts.balance sender < AdicAmount.fromBaseUnits amount ∨
      nonce ≠ accounts.nonce sender + 1 then none
  else (accounts.move sender recipient (AdicAmount.fromBaseUnits amount)).map
    fun moved => moved.setNonce sender (accounts.nonce sender + 1)

theorem nonce_move {accounts moved : Accounts} {sender recipient : AccountAddress} {amount : AdicAmount}
    (accepted : accounts.move sender recipient amount = some moved) : moved.nonce = accounts.nonce := by
  unfold move at accepted
  split at accepted
  · cases accepted
  · rcases Option.map_eq_some_iff.mp accepted with ⟨newToBalance, -, rfl⟩
    rfl

variable (accounts : Accounts) (address other : AccountAddress)

theorem entry_setBalance (amount : AdicAmount) : (accounts.setBalance address amount).entry other =
    if other = address then { accounts.entry address with balance := amount } else accounts.entry other := by
  unfold Accounts.entry setBalance
  split
  · next same => simp [same]
  · next different => simp [different]

theorem entry_setLocked (amount : AdicAmount) : (accounts.setLocked address amount).entry other =
    if other = address then { accounts.entry address with locked := amount } else accounts.entry other := by
  unfold Accounts.entry setLocked
  split
  · next same => simp [same]
  · next different => simp [different]

theorem entry_setNonce (nonce : UInt64) : (accounts.setNonce address nonce).entry other =
    if other = address then { accounts.entry address with nonce := nonce } else accounts.entry other := by
  unfold Accounts.entry setNonce
  split
  · next same => simp [same]
  · next different => simp [different]

end Accounts

/-- What an operation does to the accounts without the cache, `none` if it is refused. -/
def Operation.ledger (accounts : Accounts) : Operation → Option Accounts
  | .credit address amount =>
    if amount = AdicAmount.zero then some accounts
    else ((accounts.balance address).checkedAdd amount).bind fun newBalance =>
      if AdicAmount.maxSupply < newBalance then none else some (accounts.setBalance address newBalance)
  | .debit address amount =>
    if amount = AdicAmount.zero then some accounts
    else ((accounts.balance address).checkedSub amount).map (accounts.setBalance address)
  | .transfer sender recipient amount =>
    if amount = AdicAmount.zero then some accounts
    else if sender = recipient then none
    else accounts.move sender recipient amount
  | .lock address amount =>
    if (accounts.balance address).saturatingSub (accounts.locked address) < amount then none
    else some (accounts.setLocked address ((accounts.locked address).saturatingAdd amount))
  | .unlock address amount =>
    if accounts.locked address < amount then none
    else some (accounts.setLocked address ((accounts.locked address).saturatingSub amount))
  | .processMessageTransfer sender recipient amount nonce =>
    match AccountAddress.fromBytes sender, AccountAddress.fromBytes recipient with
    | some fromAddr, some toAddr => accounts.messageTransfer fromAddr toAddr amount nonce
    | _, _ => none
  | .getBalance _ | .getLockedBalance _ | .getNonce _ | .clearCache | .restart => some accounts

namespace Books

def Tracked (books : Books) : Prop := ∀ address, books.entry address = books.accounts.entry address

variable {books : Books} {address other : AccountAddress}

theorem entry_setEntry (entry : Entry) : (books.setEntry address entry).entry other =
    if other = address then entry else books.entry other := by
  unfold Books.entry setEntry cachedLocked cachedNonce
  split
  · next same => simp [same]
  · next different => simp [different]

theorem entry_write (amount : AdicAmount) : (books.write address amount).entry other =
    if other = address then { books.entry address with balance := amount } else books.entry other := by
  unfold Books.entry write setEntry cachedLocked cachedNonce Accounts.setBalance
  split
  · next same => simp [same]
  · next different => simp [different]

theorem entry_setLocked (entry : Entry) (amount : AdicAmount) : (books.setLocked address entry amount).entry other =
    if other = address then { entry with locked := amount } else books.entry other := by
  unfold Books.entry setLocked setEntry cachedLocked cachedNonce Accounts.setLocked
  split
  · next same => simp [same]
  · next different => simp [different]

theorem entry_bumpNonce : (books.bumpNonce address).entry other =
    if other = address then { books.entry address with nonce := (books.entry address).nonce + 1 }
    else books.entry other := by
  unfold bumpNonce
  rw [entry_setEntry]
  rfl

@[simp] theorem accounts_write (amount : AdicAmount) :
    (books.write address amount).accounts = books.accounts.setBalance address amount := rfl

@[simp] theorem accounts_setLocked (entry : Entry) (amount : AdicAmount) :
    (books.setLocked address entry amount).accounts = books.accounts.setLocked address amount := rfl

@[simp] theorem accounts_bumpNonce : (books.bumpNonce address).accounts =
    books.accounts.setNonce address ((books.entry address).nonce + 1) := rfl

namespace Tracked

variable (tracked : books.Tracked)

include tracked

theorem balance : (books.entry address).balance = books.accounts.balance address := by
  rw [tracked address]
  rfl

theorem nonce : (books.entry address).nonce = books.accounts.nonce address := by
  rw [tracked address]
  rfl

theorem setEntry {entry : Entry} (same : entry = books.accounts.entry address) :
    (books.setEntry address entry).Tracked := by
  intro other
  rw [entry_setEntry, accounts_setEntry]
  split
  · next here =>
    rw [here]
    exact same
  · exact tracked other

theorem load : (books.load address).Tracked := tracked.setEntry (tracked address)

theorem write (amount : AdicAmount) : (books.write address amount).Tracked := by
  intro other
  rw [entry_write, accounts_write, Accounts.entry_setBalance, tracked address, tracked other]

theorem setLocked {entry : Entry} (same : entry = books.accounts.entry address) (amount : AdicAmount) :
    (books.setLocked address entry amount).Tracked := by
  intro other
  rw [entry_setLocked, accounts_setLocked, Accounts.entry_setLocked, same, tracked other]

theorem bumpNonce : (books.bumpNonce address).Tracked := by
  intro other
  rw [entry_bumpNonce, accounts_bumpNonce, Accounts.entry_setNonce, tracked address, tracked other]

theorem move (sender recipient : AccountAddress) (amount : AdicAmount) :
    (books.move sender recipient amount).map Books.accounts = books.accounts.move sender recipient amount ∧
      ∀ moved, books.move sender recipient amount = some moved → moved.Tracked := by
  unfold Books.move Accounts.move
  by_cases short : books.accounts.balance sender < amount
  · simp [if_pos short]
  · simp only [if_neg short, Option.map_map, Option.map_eq_some_iff]
    refine ⟨rfl, ?_⟩
    rintro moved ⟨newToBalance, -, rfl⟩
    exact (tracked.write _).write _

theorem messageTransfer (sender recipient : AccountAddress) (amount nonce : UInt64) :
    (books.messageTransfer sender recipient amount nonce).map Books.accounts =
        books.accounts.messageTransfer sender recipient amount nonce ∧
      ∀ moved, books.messageTransfer sender recipient amount nonce = some moved → moved.Tracked := by
  unfold Books.messageTransfer Accounts.messageTransfer
  rw [tracked.balance, tracked.nonce]
  split
  · simp
  · have loaded : (books.load sender).Tracked := tracked.load
    rcases loaded.move sender recipient (AdicAmount.fromBaseUnits amount) with ⟨accounts, kept⟩
    rw [accounts_load] at accounts
    rw [← accounts]
    cases moved : (books.load sender).move sender recipient (AdicAmount.fromBaseUnits amount) with
    | none => simp
    | some after =>
      have trackedAfter := kept after moved
      have nonces : after.accounts.nonce sender = books.accounts.nonce sender := by
        rw [moved] at accounts
        exact congrFun (Accounts.nonce_move accounts.symm) sender
      simp only [Option.map_some, Option.some.injEq, accounts_bumpNonce, trackedAfter.nonce, nonces, true_and,
        forall_eq']
      exact trackedAfter.bumpNonce

end Tracked

end Books

/-- The operations that keep ledger and cache together: no new cache, and no entry for an unread account. -/
def Operation.Regular (books : Books) : Operation → Prop
  | .clearCache | .restart => False
  | .lock address _ => (books.cache address).isSome ∨ books.accounts.balance address = AdicAmount.zero
  | _ => True

theorem Books.Tracked.lockEntry {books : Books} {address : AccountAddress} (tracked : books.Tracked)
    (regular : (books.cache address).isSome ∨ books.accounts.balance address = AdicAmount.zero) :
    books.lockEntry address = books.accounts.entry address := by
  rw [← tracked address]
  unfold Books.lockEntry Books.entry Books.cachedLocked Books.cachedNonce
  cases cached : books.cache address with
  | some entry => rfl
  | none =>
    have empty : books.accounts.balance address = AdicAmount.zero := by simpa [cached] using regular
    simp [empty]

section

variable {books after : Books} {operation : Operation}

theorem Operation.outcome_ledger (tracked : books.Tracked) (regular : operation.Regular books)
    (outcome : operation.outcome books = some after) :
    operation.ledger books.accounts = some after.accounts ∧ after.Tracked := by
  cases Operation.effect_of_outcome outcome with
  | getBalance address => exact ⟨rfl, tracked.load⟩
  | getLockedBalance | getNonce => exact ⟨rfl, tracked⟩
  | clearCache | restart => cases regular
  | creditNothing nothing | debitNothing nothing | transferNothing nothing => exact ⟨if_pos nothing, tracked⟩
  | credit something sum below =>
    rw [tracked.balance] at sum
    simp only [Operation.ledger, if_neg something, sum, Option.bind_some, if_neg below]
    exact ⟨rfl, tracked.write _⟩
  | debit something rest =>
    rw [tracked.balance] at rest
    simp only [Operation.ledger, if_neg something, rest, Option.map_some]
    exact ⟨rfl, tracked.write _⟩
  | @transfer sender recipient amount _ something different moving =>
    rcases tracked.move sender recipient amount with ⟨accounts, kept⟩
    rw [moving] at accounts
    simp only [Operation.ledger, if_neg something, if_neg different, ← accounts]
    exact ⟨rfl, kept after moving⟩
  | lock enough =>
    rw [tracked.lockEntry regular] at enough ⊢
    exact ⟨if_neg enough, tracked.setLocked rfl _⟩
  | @unlock address _ entry cached enough =>
    have same : entry = books.accounts.entry address := by rw [← tracked address, Books.entry_cached cached]
    rw [same] at enough
    refine ⟨?_, tracked.setLocked same _⟩
    rw [same]
    exact if_neg enough
  | @processMessageTransfer _ _ fromAddr toAddr amount nonce _ isSender isRecipient transferred =>
    rcases tracked.messageTransfer fromAddr toAddr amount nonce with ⟨accounts, kept⟩
    rw [transferred] at accounts
    simp only [Operation.ledger, isSender, isRecipient]
    exact ⟨accounts.symm, kept after transferred⟩

end

end AdicProof.Economics
