import AdicCore.Economics.Books

open AdicModel AdicModel.Economics Calls

namespace AdicProof.Economics

namespace Books

/-- A transfer, `none` if the sender has too little or the recipient's balance overflows. -/
def move (books : Books) (sender recipient : AccountAddress) (amount : AdicAmount) : Option Books :=
  if books.accounts.balance sender < amount then none
  else ((books.accounts.balance recipient).checkedAdd amount).map fun newToBalance =>
    (books.write sender ((books.accounts.balance sender).saturatingSub amount)).write recipient newToBalance

def bumpNonce (books : Books) (address : AccountAddress) : Books :=
  { books with accounts := books.accounts.setNonce address ((books.entry address).nonce + 1) }.setEntry address
    { books.entry address with nonce := (books.entry address).nonce + 1 }

def messageTransfer (books : Books) (sender recipient : AccountAddress) (amount nonce : UInt64) : Option Books :=
  if sender = recipient ∨ amount = 0 ∨ (books.entry sender).balance < AdicAmount.fromBaseUnits amount ∨
      nonce ≠ (books.entry sender).nonce + 1 then none
  else ((books.load sender).move sender recipient (AdicAmount.fromBaseUnits amount)).map
    fun moved => moved.bumpNonce sender

def refused (books : Books) (sender recipient : AccountAddress) (amount : UInt64) : Books :=
  if sender = recipient ∨ amount = 0 then books else books.load sender

theorem move_eq {books after : Books} {sender recipient : AccountAddress} {amount : AdicAmount}
    (moving : books.move sender recipient amount = some after) :
    ¬ books.accounts.balance sender < amount ∧ ∃ newToBalance,
      (books.accounts.balance recipient).checkedAdd amount = some newToBalance ∧ after =
        (books.write sender ((books.accounts.balance sender).saturatingSub amount)).write recipient newToBalance := by
  unfold move at moving
  split at moving
  · cases moving
  · next enough =>
    obtain ⟨newToBalance, sum, rfl⟩ := Option.map_eq_some_iff.mp moving
    exact ⟨enough, newToBalance, sum, rfl⟩

end Books

theorem attempt_returns {σ τ α : Type} {view : σ → τ} {call : Call σ α} {state : σ} {value : α} {after : τ}
    (returns : Returns view call state value after) : Returns view (attempt call) state (.ok value) after := by
  rcases returns with ⟨next, run, seen⟩
  exact ⟨next, by simp only [attempt, run], seen⟩

section

variable {σ : Type} [EconomicsStorage σ] [LawfulStorage σ] {manager : BalanceManager σ}
  {sender recipient : AccountAddress} {amount : AdicAmount}

theorem getBalance_onStorage {α : Type} (address : AccountAddress) (rest : AdicAmount → Call (BalanceManager σ) α) :
    (BalanceManager.onStorage (EconomicsStorage.getBalance address) >>= rest) manager =
      rest ((booksOf manager).accounts.balance address) manager := by
  apply bind_ok
  simp only [BalanceManager.onStorage, LawfulStorage.getBalance]
  rfl

theorem transferInternal_steps (blake3 : List UInt8 → Bytes32) (now : Int) :
    match (booksOf manager).move sender recipient amount with
    | none => ∃ error,
      BalanceManager.transferInternal blake3 now sender recipient amount manager = .error error manager
    | some moved => sender ≠ recipient →
      Agrees booksOf (BalanceManager.transferInternal blake3 now sender recipient amount) manager (true, moved) := by
  unfold BalanceManager.transferInternal Books.move
  by_cases short : (booksOf manager).accounts.balance sender < amount
  · rw [if_pos short, getBalance_onStorage, if_pos short]
    exact ⟨_, rfl⟩
  rw [if_neg short]
  cases sum : ((booksOf manager).accounts.balance recipient).checkedAdd amount with
  | none =>
    dsimp only [Option.map_none]
    rw [getBalance_onStorage, if_neg short, getBalance_onStorage]
    simp only [sum]
    exact ⟨_, rfl⟩
  | some newToBalance =>
    intro different
    refine getBalance_stored.agrees_bind fun first firstSeen => ?_
    rw [if_neg short]
    refine getBalance_stored.agrees_bind fun second secondSeen => ?_
    rw [firstSeen] at secondSeen ⊢
    simp only [sum]
    refine (setBalance_stored _).agrees_bind fun third thirdSeen => ?_
    refine (setBalance_stored _).agrees_bind fun fourth fourthSeen => ?_
    refine (cacheBalance_returns now _).agrees_bind fun fifth fifthSeen => ?_
    refine (cacheBalance_returns now _).agrees_bind fun sixth sixthSeen => agrees_pure ?_
    rw [sixthSeen, fifthSeen, fourthSeen, thirdSeen, secondSeen]
    simp [Books.write, Books.setEntry, Books.cachedLocked, Books.cachedNonce, different.symm]

theorem recordTransfer_returns (now : Int) (txHash : String) :
    Returns booksOf (BalanceManager.recordTransfer now sender recipient amount txHash) manager () (booksOf manager) := by
  unfold BalanceManager.recordTransfer
  have recorded := onStorage_returns (LawfulStorage.recordTransaction
    ⟨sender, recipient, amount, ⟨now, 0⟩, txHash, "confirmed"⟩ manager.storage)
  exact (attempt_returns recorded).bind fun next seen => returns_pure seen

theorem commit_returns :
    Returns booksOf (BalanceManager.onStorage EconomicsStorage.commitTransaction) manager () (booksOf manager) :=
  onStorage_returns (LawfulStorage.commitTransaction manager.storage)

theorem begin_returns (manager : BalanceManager σ) : ∃ next,
    BalanceManager.onStorage EconomicsStorage.beginTransaction manager = .ok () next ∧
      booksOf next = booksOf manager ∧
      Returns booksOf (BalanceManager.onStorage EconomicsStorage.rollbackTransaction) next () (booksOf manager) := by
  rcases LawfulStorage.beginTransaction manager.storage with ⟨storage, run, same, rolledBack⟩
  refine ⟨{ manager with storage := storage }, ?_, ?_, ?_⟩
  · simp only [BalanceManager.onStorage, run]
  · unfold booksOf
    rw [same]
  · exact onStorage_returns rolledBack

theorem transaction_agrees (blake3 : List UInt8 → Bytes32) (now : Int) (different : sender ≠ recipient)
    {rest : String → Call (BalanceManager σ) String} {done : Books → Books}
    (finishes : ∀ txHash moved next, (booksOf manager).move sender recipient amount = some moved →
      booksOf next = moved → Agrees booksOf (rest txHash) next (true, done moved)) :
    Agrees booksOf (do
      BalanceManager.onStorage EconomicsStorage.beginTransaction
      match ← attempt (BalanceManager.transferInternal blake3 now sender recipient amount) with
      | .ok txHash => rest txHash
      | .error error =>
        BalanceManager.onStorage EconomicsStorage.rollbackTransaction
        throw error) manager
      (((booksOf manager).move sender recipient amount).elim (false, booksOf manager) fun moved => (true, done moved)) := by
  rcases begin_returns manager with ⟨begun, run, begunSeen, rolledBack⟩
  have steps := @transferInternal_steps _ _ _ begun sender recipient amount blake3 now
  rw [begunSeen] at steps
  have beginning : Returns (fun state => state) (BalanceManager.onStorage EconomicsStorage.beginTransaction) manager ()
      begun := ⟨begun, run, rfl⟩
  unfold Agrees
  rw [bind_ok run]
  cases moves : (booksOf manager).move sender recipient amount with
  | none =>
    rw [moves] at steps
    obtain ⟨error, failed⟩ := steps
    have attempted : attempt (BalanceManager.transferInternal blake3 now sender recipient amount) begun =
        .ok (.error error) begun := by
      simp only [attempt, failed]
    rw [bind_ok attempted]
    exact rolledBack.agrees_bind fun last lastSeen => agrees_throw lastSeen
  | some moved =>
    rw [moves] at steps
    obtain ⟨txHash, transferred⟩ := (steps different).returns
    exact (attempt_returns transferred).agrees_bind fun next seen => finishes txHash moved next moves seen

theorem incrementNonce_returns (now : Int) {entry : Entry} (cached : (booksOf manager).cache sender = some entry) :
    Returns booksOf (BalanceManager.incrementNonce now sender) manager () ((booksOf manager).bumpNonce sender) := by
  unfold Books.bumpNonce
  rw [Books.entry_cached cached]
  rw [cache_booksOf] at cached
  rcases Option.map_eq_some_iff.mp cached with ⟨info, found, rfl⟩
  unfold BalanceManager.incrementNonce
  apply Returns.get
  simp only [found]
  refine (cacheInsert_returns _).bind fun updated updatedSeen => ?_
  have stored := @setNonce_stored _ _ _ updated sender (info.nonce + 1)
  rw [updatedSeen] at stored
  exact stored

theorem currentNonce_load (books : Books) (address : AccountAddress) :
    (books.load address).currentNonce address = (books.entry address).nonce := by
  simp [Books.currentNonce]

variable {fromBytes toBytes : List UInt8} {units nonce : UInt64}

theorem validateTransfer_agrees (now : Int) (from_eq : AccountAddress.fromBytes fromBytes = some sender)
    (to_eq : AccountAddress.fromBytes toBytes = some recipient) :
    Agrees booksOf (BalanceManager.validateTransfer now fromBytes toBytes units nonce) manager
      (if sender = recipient ∨ units = 0 ∨
          ((booksOf manager).entry sender).balance < AdicAmount.fromBaseUnits units ∨
          nonce ≠ ((booksOf manager).entry sender).nonce + 1 then
        (false, (booksOf manager).refused sender recipient units)
      else (true, (booksOf manager).load sender)) := by
  unfold BalanceManager.validateTransfer Books.refused
  simp only [from_eq, to_eq]
  by_cases same : sender = recipient
  · rw [if_pos same, if_pos (.inl same), if_pos (.inl same)]
    exact agrees_throw rfl
  rw [if_neg same]
  by_cases nothing : units = 0
  · rw [if_pos nothing, if_pos (.inr (.inl nothing)), if_pos (.inr nothing)]
    exact agrees_throw rfl
  rw [if_neg nothing, if_neg (not_or.mpr ⟨same, nothing⟩)]
  refine (getBalance_returns now).agrees_bind fun loaded seen => ?_
  by_cases short : ((booksOf manager).entry sender).balance < AdicAmount.fromBaseUnits units
  · simp only [short, true_or, or_true, if_true]
    exact agrees_throw seen
  simp only [same, nothing, short, false_or, if_false]
  refine getNonce_returns.agrees_bind fun read readSeen => ?_
  rw [seen, currentNonce_load]
  exact agrees_ite (fun _ => agrees_throw (readSeen.trans seen)) fun _ => agrees_pure (readSeen.trans seen)

theorem move_cached {books moved : Books} (accepted : books.move sender recipient amount = some moved)
    (different : sender ≠ recipient) :
    moved.cache sender = some ⟨(books.accounts.balance sender).saturatingSub amount, books.cachedLocked sender,
      books.cachedNonce sender⟩ := by
  obtain ⟨-, newToBalance, -, rfl⟩ := Books.move_eq accepted
  simp [Books.write, Books.setEntry, different]

theorem processMessageTransfer_agrees (blake3 : List UInt8 → Bytes32) (now : Int)
    (from_eq : AccountAddress.fromBytes fromBytes = some sender)
    (to_eq : AccountAddress.fromBytes toBytes = some recipient) :
    Agrees booksOf (BalanceManager.processMessageTransfer blake3 now fromBytes toBytes units nonce) manager
      (((booksOf manager).messageTransfer sender recipient units nonce).elim
        (false, (booksOf manager).refused sender recipient units) fun after => (true, after)) := by
  unfold BalanceManager.processMessageTransfer Books.messageTransfer
  simp only [from_eq, to_eq]
  have checks := @validateTransfer_agrees _ _ _ manager _ _ _ _ units nonce now from_eq to_eq
  split
  · next invalid =>
    rw [if_pos invalid] at checks
    exact checks.fails.bind.agrees
  · next valid =>
    rw [if_neg valid] at checks
    obtain ⟨_, checking⟩ := checks.returns
    simp only [not_or] at valid
    have residue : (booksOf manager).refused sender recipient units = (booksOf manager).load sender := by
      rw [Books.refused, if_neg (not_or.mpr ⟨valid.1, valid.2.1⟩)]
    refine checking.agrees_bind fun checked seen => ?_
    rw [residue, ← seen, Option.elim_map]
    refine transaction_agrees blake3 now valid.1 fun txHash moved next moves nextSeen => ?_
    have cached := move_cached moves valid.1
    rw [← nextSeen] at cached
    refine (attempt_returns (incrementNonce_returns now cached)).agrees_bind fun third thirdSeen => ?_
    refine commit_returns.agrees_bind fun fourth fourthSeen => ?_
    refine (recordTransfer_returns now txHash).agrees_bind fun fifth fifthSeen => agrees_pure ?_
    rw [fifthSeen, fourthSeen, thirdSeen, nextSeen]

theorem processMessageTransfer_malformed (blake3 : List UInt8 → Bytes32) (now : Int)
    (malformed : AccountAddress.fromBytes fromBytes = none ∨ AccountAddress.fromBytes toBytes = none) :
    Agrees booksOf (BalanceManager.processMessageTransfer blake3 now fromBytes toBytes units nonce) manager
      (false, booksOf manager) := by
  unfold BalanceManager.processMessageTransfer
  cases from_eq : AccountAddress.fromBytes fromBytes with
  | none => exact agrees_throw rfl
  | some sender =>
    rw [malformed.resolve_left (by simp [from_eq])]
    exact agrees_throw rfl

end

inductive Operation where
  | getBalance (address : AccountAddress)
  | credit (address : AccountAddress) (amount : AdicAmount)
  | debit (address : AccountAddress) (amount : AdicAmount)
  | transfer (sender recipient : AccountAddress) (amount : AdicAmount)
  | lock (address : AccountAddress) (amount : AdicAmount)
  | unlock (address : AccountAddress) (amount : AdicAmount)
  | getLockedBalance (address : AccountAddress)
  | getNonce (address : AccountAddress)
  | processMessageTransfer (sender recipient : List UInt8) (amount nonce : UInt64)
  | clearCache
  | restart

def Operation.call {σ : Type} [EconomicsStorage σ] (blake3 : List UInt8 → Bytes32) (now : Int) :
    Operation → Call (BalanceManager σ) Unit
  | .getBalance address => discard (BalanceManager.getBalance now address)
  | .credit address amount => BalanceManager.credit now address amount
  | .debit address amount => BalanceManager.debit now address amount
  | .transfer sender recipient amount => discard (BalanceManager.transfer blake3 now sender recipient amount)
  | .lock address amount => BalanceManager.lock now address amount
  | .unlock address amount => BalanceManager.unlock address amount
  | .getLockedBalance address => discard (BalanceManager.getLockedBalance address)
  | .getNonce address => discard (BalanceManager.getNonce address)
  | .processMessageTransfer sender recipient amount nonce =>
    discard (BalanceManager.processMessageTransfer blake3 now sender recipient amount nonce)
  | .clearCache => BalanceManager.clearCache
  | .restart => modify fun manager => BalanceManager.new manager.storage

def Operation.outcome (books : Books) : Operation → Option Books
  | .getBalance address => some (books.load address)
  | .credit address amount =>
    if amount = AdicAmount.zero then some books
    else ((books.entry address).balance.checkedAdd amount).bind fun newBalance =>
      if AdicAmount.maxSupply < newBalance then none else some (books.write address newBalance)
  | .debit address amount =>
    if amount = AdicAmount.zero then some books
    else ((books.entry address).balance.checkedSub amount).map (books.write address)
  | .transfer sender recipient amount =>
    if amount = AdicAmount.zero then some books
    else if sender = recipient then none
    else books.move sender recipient amount
  | .lock address amount =>
    if (books.lockEntry address).balance.saturatingSub (books.lockEntry address).locked < amount then none
    else some (books.setLocked address (books.lockEntry address) ((books.lockEntry address).locked.saturatingAdd amount))
  | .unlock address amount =>
    (books.cache address).bind fun entry =>
      if entry.locked < amount then none else some (books.setLocked address entry (entry.locked.saturatingSub amount))
  | .getLockedBalance _ => some books
  | .getNonce _ => some books
  | .processMessageTransfer sender recipient amount nonce =>
    match AccountAddress.fromBytes sender, AccountAddress.fromBytes recipient with
    | some fromAddr, some toAddr => books.messageTransfer fromAddr toAddr amount nonce
    | _, _ => none
  | .clearCache => some { books with cache := fun _ => none }
  | .restart => some { books with cache := fun _ => none }

def Operation.residue (books : Books) : Operation → Books
  | .credit address _ => books.load address
  | .debit address _ => books.load address
  | .lock address _ => books.setEntry address (books.lockEntry address)
  | .processMessageTransfer sender recipient amount _ =>
    match AccountAddress.fromBytes sender, AccountAddress.fromBytes recipient with
    | some fromAddr, some toAddr => books.refused fromAddr toAddr amount
    | _, _ => books
  | _ => books

/-- What an accepted operation makes of the books. -/
inductive Operation.Effect (books : Books) : Operation → Books → Prop where
  | getBalance (address : AccountAddress) : Effect books (.getBalance address) (books.load address)
  | getLockedBalance (address : AccountAddress) : Effect books (.getLockedBalance address) books
  | getNonce (address : AccountAddress) : Effect books (.getNonce address) books
  | clearCache : Effect books .clearCache { books with cache := fun _ => none }
  | restart : Effect books .restart { books with cache := fun _ => none }
  | creditNothing {address : AccountAddress} {amount : AdicAmount} (nothing : amount = AdicAmount.zero) :
      Effect books (.credit address amount) books
  | credit {address : AccountAddress} {amount newBalance : AdicAmount} (something : amount ≠ AdicAmount.zero)
      (sum : (books.entry address).balance.checkedAdd amount = some newBalance)
      (below : ¬ AdicAmount.maxSupply < newBalance) : Effect books (.credit address amount) (books.write address newBalance)
  | debitNothing {address : AccountAddress} {amount : AdicAmount} (nothing : amount = AdicAmount.zero) :
      Effect books (.debit address amount) books
  | debit {address : AccountAddress} {amount newBalance : AdicAmount} (something : amount ≠ AdicAmount.zero)
      (rest : (books.entry address).balance.checkedSub amount = some newBalance) :
      Effect books (.debit address amount) (books.write address newBalance)
  | transferNothing {sender recipient : AccountAddress} {amount : AdicAmount} (nothing : amount = AdicAmount.zero) :
      Effect books (.transfer sender recipient amount) books
  | transfer {sender recipient : AccountAddress} {amount : AdicAmount} {after : Books}
      (something : amount ≠ AdicAmount.zero) (different : sender ≠ recipient)
      (moving : books.move sender recipient amount = some after) : Effect books (.transfer sender recipient amount) after
  | lock {address : AccountAddress} {amount : AdicAmount}
      (enough : ¬ (books.lockEntry address).balance.saturatingSub (books.lockEntry address).locked < amount) :
      Effect books (.lock address amount) (books.setLocked address (books.lockEntry address)
        ((books.lockEntry address).locked.saturatingAdd amount))
  | unlock {address : AccountAddress} {amount : AdicAmount} {entry : Entry}
      (cached : books.cache address = some entry) (enough : ¬ entry.locked < amount) :
      Effect books (.unlock address amount) (books.setLocked address entry (entry.locked.saturatingSub amount))
  | processMessageTransfer {fromBytes toBytes : List UInt8} {sender recipient : AccountAddress} {amount nonce : UInt64}
      {after : Books} (isSender : AccountAddress.fromBytes fromBytes = some sender)
      (isRecipient : AccountAddress.fromBytes toBytes = some recipient)
      (accepted : books.messageTransfer sender recipient amount nonce = some after) :
      Effect books (.processMessageTransfer fromBytes toBytes amount nonce) after

section

variable {books after : Books} {sender recipient : AccountAddress}

theorem Books.messageTransfer_eq {amount nonce : UInt64}
    (accepted : books.messageTransfer sender recipient amount nonce = some after) : sender ≠ recipient ∧
      ∃ moved, (books.load sender).move sender recipient (AdicAmount.fromBaseUnits amount) = some moved ∧
        after = moved.bumpNonce sender := by
  unfold Books.messageTransfer at accepted
  split at accepted
  · cases accepted
  · next valid =>
    obtain ⟨moved, moving, rfl⟩ := Option.map_eq_some_iff.mp accepted
    exact ⟨(not_or.mp valid).1, moved, moving, rfl⟩

theorem Operation.effect_of_outcome {operation : Operation} (accepted : operation.outcome books = some after) :
    Operation.Effect books operation after := by
  cases operation with
  | getBalance | getLockedBalance | getNonce | clearCache | restart =>
    cases accepted
    constructor
  | credit address amount =>
    simp only [Operation.outcome] at accepted
    split at accepted
    · next nothing =>
      cases accepted
      exact .creditNothing nothing
    · next something =>
      obtain ⟨newBalance, sum, bounded⟩ := Option.bind_eq_some_iff.mp accepted
      split at bounded
      · cases bounded
      · next below =>
        cases bounded
        exact .credit something sum below
  | debit address amount =>
    simp only [Operation.outcome] at accepted
    split at accepted
    · next nothing =>
      cases accepted
      exact .debitNothing nothing
    · next something =>
      obtain ⟨newBalance, rest, rfl⟩ := Option.map_eq_some_iff.mp accepted
      exact .debit something rest
  | transfer sender recipient amount =>
    simp only [Operation.outcome] at accepted
    split at accepted
    · next nothing =>
      cases accepted
      exact .transferNothing nothing
    · next something =>
      split at accepted
      · cases accepted
      · next different => exact .transfer something different accepted
  | lock address amount =>
    simp only [Operation.outcome] at accepted
    split at accepted
    · cases accepted
    · next enough =>
      cases accepted
      exact .lock enough
  | unlock address amount =>
    obtain ⟨entry, cached, rest⟩ := Option.bind_eq_some_iff.mp accepted
    split at rest
    · cases rest
    · next enough =>
      cases rest
      exact .unlock cached enough
  | processMessageTransfer fromBytes toBytes amount nonce =>
    simp only [Operation.outcome] at accepted
    split at accepted
    · next isSender isRecipient => exact .processMessageTransfer isSender isRecipient accepted
    · cases accepted

end

section

variable {σ : Type} [EconomicsStorage σ] [LawfulStorage σ] {manager : BalanceManager σ} {operation : Operation}

theorem booksOf_new (storage : σ) :
    booksOf (BalanceManager.new storage) = ⟨LawfulStorage.accounts storage, fun _ => none⟩ := rfl

def Operation.result (books : Books) (operation : Operation) : Bool × Books :=
  (operation.outcome books).elim (false, operation.residue books) fun after => (true, after)

variable {sender recipient address : AccountAddress} {amount : AdicAmount}

theorem transfer_agrees (blake3 : List UInt8 → Bytes32) (now : Int) :
    Agrees booksOf (BalanceManager.transfer blake3 now sender recipient amount) manager
      ((Operation.transfer sender recipient amount).result (booksOf manager)) := by
  unfold BalanceManager.transfer Operation.result Operation.outcome
  by_cases nothing : amount = AdicAmount.zero
  · simp only [if_pos nothing]
    exact agrees_pure rfl
  by_cases same : sender = recipient
  · simp only [if_neg nothing, if_pos same]
    exact agrees_throw rfl
  simp only [if_neg nothing, if_neg same]
  refine transaction_agrees blake3 now same fun txHash moved next _ nextSeen => ?_
  refine commit_returns.agrees_bind fun third thirdSeen => ?_
  refine (recordTransfer_returns now txHash).agrees_bind fun fourth fourthSeen => agrees_pure ?_
  rw [fourthSeen, thirdSeen, nextSeen]

theorem credit_agrees (now : Int) : Agrees booksOf (BalanceManager.credit now address amount) manager
    ((Operation.credit address amount).result (booksOf manager)) := by
  unfold BalanceManager.credit Operation.result Operation.outcome
  by_cases nothing : amount = AdicAmount.zero
  · simp only [if_pos nothing]
    exact agrees_pure rfl
  simp only [if_neg nothing]
  refine (getBalance_returns now).agrees_bind fun loaded seen => ?_
  cases sum : ((booksOf manager).entry address).balance.checkedAdd amount with
  | none => exact agrees_throw seen
  | some newBalance =>
    dsimp only [Option.bind_some]
    split
    · exact agrees_throw seen
    · refine (setBalance_stored newBalance).agrees_bind fun stored storedSeen => ?_
      have cached := @cacheBalance_returns _ _ _ stored address now newBalance
      rw [storedSeen, seen] at cached
      show Agrees booksOf _ _ (true, (booksOf manager).write address newBalance)
      convert cached.agrees using 2
      simp [Books.write, Books.setEntry, Books.load, Books.cachedLocked, Books.cachedNonce, Books.entry]

theorem debit_agrees (now : Int) : Agrees booksOf (BalanceManager.debit now address amount) manager
    ((Operation.debit address amount).result (booksOf manager)) := by
  unfold BalanceManager.debit Operation.result Operation.outcome
  by_cases nothing : amount = AdicAmount.zero
  · simp only [if_pos nothing]
    exact agrees_pure rfl
  simp only [if_neg nothing]
  refine (getBalance_returns now).agrees_bind fun loaded seen => ?_
  cases rest : ((booksOf manager).entry address).balance.checkedSub amount with
  | none => exact agrees_throw seen
  | some newBalance =>
    refine (setBalance_stored newBalance).agrees_bind fun stored storedSeen => ?_
    rw [seen] at storedSeen
    have cached : (booksOf stored).cache address = some ((booksOf manager).entry address) := by
      rw [storedSeen]
      exact Books.cache_load _ _
    rw [cache_booksOf] at cached
    rcases Option.map_eq_some_iff.mp cached with ⟨info, found, sameEntry⟩
    have updated := @cacheInsert_returns _ _ _ stored address { info with balance := newBalance, lastActivity := now }
    rw [storedSeen] at updated
    have sameLocked : info.lockedBalance = (booksOf manager).cachedLocked address := congrArg Entry.locked sameEntry
    have sameNonce : info.nonce = (booksOf manager).cachedNonce address := congrArg Entry.nonce sameEntry
    apply Agrees.get
    simp only [found]
    show Agrees booksOf _ _ (true, (booksOf manager).write address newBalance)
    convert updated.agrees using 2
    simp [Books.write, Books.setEntry, Books.load, entryOf, sameLocked, sameNonce]

theorem lock_agrees (now : Int) : Agrees booksOf (BalanceManager.lock now address amount) manager
    ((Operation.lock address amount).result (booksOf manager)) := by
  unfold BalanceManager.lock Operation.result Operation.outcome Operation.residue
  dsimp only
  rw [← entryOf_lock now]
  apply Agrees.get
  generalize (manager.cache.lookup address).getD ⟨address, AdicAmount.zero, 0, AdicAmount.zero, now⟩ = info
  refine (cacheInsert_returns _).agrees_bind fun created createdSeen => ?_
  by_cases short : info.balance.saturatingSub info.lockedBalance < amount
  · rw [if_pos short]
    have refused : (entryOf info).balance.saturatingSub (entryOf info).locked < amount := short
    rw [if_pos refused]
    exact agrees_throw createdSeen
  · rw [if_neg short]
    have accepted : ¬(entryOf info).balance.saturatingSub (entryOf info).locked < amount := short
    rw [if_neg accepted]
    refine (cacheInsert_returns _).agrees_bind fun updated updatedSeen => ?_
    have stored := @setLocked_stored _ _ _ updated address (info.lockedBalance.saturatingAdd amount)
    rw [updatedSeen, createdSeen] at stored
    show Agrees booksOf _ _ (true, (booksOf manager).setLocked address (entryOf info) _)
    convert stored.agrees using 2
    simp [Books.setLocked, Books.setEntry, entryOf]

theorem unlock_agrees : Agrees booksOf (BalanceManager.unlock address amount) manager
    ((Operation.unlock address amount).result (booksOf manager)) := by
  unfold BalanceManager.unlock Operation.result Operation.outcome Operation.residue
  dsimp only
  rw [cache_booksOf]
  apply Agrees.get
  cases manager.cache.lookup address with
  | none => exact agrees_throw rfl
  | some info =>
    by_cases short : info.lockedBalance < amount
    · have refused : (entryOf info).locked < amount := short
      simp only [Option.map_some, Option.bind_some, if_pos short, if_pos refused]
      exact agrees_throw rfl
    · have accepted : ¬(entryOf info).locked < amount := short
      simp only [Option.map_some, Option.bind_some, if_neg short, if_neg accepted]
      refine (cacheInsert_returns _).agrees_bind fun updated updatedSeen => ?_
      have stored := @setLocked_stored _ _ _ updated address (info.lockedBalance.saturatingSub amount)
      rw [updatedSeen] at stored
      exact stored.agrees

theorem Operation.agrees (blake3 : List UInt8 → Bytes32) (now : Int) :
    Agrees booksOf (operation.call blake3 now) manager (operation.result (booksOf manager)) := by
  cases operation with
  | getBalance address => exact (getBalance_returns now).agrees.discard
  | credit address amount => exact credit_agrees now
  | debit address amount => exact debit_agrees now
  | transfer sender recipient amount => exact (transfer_agrees blake3 now).discard
  | lock address amount => exact lock_agrees now
  | unlock address amount => exact unlock_agrees
  | getLockedBalance address =>
    obtain ⟨value, returns⟩ := @getLockedBalance_returns _ _ _ manager address
    exact returns.agrees.discard
  | getNonce address => exact getNonce_returns.agrees.discard
  | processMessageTransfer sender recipient amount nonce =>
    refine Agrees.discard ?_
    unfold Operation.result Operation.outcome Operation.residue
    cases from_eq : AccountAddress.fromBytes sender with
    | none =>
      simp only [from_eq]
      exact @processMessageTransfer_malformed σ _ _ manager _ _ amount nonce blake3 now (.inl from_eq)
    | some fromAddr =>
      cases to_eq : AccountAddress.fromBytes recipient with
      | none =>
        simp only [from_eq, to_eq]
        exact @processMessageTransfer_malformed σ _ _ manager _ _ amount nonce blake3 now (.inr to_eq)
      | some toAddr =>
        simp only [from_eq, to_eq]
        exact @processMessageTransfer_agrees σ _ _ manager _ _ _ _ amount nonce blake3 now from_eq to_eq
  | clearCache => exact Returns.agrees ⟨_, rfl, rfl⟩
  | restart => exact Returns.agrees ⟨_, rfl, rfl⟩

theorem Operation.call_returns (blake3 : List UInt8 → Bytes32) (now : Int) {after : Books}
    (accepted : operation.outcome (booksOf manager) = some after) :
    Returns booksOf (operation.call blake3 now) manager () after := by
  have agrees := @Operation.agrees _ _ _ manager operation blake3 now
  unfold Operation.result at agrees
  rw [accepted] at agrees
  exact agrees.returns.choose_spec

theorem Operation.call_fails (blake3 : List UInt8 → Bytes32) (now : Int)
    (refused : operation.outcome (booksOf manager) = none) :
    Fails booksOf (operation.call blake3 now) manager (operation.residue (booksOf manager)) := by
  have agrees := @Operation.agrees _ _ _ manager operation blake3 now
  unfold Operation.result at agrees
  rw [refused] at agrees
  exact agrees.fails

end

end AdicProof.Economics
