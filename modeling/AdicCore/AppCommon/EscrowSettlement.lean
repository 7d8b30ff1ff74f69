import AdicCore.AppCommon.EscrowBooks

open AdicModel AdicModel.Economics AdicModel.AppCommon AdicProof.Economics AdicProof.Consensus Calls

namespace AdicProof.AppCommon

/-- A lock that was granted, and how often it was settled. -/
structure Grant where
  lockId : LockId
  owner : AccountAddress
  amount : AdicAmount
  settlements : Nat
deriving DecidableEq

abbrev Grants := List Grant

def latest (lockId : LockId) (grants : Grants) : Option Grant := grants.find? fun grant => grant.lockId = lockId

def settle (lockId : LockId) : Grants → Grants
  | [] => []
  | grant :: rest =>
    if grant.lockId = lockId then { grant with settlements := grant.settlements + 1 } :: rest
    else grant :: settle lockId rest

def record (call : VaultCall) (grants : Grants) : Grants :=
  match call with
  | .lock escrowType amount _ => ⟨escrowType.toLockId, escrowType.owner, amount, 0⟩ :: grants
  | .release lockId _ | .slash lockId _ | .refund lockId => settle lockId grants
  | .ledger _ => grants

def pending (address : AccountAddress) (grant : Grant) : Nat :=
  if grant.owner = address ∧ grant.settlements = 0 then units grant.amount else 0

def unsettled (address : AccountAddress) (grants : Grants) : Nat := (grants.map (pending address)).sum

structure Settled (accounts : Accounts) (grants : Grants) : Prop where
  accounted : ∀ address, units (accounts.locked address) = unsettled address grants
  once : ∀ grant ∈ grants, grant.settlements ≤ 1

def Payable (owner recipient : AccountAddress) (amount : AdicAmount) (accounts : Accounts) : Prop :=
  amount ≠ AdicAmount.zero → owner ≠ recipient ∧ amount ≤ accounts.balance owner ∧
    units (accounts.balance recipient) + units amount < 2 ^ 64

structure Moves (owner : AccountAddress) (recipient : Option AccountAddress) (amount : AdicAmount)
    (before after : Accounts) : Prop where
  locked : ∀ address, units (after.locked address) + (if address = owner then units amount else 0) =
    units (before.locked address)
  balance : ∀ address,
    units (after.balance address) + (if recipient.isSome ∧ address = owner then units amount else 0) =
      units (before.balance address) + (if recipient = some address then units amount else 0)

section

variable {grants : Grants} {grant : Grant} {lockId other : LockId} {address : AccountAddress}

theorem latest_settle : (latest other (settle lockId grants)).map (fun grant => (grant.owner, grant.amount)) =
    (latest other grants).map fun grant => (grant.owner, grant.amount) := by
  induction grants with
  | nil => rfl
  | cons first rest ih =>
    unfold latest at ih ⊢
    rw [settle]
    by_cases here : first.lockId = lockId
    · rw [if_pos here, List.find?_cons, List.find?_cons]
      by_cases same : first.lockId = other
      · simp only [decide_eq_true same, Option.map_some]
      · simp only [decide_eq_false same]
    · rw [if_neg here, List.find?_cons, List.find?_cons]
      by_cases same : first.lockId = other
      · simp only [decide_eq_true same]
      · simp only [decide_eq_false same]
        exact ih

theorem unsettled_settle (found : latest lockId grants = some grant) (address : AccountAddress) :
    unsettled address (settle lockId grants) + pending address grant = unsettled address grants := by
  induction grants with
  | nil => cases found
  | cons first rest ih =>
    unfold unsettled at ih ⊢
    rw [latest, List.find?_cons] at found
    rw [settle]
    by_cases here : first.lockId = lockId
    · rw [decide_eq_true here] at found
      cases found
      have settledOne : pending address { grant with settlements := grant.settlements + 1 } = 0 := by
        unfold pending
        exact if_neg fun both => Nat.succ_ne_zero _ both.2
      rw [if_pos here, List.map_cons, List.map_cons, List.sum_cons, List.sum_cons, settledOne]
      omega
    · rw [decide_eq_false here] at found
      have later := ih found
      rw [if_neg here, List.map_cons, List.map_cons, List.sum_cons, List.sum_cons]
      omega

theorem once_settle (found : latest lockId grants = some grant) (once : ∀ grant ∈ grants, grant.settlements ≤ 1) :
    (∀ grant ∈ settle lockId grants, grant.settlements ≤ 1) ↔ grant.settlements = 0 := by
  induction grants with
  | nil => cases found
  | cons first rest ih =>
    rw [latest, List.find?_cons] at found
    rw [List.forall_mem_cons] at once
    rw [settle]
    by_cases here : first.lockId = lockId
    · rw [decide_eq_true here] at found
      cases found
      rw [if_pos here, List.forall_mem_cons]
      dsimp only
      constructor
      · intro all
        have := all.1
        omega
      · intro zero
        exact ⟨by omega, once.2⟩
    · rw [decide_eq_false here] at found
      rw [if_neg here, List.forall_mem_cons, ih found once.2]
      exact and_iff_right once.1

end

def KeepsCached (books after : Books) : Prop := ∀ address, (books.cache address).isSome → (after.cache address).isSome

section

variable {books after : Books} {address sender recipient : AccountAddress} {amount : AdicAmount}

theorem KeepsCached.refl (books : Books) : KeepsCached books books := fun _ cached => cached

theorem KeepsCached.trans {middle : Books} (first : KeepsCached books middle) (second : KeepsCached middle after) :
    KeepsCached books after := fun address cached => second address (first address cached)

theorem keepsCached_setEntry {accounts : Accounts} {entry : Entry} :
    KeepsCached books ({ books with accounts := accounts }.setEntry address entry) := by
  intro other cached
  unfold Books.setEntry
  dsimp only
  rw [Function.update_apply]
  split
  · rfl
  · exact cached

theorem keepsCached_load : KeepsCached books (books.load address) := keepsCached_setEntry

theorem keepsCached_quiet (quiet : Quiet books after) : KeepsCached books after := by
  induction quiet with
  | refl => exact .refl _
  | load address _ ih => exact ih.trans keepsCached_load
  | write address amount _ ih => exact ih.trans keepsCached_setEntry
  | bumpNonce address _ ih => exact ih.trans keepsCached_setEntry

theorem keepsCached_unlock (outcome : (Operation.unlock address amount).outcome books = some after) :
    KeepsCached books after := by
  cases Operation.effect_of_outcome outcome
  exact keepsCached_setEntry

end

section

variable {books unlocked sent : Books} {owner recipient : AccountAddress} {amount : AdicAmount}

theorem unlock_moves (cached : LocksCached books)
    (outcome : (Operation.unlock owner amount).outcome books = some unlocked) :
    amount ≤ books.accounts.locked owner ∧ LocksCached unlocked ∧
      Moves owner none amount books.accounts unlocked.accounts ∧ unlocked.accounts.balance = books.accounts.balance := by
  obtain ⟨enough, cachedAfter, accounts⟩ := unlock_outcome cached outcome
  refine ⟨amount_le.mpr enough, cachedAfter, ⟨fun address => ?_, fun address => ?_⟩, ?_⟩
  · rw [accounts]
    show units (Function.update books.accounts.locked owner _ address) + _ = _
    rw [Function.update_apply]
    by_cases here : address = owner
    · rw [if_pos here, if_pos here, units_saturatingSub, here]
      omega
    · rw [if_neg here, if_neg here, Nat.add_zero]
  · rw [accounts]
    simp [Accounts.setLocked]
  · rw [accounts]
    rfl

theorem unlock_isSome (cached : LocksCached books) (present : (books.cache owner).isSome)
    (covers : amount ≤ books.accounts.locked owner) :
    ∃ unlocked, (Operation.unlock owner amount).outcome books = some unlocked := by
  have same := cached owner
  obtain ⟨entry, found⟩ := Option.isSome_iff_exists.mp present
  unfold Books.cachedLocked at same
  rw [amount_le, ← same, found] at covers
  have enough : ¬entry.locked < amount := by
    rw [amount_lt, not_lt]
    exact covers
  simp only [Operation.outcome]
  exact ⟨_, by rw [found, Option.bind_some, if_neg enough]⟩

theorem transfer_balance (outcome : (Operation.transfer owner recipient amount).outcome books = some sent)
    (address : AccountAddress) :
    units (sent.accounts.balance address) + (if address = owner then units amount else 0) =
      units (books.accounts.balance address) + (if recipient = address then units amount else 0) := by
  cases Operation.effect_of_outcome outcome with
  | transferNothing nothing => rw [nothing, units_zero, ite_self, ite_self]
  | transfer _ different moving =>
    obtain ⟨enough, newToBalance, sum, rfl⟩ := Books.move_eq moving
    rw [checkedAdd_eq_some] at sum
    rw [amount_lt, not_lt] at enough
    show units (Function.update (Function.update books.accounts.balance owner _) recipient _ address) + _ = _
    rw [Function.update_apply, Function.update_apply]
    by_cases atRecipient : address = recipient
    · have notOwner : address ≠ owner := fun equal => different (equal.symm.trans atRecipient)
      rw [if_pos atRecipient, if_neg notOwner, if_pos atRecipient.symm, sum, atRecipient]
      rfl
    · have notRecipient : recipient ≠ address := fun equal => atRecipient equal.symm
      rw [if_neg atRecipient, if_neg notRecipient]
      by_cases atOwner : address = owner
      · rw [if_pos atOwner, if_pos atOwner, units_saturatingSub, atOwner]
        omega
      · rw [if_neg atOwner, if_neg atOwner]

theorem transfer_isSome_iff :
    (∃ sent, (Operation.transfer owner recipient amount).outcome books = some sent) ↔
      Payable owner recipient amount books.accounts := by
  constructor
  · rintro ⟨sent, outcome⟩ positive
    cases Operation.effect_of_outcome outcome with
    | transferNothing nothing => exact absurd nothing positive
    | transfer _ different moving =>
      obtain ⟨enough, newToBalance, sum, -⟩ := Books.move_eq moving
      rw [checkedAdd_eq_some] at sum
      rw [amount_lt, not_lt] at enough
      have bound := units_lt newToBalance
      exact ⟨different, amount_le.mpr enough, by omega⟩
  · exact transfer_isSome

end

section

variable {vault : Vault} {grants : Grants} {call : VaultCall} {read : Books} {metadata : LockMetadata}
  {recipient : AccountAddress}

inductive Payment (vault : Vault) (metadata : LockMetadata) (recipient : AccountAddress) (read : Books) :
    Bool × Vault → Prop where
  | refused (none : (Operation.unlock metadata.owner metadata.amount).outcome read = none) :
      Payment vault metadata recipient read (false, { vault with books := read })
  | stranded (unlocked : Books) (keeps : KeepsCached read unlocked)
      (covers : metadata.amount ≤ read.accounts.locked metadata.owner) (cached : LocksCached unlocked)
      (moves : Moves metadata.owner none metadata.amount read.accounts unlocked.accounts)
      (unpayable : ¬Payable metadata.owner recipient metadata.amount read.accounts) :
      Payment vault metadata recipient read (false, { vault with books := unlocked })
  | paid (after : Books) (keeps : KeepsCached read after)
      (covers : metadata.amount ≤ read.accounts.locked metadata.owner) (cached : LocksCached after)
      (moves : Moves metadata.owner (some recipient) metadata.amount read.accounts after.accounts)
      (payable : Payable metadata.owner recipient metadata.amount read.accounts) :
      Payment vault metadata recipient read (true, { vault with books := after })

theorem payment_cases (vault : Vault) (metadata : LockMetadata) (recipient : AccountAddress)
    (cached : LocksCached read) :
    Payment vault metadata recipient read (vault.pay metadata recipient read) := by
  unfold Vault.pay Vault.freed
  cases unlocks : (Operation.unlock metadata.owner metadata.amount).outcome read with
  | none => exact .refused unlocks
  | some unlocked =>
    obtain ⟨covers, cachedAfter, moves, balance⟩ := unlock_moves cached unlocks
    have same : Payable metadata.owner recipient metadata.amount unlocked.accounts ↔
        Payable metadata.owner recipient metadata.amount read.accounts := by
      unfold Payable
      rw [balance]
    dsimp only
    cases sends : (Operation.transfer metadata.owner recipient metadata.amount).outcome unlocked with
    | none =>
      have unpayable : ¬Payable metadata.owner recipient metadata.amount unlocked.accounts := by
        rw [← transfer_isSome_iff, sends]
        rintro ⟨_, impossible⟩
        cases impossible
      rw [same] at unpayable
      exact .stranded unlocked (keepsCached_unlock unlocks) covers cachedAfter moves unpayable
    | some sent =>
      have locks := (quiet_transfer sends).sameLocks.trans (@sameLocks_load sent recipient)
      have payable := same.mp (transfer_isSome_iff.mp ⟨sent, sends⟩)
      have keeps := (keepsCached_unlock unlocks).trans ((keepsCached_quiet (quiet_transfer sends)).trans
        (@keepsCached_load sent recipient))
      refine .paid (sent.load recipient) keeps covers (locks.locksCached cachedAfter)
        ⟨fun address => ?_, fun address => ?_⟩ payable
      · rw [locks.2]
        exact moves.locked address
      · have moved := transfer_balance sends address
        rw [balance] at moved
        simpa using moved

structure Matches (vault : Vault) (grants : Grants) : Prop where
  cached : LocksCached vault.books
  owners : ∀ lockId metadata, vault.locks.lookup lockId = some metadata →
    (vault.books.cache metadata.owner).isSome
  known : ∀ lockId, (latest lockId grants).map (fun grant => (grant.owner, grant.amount)) =
    (vault.locks.lookup lockId).map fun metadata => (metadata.owner, metadata.amount)

def advance (vault : Vault) (grants : Grants) (call : VaultCall) : Vault × Grants :=
  ((vault.result call).2, if (vault.result call).1 then record call grants else grants)

/-- The first settlement of its lock, whose payment, if there is a recipient, goes through. -/
def SoundSettlement (lockId : LockId) (recipient : Option AccountAddress) (accounts : Accounts) (grants : Grants) :
    Prop :=
  ∀ grant, latest lockId grants = some grant → grant.amount ≤ accounts.locked grant.owner →
    grant.settlements = 0 ∧ ∀ address, recipient = some address → Payable grant.owner address grant.amount accounts

/-- A lock within the available balance that stays below the maximal supply. -/
def SoundLock (owner : AccountAddress) (amount : AdicAmount) (books : Books) : Prop :=
  amount ≤ (books.entry owner).balance.saturatingSub (books.entry owner).locked →
    units (books.accounts.locked owner) + units amount ≤ units AdicAmount.maxSupply

def SoundCall (books : Books) (grants : Grants) : VaultCall → Prop
  | .lock escrowType amount _ => SoundLock escrowType.owner amount books
  | .release lockId recipient | .slash lockId recipient => SoundSettlement lockId (some recipient) books.accounts grants
  | .refund lockId => SoundSettlement lockId none books.accounts grants
  | .ledger _ => True

def Shares : VaultCall → Prop
  | .ledger operation => LeavesLocks operation
  | _ => True

theorem settled_same {accounts : Accounts} (same : accounts.locked = vault.books.accounts.locked) :
    Settled accounts grants ↔ Settled vault.books.accounts grants := by
  constructor
  · intro settled
    exact ⟨same ▸ settled.accounted, settled.once⟩
  · intro settled
    exact ⟨same ▸ settled.accounted, settled.once⟩

variable {lockId : LockId}

theorem settled_settle {grant : Grant} {accounts after : Accounts}
    {recipient : Option AccountAddress} (settled : Settled accounts grants)
    (found : latest lockId grants = some grant) (moves : Moves grant.owner recipient grant.amount accounts after) :
    Settled after (settle lockId grants) ↔ grant.settlements = 0 := by
  rw [← once_settle found settled.once]
  constructor
  · intro later
    exact later.once
  · intro once
    refine ⟨fun address => ?_, once⟩
    have first := (once_settle found settled.once).mp once
    have sum := unsettled_settle found address
    have before := settled.accounted address
    have moved := moves.locked address
    unfold pending at sum
    rw [first] at sum
    by_cases here : address = grant.owner
    · rw [if_pos here] at moved
      rw [if_pos ⟨here.symm, rfl⟩] at sum
      omega
    · rw [if_neg here] at moved
      rw [if_neg fun both => here both.1.symm] at sum
      omega

variable {books : Books}

section

variable (matched : Matches vault grants)

include matched

theorem Matches.latest (found : vault.locks.lookup lockId = some metadata) :
    ∃ grant, AppCommon.latest lockId grants = some grant ∧ grant.owner = metadata.owner ∧
      grant.amount = metadata.amount := by
  have known := matched.known lockId
  rw [found] at known
  obtain ⟨grant, isLatest, same⟩ := Option.map_eq_some_iff.mp known
  exact ⟨grant, isLatest, congrArg Prod.fst same, congrArg Prod.snd same⟩

theorem Matches.latest_none (missing : vault.locks.lookup lockId = none) :
    AppCommon.latest lockId grants = none := by
  have known := matched.known lockId
  rw [missing] at known
  exact Option.map_eq_none_iff.mp known

theorem matches_books (cached : LocksCached books) (keeps : KeepsCached vault.books books) :
    Matches { vault with books := books } grants :=
  ⟨cached, fun lockId metadata found => keeps _ (matched.owners lockId metadata found), matched.known⟩

theorem matches_settle (cached : LocksCached books)
    (keeps : KeepsCached vault.books books) : Matches { vault with books := books } (settle lockId grants) :=
  ⟨cached, fun lockId metadata found => keeps _ (matched.owners lockId metadata found),
    fun other => latest_settle.trans (matched.known other)⟩

theorem payment_matches {finish : Bool × Vault} (ends : Payment vault metadata recipient read finish)
    (cached : LocksCached read) (reads : KeepsCached vault.books read) :
    Matches finish.2 (if finish.1 then settle lockId grants else grants) := by
  cases ends with
  | refused none => exact matches_books matched cached reads
  | stranded unlocked keeps covers cachedAfter moves unpayable =>
    exact matches_books matched cachedAfter (reads.trans keeps)
  | paid after keeps covers cachedAfter moves payable =>
    exact matches_settle matched cachedAfter (reads.trans keeps)

end

theorem payment_settled_iff (settled : Settled vault.books.accounts grants) {grant : Grant}
    (found : latest lockId grants = some grant) (owner : grant.owner = metadata.owner)
    (amount : grant.amount = metadata.amount) {finish : Bool × Vault}
    (ends : Payment vault metadata recipient read finish) (cached : LocksCached read)
    (present : (read.cache metadata.owner).isSome) (same : read.accounts = vault.books.accounts) :
    Settled finish.2.books.accounts (if finish.1 then settle lockId grants else grants) ↔
      SoundSettlement lockId (some recipient) vault.books.accounts grants := by
  unfold SoundSettlement
  simp only [found, Option.some.injEq, forall_eq', owner, amount]
  cases ends with
  | refused none =>
    have kept : Settled read.accounts grants := by
      rw [same]
      exact settled
    apply iff_of_true kept
    intro covers
    rw [← same] at covers
    obtain ⟨unlocked, unlocks⟩ := unlock_isSome cached present covers
    rw [none] at unlocks
    cases unlocks
  | stranded unlocked keeps covers cachedAfter moves unpayable =>
    rw [same] at covers moves unpayable
    apply iff_of_false
    · intro later
      have before := settled.accounted metadata.owner
      have after : units (unlocked.accounts.locked metadata.owner) = unsettled metadata.owner grants :=
        later.accounted metadata.owner
      have moved := moves.locked metadata.owner
      rw [if_pos rfl] at moved
      have zero : metadata.amount = AdicAmount.zero := units_eq_zero.mp (by omega)
      exact unpayable fun positive => absurd zero positive
    · intro sound
      exact unpayable (sound covers).2
  | paid after keeps covers cachedAfter moves payable =>
    rw [same] at covers moves payable
    rw [← owner, ← amount] at moves
    apply (settled_settle settled found moves).trans
    constructor
    · intro first _
      exact ⟨first, payable⟩
    · intro sound
      exact (sound covers).1

def reads (metadata : LockMetadata) (books : Books) : VaultCall → Books
  | .release _ recipient => (books.load metadata.owner).load recipient
  | .slash _ treasury => books.load treasury
  | _ => books

theorem accounts_reads (books : Books) : (reads metadata books call).accounts = books.accounts := by
  cases call <;> rfl

theorem cached_reads (cached : LocksCached books) : LocksCached (reads metadata books call) := by
  cases call with
  | release lockId recipient => exact (sameLocks_load.trans sameLocks_load).locksCached cached
  | slash lockId treasury => exact sameLocks_load.locksCached cached
  | lock | refund | ledger => exact cached

theorem keepsCached_reads : KeepsCached books (reads metadata books call) := by
  cases call with
  | release lockId recipient => exact keepsCached_load.trans keepsCached_load
  | slash lockId treasury => exact keepsCached_load
  | lock | refund | ledger => exact .refl _

section

variable {lockId : LockId} (found : vault.locks.lookup lockId = some metadata)

include found

theorem result_release : vault.result (.release lockId recipient) =
      vault.pay metadata recipient (reads metadata vault.books (.release lockId recipient)) := by
  simp only [Vault.result, found, reads]

theorem result_slash : vault.result (.slash lockId recipient) =
      vault.pay metadata recipient (reads metadata vault.books (.slash lockId recipient)) := by
  simp only [Vault.result, found, reads]

theorem result_refund {unlocked : Books}
    (unlocks : (Operation.unlock metadata.owner metadata.amount).outcome vault.books = some unlocked) :
    vault.result (.refund lockId) = (true, { vault with books := unlocked }) := by
  simp only [Vault.result, found, Vault.freed, unlocks]

theorem result_refund_refused (unlocks : (Operation.unlock metadata.owner metadata.amount).outcome vault.books = none) :
    vault.result (.refund lockId) = (false, vault) := by
  simp only [Vault.result, found, Vault.freed, unlocks]

end

def VaultCall.settled : VaultCall → Option LockId
  | .release lockId _ | .slash lockId _ | .refund lockId => some lockId
  | _ => none

theorem result_missing (settles : call.settled = some lockId)
    (missing : vault.locks.lookup lockId = none) : vault.result call = (false, vault) := by
  cases call with
  | lock | ledger => cases settles
  | release | slash | refund =>
    cases settles
    simp only [Vault.result, missing]

theorem result_ledger {operation : Operation} {after : Books}
    (outcome : operation.outcome vault.books = some after) :
    vault.result (.ledger operation) = (true, { vault with books := after }) := by
  simp only [Vault.result, outcome]

theorem result_ledger_failed {operation : Operation} (outcome : operation.outcome vault.books = none) :
    vault.result (.ledger operation) = (false, { vault with books := operation.residue vault.books }) := by
  simp only [Vault.result, outcome]

section

variable (matched : Matches vault grants)

include matched

theorem matches_lock (escrowType : EscrowType) (amount : AdicAmount) (currentEpoch : UInt64) :
    Matches (advance vault grants (.lock escrowType amount currentEpoch)).1
      (advance vault grants (.lock escrowType amount currentEpoch)).2 := by
  unfold advance
  simp only [Vault.result]
  split
  · exact matches_books matched (sameLocks_load.locksCached matched.cached) keepsCached_load
  · refine ⟨fun other => ?_, fun lockId metadata found => ?_, fun other => ?_⟩
    · rw [Books.setLocked, cachedLocked_setEntry, Books.accounts_setEntry, sameLocks_load.1]
      simp only [Accounts.setLocked, Function.update_apply, Books.accounts_load]
      rw [matched.cached other]
    · rw [HashMap.lookup_insert_eq] at found
      show ((Function.update (vault.books.load escrowType.owner).cache escrowType.owner (some _))
        metadata.owner).isSome
      rw [Function.update_apply]
      split
      · rfl
      · next different =>
        split at found
        · cases found
          exact absurd rfl different
        · exact keepsCached_load _ (matched.owners lockId metadata found)
    · rw [HashMap.lookup_insert_eq]
      unfold record latest
      rw [if_pos rfl, List.find?_cons]
      dsimp only
      by_cases here : escrowType.toLockId = other
      · rw [decide_eq_true here, if_pos here.symm]
        rfl
      · rw [decide_eq_false here, if_neg fun equal => here equal.symm]
        exact matched.known other

theorem matches_advance (shares : Shares call) :
    Matches (advance vault grants call).1 (advance vault grants call).2 := by
  cases call with
  | lock escrowType amount currentEpoch => exact matches_lock matched escrowType amount currentEpoch
  | release lockId recipient =>
    unfold advance
    cases found : vault.locks.lookup lockId with
    | none =>
      rw [result_missing rfl found]
      exact matched
    | some metadata =>
      rw [result_release found]
      have cached := @cached_reads (.release lockId recipient) metadata _ matched.cached
      exact payment_matches matched (payment_cases vault metadata recipient cached) cached keepsCached_reads
  | slash lockId treasury =>
    unfold advance
    cases found : vault.locks.lookup lockId with
    | none =>
      rw [result_missing rfl found]
      exact matched
    | some metadata =>
      rw [result_slash found]
      have cached := @cached_reads (.slash lockId treasury) metadata _ matched.cached
      exact payment_matches matched (payment_cases vault metadata treasury cached) cached keepsCached_reads
  | refund lockId =>
    unfold advance
    cases found : vault.locks.lookup lockId with
    | none =>
      rw [result_missing rfl found]
      exact matched
    | some metadata =>
      cases unlocks : (Operation.unlock metadata.owner metadata.amount).outcome vault.books with
      | none =>
        rw [result_refund_refused found unlocks]
        exact matched
      | some unlocked =>
        rw [result_refund found unlocks]
        exact matches_settle matched (unlock_moves matched.cached unlocks).2.1 (keepsCached_unlock unlocks)
  | ledger operation =>
    unfold advance
    cases outcome : operation.outcome vault.books with
    | none =>
      rw [result_ledger_failed outcome]
      have quiet := @quiet_residue vault.books _ shares
      exact matches_books matched (quiet.sameLocks.locksCached matched.cached) (keepsCached_quiet quiet)
    | some after =>
      rw [result_ledger outcome]
      have quiet := quiet_outcome shares outcome
      exact matches_books matched (quiet.sameLocks.locksCached matched.cached) (keepsCached_quiet quiet)

theorem settled_lock (settled : Settled vault.books.accounts grants) (escrowType : EscrowType) (amount : AdicAmount)
    (currentEpoch : UInt64) : Settled (advance vault grants (.lock escrowType amount currentEpoch)).1.books.accounts
        (advance vault grants (.lock escrowType amount currentEpoch)).2 ↔
      SoundLock escrowType.owner amount vault.books := by
  unfold advance SoundLock
  simp only [Vault.result]
  split
  · next short =>
    apply iff_of_true settled
    intro covered
    rw [amount_le] at covered
    rw [amount_lt] at short
    omega
  · next covered =>
    rw [amount_lt, not_lt, ← amount_le] at covered
    have locked : (vault.books.entry escrowType.owner).locked = vault.books.accounts.locked escrowType.owner :=
      matched.cached escrowType.owner
    have before := settled.accounted
    rw [units_maxSupply]
    dsimp only
    rw [if_pos rfl]
    constructor
    · intro later _
      have after := later.accounted escrowType.owner
      have same := before escrowType.owner
      unfold unsettled record at after
      unfold unsettled at same
      rw [List.map_cons, List.sum_cons, ← same] at after
      have saturated : units (Function.update vault.books.accounts.locked escrowType.owner
          ((vault.books.entry escrowType.owner).locked.saturatingAdd amount) escrowType.owner) =
          pending escrowType.owner ⟨escrowType.toLockId, escrowType.owner, amount, 0⟩ +
            units (vault.books.accounts.locked escrowType.owner) := after
      rw [Function.update_self, units_saturatingAdd, locked] at saturated
      unfold pending at saturated
      rw [if_pos ⟨rfl, rfl⟩] at saturated
      dsimp only at saturated
      omega
    · intro bounded
      have fits := bounded covered
      refine ⟨fun address => ?_, ?_⟩
      · show units (Function.update vault.books.accounts.locked escrowType.owner
          ((vault.books.entry escrowType.owner).locked.saturatingAdd amount) address) =
          pending address ⟨escrowType.toLockId, escrowType.owner, amount, 0⟩ + unsettled address grants
        rw [← before address, Function.update_apply]
        unfold pending
        by_cases here : address = escrowType.owner
        · rw [if_pos here, if_pos ⟨here.symm, rfl⟩, units_saturatingAdd, locked, here]
          dsimp only
          omega
        · rw [if_neg here, if_neg fun both => here both.1.symm]
          omega
      · unfold record
        rw [List.forall_mem_cons]
        exact ⟨Nat.zero_le 1, settled.once⟩

theorem settled_missing (settled : Settled vault.books.accounts grants)
    (settles : call.settled = some lockId) (missing : vault.locks.lookup lockId = none) :
    Settled (advance vault grants call).1.books.accounts (advance vault grants call).2 ↔
      SoundCall vault.books grants call := by
  unfold advance
  rw [result_missing settles missing]
  apply iff_of_true settled
  cases call with
  | lock | ledger => cases settles
  | release | slash | refund =>
    cases settles
    intro grant isLatest
    rw [matched.latest_none missing] at isLatest
    cases isLatest

theorem settled_advance (settled : Settled vault.books.accounts grants) (shares : Shares call) :
    Settled (advance vault grants call).1.books.accounts (advance vault grants call).2 ↔
      SoundCall vault.books grants call := by
  cases call with
  | lock escrowType amount currentEpoch => exact settled_lock matched settled escrowType amount currentEpoch
  | release lockId recipient =>
    cases found : vault.locks.lookup lockId with
    | none => exact settled_missing matched settled rfl found
    | some metadata =>
      obtain ⟨grant, isLatest, owner, amount⟩ := matched.latest found
      unfold advance
      rw [result_release found]
      have cached := @cached_reads (.release lockId recipient) metadata _ matched.cached
      exact payment_settled_iff settled isLatest owner amount (payment_cases vault metadata recipient cached) cached
        (keepsCached_reads _ (matched.owners lockId metadata found)) (accounts_reads _)
  | slash lockId treasury =>
    cases found : vault.locks.lookup lockId with
    | none => exact settled_missing matched settled rfl found
    | some metadata =>
      obtain ⟨grant, isLatest, owner, amount⟩ := matched.latest found
      unfold advance
      rw [result_slash found]
      have cached := @cached_reads (.slash lockId treasury) metadata _ matched.cached
      exact payment_settled_iff settled isLatest owner amount (payment_cases vault metadata treasury cached) cached
        (keepsCached_reads _ (matched.owners lockId metadata found)) (accounts_reads _)
  | refund lockId =>
    cases found : vault.locks.lookup lockId with
    | none => exact settled_missing matched settled rfl found
    | some metadata =>
      obtain ⟨grant, isLatest, owner, amount⟩ := matched.latest found
      have sound : SoundCall vault.books grants (.refund lockId) ↔
          (metadata.amount ≤ vault.books.accounts.locked metadata.owner → grant.settlements = 0) := by
        simp only [SoundCall, SoundSettlement, isLatest, Option.some.injEq, forall_eq', owner, amount]
        simp
      rw [sound]
      unfold advance
      cases unlocks : (Operation.unlock metadata.owner metadata.amount).outcome vault.books with
      | none =>
        rw [result_refund_refused found unlocks]
        apply iff_of_true settled
        intro covers
        obtain ⟨unlocked, impossible⟩ :=
          unlock_isSome matched.cached (matched.owners lockId metadata found) covers
        rw [unlocks] at impossible
        cases impossible
      | some unlocked =>
        rw [result_refund found unlocks]
        obtain ⟨covers, -, moves, -⟩ := unlock_moves matched.cached unlocks
        rw [← owner, ← amount] at moves
        apply (settled_settle settled isLatest moves).trans
        exact (imp_iff_right covers).symm
  | ledger operation =>
    apply iff_of_true _ trivial
    unfold advance
    cases outcome : operation.outcome vault.books with
    | none =>
      rw [result_ledger_failed outcome]
      exact (settled_same (quiet_residue shares).sameLocks.2).mpr settled
    | some after =>
      rw [result_ledger outcome]
      exact (settled_same (quiet_outcome shares outcome).sameLocks.2).mpr settled

end

def VaultCall.payee : VaultCall → Option AccountAddress
  | .release _ recipient | .slash _ recipient => some recipient
  | _ => none

theorem settlement_moves (matched : Matches vault grants) (settles : call.settled = some lockId)
    (succeeds : (vault.result call).1 = true) :
    ∃ grant, latest lockId grants = some grant ∧
      Moves grant.owner call.payee grant.amount vault.books.accounts (vault.result call).2.books.accounts := by
  cases found : vault.locks.lookup lockId with
  | none =>
    rw [result_missing settles found] at succeeds
    cases succeeds
  | some metadata =>
    obtain ⟨grant, isLatest, owner, amount⟩ := matched.latest found
    refine ⟨grant, isLatest, ?_⟩
    rw [owner, amount]
    have payment : ∀ recipient finish,
        Payment vault metadata recipient (reads metadata vault.books call) finish → finish.1 = true →
          Moves metadata.owner (some recipient) metadata.amount vault.books.accounts finish.2.books.accounts := by
      intro recipient finish ends paid
      cases ends with
      | refused | stranded => cases paid
      | paid after keeps covers cachedAfter moves payable =>
        rw [accounts_reads] at moves
        exact moves
    cases call with
    | lock | ledger => cases settles
    | release other recipient =>
      cases settles
      rw [result_release found] at succeeds ⊢
      exact payment recipient _ (payment_cases vault metadata recipient (cached_reads matched.cached)) succeeds
    | slash other treasury =>
      cases settles
      rw [result_slash found] at succeeds ⊢
      exact payment treasury _ (payment_cases vault metadata treasury (cached_reads matched.cached)) succeeds
    | refund other =>
      cases settles
      cases unlocks : (Operation.unlock metadata.owner metadata.amount).outcome vault.books with
      | none =>
        rw [result_refund_refused found unlocks] at succeeds
        cases succeeds
      | some unlocked =>
        rw [result_refund found unlocks]
        exact (unlock_moves matched.cached unlocks).2.2.1

end

section

variable {σ : Type} [EconomicsStorage σ] (blake3 : List UInt8 → Bytes32)

def nextGrants (state : EscrowManager σ × Grants) (call : Int × VaultCall) : EscrowManager σ × Grants :=
  let called := call.2.run blake3 call.1 state.1
  (called.2, if called.1 then record call.2 state.2 else state.2)

def escrowsAfter (balances : BalanceManager σ) (calls : List (Int × VaultCall)) : EscrowManager σ × Grants :=
  Runs.after (nextGrants blake3) (EscrowManager.new balances, []) calls

variable [LawfulStorage σ]

def EscrowsSettled (state : EscrowManager σ × Grants) : Prop :=
  Settled (LawfulStorage.accounts state.1.balanceMgr.storage) state.2

def MovesLock (state : EscrowManager σ × Grants) (call : Int × VaultCall) : Prop :=
  ∀ lockId, call.2.settled = some lockId → (call.2.run blake3 call.1 state.1).1 = true →
    ∃ grant, latest lockId state.2 = some grant ∧
      Moves grant.owner call.2.payee grant.amount (LawfulStorage.accounts state.1.balanceMgr.storage)
        (LawfulStorage.accounts (call.2.run blake3 call.1 state.1).2.balanceMgr.storage)

theorem nextGrants_advance (state : EscrowManager σ × Grants) (call : Int × VaultCall) :
    (vaultOf (nextGrants blake3 state call).1, (nextGrants blake3 state call).2) =
      advance (vaultOf state.1) state.2 call.2 := by
  obtain ⟨succeeded, left⟩ := @VaultCall.run_result _ _ blake3 call.1 _ state.1 call.2
  unfold nextGrants advance
  rw [← succeeded, ← left]

theorem settled_initially (balances : BalanceManager σ) (unlocked : NothingLocked balances) :
    Matches (vaultOf (EscrowManager.new balances)) [] ∧ EscrowsSettled (EscrowManager.new balances, []) := by
  refine ⟨⟨unlocked.locksCached, fun lockId metadata found => ?_, fun lockId => rfl⟩, fun address => ?_, fun grant known => ?_⟩
  · cases found
  · show units ((LawfulStorage.accounts balances.storage).locked address) = 0
    rw [(unlocked address).1, units_zero]
  · cases known

/-- Each open lock is counted and settled once exactly if every call meets its condition. -/
theorem escrow_settlement_iff (balances : BalanceManager σ) (unlocked : NothingLocked balances)
    (calls : List (Int × VaultCall)) (shared : ∀ call ∈ calls, Shares call.2) :
    ((∀ before, before <+: calls → EscrowsSettled (escrowsAfter blake3 balances before)) ∧
      ∀ before call, before ++ [call] <+: calls → MovesLock blake3 (escrowsAfter blake3 balances before) call) ↔
    ∀ before call, before ++ [call] <+: calls →
      SoundCall (booksOf (escrowsAfter blake3 balances before).1.balanceMgr) (escrowsAfter blake3 balances before).2
        call.2 := by
  obtain ⟨matchedNew, settledNew⟩ := settled_initially balances unlocked
  have carried : ∀ before, before <+: calls →
      Matches (vaultOf (escrowsAfter blake3 balances before).1) (escrowsAfter blake3 balances before).2 := by
    refine Runs.forall_prefixes matchedNew ?_
    intro before call part earlier
    have kept := matches_advance earlier (shared call (part.subset (by simp)))
    rw [← nextGrants_advance] at kept
    unfold escrowsAfter
    rw [Runs.after_snoc]
    exact kept
  have moves : ∀ before call, before ++ [call] <+: calls →
      MovesLock blake3 (escrowsAfter blake3 balances before) call := by
    intro before call part lockId settles succeeds
    obtain ⟨succeeded, left⟩ :=
      @VaultCall.run_result _ _ blake3 call.1 _ (escrowsAfter blake3 balances before).1 call.2
    rw [succeeded] at succeeds
    have moved := settlement_moves (carried before ((List.prefix_append _ _).trans part)) settles succeeds
    rw [← left] at moved
    exact moved
  rw [and_iff_left moves]
  refine @Runs.invariant_iff _ _ (nextGrants blake3) (EscrowManager.new balances, []) calls EscrowsSettled
    (fun state => Matches (vaultOf state.1) state.2 ∧ EscrowsSettled state)
    (fun call state => SoundCall (booksOf state.1.balanceMgr) state.2 call.2) (fun call _ => Shares call.2)
    ⟨matchedNew, settledNew⟩ (fun state strong => strong.2) ?_ ?_
    (fun before call part => shared call (part.subset (by simp)))
  · rintro state call ⟨matched, settled⟩ shares sound
    have kept := matches_advance matched shares
    have accounts := (settled_advance matched settled shares).mpr sound
    rw [← nextGrants_advance] at kept accounts
    exact ⟨kept, accounts⟩
  · rintro state call ⟨matched, settled⟩ shares later
    apply (settled_advance matched settled shares).mp
    rw [← nextGrants_advance]
    exact later

end

def sampleOwner : AccountAddress := AccountAddress.fromPublicKey sampleHash sampleKey

def sampleRecipient : AccountAddress := ⟨Bytes32.replicate 9⟩

def firstLock : EscrowType := .custom "first" sampleOwner

def secondLock : EscrowType := .custom "second" sampleOwner

def releasedOnce : List (Int × VaultCall) :=
  [(0, .lock firstLock ⟨10⟩ 1), (1, .lock secondLock ⟨10⟩ 1), (2, .release "first" sampleRecipient)]

theorem escrow_settlement_refund :
    NothingLocked (fundedBalances ⟨20⟩) ∧
    (∀ before, before <+: [(0, VaultCall.lock firstLock ⟨10⟩ 1), (1, .refund "first")] →
      EscrowsSettled (escrowsAfter sampleHash (fundedBalances ⟨20⟩) before)) := by
  refine ⟨nothingLocked_funded ⟨20⟩, ?_⟩
  have settlement := escrow_settlement_iff sampleHash (fundedBalances ⟨20⟩) (nothingLocked_funded ⟨20⟩)
    [(0, .lock firstLock ⟨10⟩ 1), (1, .refund "first")] (by simp [Shares])
  refine (settlement.mpr (Runs.forall_steps_cons.mpr ⟨?_, Runs.forall_steps_cons.mpr ⟨?_, Runs.forall_steps_nil⟩⟩)).1
  · intro _
    decide +kernel
  · intro grant isLatest _
    have first : latest "first" (escrowsAfter sampleHash (fundedBalances ⟨20⟩)
      [(0, .lock firstLock ⟨10⟩ 1)]).2 = some ⟨"first", sampleOwner, ⟨10⟩, 0⟩ := by decide +kernel
    have same := first.symm.trans isLatest
    cases same
    exact ⟨rfl, fun _ impossible => nomatch impossible⟩

/-- A second release of the first lock pays out what the second lock holds. -/
theorem second_release_takes_other : NothingLocked (fundedBalances ⟨20⟩) ∧
    ¬EscrowsSettled (escrowsAfter sampleHash (fundedBalances ⟨20⟩)
      (releasedOnce ++ [(3, .release "first" sampleRecipient)])) := by
  refine ⟨nothingLocked_funded ⟨20⟩, fun settled => ?_⟩
  have grants : (escrowsAfter sampleHash (fundedBalances ⟨20⟩)
      (releasedOnce ++ [(3, .release "first" sampleRecipient)])).2 =
      [⟨"second", sampleOwner, ⟨10⟩, 0⟩, ⟨"first", sampleOwner, ⟨10⟩, 2⟩] := by decide +kernel
  have twice := settled.once ⟨"first", sampleOwner, ⟨10⟩, 2⟩ (by rw [grants]; simp)
  exact absurd twice (by decide)

end AdicProof.AppCommon
