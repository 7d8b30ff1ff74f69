import AdicCore.Economics.BoundedBalances
import AdicCore.StorageMarket.CompiledDeals

open AdicModel AdicModel.Economics AdicModel.StorageMarket Calls AdicProof.Economics

namespace AdicProof.StorageMarket

variable {σ : Type} [EconomicsStorage σ] [FallibleStorage σ]

def holdingsOf (manager : BalanceManager σ) : Holdings := ⟨FallibleStorage.balance manager.storage, cachedOf manager⟩

structure SameBooks (before after : Funded JitcaCompiler (BalanceManager σ)) : Prop where
  balances : (holdingsOf after.ledger).read = (holdingsOf before.ledger).read
  stored : (holdingsOf after.ledger).stored = (holdingsOf before.ledger).stored
  deals : after.manager.deals = before.manager.deals
  nextDealId : after.manager.nextDealId = before.manager.nextDealId

def HalfPaid (ledger : Ledger (BalanceManager σ)) (scale : Scale) (intent : StorageDealIntent)
    (acceptance : ProviderAcceptance) (currentEpoch : UInt64) (state : Funded JitcaCompiler (BalanceManager σ)) : Prop :=
  ∃ totalPayment, JitcaCompiler.validate scale state.manager.config intent acceptance currentEpoch = .ok totalPayment ∧
    totalPayment ≠ AdicAmount.zero ∧ ∃ paid, ledger.debit intent.client totalPayment state.ledger = .ok () paid ∧
      ¬succeeds (ledger.debit acceptance.provider acceptance.collateralCommitment) paid

structure Faultless (σ : Type) [EconomicsStorage σ] : Prop where
  reads : ∀ address (storage : σ), succeeds (EconomicsStorage.getBalance address) storage
  writes : ∀ address amount (storage : σ), succeeds (EconomicsStorage.setBalance address amount) storage

section

variable {manager next : BalanceManager σ} {holdings : Holdings} {address other : AccountAddress}
  {amount : AdicAmount} {now : Int} {error : EconomicsError}

theorem has_holdingsOf (manager : BalanceManager σ) : Has (holdingsOf manager) manager := ⟨rfl, rfl⟩

theorem holdingsOf_eq (has : Has holdings manager) : holdingsOf manager = holdings := by
  obtain ⟨stored, cached⟩ := has
  unfold holdingsOf
  rw [stored, cached]

theorem read_paid (rest : AdicAmount) :
    ((holdings.load address).put address rest).read other = if other = address then rest else holdings.read other := by
  rw [Holdings.read_put, Holdings.read_load]

theorem debit_failed (failed : BalanceManager.debit now address amount manager = .error error next) :
    (holdingsOf next).read = (holdingsOf manager).read ∧ (holdingsOf next).stored = (holdingsOf manager).stored := by
  have left := @debit_triple _ _ _ _ address amount now manager (has_holdingsOf manager)
  rw [failed] at left
  rcases left with has | has
  · rw [holdingsOf_eq has]
    exact ⟨rfl, rfl⟩
  · rw [holdingsOf_eq has]
    exact ⟨funext fun _ => Holdings.read_load, rfl⟩

theorem debit_paid (paid : BalanceManager.debit now address amount manager = .ok () next) :
    units ((holdingsOf manager).read address) = units amount + units ((holdingsOf next).read address) ∧
      ∀ other ≠ address, (holdingsOf next).read other = (holdingsOf manager).read other := by
  have left := @debit_triple _ _ _ _ address amount now manager (has_holdingsOf manager)
  rw [paid] at left
  rcases left with ⟨rfl, has⟩ | ⟨rest, -, sum, has⟩
  · rw [holdingsOf_eq has, units_zero, zero_add]
    exact ⟨rfl, fun _ _ => rfl⟩
  · change Has (((holdingsOf manager).load address).put address rest) next at has
    rw [holdingsOf_eq has, read_paid, if_pos rfl]
    exact ⟨sum, fun other different => (read_paid rest).trans (if_neg different)⟩

omit [EconomicsStorage σ] [FallibleStorage σ] in
theorem onStorage_succeeds {α : Type} {call : Call σ α} (runs : succeeds call manager.storage) :
    succeeds (BalanceManager.onStorage call) manager := by
  obtain ⟨value, storage, ran⟩ := runs
  refine ⟨value, { manager with storage := storage }, ?_⟩
  unfold BalanceManager.onStorage
  rw [ran]

omit [FallibleStorage σ] in
theorem getBalance_succeeds (faultless : Faultless σ) (now : Int) (address : AccountAddress)
    (manager : BalanceManager σ) : succeeds (BalanceManager.getBalance now address) manager := by
  unfold BalanceManager.getBalance
  unfold succeeds
  rw [bind_get]
  cases manager.cache.lookup address with
  | some info => exact ⟨_, _, rfl⟩
  | none =>
    obtain ⟨balance, read, ran⟩ := onStorage_succeeds (faultless.reads address manager.storage)
    exact succeeds_bind ran ⟨_, _, rfl⟩

theorem debit_succeeds_iff (faultless : Faultless σ) :
    succeeds (BalanceManager.debit now address amount) manager ↔
      units amount ≤ units ((holdingsOf manager).read address) := by
  constructor
  · rintro ⟨⟨⟩, next, paid⟩
    have := (debit_paid paid).1
    omega
  · intro enough
    unfold BalanceManager.debit
    by_cases nothing : amount = AdicAmount.zero
    · rw [if_pos nothing]
      exact ⟨(), manager, rfl⟩
    rw [if_neg nothing]
    obtain ⟨current, loaded, got⟩ := getBalance_succeeds faultless now address manager
    have same := @getBalance_triple _ _ _ _ address now manager (has_holdingsOf manager)
    rw [got] at same
    obtain ⟨rest, left⟩ : ∃ rest, current.checkedSub amount = some rest := by
      cases left : current.checkedSub amount with
      | some rest => exact ⟨rest, rfl⟩
      | none =>
        rw [checkedSub_eq_none, same.1] at left
        omega
    obtain ⟨⟨⟩, written, ran⟩ := onStorage_succeeds (faultless.writes address rest loaded.storage)
    refine succeeds_bind got ?_
    rw [left]
    refine succeeds_bind ran ?_
    unfold succeeds
    rw [bind_get]
    cases written.cache.lookup address with
    | some info => exact ⟨_, _, rfl⟩
    | none => exact ⟨_, _, rfl⟩

end

section

variable {blake3 : List UInt8 → Bytes32} {now : Int} {scale : Scale} {intent : StorageDealIntent}
  {acceptance : ProviderAcceptance} {currentEpoch : UInt64} {state next : Funded JitcaCompiler (BalanceManager σ)}
  {error : StorageMarketError}

def leftForCollateral (client provider : AccountAddress) (totalPayment : AdicAmount) (manager : BalanceManager σ) : Nat :=
  units ((holdingsOf manager).read provider) - if provider = client then units totalPayment else 0

theorem left_paid {client provider : AccountAddress} {totalPayment : AdicAmount} {manager paid : BalanceManager σ}
    (debited : BalanceManager.debit now client totalPayment manager = .ok () paid) :
    units ((holdingsOf paid).read provider) = leftForCollateral client provider totalPayment manager := by
  obtain ⟨less, others⟩ := debit_paid debited
  unfold leftForCollateral
  split
  · next same =>
    subst same
    omega
  · next different =>
    rw [others provider different]
    rfl

theorem sameBooks_of_unpaid
    (unpaid : ¬HalfPaid (.ofBalanceManager blake3 now) scale intent acceptance currentEpoch state)
    (failed : JitcaCompiler.compile (.ofBalanceManager blake3 now) scale intent acceptance currentEpoch state =
      .error error next) : SameBooks state next := by
  rcases compile_fails failed with rfl | ⟨totalPayment, validated, failed | ⟨paid, debited, failed⟩⟩
  · exact ⟨rfl, rfl, rfl, rfl⟩
  · obtain ⟨_, after, refused, -, rfl⟩ := onLedger_error failed
    exact ⟨(debit_failed refused).1, (debit_failed refused).2, rfl, rfl⟩
  · obtain ⟨first, taken, rfl⟩ := onLedger_ok debited
    obtain ⟨_, after, refused, -, rfl⟩ := onLedger_error failed
    by_cases nothing : totalPayment = AdicAmount.zero
    · subst nothing
      cases taken
      exact ⟨(debit_failed refused).1, (debit_failed refused).2, rfl, rfl⟩
    · exact absurd ⟨totalPayment, validated, nothing, first, taken, not_succeeds refused⟩ unpaid

theorem books_differ (halfPaid : HalfPaid (.ofBalanceManager blake3 now) scale intent acceptance currentEpoch state) :
    ∃ error next, JitcaCompiler.compile (.ofBalanceManager blake3 now) scale intent acceptance currentEpoch state =
      .error error next ∧ ¬SameBooks state next := by
  obtain ⟨totalPayment, validated, something, paid, debited, refused⟩ := halfPaid
  cases collected : BalanceManager.debit now acceptance.provider acceptance.collateralCommitment paid with
  | ok value after => exact absurd ⟨value, after, collected⟩ refused
  | error cause after =>
    refine ⟨.economicsError (.ledger cause), ⟨state.manager, after⟩, ?_, fun same => ?_⟩
    · unfold JitcaCompiler.compile
      rw [getManager_bind, validated]
      exact (Calls.bind_ok (onLedger_of_ok debited)).trans (Calls.bind_error (onLedger_of_error collected))
    · have less := (debit_paid debited).1
      have kept := congrFun same.balances intent.client
      rw [(debit_failed collected).1] at kept
      rw [kept] at less
      have := units_eq_zero.not.mpr something
      omega

theorem halfPaid_iff (faultless : Faultless σ) :
    HalfPaid (.ofBalanceManager blake3 now) scale intent acceptance currentEpoch state ↔ ∃ totalPayment,
      JitcaCompiler.validate scale state.manager.config intent acceptance currentEpoch = .ok totalPayment ∧
        0 < units totalPayment ∧ units totalPayment ≤ units ((holdingsOf state.ledger).read intent.client) ∧
        leftForCollateral intent.client acceptance.provider totalPayment state.ledger <
          units acceptance.collateralCommitment := by
  have collateral : ∀ {totalPayment : AdicAmount} {paid : BalanceManager σ},
      BalanceManager.debit now intent.client totalPayment state.ledger = .ok () paid →
        (¬succeeds (BalanceManager.debit now acceptance.provider acceptance.collateralCommitment) paid ↔
          leftForCollateral intent.client acceptance.provider totalPayment state.ledger <
            units acceptance.collateralCommitment) := by
    intro totalPayment paid debited
    rw [debit_succeeds_iff faultless, not_le, left_paid debited]
  constructor
  · rintro ⟨totalPayment, validated, something, paid, debited, refused⟩
    have covered := (debit_succeeds_iff faultless).mp (succeeds_ok debited)
    have positive := Nat.pos_of_ne_zero (units_eq_zero.not.mpr something)
    exact ⟨totalPayment, validated, positive, covered, (collateral debited).mp refused⟩
  · rintro ⟨totalPayment, validated, positive, covered, short⟩
    obtain ⟨⟨⟩, paid, debited⟩ := (@debit_succeeds_iff _ _ _ _ _ _ now faultless).mpr covered
    have something := units_eq_zero.not.mp positive.ne'
    exact ⟨totalPayment, validated, something, paid, debited, (collateral debited).mpr short⟩

/-- A compile that fails leaves all books as they were, unless the client pays something and then the provider
    cannot. -/
theorem compileAtomic_iff (blake3 : List UInt8 → Bytes32) (now : Int) (scale : Scale) (intent : StorageDealIntent)
    (acceptance : ProviderAcceptance) (currentEpoch : UInt64) (state : Funded JitcaCompiler (BalanceManager σ)) :
    ((∀ error next, JitcaCompiler.compile (.ofBalanceManager blake3 now) scale intent acceptance currentEpoch state =
        .error error next → SameBooks state next) ↔
      ¬HalfPaid (.ofBalanceManager blake3 now) scale intent acceptance currentEpoch state) ∧
    (Faultless σ → (HalfPaid (.ofBalanceManager blake3 now) scale intent acceptance currentEpoch state ↔
      ∃ totalPayment,
        JitcaCompiler.validate scale state.manager.config intent acceptance currentEpoch = .ok totalPayment ∧
          0 < units totalPayment ∧ units totalPayment ≤ units ((holdingsOf state.ledger).read intent.client) ∧
          leftForCollateral intent.client acceptance.provider totalPayment state.ledger <
            units acceptance.collateralCommitment)) := by
  refine ⟨⟨fun atomic halfPaid => ?_, fun unpaid error next failed => sameBooks_of_unpaid unpaid failed⟩, halfPaid_iff⟩
  obtain ⟨error, next, failed, differ⟩ := books_differ halfPaid
  exact differ (atomic error next failed)

end

section

theorem memory_faultless : Faultless MemoryStorage := ⟨fun _ _ => ⟨_, _, rfl⟩, fun _ _ _ => ⟨_, _, rfl⟩⟩

def poorProvider : Funded JitcaCompiler (BalanceManager MemoryStorage) :=
  ⟨.new jitcaConfig, .new { MemoryStorage.new with balances := HashMap.ofPairs [(alice, ⟨1000⟩), (bob, ⟨10⟩)] }⟩

/-- The client pays for a deal that is not made. -/
theorem poorProvider_takesPayment :
    ∃ error next, JitcaCompiler.compile (.ofBalanceManager (fun _ => Bytes32.replicate 0) 0) exactScale twoCopies
      (acceptanceOf bob (Bytes32.replicate 11)) 1 poorProvider = .error error next ∧ ¬SameBooks poorProvider next :=
  books_differ ((halfPaid_iff memory_faultless).mpr
    ⟨⟨50⟩, by decide +kernel, by decide, by decide +kernel, by decide +kernel⟩)

end

end AdicProof.StorageMarket
