import AdicCore.Consensus.Escrow
import AdicCore.Economics.Amounts
import AdicCore.Finality.CheckpointLocks

open AdicModel.Economics AdicModel.Consensus

namespace AdicModel.Finality

/-- An engine with a deposit manager, for which the analysis of each message is given. -/
def withDeposits {σ ρ : Type} [EconomicsStorage σ] (blake3 : List UInt8 → Bytes32) (errorText : DepositError → String)
    (analysis : MessageId → Except String KCoreResult) (rest : Surroundings ρ) :
    Surroundings (DepositManager σ × ρ) where
  getMessage id world := rest.getMessage id world.2
  checkF2 messages world := ((rest.checkF2 messages world.2).1, (world.1, (rest.checkF2 messages world.2).2))
  analyze id world := (analysis id, (world.1, (rest.analyze id world.2).2))
  getProposer id world := (world.1.deposits.lookup id).map Deposit.proposerPk
  refund id world :=
    match DepositManager.refund blake3 id world.1 with
    | .ok () deposits => (.ok (), (deposits, world.2))
    | .error error deposits => (.error (errorText error), (deposits, world.2))
  goodUpdate proposer diversity depth world := (world.1, rest.goodUpdate proposer diversity depth world.2)
  storeFinalityArtifact id artifact world := (world.1, rest.storeFinalityArtifact id artifact world.2)
  timestamp world := rest.timestamp world.2

end AdicModel.Finality

open AdicModel AdicModel.Finality AdicProof.Economics AdicProof.Consensus Calls

namespace AdicProof.Finality

section

variable {σ : Type} (blake3 : List UInt8 → Bytes32)

def CanUnlock (manager : DepositManager σ) (address : AccountAddress) (total : Nat) : Prop :=
  ∀ balances, manager.balanceManager = some balances →
    ∃ info, balances.cache.lookup address = some info ∧ total ≤ units info.lockedBalance

def owedFor (manager : DepositManager σ) (address : AccountAddress) (id : MessageId) : Nat :=
  match manager.deposits.lookup id with
  | some deposit => if Escrows.address blake3 deposit = address then units deposit.amount else 0
  | none => 0

def Refundable (manager : DepositManager σ) (due : Finset MessageId) (id : MessageId) : Prop :=
  ∀ deposit, manager.deposits.lookup id = some deposit → deposit.status = .escrowed ∧
    CanUnlock manager (Escrows.address blake3 deposit)
      (∑ other ∈ due, owedFor blake3 manager (Escrows.address blake3 deposit) other)

variable {blake3} {manager : DepositManager σ} {id : MessageId} {deposit : Deposit} {address : AccountAddress}
  {total more : Nat}

theorem CanUnlock.weaken (covers : CanUnlock manager address more) (fewer : total ≤ more) :
    CanUnlock manager address total := by
  intro balances managed
  obtain ⟨info, cached, enough⟩ := covers balances managed
  exact ⟨info, cached, fewer.trans enough⟩

theorem owedFor_of_deposit (found : manager.deposits.lookup id = some deposit) :
    owedFor blake3 manager address id =
      if Escrows.address blake3 deposit = address then units deposit.amount else 0 := by
  unfold owedFor
  rw [found]

theorem owedFor_own (found : manager.deposits.lookup id = some deposit) :
    owedFor blake3 manager (Escrows.address blake3 deposit) id = units deposit.amount := by
  rw [owedFor_of_deposit found, if_pos rfl]

theorem owedFor_congr {other : DepositManager σ} (same : other.deposits.lookup id = manager.deposits.lookup id) :
    owedFor blake3 other address id = owedFor blake3 manager address id := by
  unfold owedFor
  rw [same]

variable {balances : BalanceManager σ}

theorem covers_managed (managed : manager.balanceManager = some balances) :
    CanUnlock manager address total ↔
      ∃ info, balances.cache.lookup address = some info ∧ total ≤ units info.lockedBalance := by
  constructor
  · exact fun covers => covers balances managed
  · intro holds other same
    rw [managed] at same
    cases same
    exact holds

theorem canUnlock_unmanaged (managed : manager.balanceManager = none) : CanUnlock manager address total := by
  intro balances some
  rw [managed] at some
  cases some

structure Refunded (blake3 : List UInt8 → Bytes32) (manager : DepositManager σ) (id : MessageId)
    (next : DepositManager σ) : Prop where
  others : ∀ other, other ≠ id → next.deposits.lookup other = manager.deposits.lookup other
  covers : ∀ address total,
    CanUnlock next address total ↔ CanUnlock manager address (total + owedFor blake3 manager address id)

variable [EconomicsStorage σ]

theorem unlock_ok [LawfulStorage σ] {info : AccountInfo} {amount : AdicAmount}
    (cached : balances.cache.lookup address = some info) (enough : units amount ≤ units info.lockedBalance) :
    ∃ next, BalanceManager.unlock address amount balances = .ok () next ∧
      ∀ other, next.cache.lookup other = if other = address
        then some { info with lockedBalance := info.lockedBalance.saturatingSub amount }
        else balances.cache.lookup other := by
  have unlocked : ¬ info.lockedBalance < amount := by
    rw [amount_lt]
    omega
  obtain ⟨stored, run, -⟩ := LawfulStorage.setLockedBalance address (info.lockedBalance.saturatingSub amount)
    balances.storage
  refine ⟨⟨stored, balances.cache.insert address
    { info with lockedBalance := info.lockedBalance.saturatingSub amount }⟩, ?_, fun other => ?_⟩
  · unfold BalanceManager.unlock
    rw [bind_get, cached]
    simp only [if_neg unlocked]
    have inserted : BalanceManager.cacheInsert address
        { info with lockedBalance := info.lockedBalance.saturatingSub amount } balances = .ok () _ := rfl
    rw [bind_ok inserted]
    unfold BalanceManager.onStorage
    rw [run]
  · exact HashMap.lookup_insert_eq _ _ _ _

theorem unlock_error {amount : AdicAmount}
    (short : ∀ info, balances.cache.lookup address = some info → units info.lockedBalance < units amount) :
    ∃ error, BalanceManager.unlock address amount balances = .error error balances := by
  unfold BalanceManager.unlock
  rw [bind_get]
  cases cached : balances.cache.lookup address with
  | none => exact ⟨_, rfl⟩
  | some info =>
    have refused : info.lockedBalance < amount := amount_lt.mpr (short info cached)
    simp only [if_pos refused]
    exact ⟨_, rfl⟩

theorem refund_ok [LawfulStorage σ] (found : manager.deposits.lookup id = some deposit)
    (escrowed : deposit.status = .escrowed)
    (covers : CanUnlock manager (Escrows.address blake3 deposit) (units deposit.amount)) :
    ∃ next, DepositManager.refund blake3 id manager = .ok () next ∧ Refunded blake3 manager id next := by
  have opened : ∀ rest : DepositCall σ Unit,
      (if deposit.status ≠ .escrowed then throw (.notEscrowed id) else rest) = rest :=
    fun rest => if_neg (not_not.mpr escrowed)
  let deposits := manager.deposits.insert id { deposit with status := .refunded }
  have others : ∀ other, other ≠ id → deposits.lookup other = manager.deposits.lookup other := by
    intro other different
    rw [HashMap.lookup_insert_eq, if_neg different]
  unfold DepositManager.refund
  rw [bind_get]
  simp only [found, opened]
  cases managed : manager.balanceManager with
  | none =>
    refine ⟨{ manager with deposits }, ?_, others, ?_⟩
    · have skipped : DepositManager.onBalanceManager (EStateM.adaptExcept DepositError.unlock
          (BalanceManager.unlock (AccountAddress.fromPublicKey blake3 deposit.proposerPk) deposit.amount)) manager =
            .ok () manager := by
        unfold DepositManager.onBalanceManager
        rw [managed]
      rw [bind_ok skipped]
      rfl
    · exact fun address total => iff_of_true (canUnlock_unmanaged managed) (canUnlock_unmanaged managed)
  | some balances =>
    obtain ⟨info, cached, enough⟩ := covers balances managed
    obtain ⟨unlocked, run, cache⟩ := unlock_ok cached enough
    refine ⟨{ manager with balanceManager := some unlocked, deposits }, ?_, others, fun address total => ?_⟩
    · have done : DepositManager.onBalanceManager (EStateM.adaptExcept DepositError.unlock
          (BalanceManager.unlock (AccountAddress.fromPublicKey blake3 deposit.proposerPk) deposit.amount)) manager =
            .ok () { manager with balanceManager := some unlocked } := by
        unfold DepositManager.onBalanceManager
        rw [managed]
        simp only [EStateM.adaptExcept, Escrows.address] at run ⊢
        rw [run]
      rw [bind_ok done]
      rfl
    · rw [covers_managed managed, @covers_managed _ _ _ _ unlocked rfl, cache, owedFor_of_deposit found]
      by_cases same : address = Escrows.address blake3 deposit
      · subst same
        have less : total ≤ units info.lockedBalance - units deposit.amount ↔
            total + units deposit.amount ≤ units info.lockedBalance := by
          omega
        simp [cached, less]
      · have other : Escrows.address blake3 deposit ≠ address := fun equal => same equal.symm
        rw [if_neg same, if_neg other, Nat.add_zero]

theorem refund_error (found : manager.deposits.lookup id = some deposit)
    (refused : ¬ (deposit.status = .escrowed ∧
      CanUnlock manager (Escrows.address blake3 deposit) (units deposit.amount))) :
    ∃ error next, DepositManager.refund blake3 id manager = .error error next := by
  unfold DepositManager.refund
  rw [bind_get]
  simp only [found]
  by_cases escrowed : deposit.status = .escrowed
  · have uncovered : ¬ CanUnlock manager (Escrows.address blake3 deposit) (units deposit.amount) :=
      fun covers => refused ⟨escrowed, covers⟩
    simp only [escrowed, ne_eq, not_true_eq_false, if_false]
    unfold CanUnlock at uncovered
    push Not at uncovered
    obtain ⟨balances, managed, short⟩ := uncovered
    obtain ⟨error, run⟩ := unlock_error short
    have failed : DepositManager.onBalanceManager (EStateM.adaptExcept DepositError.unlock
        (BalanceManager.unlock (AccountAddress.fromPublicKey blake3 deposit.proposerPk) deposit.amount)) manager =
          .error (.unlock error) { manager with balanceManager := some balances } := by
      unfold DepositManager.onBalanceManager
      rw [managed]
      simp only [EStateM.adaptExcept, Escrows.address] at run ⊢
      rw [run]
    exact ⟨_, _, bind_error failed⟩
  · simp only [ne_eq, escrowed, not_false_eq_true, if_true]
    exact ⟨_, _, rfl⟩

end

section

variable {σ ρ : Type} [EconomicsStorage σ] (blake3 : List UInt8 → Bytes32) (errorText : DepositError → String)
  (analysis : MessageId → Except String KCoreResult) (rest : Surroundings ρ)

def AnalyzedFinal (id : MessageId) : Prop := ∃ result, analysis id = .ok result ∧ result.isFinal = true

instance (id : MessageId) : Decidable (AnalyzedFinal analysis id) :=
  decidable_of_iff ((analysis id).toOption.any KCoreResult.isFinal = true) (by
    unfold AnalyzedFinal
    cases analysis id with
    | error text => simp [Except.toOption]
    | ok result => simp [Except.toOption])

def dueMessages (engine : FinalityEngine) (ids : List MessageId) : Finset MessageId :=
  ids.toFinset.filter fun id => engine.isFinalized id = false ∧ AnalyzedFinal analysis id

structure Unblocked (node : Node (DepositManager σ × ρ)) (ids : List MessageId) : Prop where
  refundable : ∀ id ∈ dueMessages analysis node.engine ids,
    Refundable blake3 node.world.1 (dueMessages analysis node.engine ids) id
  tracked : (dueMessages analysis node.engine ids).Nonempty → node.engine.f1MessagesHeld = false ∧
    node.engine.f1FinalizedMessages.length + (dueMessages analysis node.engine ids).card <
      node.engine.config.checkpointInterval.toNat

structure Finalizes (id : MessageId) (node next : Node (DepositManager σ × ρ)) : Prop where
  config : next.engine.config = node.engine.config
  pending : next.engine.pending = node.engine.pending
  finalized : ∀ other, next.engine.isFinalized other = (decide (other = id) || node.engine.isFinalized other)
  tracked : next.engine.f1FinalizedMessages.length = node.engine.f1FinalizedMessages.length + 1
  held : next.engine.f1MessagesHeld = node.engine.f1MessagesHeld
  others : ∀ other, other ≠ id → next.world.1.deposits.lookup other = node.world.1.deposits.lookup other
  covers : ∀ address total,
    CanUnlock next.world.1 address total ↔
      CanUnlock node.world.1 address (total + owedFor blake3 node.world.1 address id)

variable {blake3 errorText analysis rest} {node : Node (DepositManager σ × ρ)} {id : MessageId} {ids : List MessageId}
  {newlyFinalized : List MessageId}

abbrev RefundableNow (blake3 : List UInt8 → Bytes32) (manager : DepositManager σ) (id : MessageId) : Prop :=
  ∀ deposit, manager.deposits.lookup id = some deposit →
    deposit.status = .escrowed ∧ CanUnlock manager (Escrows.address blake3 deposit) (units deposit.amount)

theorem rewardProposer_ok [LawfulStorage σ] (diversity : ℚ) (depth : Nat)
    (refundable : RefundableNow blake3 node.world.1 id) :
    ∃ world, FinalityEngine.rewardProposer (withDeposits blake3 errorText analysis rest) id diversity depth node =
        .ok () { node with world } ∧ Refunded blake3 node.world.1 id world.1 := by
  unfold FinalityEngine.rewardProposer
  rw [bind_get]
  cases found : node.world.1.deposits.lookup id with
  | none =>
    have proposer : (withDeposits blake3 errorText analysis rest).getProposer id node.world = none := by
      simp only [withDeposits, found, Option.map_none]
    simp only [proposer]
    refine ⟨node.world, rfl, fun _ _ => rfl, fun address total => ?_⟩
    unfold owedFor
    rw [found, Nat.add_zero]
  | some deposit =>
    have proposer : (withDeposits blake3 errorText analysis rest).getProposer id node.world =
        some deposit.proposerPk := by
      simp only [withDeposits, found, Option.map_some]
    obtain ⟨escrowed, covers⟩ := refundable deposit found
    obtain ⟨next, run, refunded⟩ := refund_ok found escrowed covers
    have asked : FinalityEngine.asks ((withDeposits blake3 errorText analysis rest).refund id) node =
        .ok (.ok ()) { node with world := (next, node.world.2) } := by
      unfold FinalityEngine.asks
      rw [bind_get]
      refine (bind_ok rfl).trans ?_
      simp only [withDeposits, run]
      rfl
    simp only [proposer]
    rw [bind_ok asked]
    exact ⟨_, rfl, refunded⟩

theorem rewardProposer_error (diversity : ℚ) (depth : Nat) (refused : ¬ RefundableNow blake3 node.world.1 id) :
    ∃ error world, FinalityEngine.rewardProposer (withDeposits blake3 errorText analysis rest) id diversity depth node =
      .error error { node with world } := by
  unfold RefundableNow at refused
  push Not at refused
  obtain ⟨deposit, found, refused⟩ := refused
  obtain ⟨error, next, run⟩ := refund_error found (not_and.mpr refused)
  have proposer : (withDeposits blake3 errorText analysis rest).getProposer id node.world =
      some deposit.proposerPk := by
    simp only [withDeposits, found, Option.map_some]
  have asked : FinalityEngine.asks ((withDeposits blake3 errorText analysis rest).refund id) node =
      .ok (.error (errorText error)) { node with world := (next, node.world.2) } := by
    unfold FinalityEngine.asks
    rw [bind_get]
    refine (bind_ok rfl).trans ?_
    simp only [withDeposits, run]
    rfl
  unfold FinalityEngine.rewardProposer
  rw [bind_get]
  simp only [proposer]
  rw [bind_ok asked]
  exact ⟨_, _, rfl⟩

theorem trackF1Finalized_waits {ω : Type} {node : Node ω} (full : node.engine.f1MessagesHeld = false →
    node.engine.config.checkpointInterval.toNat ≤ node.engine.f1FinalizedMessages.length + 1) :
    ∃ engine, FinalityEngine.trackF1Finalized id node = .error .waiting { node with engine } ∧
      engine.pending = node.engine.pending := by
  cases held : node.engine.f1MessagesHeld with
  | true =>
    refine ⟨node.engine, ?_, rfl⟩
    unfold FinalityEngine.trackF1Finalized
    rw [bind_get, if_pos held]
    rfl
  | false => exact ⟨_, trackF1Finalized_full held (full held), rfl⟩

theorem asks_analysis : FinalityEngine.asks ((withDeposits blake3 errorText analysis rest).analyze id) node =
    .ok (analysis id) { node with world := (node.world.1, (rest.analyze id node.world.2).2) } := rfl

theorem checkF1_skip (skipped : node.engine.isFinalized id = true ∨ ¬ AnalyzedFinal analysis id) :
    ∃ world, FinalityEngine.checkF1 (withDeposits blake3 errorText analysis rest) newlyFinalized id node =
      .ok newlyFinalized { node with world } ∧ world.1 = node.world.1 := by
  unfold FinalityEngine.checkF1
  rw [bind_get]
  cases known : node.engine.isFinalized id with
  | true => exact ⟨node.world, rfl, rfl⟩
  | false =>
    have open' : ¬ AnalyzedFinal analysis id := skipped.resolve_left (by simp [known])
    refine ⟨(node.world.1, (rest.analyze id node.world.2).2), ?_, rfl⟩
    simp only [Bool.false_eq_true, if_false]
    rw [bind_ok asks_analysis]
    cases result : analysis id with
    | error text => rfl
    | ok found =>
      cases final : found.isFinal with
      | false =>
        simp only [final, if_true]
        rfl
      | true => exact absurd ⟨found, result, final⟩ open'

theorem checkF1_due (known : node.engine.isFinalized id = false) {result : KCoreResult}
    (analyzed : analysis id = .ok result) (final : result.isFinal = true) :
    ∃ diversity depth world artifact,
      FinalityEngine.checkF1 (withDeposits blake3 errorText analysis rest) newlyFinalized id node =
        (FinalityEngine.rewardProposer (withDeposits blake3 errorText analysis rest) id diversity depth >>= fun _ =>
          FinalityEngine.onWorld ((withDeposits blake3 errorText analysis rest).storeFinalityArtifact id artifact) >>=
            fun _ => FinalityEngine.onEngine (.insertArtifact id artifact) >>= fun _ =>
              FinalityEngine.trackF1Finalized id >>= fun _ => pure (newlyFinalized ++ [id]))
          ⟨node.engine.updateFinalizedDepth result.depth, (node.world.1, world)⟩ := by
  unfold FinalityEngine.checkF1
  rw [bind_get, known]
  simp only [Bool.false_eq_true, if_false]
  rw [bind_ok asks_analysis, analyzed]
  simp only [final, Bool.true_eq_false, if_false]
  exact ⟨_, _, _, _, rfl⟩

variable {engine : FinalityEngine}

theorem isFinalized_insertArtifact (artifact : FinalityArtifact) (other : MessageId) :
    (engine.insertArtifact id artifact).isFinalized other = (decide (other = id) || engine.isFinalized other) := by
  have lookup : (engine.insertArtifact id artifact).finalized.lookup other = _ :=
    HashMap.lookup_insert_eq engine.finalized id other artifact
  unfold FinalityEngine.isFinalized
  rw [lookup]
  by_cases same : other = id
  · simp [same]
  · simp [same]

theorem checkF1_ok [LawfulStorage σ] (known : node.engine.isFinalized id = false) (final : AnalyzedFinal analysis id)
    (refundable : RefundableNow blake3 node.world.1 id) (free : node.engine.f1MessagesHeld = false)
    (below : node.engine.f1FinalizedMessages.length + 1 < node.engine.config.checkpointInterval.toNat) :
    ∃ next, FinalityEngine.checkF1 (withDeposits blake3 errorText analysis rest) newlyFinalized id node =
      .ok (newlyFinalized ++ [id]) next ∧ Finalizes blake3 id node next := by
  obtain ⟨result, analyzed, isFinal⟩ := final
  obtain ⟨diversity, depth, world, artifact, run⟩ := @checkF1_due σ ρ _ blake3 errorText analysis rest node id
    newlyFinalized known result analyzed isFinal
  rw [run]
  obtain ⟨rewarded, reward, refunded⟩ := @rewardProposer_ok σ ρ _ blake3 errorText analysis rest
    ⟨node.engine.updateFinalizedDepth result.depth, (node.world.1, world)⟩ id _ diversity depth refundable
  rw [bind_ok reward]
  refine ⟨_, (bind_ok rfl).trans ((bind_ok rfl).trans (bind_ok (trackF1Finalized_ok free below))), ?_⟩
  exact ⟨rfl, rfl, fun other => isFinalized_insertArtifact artifact other, List.length_append, rfl, refunded.others,
    refunded.covers⟩

theorem checkF1_error [LawfulStorage σ] (known : node.engine.isFinalized id = false) (final : AnalyzedFinal analysis id)
    (blocked : RefundableNow blake3 node.world.1 id → node.engine.f1MessagesHeld = false →
      node.engine.config.checkpointInterval.toNat ≤ node.engine.f1FinalizedMessages.length + 1) :
    ∃ error next, FinalityEngine.checkF1 (withDeposits blake3 errorText analysis rest) newlyFinalized id node =
      .error error next ∧ next.engine.pending = node.engine.pending := by
  obtain ⟨result, analyzed, isFinal⟩ := final
  obtain ⟨diversity, depth, world, artifact, run⟩ := @checkF1_due σ ρ _ blake3 errorText analysis rest node id
    newlyFinalized known result analyzed isFinal
  rw [run]
  by_cases refundable : RefundableNow blake3 node.world.1 id
  · obtain ⟨rewarded, reward, refunded⟩ := @rewardProposer_ok σ ρ _ blake3 errorText analysis rest
      ⟨node.engine.updateFinalizedDepth result.depth, (node.world.1, world)⟩ id _ diversity depth refundable
    rw [bind_ok reward]
    obtain ⟨engine, waits, same⟩ := @trackF1Finalized_waits id _
      (⟨(node.engine.updateFinalizedDepth result.depth).insertArtifact id artifact,
        (withDeposits blake3 errorText analysis rest).storeFinalityArtifact id artifact rewarded⟩ :
          Node (DepositManager σ × ρ)) (blocked refundable)
    exact ⟨_, _, (bind_ok rfl).trans ((bind_ok rfl).trans (bind_error waits)), same⟩
  · obtain ⟨error, world', reward⟩ := @rewardProposer_error σ ρ _ blake3 errorText analysis rest
      ⟨node.engine.updateFinalizedDepth result.depth, (node.world.1, world)⟩ id diversity depth refundable
    exact ⟨_, _, bind_error reward, rfl⟩

theorem mem_dueMessages : id ∈ dueMessages analysis engine ids ↔
    id ∈ ids ∧ engine.isFinalized id = false ∧ AnalyzedFinal analysis id := by
  unfold dueMessages
  rw [Finset.mem_filter, List.mem_toFinset]

theorem dueMessages_skip
    (skipped : engine.isFinalized id = true ∨ ¬ AnalyzedFinal analysis id) :
    dueMessages analysis engine (id :: ids) = dueMessages analysis engine ids := by
  ext other
  rw [mem_dueMessages, mem_dueMessages, List.mem_cons]
  constructor
  · rintro ⟨rfl | member, unknown, final⟩
    · rcases skipped with known | open'
      · rw [known] at unknown
        cases unknown
      · exact absurd final open'
    · exact ⟨member, unknown, final⟩
  · exact fun ⟨member, due⟩ => ⟨.inr member, due⟩

section

variable {next : Node (DepositManager σ × ρ)} (finalizes : Finalizes blake3 id node next)

include finalizes

omit [EconomicsStorage σ] in
theorem Finalizes.dueMessages_eq :
    dueMessages analysis next.engine ids = (dueMessages analysis node.engine (id :: ids)).erase id := by
  ext other
  rw [Finset.mem_erase, mem_dueMessages, mem_dueMessages, finalizes.finalized, List.mem_cons]
  by_cases same : other = id
  · simp [same]
  · simp [same]

omit [EconomicsStorage σ] in
theorem Finalizes.refundable_iff {due : Finset MessageId} (member : id ∈ due) {other : MessageId}
    (different : other ≠ id) :
    Refundable blake3 next.world.1 (due.erase id) other ↔ Refundable blake3 node.world.1 due other := by
  have total : ∀ address,
      CanUnlock next.world.1 address (∑ other ∈ due.erase id, owedFor blake3 next.world.1 address other) ↔
        CanUnlock node.world.1 address (∑ other ∈ due, owedFor blake3 node.world.1 address other) := by
    intro address
    have same : ∑ other ∈ due.erase id, owedFor blake3 next.world.1 address other =
        ∑ other ∈ due.erase id, owedFor blake3 node.world.1 address other :=
      Finset.sum_congr rfl fun other left => owedFor_congr (finalizes.others other (Finset.ne_of_mem_erase left))
    rw [finalizes.covers, same, Finset.sum_erase_add _ _ member]
  unfold Refundable
  rw [finalizes.others other different]
  exact forall₂_congr fun deposit _ => and_congr_right fun _ => total _

omit [EconomicsStorage σ] in
theorem Finalizes.unblocked_iff (due : id ∈ dueMessages analysis node.engine (id :: ids))
    (refundable : RefundableNow blake3 node.world.1 id) (free : node.engine.f1MessagesHeld = false)
    (below : node.engine.f1FinalizedMessages.length + 1 < node.engine.config.checkpointInterval.toNat) :
    Unblocked blake3 analysis next ids ↔ Unblocked blake3 analysis node (id :: ids) := by
  have card := Finset.card_erase_add_one due
  have others : ∀ other ∈ (dueMessages analysis node.engine (id :: ids)).erase id, _ ↔ _ :=
    fun other left => finalizes.refundable_iff due (Finset.ne_of_mem_erase left)
  constructor
  · rintro ⟨each, tracked⟩
    rw [finalizes.dueMessages_eq] at each tracked
    constructor
    · intro other member
      by_cases same : other = id
      · subst same
        intro deposit found
        obtain ⟨escrowed, covers⟩ := refundable deposit found
        refine ⟨escrowed, ?_⟩
        rw [← Finset.sum_erase_add _ _ due, owedFor_own found]
        by_cases alone : ∑ other ∈ (dueMessages analysis node.engine (other :: ids)).erase other,
            owedFor blake3 node.world.1 (Escrows.address blake3 deposit) other = 0
        · rw [alone, Nat.zero_add]
          exact covers
        · obtain ⟨neighbor, left, owes⟩ := Finset.exists_ne_zero_of_sum_ne_zero alone
          have settled := (others neighbor left).mp (each neighbor left)
          unfold owedFor at owes
          split at owes
          · next second found' =>
            split at owes
            · next address =>
              have enough := (settled second found').2
              rw [address, ← Finset.sum_erase_add _ _ due, owedFor_own found] at enough
              exact enough
            · exact absurd rfl owes
          · exact absurd rfl owes
      · have left := Finset.mem_erase.mpr ⟨same, member⟩
        exact (others other left).mp (each other left)
    · intro _
      refine ⟨free, ?_⟩
      by_cases more : ((dueMessages analysis node.engine (id :: ids)).erase id).Nonempty
      · have fewer := (tracked more).2
        rw [finalizes.tracked, finalizes.config] at fewer
        omega
      · rw [Finset.not_nonempty_iff_eq_empty.mp more] at card
        rw [← card]
        exact below
  · rintro ⟨each, tracked⟩
    obtain ⟨-, fewer⟩ := tracked ⟨id, due⟩
    constructor
    · rw [finalizes.dueMessages_eq]
      exact fun other left => (others other left).mpr (each other (Finset.mem_of_mem_erase left))
    · rw [finalizes.dueMessages_eq, finalizes.held, finalizes.tracked, finalizes.config]
      exact fun _ => ⟨free, by omega⟩

end

omit [EconomicsStorage σ] in
theorem Unblocked.now (unblocked : Unblocked blake3 analysis node ids)
    (due : id ∈ dueMessages analysis node.engine ids) :
    RefundableNow blake3 node.world.1 id ∧ node.engine.f1MessagesHeld = false ∧
      node.engine.f1FinalizedMessages.length + 1 < node.engine.config.checkpointInterval.toNat := by
  obtain ⟨free, below⟩ := unblocked.tracked ⟨id, due⟩
  have some := Finset.card_pos.mpr ⟨id, due⟩
  refine ⟨fun deposit found => ?_, free, by omega⟩
  obtain ⟨escrowed, covers⟩ := unblocked.refundable id due deposit found
  refine ⟨escrowed, covers.weaken ?_⟩
  rw [← @owedFor_own σ blake3 _ id deposit found]
  exact Finset.single_le_sum (f := owedFor blake3 node.world.1 (Escrows.address blake3 deposit))
    (fun _ _ => Nat.zero_le _) due

omit [EconomicsStorage σ] in
theorem unblocked_of_none (none : dueMessages analysis node.engine ids = ∅) : Unblocked blake3 analysis node ids := by
  constructor
  · rw [none]
    exact fun _ member => absurd member (Finset.notMem_empty _)
  · rw [none]
    exact fun some => absurd some Finset.not_nonempty_empty

omit [EconomicsStorage σ] in
theorem unblocked_skip {world : DepositManager σ × ρ} (same : world.1 = node.world.1)
    (skipped : node.engine.isFinalized id = true ∨ ¬ AnalyzedFinal analysis id) :
    Unblocked blake3 analysis { node with world } ids ↔ Unblocked blake3 analysis node (id :: ids) := by
  have due : dueMessages analysis node.engine (id :: ids) = dueMessages analysis node.engine ids :=
    dueMessages_skip skipped
  constructor
  · rintro ⟨refundable, tracked⟩
    simp only [same] at refundable
    refine ⟨?_, ?_⟩
    · rw [due]
      exact refundable
    · rw [due]
      exact tracked
  · rintro ⟨refundable, tracked⟩
    rw [due] at refundable tracked
    refine ⟨?_, tracked⟩
    simp only [same]
    exact refundable

theorem foldlM_checkF1 [LawfulStorage σ] (ids : List MessageId) :
    ∀ (node : Node (DepositManager σ × ρ)) newlyFinalized,
      (Unblocked blake3 analysis node ids → ∃ newly next,
        ids.foldlM (FinalityEngine.checkF1 (withDeposits blake3 errorText analysis rest)) newlyFinalized node =
          .ok newly next ∧ next.engine.pending = node.engine.pending ∧
        (∀ other, next.engine.isFinalized other = true ↔
          node.engine.isFinalized other = true ∨ other ∈ dueMessages analysis node.engine ids) ∧
        ∀ other, other ∈ newly ↔ other ∈ newlyFinalized ∨ other ∈ dueMessages analysis node.engine ids) ∧
      (¬ Unblocked blake3 analysis node ids → ∃ error next,
        ids.foldlM (FinalityEngine.checkF1 (withDeposits blake3 errorText analysis rest)) newlyFinalized node =
          .error error next ∧ next.engine.pending = node.engine.pending) := by
  induction ids with
  | nil =>
    intro node newlyFinalized
    have none : dueMessages analysis node.engine [] = ∅ := by
      ext other
      simp [mem_dueMessages]
    constructor
    · intro _
      rw [none]
      exact ⟨newlyFinalized, node, rfl, rfl, by simp, by simp⟩
    · exact fun blocked => absurd (unblocked_of_none none) blocked
  | cons id ids ih =>
    intro node newlyFinalized
    rw [List.foldlM_cons]
    by_cases skipped : node.engine.isFinalized id = true ∨ ¬ AnalyzedFinal analysis id
    · obtain ⟨world, run, same⟩ := @checkF1_skip σ ρ _ blake3 errorText analysis rest node id newlyFinalized skipped
      rw [bind_ok run, dueMessages_skip skipped, ← unblocked_skip same skipped]
      exact ih { node with world } newlyFinalized
    · rw [not_or, not_not, Bool.not_eq_true] at skipped
      obtain ⟨unknown, final⟩ := skipped
      have due : id ∈ dueMessages analysis node.engine (id :: ids) :=
        mem_dueMessages.mpr ⟨List.mem_cons_self, unknown, final⟩
      by_cases now : RefundableNow blake3 node.world.1 id ∧ node.engine.f1MessagesHeld = false ∧
          node.engine.f1FinalizedMessages.length + 1 < node.engine.config.checkpointInterval.toNat
      · obtain ⟨refundable, free, below⟩ := now
        obtain ⟨next, run, finalizes⟩ := @checkF1_ok σ ρ _ blake3 errorText analysis rest node id newlyFinalized _
          unknown final refundable free below
        rw [bind_ok run, ← finalizes.unblocked_iff due refundable free below]
        obtain ⟨finished, stopped⟩ := ih next (newlyFinalized ++ [id])
        rw [finalizes.pending] at finished stopped
        refine ⟨fun unblocked => ?_, stopped⟩
        obtain ⟨newly, last, run', pending, finalized, added⟩ := finished unblocked
        rw [finalizes.dueMessages_eq] at finalized added
        have split : ∀ other, other ∈ dueMessages analysis node.engine (id :: ids) ↔
            other = id ∨ other ∈ (dueMessages analysis node.engine (id :: ids)).erase id := by
          intro other
          rw [← Finset.mem_insert, Finset.insert_erase due]
        refine ⟨newly, last, run', pending, fun other => ?_, fun other => ?_⟩
        · rw [finalized, finalizes.finalized, split, Bool.or_eq_true, decide_eq_true_iff]
          tauto
        · rw [added, split, List.mem_append, List.mem_singleton, or_assoc]
      · have stopped := @checkF1_error σ ρ _ blake3 errorText analysis rest node id newlyFinalized _ unknown final
          fun refundable free => Nat.le_of_not_lt fun below => now ⟨refundable, free, below⟩
        obtain ⟨error, next, run, pending⟩ := stopped
        refine ⟨fun unblocked => absurd (unblocked.now due) now, fun _ => ⟨error, next, bind_error run, pending⟩⟩

theorem retainPending_ok {ω : Type} (newlyFinalized : List MessageId) (node : Node ω) :
    ∃ last, FinalityEngine.retainPending newlyFinalized node = .ok () last ∧
      last.engine.finalized = node.engine.finalized ∧ ∀ id ∈ newlyFinalized, id ∉ last.engine.pending := by
  unfold FinalityEngine.retainPending
  cases empty : newlyFinalized.isEmpty with
  | true =>
    refine ⟨node, rfl, rfl, fun id member => ?_⟩
    rw [List.isEmpty_iff.mp empty] at member
    cases member
  | false =>
    refine ⟨_, rfl, rfl, fun id member kept => ?_⟩
    simpa [member] using (List.mem_filter.mp kept).2

/-- The pending messages whose analysis is final are finalized. No finalized message stays pending. -/
structure FinalizesPending (analysis : MessageId → Except String KCoreResult) (before after : FinalityEngine) :
    Prop where
  finalized : ∀ id ∈ before.pending, AnalyzedFinal analysis id → after.isFinalized id = true
  removed : ∀ id, before.isFinalized id = false → after.isFinalized id = true → id ∉ after.pending

/-- A check by the k-core finalizes its messages exactly if no refund and no checkpoint stands in the way. -/
theorem check_finality_iff [LawfulStorage σ] (f1Only : node.engine.config.f1Enabled = true)
    (noF2 : node.engine.config.f2Enabled = false) :
    FinalizesPending analysis node.engine
        (stateAfter (FinalityEngine.checkFinality (withDeposits blake3 errorText analysis rest)) node).engine ↔
      Unblocked blake3 analysis node node.engine.pending := by
  have runs : FinalityEngine.checkFinality (withDeposits blake3 errorText analysis rest) node =
      FinalityEngine.checkFinalityF1 (withDeposits blake3 errorText analysis rest) node.engine.pending node := by
    unfold FinalityEngine.checkFinality
    rw [bind_get]
    simp only [f1Only, noF2, Bool.false_eq_true, if_true, if_false]
  obtain ⟨finished, stopped⟩ := @foldlM_checkF1 σ ρ _ blake3 errorText analysis rest _ node.engine.pending node []
  unfold stateAfter
  rw [runs]
  unfold FinalityEngine.checkFinalityF1
  by_cases unblocked : Unblocked blake3 analysis node node.engine.pending
  · refine iff_of_true ?_ unblocked
    obtain ⟨newly, next, run, pending, finalized, added⟩ := finished unblocked
    rw [bind_ok run]
    obtain ⟨last, retain, same, gone⟩ := retainPending_ok newly next
    rw [bind_ok retain]
    have sameFinalized : ∀ id, last.engine.isFinalized id = next.engine.isFinalized id := by
      intro id
      unfold FinalityEngine.isFinalized
      rw [same]
    refine ⟨fun id member final => ?_, fun id unknown known => ?_⟩
    · show last.engine.isFinalized id = true
      rw [sameFinalized, finalized, mem_dueMessages]
      cases known : node.engine.isFinalized id with
      | true => exact .inl rfl
      | false => exact .inr ⟨member, rfl, final⟩
    · have known' : last.engine.isFinalized id = true := known
      rw [sameFinalized, finalized, unknown] at known'
      exact gone id ((added id).mpr (.inr (known'.resolve_left Bool.false_ne_true)))
  · refine iff_of_false (fun holds => ?_) unblocked
    obtain ⟨error, next, run, pending⟩ := stopped unblocked
    rw [bind_error run] at holds
    -- some message is due, and it is either not finalized or still pending
    have due : (dueMessages analysis node.engine node.engine.pending).Nonempty := by
      rw [Finset.nonempty_iff_ne_empty]
      exact fun none => unblocked (unblocked_of_none none)
    obtain ⟨id, member⟩ := due
    obtain ⟨listed, unknown, final⟩ := mem_dueMessages.mp member
    refine holds.removed id unknown (holds.finalized id listed final) ?_
    show id ∈ next.engine.pending
    rw [pending]
    exact listed

end

def stillWorld : Surroundings Unit where
  getMessage _ _ := none
  checkF2 _ world := (.pending, world)
  analyze _ world := (.error "", world)
  getProposer _ _ := none
  refund _ world := (.ok (), world)
  goodUpdate _ _ _ world := world
  storeFinalityArtifact _ _ world := world
  timestamp _ := 0

def allFinal (id : MessageId) : Except String KCoreResult := .ok ⟨true, 3, 3, 1, ∅, some id⟩

def pendingId (byte : UInt8) : MessageId := ⟨Bytes32.replicate byte⟩

def pendingNode (status : DepositStatus) : Node (DepositManager MemoryStorage × Unit) :=
  let deposit : Deposit := ⟨pendingId 1, ⟨Bytes32.replicate 3⟩, ⟨1⟩, status, 0⟩
  let deposits := (∅ : HashMap.Table MessageId Deposit).insert (pendingId 1) deposit
  { engine := { FinalityEngine.new .default with pending := [pendingId 1, pendingId 2] }
    world := ({ DepositManager.new ⟨1⟩ with deposits }, ()) }

def pendingSurroundings : Surroundings (DepositManager MemoryStorage × Unit) :=
  withDeposits (fun _ => Bytes32.replicate 0) (fun _ => "") allFinal stillWorld

theorem check_finality_escrowed :
    FinalizesPending allFinal (pendingNode .escrowed).engine
        (stateAfter (FinalityEngine.checkFinality pendingSurroundings) (pendingNode .escrowed)).engine ↔
      Unblocked (fun _ => Bytes32.replicate 0) allFinal (pendingNode .escrowed) [pendingId 1, pendingId 2] :=
  @check_finality_iff _ _ _ _ _ _ _ (pendingNode .escrowed) _ rfl rfl

theorem refunded_deposit_blocks : ¬ ∀ node : Node (DepositManager MemoryStorage × Unit),
    node.engine.config.f1Enabled = true → node.engine.config.f2Enabled = false →
      FinalizesPending allFinal node.engine
        (stateAfter (FinalityEngine.checkFinality pendingSurroundings) node).engine := by
  intro claim
  have unfinished : (stateAfter (FinalityEngine.checkFinality pendingSurroundings)
      (pendingNode .refunded)).engine.isFinalized (pendingId 2) = false := by
    decide +kernel
  have finalized := (claim (pendingNode .refunded) rfl rfl).finalized (pendingId 2) (by decide) ⟨_, rfl, rfl⟩
  rw [unfinished] at finalized
  cases finalized

end AdicProof.Finality
