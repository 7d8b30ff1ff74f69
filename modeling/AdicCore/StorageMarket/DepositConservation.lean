import AdicCore.Library.Runs
import AdicCore.StorageMarket.Intent
import AdicCore.StorageMarket.Metering

open AdicModel AdicModel.Economics AdicModel.StorageMarket Calls

namespace AdicProof.StorageMarket

def openDeposit (status : FinalityStatus) (deposit : AdicAmount) : Nat :=
  if status.isFinalized then 0 else deposit.baseUnits.toNat

def intentWeight (intent : StorageDealIntent) : Nat := openDeposit intent.finalityStatus intent.deposit

def acceptanceWeight (acceptance : ProviderAcceptance) : Nat := openDeposit acceptance.finalityStatus acceptance.deposit

def openDeposits (manager : IntentManager) : Nat :=
  HashMap.total intentWeight manager.intents + HashMap.total acceptanceWeight manager.acceptances

def Conserved {L : Type} (state : Funded IntentManager (Metered L)) : Prop :=
  state.ledger.debited = state.ledger.credited + openDeposits state.manager

instance {L : Type} (state : Funded IntentManager (Metered L)) : Decidable (Conserved state) :=
  inferInstanceAs (Decidable (_ = _))

inductive IntentCall (L : Type) where
  | publishIntent (ledger : Ledger L) (reputation : AccountAddress → ℚ) (intent : StorageDealIntent)
  | updateIntentFinality (ledger : Ledger L) (intentId : Hash) (finalityStatus : FinalityStatus)
    (finalizedAtEpoch : UInt64)
  | submitAcceptance (ledger : Ledger L) (reputation : AccountAddress → ℚ) (now : Int64)
    (acceptance : ProviderAcceptance)
  | updateAcceptanceFinality (ledger : Ledger L) (acceptanceId : Hash) (finalityStatus : FinalityStatus)
    (finalizedAtEpoch : UInt64)
  | cleanupExpiredIntents (order : HashMap.Order) (now : Int64)

variable {L : Type}

def nextState (state : Funded IntentManager (Metered L)) : IntentCall L → Funded IntentManager (Metered L)
  | .publishIntent ledger reputation intent =>
    stateAfter (IntentManager.publishIntent reputation (metered ledger) intent) state
  | .updateIntentFinality ledger intentId finalityStatus finalizedAtEpoch =>
    stateAfter (IntentManager.updateIntentFinality (metered ledger) intentId finalityStatus finalizedAtEpoch) state
  | .submitAcceptance ledger reputation now acceptance =>
    stateAfter (IntentManager.submitAcceptance reputation (metered ledger) now acceptance) state
  | .updateAcceptanceFinality ledger acceptanceId finalityStatus finalizedAtEpoch =>
    stateAfter (IntentManager.updateAcceptanceFinality (metered ledger) acceptanceId finalityStatus finalizedAtEpoch)
      state
  | .cleanupExpiredIntents order now =>
    { state with manager := (state.manager.cleanupExpiredIntents order now).2 }

def Stores {α : Type} (weight : α → Nat) (table : HashMap.Table Hash α) (id : Hash) (message : α)
    (deposit : AdicAmount) : Prop :=
  weight message = deposit.baseUnits.toNat ∧ ∀ old, table.lookup id = some old → weight old = 0

def Settles {α : Type} (weight : α → Nat) (depositOf : α → AdicAmount) (table : HashMap.Table Hash α) (id : Hash)
    (succeeded : Prop) : Prop :=
  ∀ message, table.lookup id = some message →
    (succeeded → weight message = (depositOf message).baseUnits.toNat) ∧ (¬succeeded → weight message = 0)

def Balanced (call : IntentCall L) (state : Funded IntentManager (Metered L)) : Prop :=
  match call with
  | .publishIntent ledger reputation intent =>
    succeeds (IntentManager.publishIntent reputation (metered ledger) intent) state →
      Stores intentWeight state.manager.intents intent.intentId intent intent.deposit
  | .updateIntentFinality ledger intentId finalityStatus finalizedAtEpoch =>
    Settles intentWeight StorageDealIntent.deposit state.manager.intents intentId
      (succeeds (IntentManager.updateIntentFinality (metered ledger) intentId finalityStatus finalizedAtEpoch) state)
  | .submitAcceptance ledger reputation now acceptance =>
    succeeds (IntentManager.submitAcceptance reputation (metered ledger) now acceptance) state →
      Stores acceptanceWeight state.manager.acceptances acceptance.acceptanceId acceptance acceptance.deposit
  | .updateAcceptanceFinality ledger acceptanceId finalityStatus finalizedAtEpoch =>
    Settles acceptanceWeight ProviderAcceptance.deposit state.manager.acceptances acceptanceId
      (succeeds (IntentManager.updateAcceptanceFinality (metered ledger) acceptanceId finalityStatus
        finalizedAtEpoch) state)
  | .cleanupExpiredIntents _ now =>
    ∀ intentId intent, state.manager.intents.lookup intentId = some intent → intent.isExpired now →
      intentWeight intent = 0

section

variable {ledger : Ledger L} {reputation : AccountAddress → ℚ} {intent : StorageDealIntent} {now : Int64}
  {acceptance : ProviderAcceptance} {id : Hash} {finalityStatus : FinalityStatus} {epoch : UInt64}
  {state : Funded IntentManager (Metered L)} {owner : AccountAddress} {deposit : AdicAmount}

theorem publishIntent_ends : Ends (IntentManager.publishIntent reputation (metered ledger) intent) state
    (fun _ next => next.manager.intents = state.manager.intents.insert intent.intentId intent ∧
      next.manager.acceptances = state.manager.acceptances ∧
      next.ledger.debited = state.ledger.debited + intent.deposit.baseUnits.toNat ∧
      next.ledger.credited = state.ledger.credited)
    fun _ next => Uncounted state next := by
  unfold IntentManager.publishIntent
  refine ends_getManager (ends_checked (fun _ _ => ?_) fun _ _ => ⟨rfl, rfl, rfl⟩)
  refine ends_checked (fun _ _ => ?_) fun _ _ => ⟨rfl, rfl, rfl⟩
  refine ends_checked (fun _ _ => ?_) fun _ _ => ⟨rfl, rfl, rfl⟩
  refine ends_checked (fun _ _ => ?_) fun _ _ => ⟨rfl, rfl, rfl⟩
  refine debit_ends.bind ?_ fun _ _ fails => fails
  rintro _ ⟨manager, totals⟩ ⟨same, paid, credited⟩
  obtain rfl : manager = state.manager := same
  exact ⟨rfl, rfl, paid, credited⟩

theorem submitAcceptance_ends : Ends (IntentManager.submitAcceptance reputation (metered ledger) now acceptance) state
    (fun _ next => next.manager.intents = state.manager.intents ∧
      next.manager.acceptances = state.manager.acceptances.insert acceptance.acceptanceId
        { acceptance with providerReputation := reputation acceptance.provider } ∧
      next.ledger.debited = state.ledger.debited + acceptance.deposit.baseUnits.toNat ∧
      next.ledger.credited = state.ledger.credited)
    fun _ next => Uncounted state next := by
  unfold IntentManager.submitAcceptance
  refine ends_getManager (ends_checked (fun _ _ => ?_) fun _ _ => ⟨rfl, rfl, rfl⟩)
  refine ends_checked (fun _ _ => ?_) fun _ _ => ⟨rfl, rfl, rfl⟩
  refine ends_checked (fun _ _ => ?_) fun _ _ => ⟨rfl, rfl, rfl⟩
  refine debit_ends.bind ?_ fun _ _ fails => fails
  rintro _ ⟨manager, totals⟩ ⟨same, paid, credited⟩
  obtain rfl : manager = state.manager := same
  exact ⟨rfl, rfl, paid, credited⟩

theorem refundOnFinality_ends : Ends (IntentManager.refundOnFinality (metered ledger) finalityStatus owner deposit) state
    (fun _ next => next.manager = state.manager ∧ next.ledger.debited = state.ledger.debited ∧
      next.ledger.credited + openDeposit finalityStatus deposit = state.ledger.credited + deposit.baseUnits.toNat)
    fun _ next => Uncounted state next ∧ openDeposit finalityStatus deposit = 0 := by
  unfold IntentManager.refundOnFinality openDeposit
  by_cases final : finalityStatus.isFinalized
  · rw [if_pos final, if_pos final]
    exact credit_ends.weaken (fun _ _ done => done.2) fun _ _ fails => ⟨fails.2.2, rfl⟩
  · rw [if_neg final, if_neg final]
    exact ⟨rfl, rfl, rfl⟩

theorem updateIntentFinality_found (found : state.manager.intents.lookup id = some intent) :
    let updated := { intent with finalityStatus := finalityStatus, finalizedAtEpoch := some epoch }
    IntentManager.updateIntentFinality (metered ledger) id finalityStatus epoch state =
      IntentManager.refundOnFinality (metered ledger) finalityStatus intent.client intent.deposit
        { state with manager := { state.manager with intents := state.manager.intents.insert id updated } } := by
  unfold IntentManager.updateIntentFinality
  refine (getManager_bind _).trans ?_
  rw [found]
  rfl

theorem updateAcceptanceFinality_found (found : state.manager.acceptances.lookup id = some acceptance) :
    let updated := { acceptance with finalityStatus := finalityStatus, finalizedAtEpoch := some epoch }
    IntentManager.updateAcceptanceFinality (metered ledger) id finalityStatus epoch state =
      IntentManager.refundOnFinality (metered ledger) finalityStatus acceptance.provider acceptance.deposit
        { state with manager := { state.manager with acceptances := state.manager.acceptances.insert id updated } } := by
  unfold IntentManager.updateAcceptanceFinality
  refine (getManager_bind _).trans ?_
  rw [found]
  rfl

end

section

variable {manager : IntentManager} {id : Hash} {order : HashMap.Order} {now : Int64}

def heldUnder (manager : IntentManager) (id : Hash) : Nat := ((manager.intents.lookup id).map intentWeight).getD 0

theorem lookup_removeIntent (other : Hash) :
    (manager.removeIntent id).intents.lookup other = if other = id then none else manager.intents.lookup other := by
  unfold IntentManager.removeIntent
  cases found : manager.intents.lookup id with
  | none =>
    dsimp only
    by_cases same : other = id
    · rw [if_pos same, same, found]
    · rw [if_neg same]
  | some intent => exact HashMap.lookup_erase_eq manager.intents id other

theorem openDeposits_removeIntent :
    openDeposits (manager.removeIntent id) + heldUnder manager id = openDeposits manager := by
  unfold IntentManager.removeIntent heldUnder openDeposits
  cases found : manager.intents.lookup id with
  | none => rfl
  | some intent =>
    have erased := HashMap.total_erase intentWeight manager.intents id
    rw [found] at erased
    dsimp only at erased ⊢
    omega

theorem openDeposits_foldl (ids : List Hash) (nodup : ids.Nodup) (manager : IntentManager) :
    openDeposits (ids.foldl IntentManager.removeIntent manager) + (ids.map (heldUnder manager)).sum =
      openDeposits manager := by
  induction ids generalizing manager with
  | nil => rfl
  | cons first rest ih =>
    rw [List.nodup_cons] at nodup
    have same : rest.map (heldUnder (manager.removeIntent first)) = rest.map (heldUnder manager) := by
      refine List.map_congr_left fun id member => ?_
      have different : id ≠ first := fun equal => nodup.1 (equal ▸ member)
      rw [heldUnder, heldUnder, lookup_removeIntent, if_neg different]
    have later := ih nodup.2 (manager.removeIntent first)
    have here := @openDeposits_removeIntent manager first
    rw [same] at later
    rw [List.foldl_cons, List.map_cons, List.sum_cons]
    omega

theorem expired_nodup : (IntentManager.expired order now manager).Nodup := by
  unfold IntentManager.expired
  have keys : ((order.iterate (HashMap.pairs manager.intents)).map Prod.fst).Nodup :=
    ((order.perm _).map Prod.fst).nodup_iff.mpr (HashMap.pairs_keys_nodup manager.intents)
  exact keys.sublist (List.filter_sublist.map Prod.fst)

theorem mem_expired : id ∈ IntentManager.expired order now manager ↔
    ∃ intent, manager.intents.lookup id = some intent ∧ intent.isExpired now := by
  unfold IntentManager.expired
  rw [List.mem_map]
  constructor
  · rintro ⟨⟨_, intent⟩, member, rfl⟩
    obtain ⟨stored, isExpired⟩ := List.mem_filter.mp member
    exact ⟨intent, HashMap.mem_pairs.mp (HashMap.Order.mem_iterate.mp stored), isExpired⟩
  · rintro ⟨intent, found, isExpired⟩
    exact ⟨(id, intent), List.mem_filter.mpr
      ⟨HashMap.Order.mem_iterate.mpr (HashMap.mem_pairs.mpr found), isExpired⟩, rfl⟩

theorem openDeposits_cleanup_iff :
    openDeposits (manager.cleanupExpiredIntents order now).2 = openDeposits manager ↔
      ∀ intentId intent, manager.intents.lookup intentId = some intent → intent.isExpired now →
        intentWeight intent = 0 := by
  have lost := openDeposits_foldl (IntentManager.expired order now manager) expired_nodup manager
  have sum_zero : openDeposits (manager.cleanupExpiredIntents order now).2 = openDeposits manager ↔
      ((IntentManager.expired order now manager).map (heldUnder manager)).sum = 0 := by
    unfold IntentManager.cleanupExpiredIntents
    dsimp only
    omega
  rw [sum_zero, List.sum_eq_zero_iff]
  constructor
  · intro none id intent found isExpired
    have zero := none _ (List.mem_map_of_mem (mem_expired.mpr ⟨intent, found, isExpired⟩))
    rwa [heldUnder, found] at zero
  · intro none weight member
    obtain ⟨id, expired, rfl⟩ := List.mem_map.mp member
    obtain ⟨intent, found, isExpired⟩ := mem_expired.mp expired
    rw [heldUnder, found]
    exact none id intent found isExpired

end

section

variable {α : Type} {weight : α → Nat} {depositOf : α → AdicAmount} {table : HashMap.Table Hash α} {id : Hash}
  {message : α} {deposit : AdicAmount} {debited credited refunded rest : Nat}

section

variable (conserved : debited = credited + (HashMap.total weight table + rest))

include conserved

theorem stores_iff (bound : weight message ≤ deposit.baseUnits.toNat) :
    debited + deposit.baseUnits.toNat = credited + (HashMap.total weight (table.insert id message) + rest) ↔
      Stores weight table id message deposit := by
  have total := HashMap.total_insert weight table id message
  unfold Stores
  cases found : table.lookup id with
  | none =>
    rw [found] at total
    simp only [Option.map_none, Option.getD_none, reduceCtorEq, false_imp_iff, implies_true, and_true] at total ⊢
    omega
  | some old =>
    rw [found] at total
    simp only [Option.map_some, Option.getD_some, Option.some.injEq, forall_eq'] at total ⊢
    omega

theorem refunded_iff (found : table.lookup id = some message) (updated : α)
    (refund : refunded + weight updated = credited + deposit.baseUnits.toNat) :
    debited = refunded + (HashMap.total weight (table.insert id updated) + rest) ↔
      weight message = deposit.baseUnits.toNat := by
  have total := HashMap.total_insert weight table id updated
  rw [found] at total
  simp only [Option.map_some, Option.getD_some] at total
  omega

theorem unrefunded_iff (found : table.lookup id = some message) (updated : α) (final : weight updated = 0) :
    debited = credited + (HashMap.total weight (table.insert id updated) + rest) ↔ weight message = 0 := by
  have total := HashMap.total_insert weight table id updated
  rw [found] at total
  simp only [Option.map_some, Option.getD_some] at total
  omega

end

theorem settles_iff {succeeded : Prop} (found : table.lookup id = some message) :
    Settles weight depositOf table id succeeded ↔
      (succeeded → weight message = (depositOf message).baseUnits.toNat) ∧ (¬succeeded → weight message = 0) := by
  unfold Settles
  simp only [found, Option.some.injEq, forall_eq']

theorem openDeposit_le (status : FinalityStatus) : openDeposit status deposit ≤ deposit.baseUnits.toNat := by
  unfold openDeposit
  split
  · exact Nat.zero_le _
  · exact Nat.le_refl _

end

section

variable {state : Funded IntentManager (Metered L)}

section

variable (conserved : Conserved state)

include conserved

theorem conserved_stored {β ι : Type} {call : MarketCall IntentManager (Metered L) β} {weight : ι → Nat}
    {table : HashMap.Table Hash ι} {id : Hash} {message : ι} {deposit : AdicAmount} {rest : Nat}
    (opened : openDeposits state.manager = HashMap.total weight table + rest)
    (bound : weight message ≤ deposit.baseUnits.toNat)
    (ends : Ends call state (fun _ next =>
      openDeposits next.manager = HashMap.total weight (table.insert id message) + rest ∧
        next.ledger.debited = state.ledger.debited + deposit.baseUnits.toNat ∧
        next.ledger.credited = state.ledger.credited) fun _ next => Uncounted state next) :
    Conserved (stateAfter call state) ↔ (succeeds call state → Stores weight table id message deposit) := by
  unfold Conserved at conserved ⊢
  cases ran : call state with
  | error error next =>
    obtain ⟨manager, debited, credited⟩ := ends.error ran
    rw [stateAfter_error ran, manager, debited, credited]
    exact ⟨fun _ succeeded => absurd succeeded (not_succeeds ran), fun _ => conserved⟩
  | ok result next =>
    obtain ⟨after, debited, credited⟩ := ends.ok ran
    rw [opened] at conserved
    rw [stateAfter_ok ran, after, debited, credited, stores_iff conserved bound]
    exact ⟨fun stores _ => stores, fun stores => stores (succeeds_ok ran)⟩

theorem conserved_refunds {ι : Type} {call : MarketCall IntentManager (Metered L) Unit} {weight : ι → Nat}
    {depositOf : ι → AdicAmount} {table : HashMap.Table Hash ι} {id : Hash} {message updated : ι} {rest : Nat}
    {ledger : Ledger L} {status : FinalityStatus} {owner : AccountAddress} {after : IntentManager}
    (found : table.lookup id = some message)
    (called : call state = IntentManager.refundOnFinality (metered ledger) status owner (depositOf message) ⟨after, state.ledger⟩)
    (updates : weight updated = openDeposit status (depositOf message))
    (opened : openDeposits state.manager = HashMap.total weight table + rest)
    (opens : openDeposits after = HashMap.total weight (table.insert id updated) + rest) :
    Conserved (stateAfter call state) ↔ Settles weight depositOf table id (succeeds call state) := by
  unfold Conserved at conserved ⊢
  rw [opened] at conserved
  rw [settles_iff found]
  cases ran : call state with
  | error error next =>
    obtain ⟨⟨manager, debited, credited⟩, final⟩ := refundOnFinality_ends.error (called.symm.trans ran)
    rw [stateAfter_error ran, manager, debited, credited, opens]
    refine (unrefunded_iff conserved found updated (updates.trans final)).trans ⟨fun zero => ?_, fun both => ?_⟩
    · exact ⟨fun succeeded => absurd succeeded (not_succeeds ran), fun _ => zero⟩
    · exact both.2 (not_succeeds ran)
  | ok value next =>
    obtain ⟨manager, debited, credited⟩ := refundOnFinality_ends.ok (called.symm.trans ran)
    rw [← updates] at credited
    rw [stateAfter_ok ran, manager, debited, opens]
    refine (refunded_iff conserved found updated credited).trans ⟨fun held => ?_, fun both => ?_⟩
    · exact ⟨fun _ => held, fun failed => absurd (succeeds_ok ran) failed⟩
    · exact both.1 (succeeds_ok ran)

theorem conserved_unknown {ι : Type} {call : MarketCall IntentManager (Metered L) Unit} {weight : ι → Nat}
    {depositOf : ι → AdicAmount} {table : HashMap.Table Hash ι} {id : Hash} {error : StorageMarketError}
    (missing : table.lookup id = none) (ran : call state = .error error state) :
    Conserved (stateAfter call state) ↔ Settles weight depositOf table id (succeeds call state) := by
  rw [stateAfter_error ran]
  refine iff_of_true conserved fun message found => ?_
  rw [missing] at found
  cases found

theorem conserved_publishIntent (ledger : Ledger L) (reputation : AccountAddress → ℚ) (intent : StorageDealIntent) :
    Conserved (nextState state (.publishIntent ledger reputation intent)) ↔
      Balanced (.publishIntent ledger reputation intent) state := by
  refine conserved_stored conserved rfl (openDeposit_le _) (publishIntent_ends.weaken ?_ fun _ _ fails => fails)
  rintro _ next ⟨intents, acceptances, totals⟩
  unfold openDeposits
  rw [intents, acceptances]
  exact ⟨rfl, totals⟩

theorem conserved_submitAcceptance (ledger : Ledger L) (reputation : AccountAddress → ℚ) (now : Int64)
    (acceptance : ProviderAcceptance) :
    Conserved (nextState state (.submitAcceptance ledger reputation now acceptance)) ↔
      Balanced (.submitAcceptance ledger reputation now acceptance) state := by
  refine conserved_stored conserved (Nat.add_comm _ _) (openDeposit_le _)
    (submitAcceptance_ends.weaken ?_ fun _ _ fails => fails)
  rintro _ next ⟨intents, acceptances, totals⟩
  unfold openDeposits
  rw [intents, acceptances]
  exact ⟨Nat.add_comm _ _, totals⟩

theorem conserved_updateIntentFinality (ledger : Ledger L) (id : Hash) (status : FinalityStatus) (epoch : UInt64) :
    Conserved (nextState state (.updateIntentFinality ledger id status epoch)) ↔
      Balanced (.updateIntentFinality ledger id status epoch) state := by
  cases found : state.manager.intents.lookup id with
  | none =>
    have ran : IntentManager.updateIntentFinality (metered ledger) id status epoch state =
        .error (.other "Intent not found") state := by
      unfold IntentManager.updateIntentFinality
      refine (getManager_bind _).trans ?_
      rw [found]
      rfl
    exact conserved_unknown conserved found ran
  | some intent => exact conserved_refunds conserved found (updateIntentFinality_found found) rfl rfl rfl

theorem conserved_updateAcceptanceFinality (ledger : Ledger L) (id : Hash) (status : FinalityStatus) (epoch : UInt64) :
    Conserved (nextState state (.updateAcceptanceFinality ledger id status epoch)) ↔
      Balanced (.updateAcceptanceFinality ledger id status epoch) state := by
  cases found : state.manager.acceptances.lookup id with
  | none =>
    have ran : IntentManager.updateAcceptanceFinality (metered ledger) id status epoch state =
        .error (.other "Acceptance not found") state := by
      unfold IntentManager.updateAcceptanceFinality
      refine (getManager_bind _).trans ?_
      rw [found]
      rfl
    exact conserved_unknown conserved found ran
  | some acceptance =>
    exact conserved_refunds conserved found (updateAcceptanceFinality_found found) rfl (Nat.add_comm _ _)
      (Nat.add_comm _ _)

theorem conserved_cleanup (order : HashMap.Order) (now : Int64) :
    Conserved (nextState state (.cleanupExpiredIntents order now)) ↔
      Balanced (.cleanupExpiredIntents order now) state := by
  simp only [Balanced, nextState]
  rw [← @openDeposits_cleanup_iff _ order]
  unfold Conserved at conserved ⊢
  dsimp only
  omega

theorem conserved_next (call : IntentCall L) : Conserved (nextState state call) ↔ Balanced call state := by
  cases call with
  | publishIntent ledger reputation intent => exact conserved_publishIntent conserved ledger reputation intent
  | updateIntentFinality ledger id status epoch => exact conserved_updateIntentFinality conserved ledger id status epoch
  | submitAcceptance ledger reputation now acceptance =>
    exact conserved_submitAcceptance conserved ledger reputation now acceptance
  | updateAcceptanceFinality ledger id status epoch =>
    exact conserved_updateAcceptanceFinality conserved ledger id status epoch
  | cleanupExpiredIntents order now => exact conserved_cleanup conserved order now

end

/-- The deposits are conserved at every moment exactly if every call is balanced. -/
theorem deposits_conserved_iff (config : IntentConfig) (ledger : L) (calls : List (IntentCall L)) :
    (∀ before, before <+: calls → Conserved (Runs.after nextState ⟨.new config, ⟨ledger, 0, 0⟩⟩ before)) ↔
      ∀ before call, before ++ [call] <+: calls →
        Balanced call (Runs.after nextState ⟨.new config, ⟨ledger, 0, 0⟩⟩ before) := by
  have initially : Conserved (⟨.new config, ⟨ledger, 0, 0⟩⟩ : Funded IntentManager (Metered L)) := rfl
  refine @Runs.invariant_iff _ _ nextState _ calls Conserved Conserved Balanced (fun _ _ => True) initially
    (fun _ conserved => conserved) ?_ ?_ fun _ _ _ => trivial
  · intro current call conserved _ balanced
    exact (conserved_next conserved call).mpr balanced
  · intro current call conserved _ later
    exact (conserved_next conserved call).mp later

end

section

def intentConfig : IntentConfig := ⟨⟨100000000⟩, 10, 86400, 10⟩

def aliceAddress : AccountAddress := ⟨Bytes32.replicate 1⟩

def oneClient : BalanceManager MemoryStorage :=
  .new { MemoryStorage.new with balances := HashMap.ofPairs [(aliceAddress, ⟨1000000000⟩)] }

def plainHash : List UInt8 → Bytes32 := fun _ => Bytes32.replicate 0

def clientIntent : StorageDealIntent :=
  { StorageDealIntent.new plainHash 0 aliceAddress (Bytes32.replicate 8) 4096 10 ⟨5⟩ 1 with deposit := ⟨100000000⟩ }

theorem refunded_twice :
    let calls : List (IntentCall (BalanceManager MemoryStorage)) :=
      [.publishIntent (.ofBalanceManager plainHash 0) (fun _ => 20) clientIntent,
        .updateIntentFinality (.ofBalanceManager plainHash 1) clientIntent.intentId (.f1Complete 20 12 150) 1,
        .updateIntentFinality (.ofBalanceManager plainHash 2) clientIntent.intentId (.f2Complete true) 2]
    let state := Runs.after nextState ⟨.new intentConfig, ⟨oneClient, 0, 0⟩⟩ calls
    state.ledger.debited = 100000000 ∧ state.ledger.credited = 200000000 ∧ openDeposits state.manager = 0 ∧
      ¬Conserved state := by
  decide +kernel

end

end AdicProof.StorageMarket
