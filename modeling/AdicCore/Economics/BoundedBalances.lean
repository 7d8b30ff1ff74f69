import AdicCore.Economics.FallibleBalances
import AdicCore.Economics.TreasuryCalls

open AdicModel AdicModel.Economics Calls

namespace AdicProof.Economics

noncomputable instance : Fintype AccountAddress :=
  Fintype.ofInjective (fun (address : AccountAddress) (i : Fin 32) => (address.asBytes.bytes.getD i 0).toFin) (by
    rintro ⟨⟨first, firstSize⟩⟩ ⟨⟨second, secondSize⟩⟩ same
    have bytes : first = second := by
      refine List.ext_getElem (firstSize.trans secondSize.symm) fun i inFirst inSecond => ?_
      have equal := congrFun same ⟨i, by omega⟩
      simp only [List.getD_eq_getElem _ _ inFirst, List.getD_eq_getElem _ _ inSecond] at equal
      exact UInt8.toFin_inj.mp equal
    subst bytes
    rfl)

noncomputable def ledgerSum (ledger : Ledger) : Nat := ∑ address, units (ledger address)

theorem ledgerSum_mapLedger (balances : BalanceMap) : ledgerSum (mapLedger balances) = HashMap.total units balances := by
  rw [← FiniteSums.sum_lookup units balances]
  refine Finset.sum_congr rfl fun address _ => ?_
  unfold mapLedger
  cases balances.lookup address <;> rfl

namespace Holdings

variable {holdings after : Holdings} {address other sender recipient : AccountAddress} {amount received : AdicAmount}

def exposure (holdings : Holdings) (address : AccountAddress) : Nat :=
  max (units (holdings.stored address)) (units (holdings.read address))

noncomputable def exposed (holdings : Holdings) : Nat := ∑ address, holdings.exposure address

def Fresh (holdings : Holdings) : Prop := ∀ address, holdings.read address = holdings.stored address

theorem ledgerSum_le : ledgerSum holdings.stored ≤ holdings.exposed :=
  Finset.sum_le_sum fun _ _ => le_max_left _ _

theorem read_load : (holdings.load address).read other = holdings.read other := by
  unfold load cache read
  simp only [Function.update_apply]
  split
  · next same =>
    rw [same]
    rfl
  · rfl

theorem exposed_load : (holdings.load address).exposed = holdings.exposed := by
  refine Finset.sum_congr rfl fun other _ => ?_
  unfold exposure
  rw [read_load]
  rfl

theorem fresh_load (fresh : holdings.Fresh) : (holdings.load address).Fresh := by
  intro other
  rw [read_load]
  exact fresh other

def put (holdings : Holdings) (address : AccountAddress) (amount : AdicAmount) : Holdings :=
  (holdings.store address amount).cache address amount

theorem stored_put : (holdings.put address amount).stored other =
    if other = address then amount else holdings.stored other := by
  show Function.update holdings.stored address amount other = _
  rw [Function.update_apply]

theorem read_put : (holdings.put address amount).read other =
    if other = address then amount else holdings.read other := by
  unfold put store cache read
  simp only [Function.update_apply]
  split <;> rfl

theorem exposure_put : (holdings.put address amount).exposure other =
    if other = address then units amount else holdings.exposure other := by
  unfold exposure
  rw [stored_put, read_put]
  split
  · exact max_self _
  · rfl

theorem fresh_put (fresh : holdings.Fresh) : (holdings.put address amount).Fresh := by
  intro other
  rw [stored_put, read_put]
  split
  · rfl
  · exact fresh other

theorem exposed_credit (sum : units received = units (holdings.read address) + units amount) :
    ((holdings.load address).put address received).exposed ≤ holdings.exposed + units amount := by
  have one : ((holdings.load address).put address received).exposed + (holdings.load address).exposure address =
      (holdings.load address).exposed + ((holdings.load address).put address received).exposure address := by
    refine FiniteSums.sum_one fun other different => ?_
    rw [exposure_put, if_neg different]
  rw [exposure_put, if_pos rfl, exposed_load, sum] at one
  have bound : units (holdings.read address) ≤ (holdings.load address).exposure address := by
    unfold exposure
    rw [read_load]
    exact le_max_right _ _
  omega

theorem ledgerSum_credit : ledgerSum ((holdings.load address).put address received).stored +
    units (holdings.stored address) = ledgerSum holdings.stored + units received := by
  have one : ledgerSum ((holdings.load address).put address received).stored + units (holdings.stored address) =
      ledgerSum holdings.stored + units (((holdings.load address).put address received).stored address) := by
    refine @FiniteSums.sum_one _ _ _ (fun other => units (holdings.stored other))
      (fun other => units (((holdings.load address).put address received).stored other)) address fun other different => ?_
    rw [stored_put, if_neg different]
    rfl
  rw [stored_put, if_pos rfl] at one
  exact one

theorem moved_eq :
    (((holdings.store sender amount).store recipient received).cache sender amount).cache recipient received =
      (holdings.put sender amount).put recipient received := by
  unfold put store cache
  rfl

theorem exposed_transferred {faulty : Prop} (transferred : Transferred faulty holdings sender recipient amount after) :
    after.exposed ≤ holdings.exposed := by
  cases transferred with
  | refused => exact le_refl _
  | halved fault enough =>
    refine Finset.sum_le_sum fun other _ => ?_
    unfold exposure
    by_cases same : other = sender
    · subst same
      have less : units ((holdings.store other ((holdings.stored other).saturatingSub amount)).stored other) ≤
          units (holdings.stored other) := by
        have written : (holdings.store other ((holdings.stored other).saturatingSub amount)).stored other =
            (holdings.stored other).saturatingSub amount := Function.update_self ..
        rw [written, units_saturatingSub]
        exact Nat.sub_le _ _
      have reads : units ((holdings.store other ((holdings.stored other).saturatingSub amount)).read other) ≤
          max (units (holdings.stored other)) (units (holdings.read other)) := by
        unfold read
        cases found : holdings.cached other with
        | none =>
          have unread : (holdings.store other ((holdings.stored other).saturatingSub amount)).cached other = none := found
          rw [unread]
          exact less.trans (le_max_left _ _)
        | some value =>
          have read : (holdings.store other ((holdings.stored other).saturatingSub amount)).cached other = some value :=
            found
          rw [read]
          exact le_max_right _ _
      exact max_le (less.trans (le_max_left _ _)) reads
    · unfold read store
      simp only [Function.update_of_ne same]
      exact le_refl _
  | moved different enough received sum =>
    rw [moved_eq]
    have two : ((holdings.put sender ((holdings.stored sender).saturatingSub amount)).put recipient received).exposed +
        (holdings.exposure sender + holdings.exposure recipient) = holdings.exposed +
        (((holdings.put sender ((holdings.stored sender).saturatingSub amount)).put recipient received).exposure sender +
          ((holdings.put sender ((holdings.stored sender).saturatingSub amount)).put recipient received).exposure
            recipient) := by
      refine FiniteSums.sum_two different fun other notSender notRecipient => ?_
      rw [exposure_put, if_neg notRecipient, exposure_put, if_neg notSender]
    rw [exposure_put, if_neg different, exposure_put, if_pos rfl, exposure_put, if_pos rfl, units_saturatingSub] at two
    rw [amount_le] at enough
    have first : units (holdings.stored sender) ≤ holdings.exposure sender := le_max_left _ _
    have second : units (holdings.stored recipient) ≤ holdings.exposure recipient := le_max_left _ _
    omega

theorem fresh_transferred {faulty : Prop} (fresh : holdings.Fresh) (sound : ¬ faulty)
    (transferred : Transferred faulty holdings sender recipient amount after) : after.Fresh := by
  cases transferred with
  | refused => exact fresh
  | halved fault enough => exact absurd fault sound
  | moved different enough received sum =>
    rw [moved_eq]
    exact fresh_put (fresh_put fresh)

end Holdings

section

variable {σ α : Type} [EconomicsStorage σ] [FallibleStorage σ] {bound : Nat} {address sender recipient : AccountAddress}
  {amount : AdicAmount} (blake3 : List UInt8 → Bytes32) (now : Int)

def Within (bound : Nat) (manager : BalanceManager σ) : Prop :=
  ∃ holdings, Has holdings manager ∧ holdings.exposed ≤ bound ∧ (¬ Faulty σ → holdings.Fresh)

theorem getBalance_within :
    Triple (@Within σ _ _ bound) (BalanceManager.getBalance now address) (fun _ => Within bound) (Within bound) := by
  rintro manager ⟨holdings, has, exposed, fresh⟩
  refine (getBalance_triple now).weaken (fun _ has => has) ?_ ?_ manager has
  · rintro _ next ⟨_, has⟩
    exact ⟨_, has, Holdings.exposed_load.trans_le exposed, fun sound => Holdings.fresh_load (fresh sound)⟩
  · exact fun next has => ⟨_, has, exposed, fresh⟩

theorem credit_within : Triple (@Within σ _ _ bound) (BalanceManager.credit now address amount)
    (fun _ => Within (bound + units amount)) (Within bound) := by
  rintro manager ⟨holdings, has, exposed, fresh⟩
  refine (credit_triple now).weaken (fun _ has => has) ?_ ?_ manager has
  · rintro _ next (⟨_, has⟩ | ⟨newBalance, _, sum, has⟩)
    · exact ⟨_, has, by omega, fresh⟩
    · refine ⟨_, has, ?_, fun sound => Holdings.fresh_put (Holdings.fresh_load (fresh sound))⟩
      have credited := Holdings.exposed_credit sum
      unfold Holdings.put at credited
      omega
  · rintro next (has | has)
    · exact ⟨_, has, exposed, fresh⟩
    · exact ⟨_, has, Holdings.exposed_load.trans_le exposed, fun sound => Holdings.fresh_load (fresh sound)⟩

theorem transfer_within : Triple (@Within σ _ _ bound) (BalanceManager.transfer blake3 now sender recipient amount)
    (fun _ => Within bound) (Within bound) := by
  rintro manager ⟨holdings, has, exposed, fresh⟩
  have kept : ∀ next : BalanceManager σ, HasTransferred holdings sender recipient amount next → Within bound next := by
    rintro next ⟨after, transferred, has⟩
    exact ⟨after, has, (Holdings.exposed_transferred transferred).trans exposed,
      fun sound => Holdings.fresh_transferred (fresh sound) sound transferred⟩
  exact (transfer_triple blake3 now).weaken (fun _ has => has) (fun _ => kept) kept manager has

theorem recordTransaction_within (tx : TransactionRecord) : Triple (@Within σ _ _ bound)
    (BalanceManager.onStorage (EconomicsStorage.recordTransaction tx)) (fun _ => Within bound) (Within bound) := by
  rintro manager ⟨holdings, has, within⟩
  exact (recordTransaction_triple tx).weaken (fun _ has => has) (fun _ _ has => ⟨holdings, has, within⟩)
    (fun _ has => ⟨holdings, has, within⟩) manager has

def TreasuryWithin (bound : Nat) (manager : TreasuryManager σ) : Prop := Within bound manager.balances

omit [EconomicsStorage σ] [FallibleStorage σ] in
theorem onBalances_triple {call : Call (BalanceManager σ) α} {pre : BalanceManager σ → Prop}
    {post : α → BalanceManager σ → Prop} {failed : BalanceManager σ → Prop} (triple : Triple pre call post failed) :
    Triple (fun manager => pre manager.balances) (TreasuryManager.onBalances call)
      (fun value manager => post value manager.balances) (fun manager => failed manager.balances) := by
  intro manager holds
  have result := triple manager.balances holds
  unfold TreasuryManager.onBalances
  cases run : call manager.balances with
  | ok value next =>
    rw [run] at result
    exact result
  | error error next =>
    rw [run] at result
    exact result

theorem putProposal_within (proposalId : Bytes32) (proposal : TreasuryProposal) : Triple (@TreasuryWithin σ _ _ bound)
    (TreasuryManager.putProposal proposalId proposal) (fun _ => TreasuryWithin bound) (TreasuryWithin bound) :=
  triple_modify fun _ within => within

theorem initializeMultisig_within (signers : List AccountAddress) (threshold : UInt32) :
    Triple (@TreasuryWithin σ _ _ bound) (TreasuryManager.initializeMultisig signers threshold)
      (fun _ => TreasuryWithin bound) (TreasuryWithin bound) := by
  unfold TreasuryManager.initializeMultisig
  refine triple_ite (fun _ => triple_throw fun _ within => within) fun _ => ?_
  refine triple_ite (fun _ => triple_throw fun _ within => within) fun _ => ?_
  refine triple_ite (fun _ => triple_throw fun _ within => within) fun _ => Triple.get_any fun _ => ?_
  exact triple_ite (fun _ => triple_throw fun _ within => within) fun _ => triple_modify fun _ within => within

theorem updateMultisig_within (newSigners : List AccountAddress) (newThreshold : UInt32) (approver : AccountAddress) :
    Triple (@TreasuryWithin σ _ _ bound) (TreasuryManager.updateMultisig newSigners newThreshold approver)
      (fun _ => TreasuryWithin bound) (TreasuryWithin bound) := by
  unfold TreasuryManager.updateMultisig
  refine Triple.get_any fun current => ?_
  cases current.multisig with
  | none => exact triple_throw fun _ within => within
  | some config =>
    refine triple_ite (fun _ => triple_throw fun _ within => within) fun _ => ?_
    exact triple_ite (fun _ => triple_throw fun _ within => within) fun _ => triple_modify fun _ within => within

theorem rejectProposal_within (proposalId : Bytes32) (rejector : AccountAddress) :
    Triple (@TreasuryWithin σ _ _ bound) (TreasuryManager.rejectProposal proposalId rejector)
      (fun _ => TreasuryWithin bound) (TreasuryWithin bound) := by
  unfold TreasuryManager.rejectProposal
  refine Triple.get_any fun current => ?_
  cases current.multisig with
  | none => exact triple_throw fun _ within => within
  | some config =>
    refine triple_ite (fun _ => triple_throw fun _ within => within) fun _ => Triple.get_any fun current => ?_
    cases current.proposals.lookup proposalId with
    | none => exact triple_throw fun _ within => within
    | some proposal =>
      exact triple_ite (fun _ => triple_throw fun _ within => within) fun _ => putProposal_within _ _

theorem proposeTransfer_within (amount : AdicAmount) (reason : String) (proposer : AccountAddress) :
    Triple (@TreasuryWithin σ _ _ bound) (TreasuryManager.proposeTransfer blake3 now recipient amount reason proposer)
      (fun _ => TreasuryWithin bound) (TreasuryWithin bound) := by
  unfold TreasuryManager.proposeTransfer
  refine Triple.get_any fun current => ?_
  cases current.multisig with
  | none => exact triple_throw fun _ within => within
  | some config =>
    refine triple_ite (fun _ => triple_throw fun _ within => within) fun _ => ?_
    refine (onBalances_triple (getBalance_within now)).bind fun balance => ?_
    refine triple_ite (fun _ => triple_throw fun _ within => within) fun _ => ?_
    exact (putProposal_within _ _).bind fun _ => triple_pure fun _ within => within

theorem executeProposalInternal_within (proposalId : Bytes32) (proposal : TreasuryProposal) :
    Triple (@TreasuryWithin σ _ _ bound) (TreasuryManager.executeProposalInternal blake3 now proposalId proposal)
      (fun _ => TreasuryWithin bound) (TreasuryWithin bound) := by
  unfold TreasuryManager.executeProposalInternal
  refine (onBalances_triple (getBalance_within now)).bind fun _ => ?_
  refine (onBalances_triple (transfer_within blake3 now)).bind fun _ => ?_
  refine (onBalances_triple (getBalance_within now)).bind fun _ => ?_
  exact (putProposal_within _ _).bind fun _ => triple_modify fun _ within => within

theorem approveProposal_within (proposalId : Bytes32) (approver : AccountAddress) :
    Triple (@TreasuryWithin σ _ _ bound) (TreasuryManager.approveProposal blake3 now proposalId approver)
      (fun _ => TreasuryWithin bound) (TreasuryWithin bound) := by
  unfold TreasuryManager.approveProposal
  refine Triple.get_any fun current => ?_
  cases current.multisig with
  | none => exact triple_throw fun _ within => within
  | some config =>
    refine triple_ite (fun _ => triple_throw fun _ within => within) fun _ => Triple.get_any fun current => ?_
    cases current.proposals.lookup proposalId with
    | none => exact triple_throw fun _ within => within
    | some proposal =>
      refine triple_ite (fun _ => triple_throw fun _ within => within) fun _ => ?_
      refine triple_ite (fun _ => triple_throw fun _ within => within) fun _ => ?_
      refine (putProposal_within _ _).bind fun _ => ?_
      refine triple_ite (fun _ => ?_) fun _ => triple_pure fun _ within => within
      exact (executeProposalInternal_within blake3 now _ _).bind fun _ => triple_pure fun _ within => within

end

end AdicProof.Economics
