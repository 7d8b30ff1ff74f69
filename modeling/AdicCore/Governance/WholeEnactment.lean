import AdicCore.Governance.Enactment
import AdicCore.Economics.FailureAtomicity

open AdicModel AdicModel.Economics AdicModel.Governance AdicModel.AppCommon AdicProof.Economics Calls

namespace AdicProof.Governance

section

variable (blake3 : List UInt8 → Bytes32) (now : Int)
  (verifySignature : Option (UInt64 → Signature → List UInt8 → Except MilestoneReason Unit))

def paymentCall (due : TreasuryExecutor × TreasuryGrant) : TransferCall :=
  .transfer due.1.treasuryAddress (AccountAddress.fromPublicKey blake3 due.2.recipient) due.2.totalAmount

def paymentAccounts {L : Type} (state : GovernanceState L) (proposalId : Hash) : List AccountAddress :=
  (((proposalOf state proposalId).bind (atomicGrant state)).map (paymentCall blake3)).elim [] TransferCall.accounts

def PaymentRefused (books : Books) (faults : List Bool) (due : Option (TreasuryExecutor × TreasuryGrant)) : Prop :=
  ∃ payment, due = some payment ∧ payment.2.totalAmount ≠ AdicAmount.zero ∧
    ((paymentCall blake3 payment).Ready books → ∃ index, index ≤ 2 ∧ faulty faults index = true)

def HalfPaid (books : Books) (faults : List Bool) (due : Option (TreasuryExecutor × TreasuryGrant)) : Prop :=
  ∃ payment, due = some payment ∧ (paymentCall blake3 payment).HalfWritten books faults

def balanceServices (σ : Type) [EconomicsStorage σ] : TreasuryServices (BalanceManager σ) :=
  .ofBalanceManager blake3 now verifySignature

section

variable {σ : Type} [EconomicsStorage σ] {state : GovernanceState (BalanceManager σ)} {proposalId : Hash}
  {proposal : GovernanceProposal} {due : TreasuryExecutor × TreasuryGrant} {error : EconomicsError}
  {ledger next : BalanceManager σ}

theorem pay_error_iff : pay (balanceServices blake3 now verifySignature σ) due ledger = .error error next ↔
    (paymentCall blake3 due).call blake3 now ledger = .error error next :=
  discard_error_iff

theorem paymentKeeps_iff (stored : σ → Accounts) (found : proposalOf state proposalId = some proposal) :
    PaymentKeeps (Unchanged stored now (paymentAccounts blake3 state proposalId))
        (balanceServices blake3 now verifySignature σ) state proposal ↔
      ∀ due, atomicGrant state proposal = some due →
        FailsAtomically stored blake3 now (paymentCall blake3 due) state.ledger := by
  have accounts : ∀ due, atomicGrant state proposal = some due →
      paymentAccounts blake3 state proposalId = (paymentCall blake3 due).accounts := by
    intro due granted
    unfold paymentAccounts
    rw [found, Option.bind_some, granted]
    rfl
  constructor
  · intro keeps due granted error next failed
    rw [← accounts due granted]
    exact keeps due granted error next ((pay_error_iff blake3 now verifySignature).mpr failed)
  · intro atomic due granted error next failed
    rw [accounts due granted]
    exact atomic due granted error next ((pay_error_iff blake3 now verifySignature).mp failed)

end

section

variable {sender recipient : AccountAddress} {amount : AdicAmount}

theorem transfer_zero {σ : Type} [EconomicsStorage σ] (manager : BalanceManager σ) (zero : amount = AdicAmount.zero) :
    BalanceManager.transfer blake3 now sender recipient amount manager = .ok "" manager := by
  unfold BalanceManager.transfer
  rw [if_pos zero]
  rfl

theorem ready_iff {books : Books} : (TransferCall.transfer sender recipient amount).Ready books ↔
    amount ≠ AdicAmount.zero ∧ sender ≠ recipient ∧ (books.move sender recipient amount).isSome := by
  rw [Books.move_isSome]
  rfl

theorem transfer_memory_error_iff (manager : BalanceManager MemoryStorage) :
    (∃ error next, BalanceManager.transfer blake3 now sender recipient amount manager = .error error next) ↔
      amount ≠ AdicAmount.zero ∧ ¬(TransferCall.transfer sender recipient amount).Ready (booksOf manager) := by
  by_cases zero : amount = AdicAmount.zero
  · exact iff_of_false (no_error_of_ok (transfer_zero blake3 now manager zero)) fun both => both.1 zero
  have agrees := @transfer_agrees _ _ _ manager sender recipient amount blake3 now
  unfold Operation.result Operation.outcome at agrees
  simp only [if_neg zero] at agrees
  rw [ready_iff]
  by_cases same : sender = recipient
  · rw [if_pos same] at agrees
    obtain ⟨error, next, run, -⟩ := agrees.fails
    exact iff_of_true ⟨error, next, run⟩ ⟨zero, fun ready => ready.2.1 same⟩
  rw [if_neg same] at agrees
  cases moves : (booksOf manager).move sender recipient amount with
  | none =>
    rw [moves] at agrees
    obtain ⟨error, next, run, -⟩ := agrees.fails
    exact iff_of_true ⟨error, next, run⟩ ⟨zero, fun ready => by cases ready.2.2⟩
  | some moved =>
    rw [moves] at agrees
    obtain ⟨txHash, next, run, -⟩ := agrees.returns
    exact iff_of_false (no_error_of_ok run) fun both => both.2 ⟨zero, same, rfl⟩

theorem transfer_rocks_error_iff [RecordJson] (manager : BalanceManager RocksDbStorage) :
    (∃ error next, BalanceManager.transfer blake3 now sender recipient amount manager = .error error next) ↔
      amount ≠ AdicAmount.zero ∧ ((TransferCall.transfer sender recipient amount).Ready (rocksBooks manager).1 →
        ∃ index, index ≤ 2 ∧ faulty manager.storage.faults index = true) := by
  have seen : rocksBooks manager = ((rocksBooks manager).1, manager.storage.faults) := rfl
  by_cases zero : amount = AdicAmount.zero
  · exact iff_of_false (no_error_of_ok (transfer_zero blake3 now manager zero)) fun both => both.1 zero
  · rw [ready_iff]
    by_cases ready : sender ≠ recipient ∧ ((rocksBooks manager).1.move sender recipient amount).isSome
    · obtain ⟨moved, moves⟩ := Option.isSome_iff_exists.mp ready.2
      have spec := transfer_rocks blake3 now seen zero ready.1 moves
      by_cases breaks : ∃ index, index ≤ 2 ∧ faulty manager.storage.faults index = true
      · refine iff_of_true ?_ ⟨zero, fun _ => breaks⟩
        cases first : faulty manager.storage.faults 0 with
        | true =>
          obtain ⟨rest, error, next, run, -⟩ := spec.first first
          exact ⟨error, next, run⟩
        | false =>
          have later : ∃ index, index < 2 ∧ faulty manager.storage.faults (index + 1) = true := by
            obtain ⟨index, bound, broken⟩ := breaks
            cases index with
            | zero =>
              rw [first] at broken
              cases broken
            | succ index => exact ⟨index, by omega, broken⟩
          obtain ⟨taken, rest, ⟨error, next, run, -⟩, -⟩ := spec.later first later
          exact ⟨error, next, run⟩
      · have works : ∀ index, index ≤ 2 → faulty manager.storage.faults index = false := by
          intro index bound
          rw [← Bool.not_eq_true]
          exact fun broken => breaks ⟨index, bound, broken⟩
        obtain ⟨value, next, run⟩ := spec.works works
        exact iff_of_false (no_error_of_ok run) fun both => breaks (both.2 ⟨zero, ready⟩)
    · have refused : sender = recipient ∨ (rocksBooks manager).1.move sender recipient amount = none := by
        rw [← Option.not_isSome_iff_eq_none]
        tauto
      obtain ⟨error, next, run, -⟩ := transfer_rocks_refused blake3 now seen zero refused
      exact iff_of_true ⟨error, next, run⟩ ⟨zero, fun all => absurd all.2 ready⟩

end

theorem faulty_nil (index : Nat) : faulty [] index = false := by
  cases index <;> rfl

section

variable {proposal : GovernanceProposal}

theorem paymentFails_memory (proposal : GovernanceProposal) (state : GovernanceState (BalanceManager MemoryStorage)) :
    PaymentFails (balanceServices blake3 now verifySignature MemoryStorage) state proposal ↔
      PaymentRefused blake3 (booksOf state.ledger) [] (atomicGrant state proposal) := by
  unfold PaymentFails PaymentRefused
  refine exists_congr fun due => and_congr_right fun _ => ?_
  simp only [pay_error_iff, faulty_nil]
  refine (transfer_memory_error_iff blake3 now state.ledger).trans ?_
  simp only [Bool.false_eq_true, and_false, exists_false, imp_false]
  rfl

theorem paymentFails_rocks [RecordJson] (proposal : GovernanceProposal) (state : GovernanceState (BalanceManager RocksDbStorage)) :
    PaymentFails (balanceServices blake3 now verifySignature RocksDbStorage) state proposal ↔
      PaymentRefused blake3 (rocksBooks state.ledger).1 state.ledger.storage.faults (atomicGrant state proposal) := by
  unfold PaymentFails PaymentRefused
  refine exists_congr fun due => and_congr_right fun _ => ?_
  simp only [pay_error_iff]
  exact transfer_rocks_error_iff blake3 now state.ledger

theorem keeps_memory (state : GovernanceState (BalanceManager MemoryStorage)) :
    (∀ due, atomicGrant state proposal = some due →
        FailsAtomically memoryAccounts blake3 now (paymentCall blake3 due) state.ledger) ↔
      ¬HalfPaid blake3 (booksOf state.ledger) [] (atomicGrant state proposal) := by
  refine iff_of_true ?_ ?_
  · intro due _
    exact (failsAtomically_memory blake3 now _ _).mpr id
  · rintro ⟨due, -, -, -, index, -, broken⟩
    rw [faulty_nil] at broken
    cases broken

theorem keeps_rocks [RecordJson] (state : GovernanceState (BalanceManager RocksDbStorage)) :
    (∀ due, atomicGrant state proposal = some due →
        FailsAtomically rocksAccounts blake3 now (paymentCall blake3 due) state.ledger) ↔
      ¬HalfPaid blake3 (rocksBooks state.ledger).1 state.ledger.storage.faults (atomicGrant state proposal) := by
  unfold HalfPaid
  rw [not_exists]
  refine forall_congr' fun due => ?_
  rw [not_and, failsAtomically_rocks]
  refine imp_congr_right fun _ => not_congr ?_
  exact or_iff_left id

end

theorem unchanged_refl {σ : Type} [EconomicsStorage σ] (stored : σ → Accounts) (addresses : List AccountAddress)
    (manager : BalanceManager σ) : Unchanged stored now addresses manager manager :=
  ⟨rfl, rfl, fun _ _ => rfl, fun _ _ => rfl⟩

/-- An enactment has its whole effect or none, in memory or on disk, exactly if the proposal is whole. -/
theorem enacts_wholly_iff [RecordJson] (proposalId : Hash) :
    (∀ state : GovernanceState (BalanceManager MemoryStorage),
      EnactsWholly (Unchanged memoryAccounts now (paymentAccounts blake3 state proposalId))
          (.ofBalanceManager blake3 now verifySignature) proposalId state ↔
        ∀ proposal, state.manager.proposalIn proposalId .enacting = .ok proposal →
          Whole state.parameterStore proposal
            (PaymentRefused blake3 (booksOf state.ledger) [] (atomicGrant state proposal))
            (¬HalfPaid blake3 (booksOf state.ledger) [] (atomicGrant state proposal))) ∧
    ∀ state : GovernanceState (BalanceManager RocksDbStorage),
      EnactsWholly (Unchanged rocksAccounts now (paymentAccounts blake3 state proposalId))
          (.ofBalanceManager blake3 now verifySignature) proposalId state ↔
        ∀ proposal, state.manager.proposalIn proposalId .enacting = .ok proposal →
          Whole state.parameterStore proposal
            (PaymentRefused blake3 (rocksBooks state.ledger).1 state.ledger.storage.faults
              (atomicGrant state proposal))
            (¬HalfPaid blake3 (rocksBooks state.ledger).1 state.ledger.storage.faults
              (atomicGrant state proposal)) := by
  constructor
  · intro state
    refine (enactsWholly_iff (unchanged_refl now memoryAccounts _)).trans ?_
    refine forall_congr' fun proposal => imp_congr_right fun enacting => ?_
    have found : proposalOf state proposalId = some proposal := (proposalIn_ok_iff.mp enacting).1
    have fails := paymentFails_memory blake3 now verifySignature proposal state
    have keeps := (paymentKeeps_iff blake3 now verifySignature memoryAccounts found).trans
      (keeps_memory blake3 now state)
    unfold balanceServices at fails keeps
    rw [fails, keeps]
  · intro state
    refine (enactsWholly_iff (unchanged_refl now rocksAccounts _)).trans ?_
    refine forall_congr' fun proposal => imp_congr_right fun enacting => ?_
    have found : proposalOf state proposalId = some proposal := (proposalIn_ok_iff.mp enacting).1
    have fails := paymentFails_rocks blake3 now verifySignature proposal state
    have keeps := (paymentKeeps_iff blake3 now verifySignature rocksAccounts found).trans
      (keeps_rocks blake3 now state)
    unfold balanceServices at fails keeps
    rw [fails, keeps]

end

namespace PartialEnactment

def proposal : GovernanceProposal where
  proposalId := Bytes32.replicate 2
  proposalClass := .operational
  proposerPk := ⟨Bytes32.replicate 1⟩
  paramKeys := ["k", "p"]
  newValues := .object [("k", .ofNat 21), ("p", .ofNat 4)]
  treasuryGrant := none
  enactEpoch := 0
  creationTimestamp := ⟨0, 0⟩
  votingEndTimestamp := ⟨0, 0⟩
  status := .enacting
  tallyYes := 1
  tallyNo := 0
  tallyAbstain := 0

def votingEngine : VotingEngine where
  rmax := 100000
  minQuorum := 1 / 10
  overlapTracker := none
  sqrt := some

def state : GovernanceState (BalanceManager MemoryStorage) where
  manager := (ProposalLifecycleManager.new ⟨50, 604800, 1 / 10⟩ votingEngine).setProposal (Bytes32.replicate 2) proposal
  parameterStore := some .new
  treasuryExecutor := none
  ledger := .new .new

/-- The second parameter is refused and the first one stays changed. -/
theorem first_parameter_stays :
    ¬EnactsWholly (Unchanged memoryAccounts 0 []) (.ofBalanceManager (fun _ => Bytes32.replicate 0) 0 none)
      (Bytes32.replicate 2) state := by
  intro wholly
  have enacting : state.manager.proposalIn (Bytes32.replicate 2) .enacting = .ok proposal :=
    proposalIn_ok_iff.mpr ⟨by decide +kernel, rfl⟩
  have whole := whole_of_enactsWholly wholly enacting
  have refused : RefusedAfter .new (proposalChanges proposal) [("k", .ofNat 21)] ("p", .ofNat 4) := by
    refine ⟨by decide +kernel, ?_, by unfold Accepts; decide +kernel⟩
    exact applied_cons.mpr ⟨by unfold Accepts; decide +kernel, Runs.forall_steps_nil⟩
  have held := whole.refused .new rfl _ _ refused .new rfl ("k", .ofNat 21) (List.mem_singleton.mpr rfl)
  revert held
  decide +kernel

end PartialEnactment

end AdicProof.Governance
