import AdicCore.Governance.GrantPayments
import AdicCore.Pouw.ThresholdRobustness

open AdicModel AdicModel.Economics AdicModel.Governance AdicModel.Governance.TreasuryExecutor Calls

namespace AdicProof.Governance

section

variable {L : Type} {services : TreasuryServices L} {treasury : TreasuryState L} {grantId : Hash}
  {milestoneId : UInt32} {attestation : MilestoneAttestation} {currentEpoch : UInt64} {state : GrantState}
  {milestone : Milestone}

def CanPay (services : TreasuryServices L) (treasury : TreasuryState L) (state : GrantState) (amount : AdicAmount) :
    Prop :=
  (∃ ledger, services.transfer treasury.executor.treasuryAddress (services.fromPublicKey state.grant.recipient) amount
    treasury.ledger = .ok () ledger) ∧ ∃ disbursedAmount, state.disbursedAmount.checkedAdd amount = some disbursedAmount

theorem disburseTranche_ok_iff {instalment : Instalment} {amount : AdicAmount} :
    (∃ paid after, disburseTranche services grantId state instalment amount currentEpoch treasury = .ok paid after) ↔
      CanPay services treasury state amount := by
  unfold disburseTranche CanPay
  cases sent : services.transfer treasury.executor.treasuryAddress (services.fromPublicKey state.grant.recipient) amount
      treasury.ledger with
  | ok done ledger =>
    have run : transferTo services state.grant instalment amount treasury =
        .ok () { executor := treasury.executor.note state.grant instalment amount, ledger } := by
      unfold transferTo
      rw [sent]
    rw [bind_ok run]
    cases added : state.disbursedAmount.checkedAdd amount with
    | none =>
      constructor
      · intro paid
        obtain ⟨_, _, impossible⟩ := paid
        cases impossible
      · intro can
        obtain ⟨_, _, impossible⟩ := can
        cases impossible
    | some disbursedAmount => exact ⟨fun _ => ⟨⟨ledger, rfl⟩, disbursedAmount, rfl⟩, fun _ => ⟨_, _, rfl⟩⟩
  | error error ledger =>
    have run : transferTo services state.grant instalment amount treasury =
        .error (.treasuryError (.economics error)) { treasury with ledger } := by
      unfold transferTo
      rw [sent]
    rw [bind_error run]
    constructor
    · intro paid
      obtain ⟨_, _, impossible⟩ := paid
      cases impossible
    · intro can
      obtain ⟨⟨_, impossible⟩, _⟩ := can
      cases impossible

theorem milestoneFails_not_ok {α β : Type} {reason : MilestoneReason} {rest : α → TreasuryCall L β} :
    ¬ ∃ value after, (milestoneFails milestoneId reason >>= rest) treasury = .ok value after := by
  intro ok
  obtain ⟨_, _, impossible⟩ := ok
  cases impossible

theorem canPay_of_paid {instalment : Instalment} {amount : AdicAmount} {rest : GrantState → TreasuryCall L Unit}
    (ok : ∃ value after, (disburseTranche services grantId state instalment amount currentEpoch >>= rest) treasury =
      .ok value after) : CanPay services treasury state amount := by
  apply disburseTranche_ok_iff.mp
  cases run : disburseTranche services grantId state instalment amount currentEpoch treasury with
  | ok paid after => exact ⟨paid, after, rfl⟩
  | error error after =>
    rw [bind_error run] at ok
    obtain ⟨_, _, impossible⟩ := ok
    cases impossible

theorem completeMilestone_due
    (due : MilestoneDue services treasury.executor grantId milestoneId attestation currentEpoch state milestone) :
    ∃ completed : GrantState → GrantState,
      completeMilestone services grantId milestoneId attestation currentEpoch treasury =
        (disburseTranche services grantId state (.milestone milestoneId) milestone.amount currentEpoch >>= fun paid =>
          setGrant grantId (completed paid)) treasury := by
  obtain ⟨⟨sameMilestone, sameGrant⟩, stored, next, ⟨milestones, schedule, found⟩, inTime, verified⟩ := due
  refine ⟨fun paid =>
    { paid with
      nextMilestoneId := nextMilestone milestones milestoneId
      status := if (nextMilestone milestones milestoneId).isNone then .completed else paid.status }, ?_⟩
  unfold completeMilestone
  rw [if_neg (not_not.mpr sameMilestone), if_neg (not_not.mpr sameGrant)]
  refine bind_get.trans ?_
  rw [stored]
  dsimp only
  rw [if_neg (not_not.mpr next)]
  simp only [schedule, found]
  rw [if_neg inTime, verified]

theorem completeMilestone_ok_iff :
    (∃ value after, completeMilestone services grantId milestoneId attestation currentEpoch treasury =
      .ok value after) ↔
      ∃ state milestone, MilestoneDue services treasury.executor grantId milestoneId attestation currentEpoch state
        milestone ∧ CanPay services treasury state milestone.amount := by
  constructor
  · intro ok
    unfold completeMilestone at ok
    by_cases sameMilestone : attestation.milestoneId = milestoneId
    · rw [if_neg (not_not.mpr sameMilestone)] at ok
      by_cases sameGrant : attestation.grantId = grantId
      · rw [if_neg (not_not.mpr sameGrant)] at ok
        simp only [bind_get] at ok
        cases stored : treasury.executor.activeGrants.lookup grantId with
        | none =>
          rw [stored] at ok
          obtain ⟨_, _, impossible⟩ := ok
          cases impossible
        | some state =>
          rw [stored] at ok
          dsimp only at ok
          by_cases next : state.nextMilestoneId = some milestoneId
          · rw [if_neg (not_not.mpr next)] at ok
            cases schedule : state.grant.schedule with
            | atomic | streamed _ _ =>
              simp only [schedule] at ok
              obtain ⟨_, _, impossible⟩ := ok
              cases impossible
            | milestone milestones =>
              simp only [schedule] at ok
              cases found : milestones.find? fun milestone => milestone.id = milestoneId with
              | none =>
                simp only [found] at ok
                obtain ⟨_, _, impossible⟩ := ok
                cases impossible
              | some milestone =>
                simp only [found] at ok
                by_cases inTime : currentEpoch > milestone.deadlineEpoch
                · rw [if_pos inTime] at ok
                  obtain ⟨_, _, impossible⟩ := ok
                  cases impossible
                · rw [if_neg inTime] at ok
                  cases verified : verifyMilestoneAttestation services milestone attestation currentEpoch with
                  | error error =>
                    rw [verified] at ok
                    obtain ⟨_, _, impossible⟩ := ok
                    cases impossible
                  | ok done =>
                    rw [verified] at ok
                    exact ⟨state, milestone, ⟨⟨sameMilestone, sameGrant⟩, stored, next, ⟨milestones, schedule, found⟩,
                      inTime, verified⟩, canPay_of_paid ok⟩
          · rw [if_pos next] at ok
            exact absurd ok milestoneFails_not_ok
      · rw [if_pos sameGrant] at ok
        exact absurd ok milestoneFails_not_ok
    · rw [if_pos sameMilestone] at ok
      exact absurd ok milestoneFails_not_ok
  · intro paid
    obtain ⟨state, milestone, due, can⟩ := paid
    obtain ⟨completed, run⟩ := completeMilestone_due due
    obtain ⟨paid, next, disbursed⟩ := disburseTranche_ok_iff.mpr can
    exact ⟨_, _, run.trans (bind_ok disbursed)⟩

end

structure Situation (L : Type) where
  treasury : TreasuryState L
  epoch : UInt64

/-- The committee of an epoch, with the number of shares that a signature of its key set takes. -/
structure EpochCommittee where
  members : List PublicKey
  needed : Nat
  nodup : members.Nodup
  within : needed ≤ members.length

section

variable {L : Type}

def Accepted (services : TreasuryServices L) (situation : Situation L) (grantId : Hash) (milestoneId : UInt32)
    (attestation : MilestoneAttestation) : Prop :=
  ∃ value after, completeMilestone services grantId milestoneId attestation situation.epoch situation.treasury =
    .ok value after

def Verifies (services : TreasuryServices L) (epoch : UInt64) (signature : Signature) (message : List UInt8) : Prop :=
  ∀ verify, services.verifySignature = some verify → verify epoch signature message = .ok ()

structure OpenMilestone (services : TreasuryServices L) (situation : Situation L) (grantId : Hash)
    (milestone : Milestone) (threshold : ℚ) : Prop where
  scheme : milestone.verificationScheme = .quorumAttestation threshold
  inTime : ¬ situation.epoch > milestone.deadlineEpoch
  expected : ∃ state milestones, situation.treasury.executor.activeGrants.lookup grantId = some state ∧
    state.nextMilestoneId = some milestone.id ∧ state.grant.schedule = .milestone milestones ∧
      milestones.find? (fun other => other.id = milestone.id) = some milestone ∧
        CanPay services situation.treasury state milestone.amount

def AttestationsBound (services : TreasuryServices L) (first second : Situation L) : Prop :=
  ∀ grantId milestoneId attestation grantId' milestoneId' attestation' signature signers quorumSize signers' quorumSize'
    signedMessage,
    Accepted services first grantId milestoneId attestation →
      attestation.proof = .quorumSignature signature signers quorumSize signedMessage →
        Accepted services second grantId' milestoneId' attestation' →
          attestation'.proof = .quorumSignature signature signers' quorumSize' signedMessage →
            grantId = grantId' ∧ milestoneId = milestoneId'

def Unforgeable (services : TreasuryServices L) (committees : UInt64 → EpochCommittee)
    (signed : UInt64 → PublicKey → List UInt8 → Prop) : Prop :=
  ∀ verify, services.verifySignature = some verify → ∀ epoch signature message, verify epoch signature message = .ok () →
    ∃ signers : List PublicKey, signers.Nodup ∧ signers ⊆ (committees epoch).members ∧
      (committees epoch).needed ≤ signers.length ∧ ∀ signer ∈ signers, signed epoch signer message

/-- However the committees signed, an accepted attestation is signed by the configured fraction of the committee. -/
def FractionSigned (services : TreasuryServices L) (committees : UInt64 → EpochCommittee) (situation : Situation L) :
    Prop :=
  ∀ signed, Unforgeable services committees signed →
    ∀ grantId milestone threshold attestation signature signers quorumSize signedMessage,
      Accepted services situation grantId milestone.id attestation →
        attestation.proof = .quorumSignature signature signers quorumSize signedMessage →
          OpenMilestone services situation grantId milestone threshold →
            ∃ signers : List PublicKey, signers.Nodup ∧ signers ⊆ (committees situation.epoch).members ∧
              threshold * (committees situation.epoch).members.length ≤ signers.length ∧
                ∀ signer ∈ signers, signed situation.epoch signer signedMessage

def NoCommonSignature (services : TreasuryServices L) (first second : Situation L) : Prop :=
  ∀ grantId milestone threshold grantId' milestone' threshold',
    OpenMilestone services first grantId milestone threshold →
      OpenMilestone services second grantId' milestone' threshold' →
        ¬ (grantId = grantId' ∧ milestone.id = milestone'.id) →
          ∀ signature message,
            ¬ (Verifies services first.epoch signature message ∧ Verifies services second.epoch signature message)

def neededShares (services : TreasuryServices L) (committee : EpochCommittee) : Nat :=
  if services.verifySignature.isSome then committee.needed else 0

def ThresholdCovered (services : TreasuryServices L) (committees : UInt64 → EpochCommittee) (situation : Situation L) :
    Prop :=
  ∀ grantId milestone threshold, OpenMilestone services situation grantId milestone threshold →
    (∃ signature message, Verifies services situation.epoch signature message) →
      threshold * (committees situation.epoch).members.length ≤ neededShares services (committees situation.epoch)

section

variable {services : TreasuryServices L} {situation : Situation L} {grantId : Hash} {milestone : Milestone}
  {threshold : ℚ} {signature : Signature} {signers : List PublicKey} {quorumSize : Nat} {message : List UInt8}
  {attestation : MilestoneAttestation} {epoch : UInt64}

theorem requires_bind_ok {rest : Unit → Except GovernanceError Unit} {holds : Bool} {reason : MilestoneReason} :
    (requires milestone holds reason >>= rest) = .ok () ↔ holds = true ∧ rest () = .ok () := by
  cases holds with
  | true => exact ⟨fun ok => ⟨rfl, ok⟩, fun ok => ok.2⟩
  | false =>
    constructor
    · intro impossible
      cases impossible
    · intro both
      cases both.1

theorem verifyQuorumSignature_ok_iff :
    verifyQuorumSignature services milestone signature signers quorumSize message threshold epoch = .ok () ↔
      (quorumSize = 0 ∨ (signers.length / quorumSize : ℚ) ≥ threshold) ∧ Verifies services epoch signature message := by
  unfold verifyQuorumSignature Verifies
  rw [requires_bind_ok, Bool.or_eq_true, decide_eq_true_eq, decide_eq_true_eq]
  refine and_congr_right fun _ => ?_
  cases services.verifySignature with
  | none =>
    simp only [reduceCtorEq, false_implies, implies_true, iff_true]
    rfl
  | some verify =>
    simp only [Option.some.injEq, forall_eq']
    cases verify epoch signature message with
    | ok done => exact ⟨fun _ => rfl, fun _ => rfl⟩
    | error reason =>
      constructor
      · intro impossible
        cases impossible
      · intro impossible
        cases impossible

theorem verifyMilestoneAttestation_ok_iff
    (proof : attestation.proof = .quorumSignature signature signers quorumSize message) :
    verifyMilestoneAttestation services milestone attestation epoch = .ok () ↔
      attestation.deliverableCid = milestone.deliverableCid ∧
        ∃ threshold, milestone.verificationScheme = .quorumAttestation threshold ∧
          (quorumSize = 0 ∨ (signers.length / quorumSize : ℚ) ≥ threshold) ∧
            Verifies services epoch signature message := by
  unfold verifyMilestoneAttestation
  rw [requires_bind_ok, decide_eq_true_eq, proof]
  refine and_congr_right fun _ => ?_
  cases scheme : milestone.verificationScheme with
  | quorumAttestation threshold =>
    refine verifyQuorumSignature_ok_iff.trans ?_
    simp
  | automatedCheck _ | oracleVerification _ | pouwTaskVerification _ _ =>
    constructor
    · intro impossible
      cases impossible
    · intro impossible
      obtain ⟨_, other, _⟩ := impossible
      cases other

theorem accepted_open {milestoneId : UInt32} (accepted : Accepted services situation grantId milestoneId attestation)
    (proof : attestation.proof = .quorumSignature signature signers quorumSize message) :
    ∃ milestone threshold, milestone.id = milestoneId ∧ OpenMilestone services situation grantId milestone threshold ∧
      Verifies services situation.epoch signature message := by
  obtain ⟨state, milestone, due, can⟩ := completeMilestone_ok_iff.mp accepted
  obtain ⟨_, stored, next, ⟨milestones, schedule, found⟩, inTime, verified⟩ := due
  obtain ⟨_, threshold, scheme, _, verifies⟩ := (verifyMilestoneAttestation_ok_iff proof).mp verified
  have isId : milestone.id = milestoneId := by simpa using List.find?_some found
  subst isId
  exact ⟨milestone, threshold, rfl, ⟨scheme, inTime, state, milestones, stored, next, schedule, found, can⟩, verifies⟩

def hollowAttestation (grantId : Hash) (milestone : Milestone) (signature : Signature) (message : List UInt8) :
    MilestoneAttestation :=
  ⟨milestone.id, grantId, milestone.deliverableCid, .quorumSignature signature [] 0 message⟩

theorem hollow_accepted (isOpen : OpenMilestone services situation grantId milestone threshold)
    (verifies : Verifies services situation.epoch signature message) :
    Accepted services situation grantId milestone.id (hollowAttestation grantId milestone signature message) := by
  obtain ⟨scheme, inTime, state, milestones, stored, next, schedule, found, can⟩ := isOpen
  refine completeMilestone_ok_iff.mpr ⟨state, milestone, ⟨⟨rfl, rfl⟩, stored, next, ⟨milestones, schedule, found⟩, inTime,
    ?_⟩, can⟩
  exact (verifyMilestoneAttestation_ok_iff rfl).mpr ⟨rfl, threshold, scheme, .inl rfl, verifies⟩

end

theorem attestationsBound_iff (services : TreasuryServices L) (first second : Situation L) :
    AttestationsBound services first second ↔ NoCommonSignature services first second := by
  constructor
  · intro bound grantId milestone threshold grantId' milestone' threshold' opened opened' different signature message both
    exact different (bound grantId milestone.id _ grantId' milestone'.id _ signature [] 0 [] 0 message
      (hollow_accepted opened both.1) rfl (hollow_accepted opened' both.2) rfl)
  · intro separate grantId milestoneId attestation grantId' milestoneId' attestation' signature signers quorumSize signers'
      quorumSize' message accepted proof accepted' proof'
    obtain ⟨milestone, threshold, rfl, opened, verifies⟩ := accepted_open accepted proof
    obtain ⟨milestone', threshold', rfl, opened', verifies'⟩ := accepted_open accepted' proof'
    by_contra different
    exact separate grantId milestone threshold grantId' milestone' threshold' opened opened' different signature message
      ⟨verifies, verifies'⟩

def fewestSigned (services : TreasuryServices L) (committees : UInt64 → EpochCommittee) (epoch : UInt64)
    (signer : PublicKey) (_message : List UInt8) : Prop :=
  signer ∈ (committees epoch).members.take (neededShares services (committees epoch))

theorem fewestSigned_unforgeable (services : TreasuryServices L) (committees : UInt64 → EpochCommittee) :
    Unforgeable services committees (fewestSigned services committees) := by
  intro verify configured epoch signature message _
  refine ⟨(committees epoch).members.take (committees epoch).needed, ?_, List.take_subset _ _, ?_, ?_⟩
  · exact (committees epoch).nodup.sublist (List.take_sublist _ _)
  · rw [List.length_take]
    exact le_min le_rfl (committees epoch).within
  · intro signer member
    unfold fewestSigned neededShares
    rw [configured]
    exact member

theorem fractionSigned_iff (services : TreasuryServices L) (committees : UInt64 → EpochCommittee)
    (situation : Situation L) :
    FractionSigned services committees situation ↔ ThresholdCovered services committees situation := by
  constructor
  · intro fraction grantId milestone threshold opened verifiable
    obtain ⟨signature, message, verifies⟩ := verifiable
    obtain ⟨signers, nodup, _, enough, all⟩ := fraction _ (fewestSigned_unforgeable services committees) grantId milestone
      threshold _ signature [] 0 message (hollow_accepted opened verifies) rfl opened
    have few : signers.length ≤ neededShares services (committees situation.epoch) :=
      (nodup.subperm all).length_le.trans (List.length_take_le _ _)
    exact enough.trans (by exact_mod_cast few)
  · intro covered signed unforgeable grantId milestone threshold attestation signature signers quorumSize message accepted
      proof opened
    obtain ⟨_, _, _, _, verifies⟩ := accepted_open accepted proof
    have enough := covered grantId milestone threshold opened ⟨signature, message, verifies⟩
    unfold neededShares at enough
    cases configured : services.verifySignature with
    | none =>
      rw [configured] at enough
      exact ⟨[], List.nodup_nil, List.nil_subset _, enough, fun _ impossible => by cases impossible⟩
    | some verify =>
      rw [configured] at enough
      obtain ⟨signers, nodup, members, needed, all⟩ :=
        unforgeable verify configured situation.epoch signature message (verifies verify configured)
      exact ⟨signers, nodup, members, enough.trans (by exact_mod_cast needed), all⟩

/-- Attestations are bound and signed exactly if no two open milestones share a signature and each needs the
    fraction. -/
theorem attestations_bound_iff (services : TreasuryServices L) (committees : UInt64 → EpochCommittee)
    (first second : Situation L) :
    (AttestationsBound services first second ∧ FractionSigned services committees first ∧
        FractionSigned services committees second) ↔
      NoCommonSignature services first second ∧ ThresholdCovered services committees first ∧
        ThresholdCovered services committees second :=
  and_congr (attestationsBound_iff services first second)
    (and_congr (fractionSigned_iff services committees first) (fractionSigned_iff services committees second))

end

namespace ReplayedAttestation

open Pouw

def services : TreasuryServices (BalanceManager MemoryStorage) :=
  (TreasuryServices.ofBalanceManager (fun _ => Bytes32.replicate 3) 0 none).withDkgManager echoCrypto
    (HashMap.ofPairs [(1, ())])

def grant : TreasuryGrant :=
  ⟨⟨Bytes32.replicate 5⟩, ⟨10⟩, .milestone [⟨1, ⟨4⟩, "design", 5, .quorumAttestation (2 / 3)⟩,
    ⟨2, ⟨6⟩, "release", 5, .quorumAttestation 1⟩], Bytes32.replicate 4⟩

def message : List UInt8 := utf8 "design of grant 4"

def signature : Signature := ⟨1 :: (dstMilestoneAttestation ++ message)⟩

def attestation (milestoneId : UInt32) (deliverableCid : String) : MilestoneAttestation :=
  ⟨milestoneId, Bytes32.replicate 4, deliverableCid, .quorumSignature signature [signerKey 1] 1 message⟩

def granted : TreasuryState (BalanceManager MemoryStorage) :=
  stateAfter (executeGrant services grant 0) ⟨.new Overpayment.treasury, Overpayment.ledger⟩

def designed : TreasuryState (BalanceManager MemoryStorage) :=
  stateAfter (completeMilestone services (Bytes32.replicate 4) 1 (attestation 1 "design") 1) granted

def succeeds {ε σ α : Type} : EStateM.Result ε σ α → Bool
  | .ok _ _ => true
  | .error _ _ => false

theorem accepted_of_succeeds {situation : Situation (BalanceManager MemoryStorage)} {milestoneId : UInt32}
    {attestation : MilestoneAttestation}
    (run : succeeds (completeMilestone services (Bytes32.replicate 4) milestoneId attestation situation.epoch
      situation.treasury) = true) :
    Accepted services situation (Bytes32.replicate 4) milestoneId attestation := by
  unfold Accepted
  cases result : completeMilestone services (Bytes32.replicate 4) milestoneId attestation situation.epoch
      situation.treasury with
  | ok value after => exact ⟨value, after, rfl⟩
  | error error after =>
    rw [result] at run
    cases run

/-- The signature over one milestone is accepted for another, which asks for the whole committee. -/
theorem signature_accepted_twice : ¬ AttestationsBound services ⟨granted, 1⟩ ⟨designed, 1⟩ := by
  intro bound
  have first : Accepted services ⟨granted, 1⟩ (Bytes32.replicate 4) 1 (attestation 1 "design") :=
    accepted_of_succeeds (by decide +kernel)
  have second : Accepted services ⟨designed, 1⟩ (Bytes32.replicate 4) 2 (attestation 2 "release") :=
    accepted_of_succeeds (by decide +kernel)
  have same := (bound _ _ _ _ _ _ _ _ _ _ _ _ first rfl second rfl).2
  revert same
  decide

end ReplayedAttestation

end AdicProof.Governance
