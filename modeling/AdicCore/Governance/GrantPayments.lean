import AdicCore.Governance.GrantBooks
import AdicCore.Library.Calls

open AdicModel AdicModel.Economics AdicModel.Governance AdicProof.Economics Calls

namespace AdicProof.Governance

inductive TreasuryStep (L : Type) where
  | executeGrant (services : TreasuryServices L) (grant : TreasuryGrant) (currentEpoch : UInt64)
  | processEpoch (services : TreasuryServices L) (order : HashMap.Order) (currentEpoch : UInt64)
  | completeMilestone (services : TreasuryServices L) (grantId : Hash) (milestoneId : UInt32)
      (attestation : MilestoneAttestation) (currentEpoch : UInt64)
  | pauseGrant (grantId : Hash)
  | clawbackGrant (grantId : Hash)

section

variable {L : Type}

def TreasuryStep.next (treasury : TreasuryState L) : TreasuryStep L → TreasuryState L
  | .executeGrant services grant currentEpoch =>
    stateAfter (TreasuryExecutor.executeGrant services grant currentEpoch) treasury
  | .processEpoch services order currentEpoch =>
    stateAfter (TreasuryExecutor.processEpoch services order currentEpoch) treasury
  | .completeMilestone services grantId milestoneId attestation currentEpoch =>
    stateAfter (TreasuryExecutor.completeMilestone services grantId milestoneId attestation currentEpoch) treasury
  | .pauseGrant grantId => stateAfter (TreasuryExecutor.pauseGrant grantId) treasury
  | .clawbackGrant grantId => stateAfter (TreasuryExecutor.clawbackGrant grantId) treasury

def instalmentDue (state : GrantState) (currentEpoch : UInt64) : AdicAmount :=
  match state.status, state.grant.schedule with
  | .active, .streamed ratePerEpoch durationEpochs =>
    let epochsElapsed := if currentEpoch < state.startEpoch then 0 else currentEpoch - state.startEpoch
    let remaining := state.grant.totalAmount.saturatingSub state.disbursedAmount
    if epochsElapsed > durationEpochs then AdicAmount.zero
    else if remaining ≥ ratePerEpoch then ratePerEpoch
    else remaining
  | _, _ => AdicAmount.zero

/-- The milestone that a call pays, if the transfer succeeds: all its checks pass. -/
structure MilestoneDue (services : TreasuryServices L) (executor : TreasuryExecutor) (grantId : Hash)
    (milestoneId : UInt32) (attestation : MilestoneAttestation) (currentEpoch : UInt64) (state : GrantState)
    (milestone : Milestone) : Prop where
  attested : attestation.milestoneId = milestoneId ∧ attestation.grantId = grantId
  stored : executor.activeGrants.lookup grantId = some state
  next : state.nextMilestoneId = some milestoneId
  found : ∃ milestones, state.grant.schedule = .milestone milestones ∧
    milestones.find? (fun milestone => milestone.id = milestoneId) = some milestone
  inTime : ¬currentEpoch > milestone.deadlineEpoch
  verified : TreasuryExecutor.verifyMilestoneAttestation services milestone attestation currentEpoch = .ok ()

def Respects (executor : TreasuryExecutor) : TreasuryStep L → Prop
  | .executeGrant _ grant _ =>
    match grant.schedule with
    | .atomic => grant.totalAmount ≠ AdicAmount.zero →
      (∀ payment ∈ executor.payments, payment.grant.proposalId ≠ grant.proposalId) ∧
        executor.activeGrants.lookup grant.proposalId = none
    | .streamed _ _ => ∀ payment ∈ executor.payments, payment.grant.proposalId ≠ grant.proposalId
    | .milestone milestones =>
      (∀ payment ∈ executor.payments, payment.grant.proposalId ≠ grant.proposalId) ∧
        (milestones.map Milestone.id).Nodup
  | .processEpoch _ _ currentEpoch =>
    ∀ grantId state, executor.activeGrants.lookup grantId = some state →
      instalmentDue state currentEpoch ≠ AdicAmount.zero →
      ∀ payment ∈ executor.payments, payment.grant.proposalId = grantId → payment.instalment ≠ .streamed currentEpoch
  | .completeMilestone services grantId milestoneId attestation currentEpoch =>
    ∀ state milestone, MilestoneDue services executor grantId milestoneId attestation currentEpoch state milestone →
      milestone.amount ≠ AdicAmount.zero →
      mayPay (some state.status) = true ∧
        units state.disbursedAmount + units milestone.amount ≤ units state.grant.totalAmount
  | _ => True

def Has (executor : TreasuryExecutor) (treasury : TreasuryState L) : Prop := treasury.executor = executor

variable {services : TreasuryServices L} {executor : TreasuryExecutor} {grant : TreasuryGrant}
  {instalment : Instalment} {amount : AdicAmount} {grantId : Hash} {state : GrantState} {currentEpoch : UInt64}

theorem transferTo_triple : Triple (Has executor) (TreasuryExecutor.transferTo services grant instalment amount)
    (fun _ => Has (executor.note grant instalment amount)) (Has executor) := by
  intro treasury has
  unfold TreasuryExecutor.transferTo
  cases services.transfer treasury.executor.treasuryAddress (services.fromPublicKey grant.recipient) amount
      treasury.ledger with
  | ok value ledger =>
    show treasury.executor.note grant instalment amount = _
    rw [has]
  | error error ledger => exact has

theorem setGrant_triple (failed : TreasuryState L → Prop) :
    Triple (Has executor) (TreasuryExecutor.setGrant grantId state) (fun _ => Has (executor.setState grantId state))
      failed := by
  apply triple_modify
  intro treasury has
  show treasury.executor.setState grantId state = _
  rw [has]

theorem fails_triple {α : Type} (message : String) (post : α → TreasuryState L → Prop) :
    Triple (Has executor) (TreasuryExecutor.fails message) post (Has executor) :=
  triple_throw fun _ holds => holds

def disbursed (state : GrantState) (disbursedAmount : AdicAmount) (currentEpoch : UInt64) : GrantState :=
  { state with disbursedAmount, lastDisbursementEpoch := some currentEpoch }

theorem disburseTranche_triple {disbursedAmount : AdicAmount}
    (added : state.disbursedAmount.checkedAdd amount = some disbursedAmount) :
    Triple (Has executor) (TreasuryExecutor.disburseTranche services grantId state instalment amount currentEpoch)
      (fun paid treasury => paid = disbursed state disbursedAmount currentEpoch ∧
        Has ((executor.note state.grant instalment amount).setState grantId paid) treasury) (Has executor) := by
  unfold TreasuryExecutor.disburseTranche
  refine transferTo_triple.bind fun _ => ?_
  rw [added]
  exact (setGrant_triple _).bind fun _ => triple_pure fun treasury has => ⟨rfl, has⟩

inductive Processed (executor : TreasuryExecutor) (grantId : Hash) (currentEpoch : UInt64) :
    TreasuryExecutor → Prop where
  | same : Processed executor grantId currentEpoch executor
  | completed (state : GrantState) (stored : executor.activeGrants.lookup grantId = some state) :
      Processed executor grantId currentEpoch (executor.setState grantId { state with status := .completed })
  | paid (state : GrantState) (stored : executor.activeGrants.lookup grantId = some state)
      (active : state.status = .active) (streamed : ∀ milestones, state.grant.schedule ≠ .milestone milestones)
      (disbursedAmount : AdicAmount)
      (sum : units disbursedAmount = units state.disbursedAmount + units (instalmentDue state currentEpoch))
      (within : units disbursedAmount ≤ units state.grant.totalAmount) (status : GrantStatus) :
      Processed executor grantId currentEpoch
        ((executor.note state.grant (.streamed currentEpoch) (instalmentDue state currentEpoch)).setState grantId
          { disbursed state disbursedAmount currentEpoch with status })

theorem setState_setState (executor : TreasuryExecutor) (grantId : Hash) (first second : GrantState) :
    (executor.setState grantId first).setState grantId second = executor.setState grantId second := by
  unfold TreasuryExecutor.setState
  rw [AList.insert_insert]

theorem instalmentDue_streamed {ratePerEpoch remaining : AdicAmount} {durationEpochs : UInt64}
    (active : state.status = .active) (schedule : state.grant.schedule = .streamed ratePerEpoch durationEpochs)
    (running : ¬(if currentEpoch < state.startEpoch then 0 else currentEpoch - state.startEpoch) > durationEpochs)
    (left : state.grant.totalAmount.checkedSub state.disbursedAmount = some remaining) :
    instalmentDue state currentEpoch = if remaining ≥ ratePerEpoch then ratePerEpoch else remaining := by
  unfold instalmentDue
  rw [active, schedule]
  simp only [AdicAmount.saturatingSub, left, Option.getD_some]
  rw [if_neg running]

theorem tranche_triple {remaining tranche : AdicAmount} (stored : executor.activeGrants.lookup grantId = some state)
    (active : state.status = .active) (streamed : ∀ milestones, state.grant.schedule ≠ .milestone milestones)
    (left : state.grant.totalAmount.checkedSub state.disbursedAmount = some remaining)
    (due : instalmentDue state currentEpoch = tranche) (enough : tranche ≤ remaining)
    {finish : GrantState → TreasuryCall L Unit}
    (finishes : ∀ paid, finish paid = TreasuryExecutor.setGrant grantId { paid with status := .completed } ∨
      finish paid = pure ()) :
    Triple (Has executor)
      (TreasuryExecutor.disburseTranche services grantId state (.streamed currentEpoch) tranche currentEpoch >>= finish)
      (fun _ treasury => Processed executor grantId currentEpoch treasury.executor) (Has executor) := by
  rw [checkedSub_eq_some] at left
  rw [amount_le] at enough
  have fits : units state.disbursedAmount + units tranche ≤ units state.grant.totalAmount := by omega
  obtain ⟨disbursedAmount, added⟩ := checkedAdd_of_within fits
  have sum := checkedAdd_eq_some.mp added
  have paid (status : GrantStatus) : Processed executor grantId currentEpoch
      ((executor.note state.grant (.streamed currentEpoch) tranche).setState grantId
        { disbursed state disbursedAmount currentEpoch with status }) := by
    rw [← due]
    exact .paid state stored active streamed disbursedAmount (by rw [due, sum]) (by omega) status
  refine (disburseTranche_triple added).bind fun result => ?_
  rcases finishes result with completes | ends
  · rw [completes]
    apply triple_modify
    rintro treasury ⟨rfl, has⟩
    show Processed executor grantId currentEpoch (treasury.executor.setState grantId _)
    rw [has, setState_setState]
    exact paid .completed
  · rw [ends]
    apply triple_pure
    rintro treasury ⟨rfl, has⟩
    rw [has]
    exact paid state.status

theorem processGrant_triple (services : TreasuryServices L) (executor : TreasuryExecutor) (grantId : Hash)
    (currentEpoch : UInt64) :
    Triple (Has executor) (TreasuryExecutor.processGrant services currentEpoch grantId)
      (fun _ treasury => Processed executor grantId currentEpoch treasury.executor) (Has executor) := by
  have same : ∀ treasury : TreasuryState L, Has executor treasury →
      Processed executor grantId currentEpoch treasury.executor := by
    intro treasury has
    rw [has]
    exact .same
  unfold TreasuryExecutor.processGrant
  apply Triple.get_met
  intro current has
  rw [has]
  cases stored : executor.activeGrants.lookup grantId with
  | none => exact triple_pure same
  | some state =>
    simp only
    apply triple_ite
    · intro _
      exact triple_pure same
    · intro active
      rw [not_not] at active
      cases schedule : state.grant.schedule with
      | atomic => exact triple_pure same
      | milestone milestones => exact triple_pure same
      | streamed ratePerEpoch durationEpochs =>
        have streamed : ∀ milestones, state.grant.schedule ≠ .milestone milestones := by
          intro milestones other
          rw [schedule] at other
          cases other
        have completes (failed : TreasuryState L → Prop) : Triple (Has executor)
            (TreasuryExecutor.setGrant grantId { state with status := .completed })
            (fun _ treasury => Processed executor grantId currentEpoch treasury.executor) failed := by
          apply (setGrant_triple failed).weaken (fun _ holds => holds) ?_ (fun _ holds => holds)
          intro _ treasury now
          rw [now]
          exact .completed state stored
        apply triple_ite
        · intro _
          exact completes _
        · intro running
          cases left : state.grant.totalAmount.checkedSub state.disbursedAmount with
          | none => exact fails_triple _ _
          | some remaining =>
            have due := instalmentDue_streamed active schedule running left
            apply triple_ite
            · intro enough
              rw [if_pos enough] at due
              refine tranche_triple stored active streamed left due enough fun paid => ?_
              split
              · exact .inl rfl
              · exact .inr rfl
            · intro short
              rw [if_neg short] at due
              apply triple_ite
              · intro _
                exact tranche_triple stored active streamed left due (amount_le.mpr (le_refl _)) fun _ => .inl rfl
              · intro _
                exact completes _

def FreshFor (executor : TreasuryExecutor) (currentEpoch : UInt64) (grantId : Hash) : Prop :=
  ∀ state, executor.activeGrants.lookup grantId = some state → instalmentDue state currentEpoch ≠ AdicAmount.zero →
    ∀ payment ∈ executor.payments, payment.grant.proposalId = grantId → payment.instalment ≠ .streamed currentEpoch

section

variable {after : TreasuryExecutor} {other : Hash}

theorem passedAll_streamed {payments : List Payment}
    (streamed : ∀ milestones, state.grant.schedule ≠ .milestone milestones) :
    PassedAll payments state := by
  intro milestones schedule
  exact absurd schedule (streamed milestones)

theorem Processed.books (processed : Processed executor grantId currentEpoch after) (books : BooksAgree executor)
    (fresh : FreshFor executor currentEpoch grantId) : BooksAgree after := by
  cases processed with
  | same => exact books
  | completed state stored => exact books.setState ((books.stored grantId state stored).withStatus .completed)
  | paid state stored active streamed disbursedAmount sum within status =>
    refine books.paid (books.stored grantId state stored).id (fun due => ?_) ?_
    · exact payable_stored books stored (by omega) (fresh state stored due) (by rw [active]; rfl)
    · exact agreesWith_paid books stored rfl sum within (passedAll_streamed streamed)

theorem Processed.freshFor (processed : Processed executor grantId currentEpoch after) (books : BooksAgree executor)
    (different : other ≠ grantId) (fresh : FreshFor executor currentEpoch other) :
    FreshFor after currentEpoch other := by
  cases processed with
  | same => exact fresh
  | completed state stored =>
    intro held lookup
    rw [lookup_setState, if_neg different] at lookup
    exact fresh held lookup
  | paid state stored active streamed disbursedAmount sum within status =>
    intro held lookup due payment member ids
    rw [lookup_setState, if_neg different, note_activeGrants] at lookup
    rcases mem_note member with earlier | ⟨-, rfl⟩
    · exact fresh held lookup due payment earlier ids
    · exact absurd (ids.symm.trans (books.stored grantId state stored).id) different

end

def Agrees (treasury : TreasuryState L) : Prop := BooksAgree treasury.executor

theorem agrees_of_has {treasury : TreasuryState L} (books : BooksAgree executor) (has : Has executor treasury) :
    Agrees treasury := by
  show BooksAgree treasury.executor
  rw [has]
  exact books

theorem forM_processGrant (services : TreasuryServices L) (currentEpoch : UInt64) (ids : List Hash) (nodup : ids.Nodup) :
    Triple (fun treasury => Agrees treasury ∧ ∀ grantId ∈ ids, FreshFor treasury.executor currentEpoch grantId)
      (ids.forM (TreasuryExecutor.processGrant services currentEpoch)) (fun _ => Agrees) Agrees := by
  induction ids with
  | nil => exact triple_pure fun _ holds => holds.1
  | cons grantId ids ih =>
    rw [List.nodup_cons] at nodup
    have first : Triple
        (fun treasury : TreasuryState L =>
          Agrees treasury ∧ ∀ other ∈ grantId :: ids, FreshFor treasury.executor currentEpoch other)
        (TreasuryExecutor.processGrant services currentEpoch grantId)
        (fun _ treasury => Agrees treasury ∧ ∀ other ∈ ids, FreshFor treasury.executor currentEpoch other) Agrees := by
      rintro treasury ⟨agrees, fresh⟩
      have result := processGrant_triple services treasury.executor grantId currentEpoch treasury rfl
      cases run : TreasuryExecutor.processGrant services currentEpoch grantId treasury with
      | ok value next =>
        rw [run] at result
        refine ⟨result.books agrees (fresh grantId List.mem_cons_self), fun other member => ?_⟩
        have different : other ≠ grantId := fun same => nodup.1 (same ▸ member)
        exact result.freshFor agrees different (fresh other (List.mem_cons_of_mem _ member))
      | error error next =>
        rw [run] at result
        exact agrees_of_has agrees result
    show Triple _ (TreasuryExecutor.processGrant services currentEpoch grantId >>= fun _ =>
      ids.forM (TreasuryExecutor.processGrant services currentEpoch)) _ _
    exact first.bind fun _ => ih nodup.2

theorem processEpoch_triple (services : TreasuryServices L) (order : HashMap.Order) (currentEpoch : UInt64) :
    Triple (fun treasury => Agrees treasury ∧ ∀ grantId, FreshFor treasury.executor currentEpoch grantId)
      (TreasuryExecutor.processEpoch services order currentEpoch) (fun _ => Agrees) Agrees := by
  unfold TreasuryExecutor.processEpoch
  apply Triple.get_any
  intro current
  have nodup : (order.iterate current.executor.activeGrants.keys).Nodup :=
    (order.perm _).nodup_iff.mpr (AList.keys_nodup _)
  refine (forM_processGrant services currentEpoch _ nodup).weaken ?_ (fun _ _ holds => holds) (fun _ holds => holds)
  intro treasury both
  exact ⟨both.1, fun grantId _ => both.2 grantId⟩

theorem executeGrant_triple (books : BooksAgree executor) (respects : Respects executor
      (.executeGrant services grant currentEpoch)) :
    Triple (Has executor) (TreasuryExecutor.executeGrant services grant currentEpoch) (fun _ => Agrees) Agrees := by
  have kept : ∀ treasury : TreasuryState L, Has executor treasury → Agrees treasury := fun _ => agrees_of_has books
  have initializes (nextMilestoneId : Option UInt32)
      (unpaid : ∀ payment ∈ executor.payments, payment.grant.proposalId ≠ grant.proposalId)
      (distinct : ∀ milestones, grant.schedule = .milestone milestones → (milestones.map Milestone.id).Nodup) :
      Triple (Has executor) (TreasuryExecutor.initializeGrant grant nextMilestoneId currentEpoch : TreasuryCall L Unit)
        (fun _ => Agrees) Agrees := by
    apply (setGrant_triple Agrees).weaken (fun _ holds => holds) ?_ (fun _ holds => holds)
    intro _ treasury
    exact agrees_of_has (books.setState (agreesWith_new unpaid distinct nextMilestoneId .active currentEpoch))
  unfold Respects at respects
  unfold TreasuryExecutor.executeGrant
  cases schedule : grant.schedule with
  | atomic =>
    simp only [schedule] at respects
    refine transferTo_triple.weaken (fun _ holds => holds) (fun _ treasury => agrees_of_has ?_) kept
    constructor
    · refine proper_note books.proper fun positive => ?_
      obtain ⟨unpaid, unstored⟩ := respects positive
      constructor
      · intro payment member ids
        exact absurd ids (unpaid payment member)
      · rw [paidTo_unpaid unpaid, Nat.zero_add]
      · intro payment member ids
        exact absurd ids (unpaid payment member)
      · rw [unstored]
        rfl
    · intro grantId state stored
      rw [note_activeGrants] at stored
      by_cases zero : grant.totalAmount = AdicAmount.zero
      · rw [note_zero zero]
        exact books.stored grantId state stored
      · refine (books.stored grantId state stored).note fun same => ?_
        rw [← same, (respects zero).2] at stored
        cases stored
  | streamed ratePerEpoch durationEpochs =>
    simp only [schedule] at respects
    refine initializes none respects fun milestones impossible => ?_
    rw [schedule] at impossible
    cases impossible
  | milestone milestones =>
    simp only [schedule] at respects
    refine initializes _ respects.1 fun others same => ?_
    rw [schedule] at same
    cases same
    exact respects.2

theorem milestoneFails_triple {α β : Type} {pre : TreasuryState L → Prop} (milestoneId : UInt32) (reason : MilestoneReason)
    (rest : α → TreasuryCall L β) (post : β → TreasuryState L → Prop) {failed : TreasuryState L → Prop}
    (kept : ∀ treasury, pre treasury → failed treasury) :
    Triple pre (TreasuryExecutor.milestoneFails milestoneId reason >>= rest) post failed := kept

def completed (state : GrantState) (disbursedAmount : AdicAmount) (currentEpoch : UInt64)
    (nextMilestoneId : Option UInt32) : GrantState :=
  { disbursed state disbursedAmount currentEpoch with
    nextMilestoneId
    status := if nextMilestoneId.isNone then .completed else state.status }

section

variable {milestones : List Milestone} {milestoneId : UInt32} (books : BooksAgree executor)
  (stored : executor.activeGrants.lookup grantId = some state) (next : state.nextMilestoneId = some milestoneId)

include books stored next

theorem milestone_unpaid (schedule : state.grant.schedule = .milestone milestones) :
    ∀ payment ∈ executor.payments, payment.grant.proposalId = grantId →
      payment.instalment ≠ .milestone milestoneId := by
  intro payment member ids paid
  have agrees := books.stored grantId state stored
  have passed := agrees.passed milestones schedule payment member (agrees.grant payment member ids) milestoneId paid
  rw [next] at passed
  exact not_passed_self (agrees.distinct milestones schedule) passed

theorem books_completed {milestone : Milestone} {disbursedAmount : AdicAmount}
    (schedule : state.grant.schedule = .milestone milestones)
    (found : milestones.find? (fun milestone => milestone.id = milestoneId) = some milestone)
    (sum : units disbursedAmount = units state.disbursedAmount + units milestone.amount)
    (allowed : milestone.amount ≠ AdicAmount.zero → mayPay (some state.status) = true)
    (within : units disbursedAmount ≤ units state.grant.totalAmount) :
    BooksAgree ((executor.note state.grant (.milestone milestoneId) milestone.amount).setState grantId
      (completed state disbursedAmount currentEpoch (TreasuryExecutor.nextMilestone milestones milestoneId))) := by
  have agrees := books.stored grantId state stored
  have nodup := agrees.distinct milestones schedule
  refine books.paid agrees.id (fun positive => ?_) (agreesWith_paid books stored rfl sum within ?_)
  · exact payable_stored books stored (by omega) (milestone_unpaid books stored next schedule) (allowed positive)
  · intro others same payment member grants paidId paid
    rw [show (completed state disbursedAmount currentEpoch _).grant = state.grant from rfl, schedule] at same
    cases same
    rcases mem_note member with earlier | ⟨-, rfl⟩
    · have passed := agrees.passed milestones schedule payment earlier grants paidId paid
      rw [next] at passed
      exact passed_of_passed nodup passed
    · cases paid
      obtain ⟨front, back, ids, absent⟩ := split_of_found nodup found
      exact passed_next ids absent (.inr rfl)

theorem payMilestone_triple {milestone : Milestone} (schedule : state.grant.schedule = .milestone milestones)
    (found : milestones.find? (fun milestone => milestone.id = milestoneId) = some milestone)
    (allowed : milestone.amount ≠ AdicAmount.zero → mayPay (some state.status) = true ∧
      units state.disbursedAmount + units milestone.amount ≤ units state.grant.totalAmount) :
    Triple (Has executor)
      (TreasuryExecutor.disburseTranche services grantId state (.milestone milestoneId) milestone.amount currentEpoch >>=
        fun paid => TreasuryExecutor.setGrant grantId
          { paid with
            nextMilestoneId := TreasuryExecutor.nextMilestone milestones milestoneId
            status := if (TreasuryExecutor.nextMilestone milestones milestoneId).isNone then .completed
              else paid.status })
      (fun _ => Agrees) Agrees := by
  have agrees := books.stored grantId state stored
  have within : units state.disbursedAmount + units milestone.amount ≤ units state.grant.totalAmount := by
    by_cases zero : milestone.amount = AdicAmount.zero
    · rw [zero, units_zero, Nat.add_zero]
      exact agrees.within
    · exact (allowed zero).2
  obtain ⟨disbursedAmount, added⟩ := checkedAdd_of_within within
  have sum := checkedAdd_eq_some.mp added
  have keeps : ∀ treasury : TreasuryState L, Has executor treasury → Agrees treasury := fun _ => agrees_of_has books
  refine ((disburseTranche_triple added).weaken (fun _ holds => holds) (fun _ _ holds => holds) keeps).bind ?_
  intro paid
  apply triple_modify
  rintro treasury ⟨rfl, has⟩
  show BooksAgree (treasury.executor.setState grantId _)
  rw [has, setState_setState]
  exact books_completed books stored next schedule found sum (fun positive => (allowed positive).1) (by omega)

end

theorem completeMilestone_triple {milestoneId : UInt32} {attestation : MilestoneAttestation}
    (books : BooksAgree executor)
    (respects : Respects executor (.completeMilestone services grantId milestoneId attestation currentEpoch)) :
    Triple (Has executor)
      (TreasuryExecutor.completeMilestone services grantId milestoneId attestation currentEpoch)
      (fun _ => Agrees) Agrees := by
  have kept : ∀ treasury : TreasuryState L, Has executor treasury → Agrees treasury := fun _ => agrees_of_has books
  unfold TreasuryExecutor.completeMilestone
  apply triple_ite
  · intro _
    exact milestoneFails_triple _ _ _ _ kept
  · intro sameMilestone
    apply triple_ite
    · intro _
      exact milestoneFails_triple _ _ _ _ kept
    · intro sameGrant
      rw [not_not] at sameMilestone sameGrant
      apply Triple.get_met
      intro current has
      rw [has]
      cases stored : executor.activeGrants.lookup grantId with
      | none => exact triple_throw kept
      | some state =>
        apply triple_ite
        · intro _
          exact milestoneFails_triple _ _ _ _ kept
        · intro next
          rw [not_not] at next
          cases schedule : state.grant.schedule with
          | atomic => exact triple_throw kept
          | streamed ratePerEpoch durationEpochs => exact triple_throw kept
          | milestone milestones =>
            cases found : milestones.find? fun milestone => milestone.id = milestoneId with
            | none =>
              simp only [found]
              exact triple_throw kept
            | some milestone =>
              simp only [found]
              apply triple_ite
              · intro _
                have paused := books.setState ((books.stored grantId state stored).withStatus .paused)
                exact (setGrant_triple Agrees).bind fun _ => milestoneFails_triple _ _ _ _ fun _ => agrees_of_has paused
              · intro inTime
                cases verified : TreasuryExecutor.verifyMilestoneAttestation services milestone attestation
                    currentEpoch with
                | error error => exact triple_throw kept
                | ok done =>
                  have due : MilestoneDue services executor grantId milestoneId attestation currentEpoch state
                      milestone :=
                    ⟨⟨sameMilestone, sameGrant⟩, stored, next, ⟨milestones, schedule, found⟩, inTime, verified⟩
                  exact payMilestone_triple books stored next schedule found (respects state milestone due)

theorem pauseGrant_triple (books : BooksAgree executor) :
    Triple (Has executor) (TreasuryExecutor.pauseGrant grantId : TreasuryCall L Unit) (fun _ => Agrees) Agrees := by
  unfold TreasuryExecutor.pauseGrant
  apply Triple.get_met
  intro current has
  rw [has]
  cases stored : executor.activeGrants.lookup grantId with
  | none => exact triple_throw fun _ => agrees_of_has books
  | some state =>
    have paused := books.setState ((books.stored grantId state stored).withStatus .paused)
    exact (setGrant_triple Agrees).weaken (fun _ holds => holds) (fun _ _ => agrees_of_has paused) (fun _ holds => holds)

theorem clawbackGrant_triple (books : BooksAgree executor) :
    Triple (Has executor) (TreasuryExecutor.clawbackGrant grantId : TreasuryCall L AdicAmount) (fun _ => Agrees)
      Agrees := by
  unfold TreasuryExecutor.clawbackGrant
  apply Triple.get_met
  intro current has
  rw [has]
  cases stored : executor.activeGrants.lookup grantId with
  | none => exact triple_throw fun _ => agrees_of_has books
  | some state =>
    simp only
    cases left : state.grant.totalAmount.checkedSub state.disbursedAmount with
    | none => exact triple_throw fun _ => agrees_of_has books
    | some remaining =>
      have clawedBack := books.setState ((books.stored grantId state stored).withStatus .clawedBack)
      apply triple_ite
      · intro _
        exact (setGrant_triple Agrees).bind fun _ => triple_pure fun _ => agrees_of_has clawedBack
      · intro _
        exact triple_pure fun _ => agrees_of_has books

theorem agrees_next {treasury : TreasuryState L} (agrees : Agrees treasury) (step : TreasuryStep L)
    (respects : Respects treasury.executor step) : Agrees (TreasuryStep.next treasury step) := by
  cases step with
  | executeGrant services grant currentEpoch => exact (executeGrant_triple agrees respects).stateAfter rfl
  | processEpoch services order currentEpoch =>
    exact (processEpoch_triple services order currentEpoch).stateAfter ⟨agrees, respects⟩
  | completeMilestone services grantId milestoneId attestation currentEpoch =>
    exact (completeMilestone_triple agrees respects).stateAfter rfl
  | pauseGrant grantId => exact (pauseGrant_triple agrees).stateAfter rfl
  | clawbackGrant grantId => exact (clawbackGrant_triple agrees).stateAfter rfl

theorem agrees_new (treasuryAddress : AccountAddress) (ledger : L) : Agrees ⟨.new treasuryAddress, ledger⟩ := by
  constructor
  · constructor
    · intro payment member
      cases member
    · exact List.nodup_nil
    · intro payment member
      cases member
  · intro grantId state stored
    cases stored

/-- The payments of a run are proper if its calls respect what the code does not check. -/
theorem never_overpays (treasuryAddress : AccountAddress) (ledger : L) (steps : List (TreasuryStep L))
    (respects : ∀ before step, before ++ [step] <+: steps →
      Respects (Runs.after TreasuryStep.next ⟨.new treasuryAddress, ledger⟩ before).executor step) :
    ∀ before, before <+: steps →
      Proper (Runs.after TreasuryStep.next ⟨.new treasuryAddress, ledger⟩ before).executor.payments := by
  intro before part
  have agrees := Runs.invariant_of_conditions (agrees_new treasuryAddress ledger)
    (fun current step holds meets => agrees_next holds step meets) respects before part
  exact agrees.proper

end

namespace Overpayment

def treasury : AccountAddress := ⟨Bytes32.replicate 1⟩

def recipient : PublicKey := ⟨Bytes32.replicate 2⟩

def ledger : BalanceManager MemoryStorage :=
  .new { MemoryStorage.new with balances := (∅ : BalanceMap).insert treasury ⟨100⟩ }

def services : TreasuryServices (BalanceManager MemoryStorage) :=
  .ofBalanceManager (fun _ => Bytes32.replicate 3) 0 none

def streamedGrant : TreasuryGrant := ⟨recipient, ⟨10⟩, .streamed ⟨4⟩ 5, Bytes32.replicate 4⟩

def milestoneGrant : TreasuryGrant :=
  ⟨recipient, ⟨10⟩, .milestone [⟨1, ⟨10⟩, "deliverable", 5, .automatedCheck "tests"⟩], Bytes32.replicate 4⟩

def attestation : MilestoneAttestation :=
  ⟨1, Bytes32.replicate 4, "deliverable", .automatedCheck true "evidence"⟩

def stream : List (TreasuryStep (BalanceManager MemoryStorage)) :=
  [.executeGrant services streamedGrant 0, .processEpoch services .stored 1, .processEpoch services .stored 2]

theorem stream_never_overpays :
    Proper (Runs.after TreasuryStep.next ⟨.new treasury, ledger⟩ stream).executor.payments := by
  refine never_overpays treasury ledger stream ?_ stream (List.prefix_refl _)
  refine Runs.forall_steps_cons.mpr ⟨?_, Runs.forall_steps_cons.mpr ⟨?_, Runs.forall_steps_cons.mpr ⟨?_, ?_⟩⟩⟩
  · intro payment member
    cases member
  · have unpaid : (Runs.after TreasuryStep.next ⟨.new treasury, ledger⟩
        [.executeGrant services streamedGrant 0]).executor.payments = [] := by decide +kernel
    intro grantId state _ _ payment member
    rw [unpaid] at member
    cases member
  · have earlier : ∀ payment ∈ (Runs.after TreasuryStep.next ⟨.new treasury, ledger⟩
        [.executeGrant services streamedGrant 0, .processEpoch services .stored 1]).executor.payments,
        payment.instalment ≠ .streamed 2 := by decide +kernel
    intro grantId state _ _ payment member _
    exact earlier payment member
  · exact Runs.forall_steps_nil

/-- A milestone of a paused grant is paid. -/
theorem paused_grant_paid :
    ¬Proper (Runs.after TreasuryStep.next ⟨.new treasury, ledger⟩
      [.executeGrant services milestoneGrant 0, .pauseGrant (Bytes32.replicate 4),
        .completeMilestone services (Bytes32.replicate 4) 1 attestation 1]).executor.payments := by
  intro proper
  have standing := proper.standing
  revert standing
  decide +kernel

end Overpayment

end AdicProof.Governance
