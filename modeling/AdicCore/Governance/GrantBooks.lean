import AdicCore.Governance.Treasury
import AdicCore.Economics.Amounts

open AdicModel AdicModel.Economics AdicModel.Governance AdicProof.Economics

namespace AdicProof.Governance

def paidTo (payments : List Payment) (grantId : Hash) : Nat :=
  ((payments.filter fun payment => payment.grant.proposalId = grantId).map fun payment => units payment.amount).sum

def instalmentOf (payment : Payment) : Hash × Instalment := (payment.grant.proposalId, payment.instalment)

def mayPay : Option GrantStatus → Bool
  | some .paused | some .completed | some .clawedBack => false
  | _ => true

/-- No grant gets more than its total, or twice for one epoch or milestone, or anything while it is not active. -/
structure Proper (payments : List Payment) : Prop where
  total : ∀ payment ∈ payments, paidTo payments payment.grant.proposalId ≤ units payment.grant.totalAmount
  once : (payments.map instalmentOf).Nodup
  standing : ∀ payment ∈ payments, mayPay payment.status = true

def Passed (milestones : List Milestone) (next : Option UInt32) (milestoneId : UInt32) : Prop :=
  ∀ following, next = some following → ∃ front back,
    milestones.map Milestone.id = front ++ following :: back ∧ milestoneId ∈ front

def PassedAll (payments : List Payment) (state : GrantState) : Prop :=
  ∀ milestones, state.grant.schedule = .milestone milestones →
    ∀ payment ∈ payments, payment.grant = state.grant → ∀ milestoneId, payment.instalment = .milestone milestoneId →
      Passed milestones state.nextMilestoneId milestoneId

structure AgreesWith (payments : List Payment) (grantId : Hash) (state : GrantState) : Prop where
  id : state.grant.proposalId = grantId
  disbursed : units state.disbursedAmount = paidTo payments grantId
  within : units state.disbursedAmount ≤ units state.grant.totalAmount
  grant : ∀ payment ∈ payments, payment.grant.proposalId = grantId → payment.grant = state.grant
  distinct : ∀ milestones, state.grant.schedule = .milestone milestones → (milestones.map Milestone.id).Nodup
  passed : PassedAll payments state

structure BooksAgree (executor : TreasuryExecutor) : Prop where
  proper : Proper executor.payments
  stored : ∀ grantId state, executor.activeGrants.lookup grantId = some state →
    AgreesWith executor.payments grantId state

section

variable {payments : List Payment} {payment : Payment} {grantId other : Hash} {executor : TreasuryExecutor}
  {state changed : GrantState} {grant : TreasuryGrant} {instalment : Instalment} {amount : AdicAmount}

theorem checkedAdd_of_within {a b c : AdicAmount} (within : units a + units b ≤ units c) :
    ∃ sum, a.checkedAdd b = some sum := by
  have bound := units_lt c
  rw [← Option.isSome_iff_exists, ← Option.ne_none_iff_isSome, ne_eq, checkedAdd_eq_none]
  omega

theorem paidTo_append (payments : List Payment) (payment : Payment) (grantId : Hash) :
    paidTo (payments ++ [payment]) grantId =
      paidTo payments grantId + if payment.grant.proposalId = grantId then units payment.amount else 0 := by
  unfold paidTo
  rw [List.filter_append, List.map_append, List.sum_append]
  by_cases same : payment.grant.proposalId = grantId
  · simp [same]
  · simp [same]

theorem paidTo_unpaid (unpaid : ∀ payment ∈ payments, payment.grant.proposalId ≠ grantId) :
    paidTo payments grantId = 0 := by
  unfold paidTo
  have nothing : payments.filter (fun payment => payment.grant.proposalId = grantId) = [] := by
    rw [List.filter_eq_nil_iff]
    intro payment member
    simpa using unpaid payment member
  rw [nothing]
  rfl

def notedPayment (executor : TreasuryExecutor) (grant : TreasuryGrant) (instalment : Instalment)
    (amount : AdicAmount) : Payment :=
  ⟨grant, instalment, amount, (executor.activeGrants.lookup grant.proposalId).map GrantState.status⟩

theorem note_zero (zero : amount = AdicAmount.zero) : executor.note grant instalment amount = executor := by
  unfold TreasuryExecutor.note
  exact if_pos zero

theorem note_payments (positive : amount ≠ AdicAmount.zero) :
    (executor.note grant instalment amount).payments =
      executor.payments ++ [notedPayment executor grant instalment amount] := by
  unfold TreasuryExecutor.note
  rw [if_neg positive]
  rfl

theorem note_activeGrants :
    (executor.note grant instalment amount).activeGrants = executor.activeGrants := by
  unfold TreasuryExecutor.note
  split <;> rfl

theorem paidTo_note (grantId : Hash) :
    paidTo (executor.note grant instalment amount).payments grantId =
      paidTo executor.payments grantId + if grant.proposalId = grantId then units amount else 0 := by
  by_cases zero : amount = AdicAmount.zero
  · rw [note_zero zero, zero]
    simp
  · rw [note_payments zero, paidTo_append]
    rfl

theorem mem_note (member : payment ∈ (executor.note grant instalment amount).payments) :
    payment ∈ executor.payments ∨
      amount ≠ AdicAmount.zero ∧ payment = notedPayment executor grant instalment amount := by
  by_cases zero : amount = AdicAmount.zero
  · rw [note_zero zero] at member
    exact .inl member
  · rw [note_payments zero] at member
    rcases List.mem_append.mp member with earlier | last
    · exact .inl earlier
    · exact .inr ⟨zero, List.mem_singleton.mp last⟩

structure Payable (executor : TreasuryExecutor) (grant : TreasuryGrant) (instalment : Instalment)
    (amount : AdicAmount) : Prop where
  total : ∀ payment ∈ executor.payments, payment.grant.proposalId = grant.proposalId →
    paidTo executor.payments grant.proposalId + units amount ≤ units payment.grant.totalAmount
  own : paidTo executor.payments grant.proposalId + units amount ≤ units grant.totalAmount
  fresh : ∀ payment ∈ executor.payments, payment.grant.proposalId = grant.proposalId →
    payment.instalment ≠ instalment
  standing : mayPay ((executor.activeGrants.lookup grant.proposalId).map GrantState.status) = true

theorem proper_note (proper : Proper executor.payments)
    (payable : amount ≠ AdicAmount.zero → Payable executor grant instalment amount) :
    Proper (executor.note grant instalment amount).payments := by
  by_cases zero : amount = AdicAmount.zero
  · rw [note_zero zero]
    exact proper
  · have payable := payable zero
    rw [note_payments zero]
    constructor
    · intro payment member
      rw [paidTo_append]
      rcases List.mem_append.mp member with earlier | last
      · by_cases same : grant.proposalId = payment.grant.proposalId
        · rw [← same]
          rw [show (notedPayment executor grant instalment amount).grant.proposalId = grant.proposalId from rfl,
            if_pos rfl]
          exact payable.total payment earlier same.symm
        · rw [show (notedPayment executor grant instalment amount).grant.proposalId = grant.proposalId from rfl,
            if_neg same, Nat.add_zero]
          exact proper.total payment earlier
      · rw [List.mem_singleton.mp last, if_pos rfl]
        exact payable.own
    · rw [List.map_append, List.nodup_append]
      refine ⟨proper.once, List.nodup_singleton _, ?_⟩
      intro key member other last same
      obtain ⟨payment, earlier, keyOf⟩ := List.mem_map.mp member
      rw [List.map_singleton, List.mem_singleton] at last
      rw [← keyOf, last] at same
      have ids : payment.grant.proposalId = grant.proposalId := congrArg Prod.fst same
      exact payable.fresh payment earlier ids (congrArg Prod.snd same)
    · intro payment member
      rcases List.mem_append.mp member with earlier | last
      · exact proper.standing payment earlier
      · rw [List.mem_singleton.mp last]
        exact payable.standing

theorem AgreesWith.note (agrees : AgreesWith executor.payments other state) (different : grant.proposalId ≠ other) :
    AgreesWith (executor.note grant instalment amount).payments other state := by
  have earlier : ∀ payment ∈ (executor.note grant instalment amount).payments, payment.grant.proposalId = other →
      payment ∈ executor.payments := by
    intro payment member ids
    rcases mem_note member with member | ⟨-, rfl⟩
    · exact member
    · exact absurd ids different
  constructor
  · exact agrees.id
  · rw [paidTo_note, if_neg different, agrees.disbursed, Nat.add_zero]
  · exact agrees.within
  · intro payment member ids
    exact agrees.grant payment (earlier payment member ids) ids
  · exact agrees.distinct
  · intro milestones schedule payment member same
    exact agrees.passed milestones schedule payment (earlier payment member (by rw [same, agrees.id])) same

theorem lookup_setState (executor : TreasuryExecutor) (grantId other : Hash) (state : GrantState) :
    (executor.setState grantId state).activeGrants.lookup other =
      if other = grantId then some state else executor.activeGrants.lookup other :=
  HashMap.lookup_insert_eq _ _ _ _

theorem BooksAgree.paid (books : BooksAgree executor) (ids : grant.proposalId = grantId)
    (payable : amount ≠ AdicAmount.zero → Payable executor grant instalment amount)
    (agrees : AgreesWith (executor.note grant instalment amount).payments grantId changed) :
    BooksAgree ((executor.note grant instalment amount).setState grantId changed) := by
  constructor
  · exact proper_note books.proper payable
  · intro other state stored
    rw [lookup_setState] at stored
    split at stored
    · next same =>
      cases stored
      rw [same]
      exact agrees
    · next different =>
      rw [note_activeGrants] at stored
      exact (books.stored other state stored).note fun same => different (by rw [← same, ids])

theorem BooksAgree.setState (books : BooksAgree executor) (agrees : AgreesWith executor.payments grantId changed) :
    BooksAgree (executor.setState grantId changed) := by
  constructor
  · exact books.proper
  · intro other state stored
    rw [lookup_setState] at stored
    split at stored
    · next same =>
      cases stored
      rw [same]
      exact agrees
    · exact books.stored other state stored

theorem AgreesWith.withStatus (agrees : AgreesWith payments grantId state) (status : GrantStatus) :
    AgreesWith payments grantId { state with status } where
  id := agrees.id
  disbursed := agrees.disbursed
  within := agrees.within
  grant := agrees.grant
  distinct := agrees.distinct
  passed := agrees.passed

theorem payable_stored (books : BooksAgree executor) (stored : executor.activeGrants.lookup grantId = some state)
    (within : units state.disbursedAmount + units amount ≤ units state.grant.totalAmount)
    (fresh : ∀ payment ∈ executor.payments, payment.grant.proposalId = grantId → payment.instalment ≠ instalment)
    (standing : mayPay (some state.status) = true) : Payable executor state.grant instalment amount := by
  have agrees := books.stored grantId state stored
  rw [agrees.disbursed] at within
  constructor
  · intro payment member ids
    rw [agrees.id] at ids
    rw [agrees.grant payment member ids, agrees.id]
    exact within
  · rw [agrees.id]
    exact within
  · rw [agrees.id]
    exact fresh
  · rw [agrees.id, stored]
    exact standing

theorem agreesWith_paid (books : BooksAgree executor) (stored : executor.activeGrants.lookup grantId = some state)
    (grants : changed.grant = state.grant)
    (disbursed : units changed.disbursedAmount = units state.disbursedAmount + units amount)
    (within : units changed.disbursedAmount ≤ units state.grant.totalAmount)
    (passed : PassedAll (executor.note state.grant instalment amount).payments changed) :
    AgreesWith (executor.note state.grant instalment amount).payments grantId changed := by
  have agrees := books.stored grantId state stored
  constructor
  · rw [grants]
    exact agrees.id
  · rw [disbursed, paidTo_note, if_pos agrees.id, agrees.disbursed]
  · rw [grants]
    exact within
  · intro payment member ids
    rw [grants]
    rcases mem_note member with earlier | ⟨-, rfl⟩
    · exact agrees.grant payment earlier ids
    · rfl
  · rw [grants]
    exact agrees.distinct
  · exact passed

theorem agreesWith_new (unpaid : ∀ payment ∈ payments, payment.grant.proposalId ≠ grant.proposalId)
    (distinct : ∀ milestones, grant.schedule = .milestone milestones → (milestones.map Milestone.id).Nodup)
    (nextMilestoneId : Option UInt32) (status : GrantStatus) (startEpoch : UInt64) :
    AgreesWith payments grant.proposalId
      ⟨grant, AdicAmount.zero, nextMilestoneId, status, startEpoch, none⟩ where
  id := rfl
  disbursed := by rw [paidTo_unpaid unpaid]; rfl
  within := Nat.zero_le _
  grant payment member ids := absurd ids (unpaid payment member)
  distinct := distinct
  passed _ _ payment member same := absurd (by rw [same]) (unpaid payment member)

end

section

variable {milestones : List Milestone} {front back : List UInt32} {milestoneId : UInt32}

theorem nextMilestone_eq (ids : milestones.map Milestone.id = front ++ milestoneId :: back)
    (absent : milestoneId ∉ front) : TreasuryExecutor.nextMilestone milestones milestoneId = back.head? := by
  unfold TreasuryExecutor.nextMilestone
  induction front generalizing milestones with
  | nil =>
    cases milestones with
    | nil => cases ids
    | cons first later =>
      rw [List.map_cons, List.nil_append, List.cons.injEq] at ids
      obtain ⟨same, rest⟩ := ids
      simp [List.findIdx_cons, same, ← rest, List.head?_eq_getElem?]
  | cons earlier front ih =>
    cases milestones with
    | nil => cases ids
    | cons first later =>
      rw [List.map_cons, List.cons_append, List.cons.injEq] at ids
      obtain ⟨same, rest⟩ := ids
      rw [List.mem_cons, not_or] at absent
      have different : first.id ≠ milestoneId := fun equal => absent.1 (by rw [← equal, same])
      have later := ih rest absent.2
      simp only [List.findIdx_cons, different, decide_false, cond_false]
      exact later

theorem passed_next (ids : milestones.map Milestone.id = front ++ milestoneId :: back) (absent : milestoneId ∉ front)
    {earlier : UInt32} (member : earlier ∈ front ∨ earlier = milestoneId) :
    Passed milestones (TreasuryExecutor.nextMilestone milestones milestoneId) earlier := by
  intro following found
  rw [nextMilestone_eq ids absent] at found
  cases back with
  | nil => cases found
  | cons first back =>
    cases found
    refine ⟨front ++ [milestoneId], back, by simp [ids], ?_⟩
    rw [List.mem_append, List.mem_singleton]
    exact member

theorem split_of_found {milestone : Milestone} {ms : List Milestone} (nodup : (ms.map Milestone.id).Nodup)
    (found : ms.find? (fun milestone => milestone.id = milestoneId) = some milestone) :
    ∃ front back, ms.map Milestone.id = front ++ milestoneId :: back ∧ milestoneId ∉ front := by
  have member : milestoneId ∈ ms.map Milestone.id := by
    have id := List.find?_some found
    rw [decide_eq_true_eq] at id
    exact List.mem_map.mpr ⟨milestone, List.mem_of_find?_eq_some found, id⟩
  obtain ⟨front, back, ids⟩ := List.append_of_mem member
  refine ⟨front, back, ids, ?_⟩
  rw [ids, List.nodup_append] at nodup
  intro twice
  exact nodup.2.2 milestoneId twice milestoneId List.mem_cons_self rfl

theorem not_passed_self (nodup : (milestones.map Milestone.id).Nodup) :
    ¬Passed milestones (some milestoneId) milestoneId := by
  intro passed
  obtain ⟨front, back, ids, twice⟩ := passed milestoneId rfl
  rw [ids, List.nodup_append] at nodup
  exact nodup.2.2 milestoneId twice milestoneId List.mem_cons_self rfl

theorem passed_of_passed (nodup : (milestones.map Milestone.id).Nodup) {earlier : UInt32}
    (passed : Passed milestones (some milestoneId) earlier) :
    Passed milestones (TreasuryExecutor.nextMilestone milestones milestoneId) earlier := by
  obtain ⟨front, back, ids, member⟩ := passed milestoneId rfl
  have absent : milestoneId ∉ front := by
    rw [ids, List.nodup_append] at nodup
    intro twice
    exact nodup.2.2 milestoneId twice milestoneId List.mem_cons_self rfl
  exact passed_next ids absent (.inl member)

end

end AdicProof.Governance
