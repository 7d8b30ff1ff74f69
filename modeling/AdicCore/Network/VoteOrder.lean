import AdicCore.Types.Message

open HashMap

namespace AdicModel.Network

/-- The threshold is an exact number. -/
structure ConsensusConfig where
  voteThreshold : ℚ

structure ParentProposal where
  proposer : PublicKey
  messageId : MessageId
  proposedParents : List MessageId
  features : List UInt8
  timestamp : UInt64

structure ProposalState where
  proposal : ParentProposal
  votes : Table PublicKey Bool
  decided : Bool

inductive ConsensusEvent where
  | proposalReceived (messageId : MessageId) (proposal : ParentProposal)
  | voteReceived (proposalId : MessageId) (voter : PublicKey) (approved : Bool)
  | proposalDecided (proposalId : MessageId) (approved : Bool)

/-- A oneshot channel is the place in the list of what has been sent. -/
structure ConsensusProtocol where
  config : ConsensusConfig
  proposals : Table MessageId ProposalState
  pendingDecisions : Table MessageId Nat
  events : List ConsensusEvent
  channels : List (Option Bool)

namespace ConsensusProtocol

def new (config : ConsensusConfig) : ConsensusProtocol := ⟨config, ∅, ∅, [], []⟩

/-- The protocol and the receiver of the decision. -/
def proposeParents (timestamp : UInt64) (proposer : PublicKey) (messageId : MessageId) (parents : List MessageId)
    (features : List UInt8) (protocol : ConsensusProtocol) : Nat × ConsensusProtocol :=
  let proposal : ParentProposal := ⟨proposer, messageId, parents, features, timestamp⟩
  let receiver := protocol.channels.length
  (receiver,
    { protocol with
      channels := protocol.channels ++ [none]
      proposals := protocol.proposals.insert messageId ⟨proposal, ∅, false⟩
      pendingDecisions := protocol.pendingDecisions.insert messageId receiver
      events := protocol.events ++ [.proposalReceived messageId proposal] })

/-- A sender is used once. -/
def sendDecision (proposalId : MessageId) (approved : Bool) (protocol : ConsensusProtocol) : ConsensusProtocol :=
  match protocol.pendingDecisions.lookup proposalId with
  | none => protocol
  | some sender =>
    { protocol with
      pendingDecisions := protocol.pendingDecisions.erase proposalId
      channels := protocol.channels.set sender (some approved) }

def markDecided (proposalId : MessageId) (approved : Bool) (state : ProposalState) (protocol : ConsensusProtocol) :
    ProposalState × ConsensusProtocol :=
  let protocol := protocol.sendDecision proposalId approved
  ({ state with decided := true },
    { protocol with events := protocol.events ++ [.proposalDecided proposalId approved] })

def approvedVotes (state : ProposalState) : Nat := (pairs state.votes).countP fun vote => vote.2

def checkProposalDecision (proposalId : MessageId) (state : ProposalState) (protocol : ConsensusProtocol) :
    ProposalState × ConsensusProtocol :=
  let totalVotes := (pairs state.votes).length
  if totalVotes = 0 then (state, protocol)
  else
    let approvalRatio : ℚ := approvedVotes state / totalVotes
    if approvalRatio ≥ protocol.config.voteThreshold then protocol.markDecided proposalId true state
    else if approvalRatio < 1 - protocol.config.voteThreshold then protocol.markDecided proposalId false state
    else (state, protocol)

def voteOnProposal (voter : PublicKey) (proposalId : MessageId) (approved : Bool) (_reason : Option String)
    (protocol : ConsensusProtocol) : ConsensusProtocol :=
  match protocol.proposals.lookup proposalId with
  | none => protocol
  | some state =>
    if state.decided then protocol
    else
      let state := { state with votes := state.votes.insert voter approved }
      let protocol := { protocol with
        events := protocol.events ++ [ConsensusEvent.voteReceived proposalId voter approved] }
      let checked := protocol.checkProposalDecision proposalId state
      { checked.2 with proposals := checked.2.proposals.insert proposalId checked.1 }

def received (protocol : ConsensusProtocol) (receiver : Nat) : Option Bool := (protocol.channels[receiver]?).getD none

end ConsensusProtocol

structure Vote where
  voter : PublicKey
  approved : Bool
  reason : Option String
deriving DecidableEq

def ConsensusProtocol.voteAll (proposalId : MessageId) (votes : List Vote) (protocol : ConsensusProtocol) :
    ConsensusProtocol :=
  votes.foldl (fun protocol vote => protocol.voteOnProposal vote.voter proposalId vote.approved vote.reason) protocol

end AdicModel.Network

open HashMap AdicModel AdicModel.Network AdicModel.Network.ConsensusProtocol

namespace AdicProof.Network

def approvalRatio (state : ProposalState) : ℚ := approvedVotes state / (pairs state.votes).length

structure Open (protocol : ConsensusProtocol) (id : MessageId) (receiver : Nat) (state : ProposalState) : Prop where
  stored : protocol.proposals.lookup id = some state
  undecided : state.decided = false
  pending : protocol.pendingDecisions.lookup id = some receiver
  waiting : protocol.channels[receiver]? = some none

structure Decided (protocol : ConsensusProtocol) (id : MessageId) (receiver : Nat) (outcome : Bool) : Prop where
  stored : ∃ state, protocol.proposals.lookup id = some state ∧ state.decided = true
  received : protocol.received receiver = some outcome

section

variable {protocol : ConsensusProtocol} {id : MessageId} {receiver : Nat} {state : ProposalState} {voter : PublicKey}
  {approved outcome : Bool} {reason : Option String}

theorem Open.received (isOpen : Open protocol id receiver state) : protocol.received receiver = none := by
  unfold ConsensusProtocol.received
  rw [isOpen.waiting]
  rfl

theorem open_proposed (timestamp : UInt64) (proposer : PublicKey) (parents : List MessageId) (features : List UInt8) :
    Open (protocol.proposeParents timestamp proposer id parents features).2 id
      (protocol.proposeParents timestamp proposer id parents features).1
      ⟨⟨proposer, id, parents, features, timestamp⟩, ∅, false⟩ where
  stored := AList.lookup_insert _
  undecided := rfl
  pending := AList.lookup_insert _
  waiting := List.getElem?_concat_length

theorem decided_vote (decided : Decided protocol id receiver outcome) :
    protocol.voteOnProposal voter id approved reason = protocol := by
  obtain ⟨state, stored, closed⟩ := decided.stored
  unfold voteOnProposal
  rw [stored]
  exact if_pos closed

theorem decided_voteAll (decided : Decided protocol id receiver outcome) (votes : List Vote) :
    protocol.voteAll id votes = protocol := by
  induction votes with
  | nil => rfl
  | cons vote votes ih =>
    show (protocol.voteOnProposal vote.voter id vote.approved vote.reason).voteAll id votes = protocol
    rw [decided_vote decided]
    exact ih

theorem decided_markDecided {checked : ProposalState} (pending : protocol.pendingDecisions.lookup id = some receiver)
    (waiting : protocol.channels[receiver]? = some none) :
    Decided { (protocol.markDecided id outcome checked).2 with
      proposals := (protocol.markDecided id outcome checked).2.proposals.insert id
        (protocol.markDecided id outcome checked).1 } id receiver outcome where
  stored := ⟨_, AList.lookup_insert _, rfl⟩
  received := by
    obtain ⟨inside, _⟩ := List.getElem?_eq_some_iff.mp waiting
    have sent : protocol.sendDecision id outcome =
        { protocol with
          pendingDecisions := protocol.pendingDecisions.erase id
          channels := protocol.channels.set receiver (some outcome) } := by
      unfold sendDecision
      rw [pending]
    show (((protocol.sendDecision id outcome).channels)[receiver]?).getD none = some outcome
    rw [sent]
    show ((protocol.channels.set receiver (some outcome))[receiver]?).getD none = some outcome
    rw [List.getElem?_set_self inside]
    rfl

theorem open_vote (isOpen : Open protocol id receiver state) {voted : ProposalState}
    (insert : voted = { state with votes := state.votes.insert voter approved }) :
    let next := protocol.voteOnProposal voter id approved reason
    next.config = protocol.config ∧
      (protocol.config.voteThreshold ≤ approvalRatio voted → Decided next id receiver true) ∧
      (approvalRatio voted < protocol.config.voteThreshold → approvalRatio voted < 1 - protocol.config.voteThreshold →
        Decided next id receiver false) ∧
      (approvalRatio voted < protocol.config.voteThreshold → 1 - protocol.config.voteThreshold ≤ approvalRatio voted →
        Open next id receiver voted) := by
  have nonempty : (pairs voted.votes).length ≠ 0 := by
    rw [insert]
    unfold pairs
    rw [AList.entries_insert]
    simp
  intro next
  let counted : ConsensusProtocol :=
    { protocol with events := protocol.events ++ [ConsensusEvent.voteReceived id voter approved] }
  have stepped : next = { (counted.checkProposalDecision id voted).2 with
      proposals := (counted.checkProposalDecision id voted).2.proposals.insert id
        (counted.checkProposalDecision id voted).1 } := by
    show protocol.voteOnProposal voter id approved reason = _
    unfold voteOnProposal
    rw [isOpen.stored, insert]
    exact if_neg (by rw [isOpen.undecided]; exact Bool.false_ne_true)
  have checked : counted.checkProposalDecision id voted =
      if approvalRatio voted ≥ protocol.config.voteThreshold then counted.markDecided id true voted
      else if approvalRatio voted < 1 - protocol.config.voteThreshold then counted.markDecided id false voted
      else (voted, counted) := if_neg nonempty
  refine ⟨?_, fun reached => ?_, fun below low => ?_, fun below high => ?_⟩
  · have marked (decision : Bool) : (counted.markDecided id decision voted).2.config = protocol.config := by
      show (counted.sendDecision id decision).config = protocol.config
      unfold sendDecision
      split
      · rfl
      · rfl
    rw [stepped]
    show (counted.checkProposalDecision id voted).2.config = protocol.config
    rw [checked]
    split
    · exact marked true
    · split
      · exact marked false
      · rfl
  · rw [stepped, checked, if_pos reached]
    exact decided_markDecided isOpen.pending isOpen.waiting
  · rw [stepped, checked, if_neg (not_le.mpr below), if_pos low]
    exact decided_markDecided isOpen.pending isOpen.waiting
  · rw [stepped, checked, if_neg (not_le.mpr below), if_neg (not_lt.mpr high)]
    exact ⟨AList.lookup_insert _, by rw [insert]; exact isOpen.undecided, isOpen.pending, isOpen.waiting⟩

theorem approvalRatio_nonneg : 0 ≤ approvalRatio state := by
  unfold approvalRatio
  positivity

theorem approvalRatio_first (fresh : state.votes = ∅) :
    approvalRatio { state with votes := state.votes.insert voter approved } = if approved then 1 else 0 := by
  have single : pairs ((∅ : Table PublicKey Bool).insert voter approved) = [(voter, approved)] := by
    unfold pairs
    rw [AList.entries_insert]
    rfl
  unfold approvalRatio approvedVotes
  rw [fresh, single]
  cases approved with
  | true => simp
  | false => simp

theorem approvalRatio_lt_one (refused : state.votes.lookup voter = some false) : approvalRatio state < 1 := by
  have listed : (voter, false) ∈ pairs state.votes := mem_pairs.mpr refused
  have fewer : (pairs state.votes).countP (fun vote => vote.2) < (pairs state.votes).length := by
    refine lt_of_le_of_ne List.countP_le_length fun same => ?_
    have all := List.countP_eq_length.mp same (voter, false) listed
    cases all
  have positive : 0 < (pairs state.votes).length := Nat.zero_lt_of_lt fewer
  unfold approvalRatio approvedVotes
  rw [div_lt_one (by exact_mod_cast positive)]
  exact_mod_cast fewer

theorem open_voteAll (isOpen : Open protocol id receiver state) (one : protocol.config.voteThreshold = 1)
    (refused : state.votes.lookup voter = some false) (votes : List Vote)
    (others : ∀ vote ∈ votes, vote.voter ≠ voter) :
    (protocol.voteAll id votes).received receiver = none := by
  induction votes generalizing protocol state with
  | nil => exact isOpen.received
  | cons vote votes ih =>
    have kept : (state.votes.insert vote.voter vote.approved).lookup voter = some false := by
      rw [lookup_insert_eq, if_neg (others vote List.mem_cons_self).symm]
      exact refused
    obtain ⟨config, _, _, stays⟩ :=
      @open_vote protocol id receiver state vote.voter vote.approved vote.reason isOpen _ rfl
    rw [one] at stays
    have high : 1 - 1 ≤ approvalRatio { state with votes := state.votes.insert vote.voter vote.approved } := by
      rw [sub_self]
      exact approvalRatio_nonneg
    exact ih (stays (approvalRatio_lt_one kept) high) ((congrArg ConsensusConfig.voteThreshold config).trans one) kept
      fun other listed => others other (List.mem_cons_of_mem _ listed)

def firstDecision (threshold : ℚ) : List Vote → Option Bool
  | [] => none
  | vote :: _ => if vote.approved then some true else if threshold < 1 then some false else none

theorem firstDecision_cons (threshold : ℚ) (vote : Vote) (votes : List Vote) :
    firstDecision threshold (vote :: votes) =
      if vote.approved then some true else if threshold < 1 then some false else none := rfl

theorem received_voteAll (isOpen : Open protocol id receiver state) (fresh : state.votes = ∅)
    (positive : 0 < protocol.config.voteThreshold) (atMost : protocol.config.voteThreshold ≤ 1) (votes : List Vote)
    (distinct : (votes.map Vote.voter).Nodup) :
    (protocol.voteAll id votes).received receiver = firstDecision protocol.config.voteThreshold votes := by
  cases votes with
  | nil => exact isOpen.received
  | cons vote votes =>
    obtain ⟨config, reached, rejected, stays⟩ :=
      @open_vote protocol id receiver state vote.voter vote.approved vote.reason isOpen _ rfl
    rw [approvalRatio_first fresh] at reached rejected stays
    show ((protocol.voteOnProposal vote.voter id vote.approved vote.reason).voteAll id votes).received receiver = _
    rw [firstDecision_cons]
    cases approved : vote.approved with
    | true =>
      rw [approved] at reached
      have settled := reached atMost
      rw [decided_voteAll settled, if_pos rfl]
      exact settled.received
    | false =>
      rw [approved] at rejected stays config
      by_cases below : protocol.config.voteThreshold < 1
      · have settled := rejected positive (by simpa using below)
        rw [decided_voteAll settled, if_neg Bool.false_ne_true, if_pos below]
        exact settled.received
      · have one : protocol.config.voteThreshold = 1 := le_antisymm atMost (not_lt.mp below)
        rw [if_neg Bool.false_ne_true, if_neg below]
        have threshold := (congrArg ConsensusConfig.voteThreshold config).trans one
        refine open_voteAll (stays positive (by simp [one])) threshold (AList.lookup_insert _) votes ?_
        intro other listed same
        rw [List.map_cons, List.nodup_cons] at distinct
        exact distinct.1 (List.mem_map.mpr ⟨other, listed, same⟩)

end

def approvingShare (votes : List Vote) : ℚ := (votes.countP fun vote => vote.approved) / votes.length

theorem approvingShare_all {votes : List Vote} (all : ∀ vote ∈ votes, vote.approved = true) (nonempty : votes ≠ []) :
    approvingShare votes = 1 := by
  unfold approvingShare
  rw [List.countP_eq_length.mpr all]
  exact div_self (by simpa using nonempty)

/-- All orders of the votes leave one decision, and an approval has the threshold of these votes. -/
structure OrderFree (proposed : ConsensusProtocol) (receiver : Nat) (id : MessageId) (votes : List Vote) : Prop where
  same : ∀ order other : List Vote, order.Perm votes → other.Perm votes →
    (proposed.voteAll id order).received receiver = (proposed.voteAll id other).received receiver
  approved : ∀ order : List Vote, order.Perm votes → (proposed.voteAll id order).received receiver = some true →
    proposed.config.voteThreshold ≤ approvingShare order

theorem vote_order_free_iff (protocol : ConsensusProtocol) (above : 1 / 2 < protocol.config.voteThreshold)
    (atMost : protocol.config.voteThreshold ≤ 1) (timestamp : UInt64) (proposer : PublicKey) (id : MessageId)
    (parents : List MessageId) (features : List UInt8) (votes : List Vote) (distinct : (votes.map Vote.voter).Nodup) :
    OrderFree (protocol.proposeParents timestamp proposer id parents features).2
      (protocol.proposeParents timestamp proposer id parents features).1 id votes ↔
      (∀ vote ∈ votes, vote.approved = true) ∨ ∀ vote ∈ votes, vote.approved = false := by
  have result (order : List Vote) (perm : order.Perm votes) :
      ((protocol.proposeParents timestamp proposer id parents features).2.voteAll id order).received
        (protocol.proposeParents timestamp proposer id parents features).1 =
          firstDecision protocol.config.voteThreshold order := by
    refine received_voteAll (open_proposed timestamp proposer parents features) rfl ?_ atMost order
      ((perm.map Vote.voter).nodup_iff.mpr distinct)
    exact lt_trans (by norm_num) above
  constructor
  · rintro ⟨same, _⟩
    by_contra mixed
    rw [not_or] at mixed
    push Not at mixed
    obtain ⟨⟨no, noListed, refuses⟩, yes, yesListed, approves⟩ := mixed
    have refuses : no.approved = false := by simpa using refuses
    have approves : yes.approved = true := by simpa using approves
    have first := List.perm_cons_erase yesListed
    have second := List.perm_cons_erase noListed
    have equal := same _ _ first.symm second.symm
    rw [result _ first.symm, result _ second.symm] at equal
    rw [firstDecision_cons, firstDecision_cons, approves, refuses, if_pos rfl, if_neg Bool.false_ne_true] at equal
    split at equal
    · cases equal
    · cases equal
  · intro uniform
    have alike (order other : List Vote) (perm : order.Perm votes) (perm' : other.Perm votes) :
        firstDecision protocol.config.voteThreshold order = firstDecision protocol.config.voteThreshold other := by
      cases order with
      | nil => rw [(perm'.trans perm.symm).eq_nil]
      | cons vote order =>
        cases other with
        | nil => cases (perm.trans perm'.symm).eq_nil
        | cons vote' other =>
          have listed := perm.mem_iff.mp List.mem_cons_self
          have listed' := perm'.mem_iff.mp List.mem_cons_self
          have same : vote.approved = vote'.approved := by
            rcases uniform with all | none
            · rw [all vote listed, all vote' listed']
            · rw [none vote listed, none vote' listed']
          rw [firstDecision_cons, firstDecision_cons, same]
    refine ⟨fun order other perm perm' => ?_, fun order perm approval => ?_⟩
    · rw [result order perm, result other perm']
      exact alike order other perm perm'
    · rw [result order perm] at approval
      cases order with
      | nil => cases approval
      | cons vote order =>
        have listed := perm.mem_iff.mp List.mem_cons_self
        rcases uniform with all | none
        · rw [approvingShare_all (fun other member => all other (perm.mem_iff.mp member)) (List.cons_ne_nil _ _)]
          exact atMost
        · rw [firstDecision_cons, none vote listed, if_neg Bool.false_ne_true] at approval
          split at approval
          · cases approval
          · cases approval

def voter (byte : UInt8) : PublicKey := ⟨Bytes32.replicate byte⟩

def sampleId : MessageId := ⟨Bytes32.replicate 9⟩

def sampleProtocol : ConsensusProtocol := .new ⟨67 / 100⟩

/-- Two approvals. -/
theorem vote_order_free_alike : OrderFree (sampleProtocol.proposeParents 0 (voter 0) sampleId [] []).2
    (sampleProtocol.proposeParents 0 (voter 0) sampleId [] []).1 sampleId
      [⟨voter 1, true, none⟩, ⟨voter 2, true, none⟩] := by
  refine (vote_order_free_iff sampleProtocol ?_ ?_ 0 (voter 0) sampleId [] [] _ (by decide)).mpr (.inl (by simp))
  · show (1 : ℚ) / 2 < 67 / 100
    norm_num
  · show (67 : ℚ) / 100 ≤ 1
    norm_num

/-- One approval and two refusals. The first vote decides. -/
theorem first_vote_decides :
    let proposed := sampleProtocol.proposeParents 0 (voter 0) sampleId [] []
    let yes : Vote := ⟨voter 1, true, none⟩
    let no : Vote := ⟨voter 2, false, none⟩
    let other : Vote := ⟨voter 3, false, none⟩
    (proposed.2.voteAll sampleId [yes, no, other]).received proposed.1 = some true ∧
      (proposed.2.voteAll sampleId [no, yes, other]).received proposed.1 = some false ∧
        approvingShare [yes, no, other] < 67 / 100 := by
  refine ⟨by decide +kernel, by decide +kernel, ?_⟩
  show ((1 : ℕ) : ℚ) / ((3 : ℕ) : ℚ) < 67 / 100
  norm_num

end AdicProof.Network
