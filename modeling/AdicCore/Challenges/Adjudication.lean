import AdicCore.Challenges.Lifecycle
import AdicCore.Library.Doubles
import AdicCore.Pouw.ReceiptValidator

namespace AdicModel.Quorum

structure QuorumMember where
  publicKey : PublicKey
  reputation : ℚ
  vrfScore : Bytes32
  axisId : Nat
  asn : Option UInt32
  region : Option String
deriving DecidableEq

structure QuorumResult where
  members : List QuorumMember
  totalSize : Nat
  axesCoverage : List Nat
deriving DecidableEq

class QuorumVote (V : Type) where
  voter : V → PublicKey
  isFor : V → Bool
  isAgainst : V → Bool
  isAbstain : V → Bool

structure VotingResult where
  votesFor : Nat
  votesAgainst : Nat
  votesAbstain : Nat
  totalVotes : Nat
  quorumSize : Nat
  threshold : Double
  passed : Bool

/-- The variables of the loop over the votes. -/
structure Tally where
  votesFor : Nat
  votesAgainst : Nat
  votesAbstain : Nat
  voted : Finset PublicKey

section

variable {V : Type} [QuorumVote V] (divide : Nat → Nat → ℚ)

def tallyVote (quorumMembers : Finset PublicKey) (tally : Tally) (vote : V) : Tally :=
  if QuorumVote.voter vote ∉ quorumMembers then tally
  else if QuorumVote.voter vote ∈ tally.voted then tally
  else
    let tally := { tally with voted := insert (QuorumVote.voter vote) tally.voted }
    if QuorumVote.isFor vote then { tally with votesFor := tally.votesFor + 1 }
    else if QuorumVote.isAgainst vote then { tally with votesAgainst := tally.votesAgainst + 1 }
    else if QuorumVote.isAbstain vote then { tally with votesAbstain := tally.votesAbstain + 1 }
    else tally

/-- `divide` is the quotient of two counts as doubles. -/
def reaches (votes total : Nat) (threshold : Double) : Bool :=
  (Double.finite (divide votes total)).partialCmp threshold matches some .gt | some .eq

def verifyQuorumVote (quorum : QuorumResult) (votes : List V) (threshold : Double) : VotingResult :=
  let quorumMembers := (quorum.members.map QuorumMember.publicKey).toFinset
  let tally := votes.foldl (tallyVote quorumMembers) ⟨0, 0, 0, ∅⟩
  let totalVotes := tally.votesFor + tally.votesAgainst
  { votesFor := tally.votesFor
    votesAgainst := tally.votesAgainst
    votesAbstain := tally.votesAbstain
    totalVotes
    quorumSize := quorum.members.length
    threshold
    passed := totalVotes > 0 && reaches divide tally.votesFor totalVotes threshold }

end

end AdicModel.Quorum

namespace AdicModel.Adjudication

open Quorum
open Challenges (DisputeRuling ChallengeError)

structure FraudProof extends Challenges.FraudProof where
  submittedAtEpoch : UInt64

inductive VoteDecision where
  | valid
  | invalid
deriving DecidableEq

structure ArbitratorVote where
  voter : PublicKey
  vote : VoteDecision
  submittedAtEpoch : UInt64
deriving DecidableEq

instance : QuorumVote ArbitratorVote where
  voter := ArbitratorVote.voter
  isFor vote := vote.vote = .valid
  isAgainst vote := vote.vote = .invalid
  isAbstain _ := false

/-- The configuration of the selection is left out. -/
structure AdjudicationConfig where
  rulingThreshold : Double
  votingWindow : UInt64

structure AdjudicationResult where
  fraudProofId : MessageId
  ruling : DisputeRuling
  quorum : QuorumResult
  votesFor : List ArbitratorVote
  votesAgainst : List ArbitratorVote
  totalVotes : Nat
  thresholdMet : Bool
  adjudicatedAtEpoch : UInt64

/-- The sum of the epochs wraps around in release builds. -/
def adjudicate (divide : Nat → Nat → ℚ) (config : AdjudicationConfig) (proof : FraudProof) (quorum : QuorumResult)
    (votes : List ArbitratorVote) (currentEpoch : UInt64) : Except ChallengeError AdjudicationResult :=
  if currentEpoch > proof.submittedAtEpoch + config.votingWindow then
    .error (.windowExpired (Economics.hexEncode proof.id.asBytes.bytes))
  else
    let voteResult := verifyQuorumVote divide quorum votes config.rulingThreshold
    .ok {
      fraudProofId := proof.id
      ruling :=
        if voteResult.passed then .challengerWins
        else if votes.length ≥ quorum.members.length / 2 then .subjectWins
        else .inconclusive
      quorum
      votesFor := votes.filter fun vote => vote.vote = .valid
      votesAgainst := votes.filter fun vote => vote.vote = .invalid
      totalVotes := votes.length
      thresholdMet := voteResult.passed
      adjudicatedAtEpoch := currentEpoch }

end AdicModel.Adjudication

open AdicModel AdicModel.Quorum AdicModel.Adjudication

namespace AdicProof.Adjudication

section

variable {V : Type} [QuorumVote V]

/-- The first vote of each of the members, apart from those who have voted. -/
def firstVotes (members voted : Finset PublicKey) : List V → List V
  | [] => []
  | vote :: rest =>
    if QuorumVote.voter vote ∈ members ∧ QuorumVote.voter vote ∉ voted then
      vote :: firstVotes members (insert (QuorumVote.voter vote) voted) rest
    else firstVotes members voted rest

def voters (members voted : Finset PublicKey) (votes : List V) : Finset PublicKey :=
  {member ∈ members | member ∉ voted ∧ ∃ vote ∈ votes, QuorumVote.voter vote = member}

variable {members voted : Finset PublicKey} {votes : List V}

theorem voted_tallyVote (tally : Tally) (vote : V) (counts : QuorumVote.voter vote ∈ members)
    (first : QuorumVote.voter vote ∉ tally.voted) :
    (tallyVote members tally vote).voted = insert (QuorumVote.voter vote) tally.voted := by
  unfold tallyVote
  rw [if_neg (not_not.mpr counts), if_neg first]
  dsimp only
  split_ifs <;> rfl

theorem foldl_tallyVote (tally : Tally) :
    votes.foldl (tallyVote members) tally = (firstVotes members tally.voted votes).foldl (tallyVote members) tally := by
  induction votes generalizing tally with
  | nil => rfl
  | cons vote rest ih =>
    unfold firstVotes
    split
    · next counted =>
      rw [List.foldl_cons, List.foldl_cons, ih, voted_tallyVote tally vote counted.1 counted.2]
    · next uncounted =>
      have same : tallyVote members tally vote = tally := by
        unfold tallyVote
        split
        · rfl
        · next counts => rw [if_pos (not_not.mp fun first => uncounted ⟨not_not.mp counts, first⟩)]
      rw [List.foldl_cons, same]
      exact ih tally

theorem card_voters : (voters members voted votes).card = (firstVotes members voted votes).length := by
  induction votes generalizing voted with
  | nil => simp [voters, firstVotes]
  | cons vote rest ih =>
    unfold firstVotes
    split
    · next counted =>
      have apart : QuorumVote.voter vote ∉ voters members (insert (QuorumVote.voter vote) voted) rest := by
        simp [voters]
      rw [List.length_cons, ← ih, ← Finset.card_insert_of_notMem apart]
      congr 1
      ext member
      simp only [voters, Finset.mem_filter, Finset.mem_insert, List.exists_mem_cons_iff]
      grind
    · next uncounted =>
      rw [← ih]
      congr 1
      ext member
      simp only [voters, Finset.mem_filter, List.exists_mem_cons_iff]
      grind

theorem firstVotes_first (members voted : Finset PublicKey) (votes : List V) :
    firstVotes members voted (firstVotes members voted votes) = firstVotes members voted votes := by
  induction votes generalizing voted with
  | nil => rfl
  | cons vote rest ih =>
    by_cases counted : QuorumVote.voter vote ∈ members ∧ QuorumVote.voter vote ∉ voted
    · rw [firstVotes, if_pos counted, firstVotes, if_pos counted, ih]
    · rw [firstVotes, if_neg counted]
      exact ih voted

theorem length_firstVotes_le : (firstVotes members voted votes).length ≤ votes.length := by
  induction votes generalizing voted with
  | nil => exact le_rfl
  | cons vote rest ih =>
    unfold firstVotes
    split
    · exact Nat.succ_le_succ ih
    · exact ih.trans (Nat.le_succ _)

end

def memberKeys (quorum : QuorumResult) : Finset PublicKey := (quorum.members.map QuorumMember.publicKey).toFinset

def counted (quorum : QuorumResult) (votes : List ArbitratorVote) : List ArbitratorVote :=
  firstVotes (memberKeys quorum) ∅ votes

def participants (quorum : QuorumResult) (votes : List ArbitratorVote) : Finset PublicKey :=
  voters (memberKeys quorum) ∅ votes

def HalfVoted (quorum : QuorumResult) (votes : List ArbitratorVote) : Prop :=
  0 < (participants quorum votes).card ∧ quorum.members.length ≤ 2 * (participants quorum votes).card

def Upheld (divide : Nat → Nat → ℚ) (threshold : Double) (votes : List ArbitratorVote) : Prop :=
  0 < votes.length ∧ reaches divide (votes.countP fun vote => vote.vote = .valid) votes.length threshold = true

section

variable (divide : Nat → Nat → ℚ) (config : AdjudicationConfig) (proof : FraudProof) (quorum : QuorumResult)
  (votes : List ArbitratorVote) (currentEpoch : UInt64)

structure CountsQuorumOnce : Prop where
  reduced : (adjudicate divide config proof quorum votes currentEpoch).map AdjudicationResult.ruling =
    (adjudicate divide config proof quorum (counted quorum votes) currentEpoch).map AdjudicationResult.ruling
  decisive : ∀ result, adjudicate divide config proof quorum votes currentEpoch = .ok result →
    result.ruling = .challengerWins ∨ result.ruling = .subjectWins → HalfVoted quorum votes

end

section

variable {divide : Nat → Nat → ℚ} {quorum : QuorumResult} {votes : List ArbitratorVote} {threshold : Double}

theorem tally_counted {members voted : Finset PublicKey} (tally : Tally) (same : tally.voted = voted) :
    ((firstVotes members voted votes).foldl (tallyVote members) tally).votesFor =
        tally.votesFor + (firstVotes members voted votes).countP (fun vote => vote.vote = .valid) ∧
      ((firstVotes members voted votes).foldl (tallyVote members) tally).votesFor +
          ((firstVotes members voted votes).foldl (tallyVote members) tally).votesAgainst =
        tally.votesFor + tally.votesAgainst + (firstVotes members voted votes).length := by
  induction votes generalizing tally voted with
  | nil => exact ⟨rfl, rfl⟩
  | cons vote rest ih =>
    unfold firstVotes
    split
    · next counts =>
      subst same
      obtain ⟨first, total⟩ := ih _ (voted_tallyVote tally vote counts.1 counts.2)
      rw [List.foldl_cons, List.countP_cons, List.length_cons, total, first]
      unfold tallyVote
      rw [if_neg (not_not.mpr counts.1), if_neg counts.2]
      cases decision : vote.vote with
      | valid => simp [QuorumVote.isFor, decision]; omega
      | invalid => simp [QuorumVote.isFor, QuorumVote.isAgainst, decision]; omega
    · exact ih tally same

theorem passed_iff : (verifyQuorumVote divide quorum votes threshold).passed = true ↔
    Upheld divide threshold (counted quorum votes) := by
  obtain ⟨votesFor, total⟩ := @tally_counted votes (memberKeys quorum) ∅ ⟨0, 0, 0, ∅⟩ rfl
  unfold verifyQuorumVote Upheld counted
  dsimp only
  rw [show (quorum.members.map QuorumMember.publicKey).toFinset = memberKeys quorum from rfl, foldl_tallyVote, total,
    votesFor]
  simp

/-- Quorum and members count exactly if half of them, and one at least, have voted, or the votes do not uphold a
    short list's proof. -/
theorem countsQuorumOnce_iff (divide : Nat → Nat → ℚ) (config : AdjudicationConfig) (proof : FraudProof)
    (quorum : QuorumResult) (votes : List ArbitratorVote) (currentEpoch : UInt64) :
    CountsQuorumOnce divide config proof quorum votes currentEpoch ↔
      currentEpoch > proof.submittedAtEpoch + config.votingWindow ∨ HalfVoted quorum votes ∨
        ¬Upheld divide config.rulingThreshold (counted quorum votes) ∧ votes.length < quorum.members.length / 2 := by
  have fewer : (participants quorum votes).card = (counted quorum votes).length := card_voters
  have within : (counted quorum votes).length ≤ votes.length := length_firstVotes_le
  have twice : counted quorum (counted quorum votes) = counted quorum votes := firstVotes_first _ _ _
  have passed := @passed_iff divide quorum votes config.rulingThreshold
  have passed' := @passed_iff divide quorum (counted quorum votes) config.rulingThreshold
  rw [twice] at passed'
  by_cases expired : currentEpoch > proof.submittedAtEpoch + config.votingWindow
  · refine iff_of_true ⟨?_, fun result ran => ?_⟩ (.inl expired)
    · simp only [adjudicate, if_pos expired]
    · rw [adjudicate, if_pos expired] at ran
      cases ran
  by_cases upheld : Upheld divide config.rulingThreshold (counted quorum votes)
  · have ruling : ∀ list, (verifyQuorumVote divide quorum list config.rulingThreshold).passed = true →
        (adjudicate divide config proof quorum list currentEpoch).map AdjudicationResult.ruling =
          .ok .challengerWins := by
      intro list holds
      simp [adjudicate, if_neg expired, holds, Except.map]
    constructor
    · intro once
      refine .inr (.inl (once.decisive _ (by rw [adjudicate, if_neg expired]) (.inl ?_)))
      simp [passed.mpr upheld]
    · rintro (impossible | half | ⟨never, _⟩)
      · exact absurd impossible expired
      · exact ⟨(ruling _ (passed.mpr upheld)).trans (ruling _ (passed'.mpr upheld)).symm, fun _ _ _ => half⟩
      · exact absurd upheld never
  · have ruling : ∀ list, ¬(verifyQuorumVote divide quorum list config.rulingThreshold).passed = true →
        (adjudicate divide config proof quorum list currentEpoch).map AdjudicationResult.ruling =
          .ok (if list.length ≥ quorum.members.length / 2 then .subjectWins else .inconclusive) := by
      intro list fails
      simp [adjudicate, if_neg expired, fails, Except.map]
    have first := ruling votes (passed.not.mpr upheld)
    have second := ruling (counted quorum votes) (passed'.not.mpr upheld)
    constructor
    · intro once
      by_cases enough : votes.length ≥ quorum.members.length / 2
      · refine .inr (.inl (once.decisive _ (by rw [adjudicate, if_neg expired]) (.inr ?_)))
        simp [passed.not.mpr upheld, enough]
      · exact .inr (.inr ⟨upheld, not_le.mp enough⟩)
    · rintro (impossible | half | ⟨_, short⟩)
      · exact absurd impossible expired
      · have half' := half
        unfold HalfVoted at half'
        refine ⟨?_, fun _ _ _ => half⟩
        rw [first, second, if_pos (by omega), if_pos (by omega)]
      · refine ⟨?_, fun result ran decided => ?_⟩
        · rw [first, second, if_neg (by omega), if_neg (by omega)]
        · rw [ran, if_neg (by omega)] at first
          rw [Except.ok.inj first] at decided
          simp at decided

end

def memberOf (byte : UInt8) : QuorumMember := ⟨⟨Bytes32.replicate byte⟩, 60, Bytes32.replicate byte, 0, none, none⟩

/-- One vote of a stranger decides for the subject, in a quorum of three none of whom has voted. -/
theorem stranger_decides :
    ¬∀ divide config proof quorum votes currentEpoch,
      CountsQuorumOnce divide config proof quorum votes currentEpoch := by
  intro claimed
  have holds := claimed (fun votes total => votes / total) ⟨.finite (66 / 100), 50⟩ ⟨⟨⟨Bytes32.replicate 0⟩, "cid"⟩, 10⟩
    ⟨[memberOf 1, memberOf 2, memberOf 3], 3, [3]⟩ [⟨⟨Bytes32.replicate 9⟩, .invalid, 10⟩] 10
  rw [countsQuorumOnce_iff] at holds
  revert holds
  unfold HalfVoted Upheld
  decide +kernel

end AdicProof.Adjudication
