import AdicCore.AppCommon.Error

open AdicModel.Economics AdicModel.AppCommon

namespace AdicModel.Governance

abbrev Hash := Bytes32

inductive ProposalClass where
  | constitutional
  | operational
deriving DecidableEq

inductive ProposalStatus where
  | voting
  | tallying
  | succeeded
  | enacting
  | rejected
  | enacted
  | failed
deriving DecidableEq

namespace ProposalStatus

def isTerminal : ProposalStatus → Bool
  | .enacted | .failed | .rejected => true
  | _ => false

def debug : ProposalStatus → String
  | .voting => "Voting"
  | .tallying => "Tallying"
  | .succeeded => "Succeeded"
  | .enacting => "Enacting"
  | .rejected => "Rejected"
  | .enacted => "Enacted"
  | .failed => "Failed"

end ProposalStatus

/-- Thresholds and scores are exact numbers. -/
inductive VerificationScheme where
  | quorumAttestation (threshold : ℚ)
  | automatedCheck (criteria : String)
  | oracleVerification (oracleId : String)
  | pouwTaskVerification (taskId : Hash) (minQuality : ℚ)
deriving DecidableEq

structure Milestone where
  id : UInt32
  amount : AdicAmount
  deliverableCid : String
  deadlineEpoch : UInt64
  verificationScheme : VerificationScheme
deriving DecidableEq

inductive GrantSchedule where
  | atomic
  | streamed (ratePerEpoch : AdicAmount) (durationEpochs : UInt64)
  | milestone (milestones : List Milestone)
deriving DecidableEq

structure TreasuryGrant where
  recipient : PublicKey
  totalAmount : AdicAmount
  schedule : GrantSchedule
  proposalId : Hash
deriving DecidableEq

/-- What the checks of a proof read. -/
inductive AttestationProof where
  | quorumSignature (signature : Signature) (signers : List PublicKey) (quorumSize : Nat) (signedMessage : List UInt8)
  | automatedCheck (passed : Bool) (evidenceCid : String)
  | oracleAttestation (oracleId : String) (result : Bool)
  | pouwTaskCompletion (taskId : Hash) (completed : Bool) (qualityScore : ℚ)

structure MilestoneAttestation where
  milestoneId : UInt32
  grantId : Hash
  deliverableCid : String
  proof : AttestationProof

structure GovernanceProposal where
  proposalId : Hash
  proposalClass : ProposalClass
  proposerPk : PublicKey
  paramKeys : List String
  newValues : Json.Value
  treasuryGrant : Option TreasuryGrant
  enactEpoch : UInt64
  creationTimestamp : DateTime
  votingEndTimestamp : DateTime
  status : ProposalStatus
  tallyYes : ℚ
  tallyNo : ℚ
  tallyAbstain : ℚ
deriving DecidableEq

namespace GovernanceProposal

def requiredThreshold (proposal : GovernanceProposal) : ℚ :=
  match proposal.proposalClass with
  | .constitutional => 667 / 1000
  | .operational => 1 / 2

def votingEnded (proposal : GovernanceProposal) (currentTime : DateTime) : Bool :=
  proposal.votingEndTimestamp.timestamp < currentTime.timestamp ||
    (proposal.votingEndTimestamp.timestamp = currentTime.timestamp &&
      proposal.votingEndTimestamp.nanos ≤ currentTime.nanos)

end GovernanceProposal

inductive Ballot where
  | yes
  | no
  | abstain

structure GovernanceVote where
  proposalId : Hash
  voterPk : PublicKey
  credits : ℚ
  ballot : Ballot
  timestamp : DateTime

structure QuorumStats where
  yes : ℚ
  no : ℚ
  abstain : ℚ
  totalParticipation : ℚ
deriving DecidableEq

inductive VoteResult where
  | pass
  | fail
deriving DecidableEq

/-- The sequence number, the previous hash and the time of a receipt are constants and the clock. -/
structure GovernanceReceipt where
  proposalId : Hash
  quorumStats : QuorumStats
  result : VoteResult
  quorumSignature : Option Signature
  committeeMembers : List PublicKey

/-- Why a milestone is not verified, with what the texts show. -/
inductive MilestoneReason where
  | text (message : String)
  | thresholdNotMet (actual threshold : ℚ)
  | keySetMissing (epoch : UInt64) (error : String)
  | signatureInvalid (error : String)
  | checkFailed (criteria : String)
  | oracleMismatch (expected got : String)
  | qualityBelow (score minimum : ℚ)

inductive TreasuryError where
  | text (message : String)
  | economics (error : EconomicsError)

inductive GovernanceError where
  | insufficientReputation (required actual : ℚ)
  | proposalNotFound (id : String)
  | duplicateVote (voter : String)
  | votingNotEnded
  | votingEnded
  | invalidStatus (expected found : String)
  | quorumNotMet (required actual : ℚ)
  | creditsMismatch (expected got : ℚ)
  | treasuryError (error : TreasuryError)
  | grantFailed (error : GovernanceError)
  | milestoneVerificationFailed (milestoneId : UInt32) (reason : MilestoneReason)
  | parameterUpdateFailed (param : String) (error : AppError)
  | blsCoordinatorRequired
  | other (message : String)

end AdicModel.Governance
