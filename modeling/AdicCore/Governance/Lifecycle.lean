import AdicCore.Governance.Treasury
import AdicCore.AppCommon.ParameterStore

open AdicModel.Economics AdicModel.AppCommon

namespace AdicModel.Governance

/-- `sqrt` is that of the doubles, `none` for NaN. The tracker lowers the credits of overlapping voters. -/
structure VotingEngine where
  rmax : ℚ
  minQuorum : ℚ
  overlapTracker : Option (PublicKey → ℚ → ℚ)
  sqrt : ℚ → Option ℚ

structure VoteCount where
  voterSet : List PublicKey
  yes : ℚ
  no : ℚ
  abstain : ℚ

namespace VotingEngine

def computeVotingCredits (engine : VotingEngine) (reputation : ℚ) : Option ℚ := engine.sqrt (min reputation engine.rmax)

def finalCredits (engine : VotingEngine) (vote : GovernanceVote) : ℚ :=
  match engine.overlapTracker with
  | some applyPenalty => applyPenalty vote.voterPk vote.credits
  | none => vote.credits

def countVote (engine : VotingEngine) (proposalId : Hash) (count : VoteCount) (vote : GovernanceVote) :
    Except GovernanceError VoteCount :=
  if vote.proposalId ≠ proposalId then .ok count
  else if vote.voterPk ∈ count.voterSet then .error (.duplicateVote (hexEncode vote.voterPk.asBytes.bytes))
  else
    let count := { count with voterSet := vote.voterPk :: count.voterSet }
    match vote.ballot with
    | .yes => .ok { count with yes := count.yes + engine.finalCredits vote }
    | .no => .ok { count with no := count.no + engine.finalCredits vote }
    | .abstain => .ok { count with abstain := count.abstain + engine.finalCredits vote }

def tallyVotes (engine : VotingEngine) (votes : List GovernanceVote) (proposalId : Hash) :
    Except GovernanceError QuorumStats := do
  let count ← votes.foldlM (engine.countVote proposalId) ⟨[], 0, 0, 0⟩
  return ⟨count.yes, count.no, count.abstain, count.yes + count.no + count.abstain⟩

def checkQuorum (engine : VotingEngine) (stats : QuorumStats) (totalEligibleCredits : ℚ) :
    Except GovernanceError Unit :=
  let participationRate := stats.totalParticipation / totalEligibleCredits
  if participationRate < engine.minQuorum then .error (.quorumNotMet engine.minQuorum participationRate)
  else .ok ()

def determineResult (stats : QuorumStats) (threshold : ℚ) : VoteResult :=
  let totalDirectional := stats.yes + stats.no
  if totalDirectional = 0 then .fail
  else
    let yesPercentage := stats.yes / totalDirectional
    let passed := if threshold ≥ 667 / 1000 then decide (yesPercentage ≥ threshold) else decide (yesPercentage > threshold)
    if passed then .pass else .fail

/-- A comparison with NaN is false. -/
def validateCredits (engine : VotingEngine) (credits reputation : ℚ) : Except GovernanceError Unit :=
  match engine.computeVotingCredits reputation with
  | none => .ok ()
  | some expected => if |credits - expected| > 1 / 10000 then .error (.creditsMismatch expected credits) else .ok ()

end VotingEngine

structure LifecycleConfig where
  minProposerReputation : ℚ
  votingDurationSecs : Int
  minQuorum : ℚ

/-- What the manager calls: the reputation tracker, and the signing of a receipt. -/
structure LifecycleServices where
  getReputation : PublicKey → ℚ
  totalEligibleCredits : ℚ
  generateReceiptSignature : Hash → QuorumStats → VoteResult →
    Except GovernanceError (Option Signature × List PublicKey)

structure NodeInfo where
  publicKey : PublicKey
  reputation : ℚ
  asn : Option UInt32
  region : Option String

structure QuorumConfig where
  minReputation : ℚ
  membersPerAxis : Nat
  totalSize : Nat
  maxPerAsn : Nat
  maxPerRegion : Nat
  domainSeparator : String
  numAxes : Nat

def dstGovernanceReceipt : List UInt8 := Pouw.utf8 "ADIC-GOV-R-v1"

/-- The configuration for receipts, with the outcomes of committee selection and requests. Numbers are the bytes of
    doubles. -/
structure ReceiptSigning where
  committeeSize : Nat
  allScores : List (PublicKey × ℚ)
  quorumSelector : Option (UInt64 → QuorumConfig → List NodeInfo → Except String (List PublicKey))
  blsSigner : Bool
  blsCoordinator :
    Option (Pouw.SigningRequestId → List UInt8 → List UInt8 → List PublicKey → Except Pouw.SigningError Unit)
  networkMetadata : Option (PublicKey → UInt32 × String)
  blake3 : List UInt8 → Bytes32
  toLeBytes : ℚ → List UInt8

namespace ReceiptSigning

def quorumConfig (signing : ReceiptSigning) : QuorumConfig :=
  ⟨100, (signing.committeeSize + 2) / 3, signing.committeeSize, 2, 3, "ADIC-GOV-Q", 3⟩

/-- Without metadata the hash of the key places a node. -/
def placeOf (signing : ReceiptSigning) (publicKey : PublicKey) : UInt32 × String :=
  match signing.networkMetadata with
  | some getOrDefault => getOrDefault publicKey
  | none =>
    let hash := (signing.blake3 publicKey.asBytes.bytes).bytes.map UInt8.toNat
    let asn := (hash.take 4).foldl (fun value byte => value * 256 + byte) 0 % 65536
    (UInt32.ofNat asn, s!"r{(hash.drop 4).headD 0 % 26}")

def eligibleNodes (signing : ReceiptSigning) : List NodeInfo :=
  (signing.allScores.filter fun score => ¬ score.2 < signing.quorumConfig.minReputation).map fun score =>
    ⟨score.1, score.2, some (signing.placeOf score.1).1, some (signing.placeOf score.1).2⟩

/-- The wrapping sum of the bytes of the proposal's id. -/
def epochOf (proposalId : Hash) : UInt64 := proposalId.bytes.foldl (fun sum byte => sum + byte.toUInt64) 0

def resultByte : VoteResult → UInt8
  | .pass => 0
  | .fail => 1

def receiptMessage (signing : ReceiptSigning) (proposalId : Hash) (stats : QuorumStats) (result : VoteResult) :
    List UInt8 :=
  proposalId.bytes ++ signing.toLeBytes stats.yes ++ signing.toLeBytes stats.no ++ signing.toLeBytes stats.abstain ++
    [resultByte result]

/-- A failure of the request to the coordinator is only logged. -/
def generateReceiptSignature (signing : ReceiptSigning) (proposalId : Hash) (stats : QuorumStats)
    (result : VoteResult) : Except GovernanceError (Option Signature × List PublicKey) :=
  match signing.quorumSelector, signing.blsSigner with
  | some selectCommittee, true =>
    match selectCommittee (epochOf proposalId) signing.quorumConfig signing.eligibleNodes with
    | .error _ => .ok (none, [])
    | .ok committeeMembers =>
      match signing.blsCoordinator with
      | none => .error .blsCoordinatorRequired
      | some initiateSigning =>
        match initiateSigning (.new "gov-receipt" (epochOf proposalId) proposalId.bytes)
          (signing.receiptMessage proposalId stats result) dstGovernanceReceipt committeeMembers with
        | .ok _ => .ok (none, committeeMembers)
        | .error _ => .ok (none, committeeMembers)
  | _, _ => .ok (none, [])

def services (signing : ReceiptSigning) (getReputation : PublicKey → ℚ) (totalEligibleCredits : ℚ) :
    LifecycleServices :=
  ⟨getReputation, totalEligibleCredits, signing.generateReceiptSignature⟩

end ReceiptSigning

structure ProposalLifecycleManager where
  config : LifecycleConfig
  votingEngine : VotingEngine
  proposals : HashMap.Table Hash GovernanceProposal
  votes : HashMap.Table Hash (List GovernanceVote)
  receipts : HashMap.Table Hash (List GovernanceReceipt)

/-- A manager with the store, the executor and the ledger that it is configured with. -/
structure GovernanceState (L : Type) where
  manager : ProposalLifecycleManager
  parameterStore : Option ParameterStore
  treasuryExecutor : Option TreasuryExecutor
  ledger : L

abbrev GovernanceCall (L α : Type) : Type := EStateM GovernanceError (GovernanceState L) α

namespace ProposalLifecycleManager

def new (config : LifecycleConfig) (votingEngine : VotingEngine) : ProposalLifecycleManager :=
  ⟨config, votingEngine, ∅, ∅, ∅⟩

def shortId (proposalId : Hash) : String := hexEncode (proposalId.bytes.take 8)

def withVotingPeriod (config : LifecycleConfig) (proposal : GovernanceProposal) : GovernanceProposal :=
  { proposal with
    votingEndTimestamp :=
      { proposal.creationTimestamp with
        timestamp := proposal.creationTimestamp.timestamp + config.votingDurationSecs }
    status := .voting }

def submitProposal (services : LifecycleServices) (proposal : GovernanceProposal) (manager : ProposalLifecycleManager) :
    Except GovernanceError (Hash × ProposalLifecycleManager) :=
  let proposerRep := services.getReputation proposal.proposerPk
  if proposerRep < manager.config.minProposerReputation then
    .error (.insufficientReputation manager.config.minProposerReputation proposerRep)
  else
    let proposal := withVotingPeriod manager.config proposal
    .ok (proposal.proposalId,
      { manager with proposals := manager.proposals.insert proposal.proposalId proposal })

def checkVote (services : LifecycleServices) (now : DateTime) (vote : GovernanceVote)
    (manager : ProposalLifecycleManager) : Except GovernanceError Unit :=
  match manager.proposals.lookup vote.proposalId with
  | none => .error (.proposalNotFound (shortId vote.proposalId))
  | some proposal =>
    if proposal.status ≠ .voting then .error (.invalidStatus "Voting" proposal.status.debug)
    else if proposal.votingEnded now then .error .votingEnded
    else manager.votingEngine.validateCredits vote.credits (services.getReputation vote.voterPk)

def getVotes (manager : ProposalLifecycleManager) (proposalId : Hash) : List GovernanceVote :=
  (manager.votes.lookup proposalId).getD []

def checkDuplicate (vote : GovernanceVote) (manager : ProposalLifecycleManager) : Except GovernanceError Unit :=
  if (manager.getVotes vote.proposalId).any fun other => other.voterPk = vote.voterPk then
    .error (.duplicateVote (hexEncode vote.voterPk.asBytes.bytes))
  else .ok ()

def appendVote (vote : GovernanceVote) (manager : ProposalLifecycleManager) : ProposalLifecycleManager :=
  { manager with votes := manager.votes.insert vote.proposalId (manager.getVotes vote.proposalId ++ [vote]) }

def castVote (services : LifecycleServices) (now : DateTime) (vote : GovernanceVote)
    (manager : ProposalLifecycleManager) : Except GovernanceError ProposalLifecycleManager := do
  manager.checkVote services now vote
  manager.checkDuplicate vote
  return manager.appendVote vote

def setProposal (proposalId : Hash) (proposal : GovernanceProposal) (manager : ProposalLifecycleManager) :
    ProposalLifecycleManager :=
  { manager with proposals := manager.proposals.insert proposalId proposal }

def proposalIn (proposalId : Hash) (expected : ProposalStatus) (manager : ProposalLifecycleManager) :
    Except GovernanceError GovernanceProposal :=
  match manager.proposals.lookup proposalId with
  | none => .error (.proposalNotFound (shortId proposalId))
  | some proposal =>
    if proposal.status ≠ expected then .error (.invalidStatus expected.debug proposal.status.debug)
    else .ok proposal

section

variable {L : Type}

def fromManager {α : Type} (result : Except GovernanceError (α × ProposalLifecycleManager)) : GovernanceCall L α :=
  fun governance =>
    match result with
    | .ok (value, manager) => .ok value { governance with manager }
    | .error error => .error error governance

def setProposalTo (proposalId : Hash) (proposal : GovernanceProposal) : GovernanceCall L Unit :=
  modify fun governance => { governance with manager := governance.manager.setProposal proposalId proposal }

def reads {α : Type} (check : ProposalLifecycleManager → Except GovernanceError α) : GovernanceCall L α :=
  fun governance =>
    match check governance.manager with
    | .ok value => .ok value governance
    | .error error => .error error governance

def decideResult (services : LifecycleServices) (votingEngine : VotingEngine) (proposal : GovernanceProposal)
    (stats : QuorumStats) : VoteResult :=
  match votingEngine.checkQuorum stats services.totalEligibleCredits with
  | .ok _ => VotingEngine.determineResult stats proposal.requiredThreshold
  | .error _ => .fail

def statusOf : VoteResult → ProposalStatus
  | .pass => .succeeded
  | .fail => .rejected

def tallied (proposal : GovernanceProposal) (stats : QuorumStats) : GovernanceProposal :=
  { proposal with
    tallyYes := stats.yes
    tallyNo := stats.no
    tallyAbstain := stats.abstain
    status := .tallying }

def storeReceipt (receipt : GovernanceReceipt) : GovernanceCall L Unit :=
  modify fun governance =>
    { governance with
      manager :=
        { governance.manager with
          receipts := governance.manager.receipts.insert receipt.proposalId
            ((governance.manager.receipts.lookup receipt.proposalId).getD [] ++ [receipt]) } }

def finalizeVoting (services : LifecycleServices) (now : DateTime) (proposalId : Hash) :
    GovernanceCall L VoteResult := do
  let proposal ← reads (proposalIn proposalId .voting)
  if proposal.votingEnded now = false then throw .votingNotEnded
  let stats ← reads fun manager => manager.votingEngine.tallyVotes (manager.getVotes proposalId) proposalId
  setProposalTo proposalId (tallied proposal stats)
  let result := decideResult services (← get).manager.votingEngine proposal stats
  setProposalTo proposalId { tallied proposal stats with status := statusOf result }
  let (quorumSignature, committeeMembers) ← reads fun _ => services.generateReceiptSignature proposalId stats result
  storeReceipt ⟨proposalId, stats, result, quorumSignature, committeeMembers⟩
  return result

def beginEnactment (proposalId : Hash) : GovernanceCall L Unit := do
  let proposal ← reads (proposalIn proposalId .succeeded)
  setProposalTo proposalId { proposal with status := .enacting }

def proposedValue (newValues : Json.Value) (key : String) : Option Json.Value :=
  match newValues with
  | .object fields => fields.lookup key
  | _ => none

def applyParam (proposalId : Hash) (proposal : GovernanceProposal) (key : String) : GovernanceCall L Unit := do
  match (← get).parameterStore, proposedValue proposal.newValues key with
  | some store, some newValue =>
    match store.applyGovernanceChange key newValue with
    | .ok changed => modify fun governance => { governance with parameterStore := some changed }
    | .error error =>
      setProposalTo proposalId { proposal with status := .failed }
      throw (.parameterUpdateFailed key error)
  | _, _ => return ()

def onTreasury (executor : TreasuryExecutor) (call : TreasuryCall L Unit) :
    GovernanceCall L (Except GovernanceError Unit) := fun governance =>
  match call ⟨executor, governance.ledger⟩ with
  | .ok _ treasury =>
    .ok (.ok ()) { governance with treasuryExecutor := some treasury.executor, ledger := treasury.ledger }
  | .error error treasury =>
    .ok (.error error) { governance with treasuryExecutor := some treasury.executor, ledger := treasury.ledger }

def enactGrant (services : TreasuryServices L) (proposalId : Hash) (proposal : GovernanceProposal) :
    GovernanceCall L Unit := do
  match proposal.treasuryGrant, (← get).treasuryExecutor with
  | some grant, some executor =>
    match ← onTreasury executor (TreasuryExecutor.executeGrant services grant proposal.enactEpoch) with
    | .ok _ => return ()
    | .error error =>
      setProposalTo proposalId { proposal with status := .failed }
      throw (.grantFailed error)
  | _, _ => return ()

def enactProposal (services : TreasuryServices L) (proposalId : Hash) : GovernanceCall L Unit := do
  let proposal ← reads (proposalIn proposalId .enacting)
  proposal.paramKeys.forM (applyParam proposalId proposal)
  enactGrant services proposalId proposal
  setProposalTo proposalId { proposal with status := .enacted }

end

end ProposalLifecycleManager

end AdicModel.Governance
