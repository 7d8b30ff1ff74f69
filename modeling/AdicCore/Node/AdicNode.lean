import AdicCore.Consensus.Admissibility
import AdicCore.Consensus.Deposit
import AdicCore.Consensus.Validation
import AdicCore.Finality.Engine
import AdicCore.Storage.Backend

open AdicModel.Economics AdicModel.Consensus AdicModel.Finality AdicModel.Storage AdicModel.Crypto

namespace AdicModel.Node

/-- What a node is started with: its parameters and keys, and the libraries. -/
structure Setup where
  params : Consensus.AdicParams
  depositAmount : AdicAmount
  gamma : ℚ
  finalityConfig : FinalityConfig
  hasNetwork : Bool
  publicKey : PublicKey
  sign : ByteArray → Signature
  format : NumberFormat
  timestampText : DateTime → String
  order : AxesOrder
  toString : Json.Value → String
  blake3 : ByteArray → Bytes32
  ed25519 : Ed25519
  hexDecode : String → Option (List UInt8)
  decodeAddress : String → Option Bytes32
  artifactBytes : FinalityArtifact → List UInt8
  economicsErrorText : EconomicsError → String
  depositErrorText : DepositError → String

namespace Setup

variable (setup : Setup)

def hash (bytes : List UInt8) : Bytes32 := setup.blake3 ⟨bytes.toArray⟩

def context (now : DateTime) : ValidationContext :=
  ⟨now, setup.timestampText, setup.order, setup.toString, setup.blake3, setup.ed25519⟩

def toBytes (message : AdicMessage) : ByteArray :=
  message.toBytes setup.timestampText setup.order setup.toString

def accountOf (pubkey : PublicKey) : AccountAddress := AccountAddress.fromPublicKey setup.hash pubkey

end Setup

/-- A stored message or an executed transfer, with the state then. Only proofs read it. -/
inductive NodeEvent (σ B : Type) where
  | stored (message : AdicMessage) (storage : B) (reputation : ReputationTracker)
  | executed (message : AdicMessage) (transfer : ValueTransfer) (balances : BalanceManager σ)

/-- The parts of a node beside its finality engine. -/
structure Parts (σ B : Type) where
  storage : B
  balances : BalanceManager σ
  deposits : DepositManager σ
  reputation : ReputationTracker
  tipManager : Finset MessageId
  history : List (NodeEvent σ B)

abbrev AdicNode (σ B : Type) := Finality.Node (Parts σ B)

/-- The deposits have no balances to lock. -/
def AdicNode.new {σ B : Type} (setup : Setup) (storage : B) (balances : BalanceManager σ) : AdicNode σ B where
  engine := .new setup.finalityConfig
  world := ⟨storage, balances, .new setup.depositAmount, .new setup.gamma, ∅, []⟩

/-- The places where a submission reads messages of its storage. -/
inductive ReadSite where
  | features
  | selection
  | parents

/-- What one call meets: time, failing reads, the network, encoders, penalties, analyses, and the chances of the
    selection. -/
structure Outside (σ B : Type) where
  now : DateTime
  readError : ReadSite → MessageId → Option String
  deliver : AdicMessage → Option String
  encodeAll : Int → AdicAmount → List AxisPhi
  conflictPenalty : MessageId → ConflictId → ℚ
  checkF2 : List AdicMessage → Parts σ B → F2Result
  analyze : MessageId → Parts σ B → Except String KCoreResult
  chance : Mrw.Chance

/-- The errors of the calls, one for each message. -/
inductive NodeError where
  | economics (error : EconomicsError)
  | noCandidates (tips : Nat)
  | selection (error : AdicError)
  | deposit (error : DepositError)
  | missingParent (parent : MessageId)
  | fetchParent (text : String)
  | check (error : AdicError)
  | inadmissible (details : String)
  | invalid (errors : List String)
  | storage (error : StorageError)
  | unsigned
  | network (text : String)
  | finality (stop : Stop)
  | response (status : Nat) (text : String)

abbrev NodeCall (σ B : Type) := EStateM NodeError (AdicNode σ B)

section

variable {σ B α : Type}

def onParts (change : Parts σ B → Parts σ B) : NodeCall σ B Unit :=
  modify fun node => { node with world := change node.world }

def onBalances (call : Call (BalanceManager σ) α) : NodeCall σ B α := fun node =>
  match call node.world.balances with
  | .ok value balances => .ok value { node with world := { node.world with balances } }
  | .error error balances => .error (.economics error) { node with world := { node.world with balances } }

def onDeposits (call : DepositCall σ α) : NodeCall σ B α := fun node =>
  match call node.world.deposits with
  | .ok value deposits => .ok value { node with world := { node.world with deposits } }
  | .error error deposits => .error (.deposit error) { node with world := { node.world with deposits } }

def record (event : NodeEvent σ B) : NodeCall σ B Unit :=
  onParts fun parts => { parts with history := parts.history ++ [event] }

def fromResult : Except NodeError α → NodeCall σ B α
  | .ok value => return value
  | .error error => throw error

def logged (call : NodeCall σ B α) : NodeCall σ B Unit := fun node =>
  match call node with
  | .ok _ next => .ok () next
  | .error _ next => .ok () next

variable [StorageBackend B]

def storeMessage (message : AdicMessage) : NodeCall σ B Unit := do
  let parts := (← get).world
  match Engine.storeMessage message parts.storage with
  | .error error => throw (.storage error)
  | .ok storage =>
    record (.stored message parts.storage parts.reputation)
    onParts fun parts => { parts with storage }

def findParent (storage : B) (parent : MessageId) : Except NodeError AdicMessage :=
  match StorageBackend.getMessage parent storage with
  | some message => .ok message
  | none => .error (.missingParent parent)

def findParents (storage : B) (parents : List MessageId) : Except NodeError (List AdicMessage) :=
  parents.mapM (findParent storage)

def fetchParent (outside : Outside σ B) (storage : B) (parent : MessageId) : Except NodeError AdicMessage :=
  match outside.readError .parents parent with
  | some text => .error (.fetchParent text)
  | none => findParent storage parent

/-- The features and the reputation of the parent are read when it is found. -/
def fetchParents (outside : Outside σ B) (storage : B) (parents : List MessageId) :
    Except NodeError (List AdicMessage) :=
  parents.mapM (fetchParent outside storage)

def readMessage (outside : Outside σ B) (site : ReadSite) (storage : B) (id : MessageId) : Option AdicMessage :=
  match outside.readError site id with
  | some _ => none
  | none => StorageBackend.getMessage id storage

def addToFinality (id : MessageId) : NodeCall σ B Unit :=
  modify fun node => { node with engine := node.engine.addMessage id }

def qpDigits (message : AdicMessage) : List QpDigits := message.features.phi.map AxisPhi.qpDigits

end

structure AxisValue where
  axis : UInt32
  value : UInt64

structure SubmitFeatures where
  axes : List AxisValue

structure SubmitTransfer where
  sender : String
  recipient : String
  amount : UInt64
  nonce : UInt64

structure SubmitMessageRequest where
  content : String
  features : Option SubmitFeatures
  parents : Option (List String)
  signature : String
  proposerAddress : String
  transfer : Option SubmitTransfer

section

variable {σ B : Type} [EconomicsStorage σ] [StorageBackend B] (setup : Setup) (outside : Outside σ B)

/-- The digit just beyond the radius changes, or else the last one. -/
def perturb (radius : Nat) (digits : List UInt8) : List UInt8 :=
  let place := if digits.length > radius then radius else digits.length - 1
  digits.modify place fun digit => (digit + 1) % 3

def nearTip (rho : List UInt32) (features : AdicFeatures) : AdicFeatures where
  phi := features.phi.zipIdx.map fun entry =>
    let digits := entry.1.qpDigits
    ⟨⟨UInt32.ofNat entry.2⟩, ⟨perturb ((rho[entry.2]?).getD 2).toNat digits.digits, digits.p⟩⟩

def createEncodedFeatures : NodeCall σ B AdicFeatures := do
  let seconds := outside.now.timestamp
  let balance ← onBalances (BalanceManager.getBalance seconds (setup.accountOf setup.publicKey))
  return ⟨outside.encodeAll seconds balance⟩

def tipFeatures (tips : List MessageId) : NodeCall σ B AdicFeatures := do
  let parts := (← get).world
  match tips.head?.bind (readMessage outside .features parts.storage) with
  | some tipMsg => return nearTip setup.params.rho tipMsg.features
  | none => createEncodedFeatures setup outside

def medianDigit (parents : List QpDigits) (place : Nat) : UInt8 :=
  let digits := (parents.map fun digits => (digits.digits[place]?).getD 0).insertionSort (· ≤ ·)
  (digits[digits.length / 2]?).getD 0

/-- The digits in the middle of those of the parents, on one axis. -/
def medianAxis (p : UInt32) (parents : List AdicMessage) (axisIdx : Nat) : AxisPhi :=
  let axis : AxisId := ⟨UInt32.ofNat axisIdx⟩
  let digits := parents.filterMap fun parent => (parent.features.getAxis axis).map AxisPhi.qpDigits
  match digits with
  | [] => ⟨axis, .fromU64 (1 + UInt64.ofNat axisIdx) p 10⟩
  | first :: _ =>
    let maxDigits := (digits.map fun digits => digits.digits.length).foldl max 0
    ⟨axis, ⟨(List.range maxDigits).map (medianDigit digits), first.p⟩⟩

def explicitFeatures (parents : List MessageId) : Option SubmitFeatures → NodeCall σ B AdicFeatures
  | some features => return ⟨features.axes.map fun entry => ⟨⟨entry.axis⟩, .fromU64 entry.value 3 10⟩⟩
  | none => do
    let parts := (← get).world
    let found := parents.filterMap (readMessage outside .features parts.storage)
    if found.isEmpty then createEncodedFeatures setup outside
    else return ⟨(List.range setup.params.d.toNat).map (medianAxis setup.params.p found)⟩

def parentCandidate (reputation : ReputationTracker) (tipId : MessageId) (tipMsg : AdicMessage) :
    Mrw.ParentCandidate where
  messageId := tipId
  features := qpDigits tipMsg
  reputation := reputation.getReputation tipMsg.proposerPk
  conflictPenalty :=
    if tipMsg.metadata.conflict = .none then 0 else outside.conflictPenalty tipId tipMsg.metadata.conflict
  weight := 0
  axisWeights := ∅
  age := MessageValidator.numSeconds outside.now tipMsg.metadata.timestamp

def selectParents (features : AdicFeatures) (tips : List MessageId) : NodeCall σ B (List MessageId) := do
  let parts := (← get).world
  let candidates := tips.filterMap fun tip =>
    (readMessage outside .selection parts.storage tip).map (parentCandidate outside parts.reputation tip)
  if candidates.isEmpty then
    if tips.isEmpty then return [] else throw (.noCandidates tips.length)
  else
    let params := Mrw.SelectionParams.fromAdicParams ⟨setup.params.d, setup.params.rho, setup.params.q⟩
    match Mrw.selectParents params outside.chance features candidates with
    | .ok selection => return selection.1
    | .error error => throw (.selection error)

def ownMessage (parents : List MessageId) (features : AdicFeatures) (transfer : Option ValueTransfer)
    (content : List UInt8) : AdicMessage :=
  let draft : AdicMessage := ⟨⟨.replicate 0⟩, parents, features, .new outside.now, setup.publicKey, .empty, transfer,
    content⟩
  let message := { draft with id := draft.computeId setup.timestampText setup.order setup.toString setup.blake3 }
  { message with signature := setup.sign (setup.toBytes message) }

/-- The checks C1 to C3, and the slash of a message that fails them. -/
def checkAdmissibility (message : AdicMessage) : NodeCall σ B Unit := do
  if message.parents.isEmpty then return ()
  let parts := (← get).world
  match fetchParents outside parts.storage message.parents with
  | .error error => throw error
  | .ok found =>
    let reputations := found.map fun parent => parts.reputation.getReputation parent.proposerPk
    match (AdmissibilityChecker.new setup.params).checkMessage setup.format message (found.map qpDigits) reputations with
    | .error error => throw (.check error)
    | .ok result =>
      if result.isAdmissible then return ()
      else
        onDeposits (DepositManager.slash setup.hash outside.now.timestamp message.id)
        throw (.inadmissible result.details)

def validateAndSlash (message : AdicMessage) : NodeCall σ B ValidationResult := do
  let result := MessageValidator.new.validateMessage (setup.context outside.now) message
  if result.isValid then return result
  else
    onDeposits (DepositManager.slash setup.hash outside.now.timestamp message.id)
    match (← get).world.deposits.deposits.lookup message.id with
    | some deposit => onParts fun parts => { parts with reputation := parts.reputation.badUpdate deposit.proposerPk 1 }
    | none => pure ()
    return result

/-- The network engine stores the message and adds it to the finality engine again. -/
def broadcastMessage (message : AdicMessage) : NodeCall σ B Unit := do
  if message.signature.asBytes.isEmpty then throw .unsigned
  storeMessage message
  addToFinality message.id
  match outside.deliver message with
  | some text => throw (.network text)
  | none => return ()

def takeIn (message : AdicMessage) (usedTips : List MessageId) : NodeCall σ B Unit := do
  storeMessage message
  onParts fun parts => { parts with tipManager := insert message.id parts.tipManager \ usedTips.toFinset }
  addToFinality message.id

/-- A transfer is checked before the deposit is taken. -/
def checkTransfer : Option ValueTransfer → NodeCall σ B Unit
  | some t => onBalances (BalanceManager.validateTransfer outside.now.timestamp t.sender t.recipient t.amount t.nonce)
  | none => return ()

def submitSigned (message : AdicMessage) : NodeCall σ B MessageId := do
  onDeposits (DepositManager.escrow setup.hash outside.now.timestamp message.id setup.publicKey)
  checkAdmissibility setup outside message
  let result ← validateAndSlash setup outside message
  if result.isValid then
    takeIn message message.parents
    if setup.hasNetwork then broadcastMessage outside message
    return message.id
  else throw (.invalid result.errors)

/-- What both kinds of submission do with the features and the parents. -/
def submitWith (parents : List MessageId) (features : AdicFeatures) (transfer : Option ValueTransfer)
    (content : List UInt8) : NodeCall σ B MessageId := do
  checkTransfer outside transfer
  submitSigned setup outside (ownMessage setup outside parents features transfer content)

def submitMessageWithTransfer (content : List UInt8) (transfer : Option ValueTransfer) : NodeCall σ B MessageId := do
  let tips := outside.chance.order.iterate (sortIds (← get).world.tipManager)
  let features ← tipFeatures setup outside tips
  let parents ← selectParents setup outside features tips
  submitWith setup outside parents features transfer content

def submitMessageWithParentsAndTransfer (content : List UInt8) (parents : List MessageId)
    (features : Option SubmitFeatures) (transfer : Option ValueTransfer) : NodeCall σ B MessageId := do
  let features ← explicitFeatures setup outside parents features
  submitWith setup outside parents features transfer content

/-- The parts of the VRF that the data of a message may change are left out. -/
def processIncoming (msg : AdicMessage) : NodeCall σ B Unit := do
  let result ← validateAndSlash setup outside msg
  if result.isValid then
    takeIn msg []
    broadcastMessage outside msg

def processIncomingMessages (messages : List AdicMessage) : NodeCall σ B Unit :=
  if setup.hasNetwork then messages.forM (processIncoming setup outside) else return ()

def requestMessage (request : SubmitMessageRequest) (proposerPk : PublicKey) : AdicMessage :=
  let parents := ((request.parents.getD []).filterMap setup.hexDecode).flatten
  let draft : AdicMessage := ⟨⟨.replicate 0⟩, [], ⟨[]⟩, .new outside.now, proposerPk, .empty, none,
    request.content.toUTF8.toList ++ proposerPk.asBytes.bytes ++ parents⟩
  { draft with id := draft.computeId setup.timestampText setup.order setup.toString setup.blake3 }

/-- `0.1` ADIC, of any genesis configuration. -/
def getDepositAmount : AdicAmount := ⟨100000000⟩

def decodeTransfer (request : SubmitTransfer) : Except NodeError ValueTransfer :=
  match (setup.hexDecode request.sender).filter fun bytes => bytes.length = 32 with
  | none => .error (.response 400 "Invalid 'from' address in transfer")
  | some sender =>
    match (setup.hexDecode request.recipient).filter fun bytes => bytes.length = 32 with
    | none => .error (.response 400 "Invalid 'to' address in transfer")
    | some recipient => .ok ⟨sender, recipient, request.amount, request.nonce⟩

def decodeParent (hexId : String) : Except NodeError MessageId :=
  match setup.hexDecode hexId with
  | none => .error (.response 400 s!"Invalid parent ID: {hexId}")
  | some bytes =>
    if size : bytes.length = 32 then .ok ⟨⟨bytes, size⟩⟩ else .error (.response 400 s!"Invalid parent ID: {hexId}")

def balanceError : NodeError → NodeError
  | .economics error => .response 500 s!"Failed to check balance: {setup.economicsErrorText error}"
  | error => error

def checkDeposit (proposerPk : PublicKey) : NodeCall σ B Unit := do
  let read := onBalances (BalanceManager.getUnlockedBalance outside.now.timestamp (setup.accountOf proposerPk))
  let balance ← EStateM.adaptExcept (balanceError setup) read
  if balance < getDepositAmount then
    let required := setup.format.display (getDepositAmount.baseUnits.toNat / 10 ^ 9)
    let available := setup.format.display (balance.baseUnits.toNat / 10 ^ 9)
    throw (.response 402
      s!"Insufficient balance for deposit. Required: {required} ADIC, Available: {available} ADIC")
  else return ()

/-- The signature of the request is checked, then its transfer and its parents are read. -/
def submitMessage (request : SubmitMessageRequest) : NodeCall σ B MessageId := do
  match setup.decodeAddress request.proposerAddress with
  | none => throw (.response 400 "Invalid proposer address: must be bech32 adic1... format")
  | some bytes =>
    match (setup.hexDecode request.signature).filter fun bytes => bytes.length = 64 with
    | none => throw (.response 400 "Invalid signature: must be 64-byte hex-encoded")
    | some signature =>
      let signed := setup.toBytes (requestMessage setup outside request ⟨bytes⟩)
      match CryptoEngine.verifySignature setup.ed25519 signed ⟨bytes⟩ ⟨signature⟩ with
      | .ok true =>
        checkDeposit setup outside ⟨bytes⟩
        let transfer ← fromResult (request.transfer.mapM (decodeTransfer setup))
        let content := request.content.toUTF8.toList
        match request.parents with
        | some hexIds =>
          let parents ← fromResult (hexIds.mapM (decodeParent setup))
          submitMessageWithParentsAndTransfer setup outside content parents request.features transfer
        | none => submitMessageWithTransfer setup outside content transfer
      | _ => throw (.response 401
          "Signature verification failed: invalid signature for provided content and public key")

/-- What the finality engine asks the other parts of the node. -/
def surroundings : Surroundings (Parts σ B) where
  getMessage id parts := StorageBackend.getMessage id parts.storage
  checkF2 messages parts := (outside.checkF2 messages parts, parts)
  analyze id parts := (outside.analyze id parts, parts)
  getProposer id parts := (parts.deposits.deposits.lookup id).map Deposit.proposerPk
  refund id parts :=
    match DepositManager.refund setup.hash id parts.deposits with
    | .ok () deposits => (.ok (), { parts with deposits })
    | .error error deposits => (.error (setup.depositErrorText error), { parts with deposits })
  goodUpdate proposer diversity depth parts :=
    { parts with reputation := parts.reputation.goodUpdate proposer diversity depth }
  storeFinalityArtifact id artifact parts :=
    { parts with storage := StorageBackend.storeFinalityArtifact id (setup.artifactBytes artifact) parts.storage }
  timestamp _ := outside.now.timestamp

/-- The transfer of a finalized message is executed, and an error of it is only logged. -/
def executeTransfer (msgId : MessageId) : NodeCall σ B Unit := do
  let parts := (← get).world
  match StorageBackend.getMessage msgId parts.storage with
  | none => return ()
  | some message =>
    match message.getTransfer with
    | none => return ()
    | some transfer =>
      record (.executed message transfer parts.balances)
      logged (onBalances (BalanceManager.processMessageTransfer setup.hash outside.now.timestamp transfer.sender
        transfer.recipient transfer.amount transfer.nonce))

/-- The events and the broadcast of the artifact are left out. -/
def finalizeOne (msgId : MessageId) : NodeCall σ B Unit := do
  executeTransfer setup outside msgId
  onParts fun parts =>
    let isTip := msgId ∈ StorageBackend.getTips parts.storage
    { parts with tipManager := if isTip then parts.tipManager.erase msgId else parts.tipManager }

def checkFinality : NodeCall σ B Unit := do
  let finalized ← EStateM.adaptExcept .finality (FinalityEngine.checkFinality (surroundings setup outside))
  finalized.forM (finalizeOne setup outside)

end

/-- The calls of a node, each with what it meets. -/
inductive NodeRequest (σ B : Type) where
  | submitMessage (outside : Outside σ B) (request : SubmitMessageRequest)
  | submitMessageWithTransfer (outside : Outside σ B) (content : List UInt8) (transfer : Option ValueTransfer)
  | submitMessageWithParentsAndTransfer (outside : Outside σ B) (content : List UInt8) (parents : List MessageId)
      (features : Option SubmitFeatures) (transfer : Option ValueTransfer)
  | processIncomingMessages (outside : Outside σ B) (messages : List AdicMessage)
  | checkFinality (outside : Outside σ B)

section

variable {σ B : Type} [EconomicsStorage σ] [StorageBackend B] (setup : Setup)

def NodeRequest.call : NodeRequest σ B → NodeCall σ B Unit
  | .submitMessage outside request => discard (Node.submitMessage setup outside request)
  | .submitMessageWithTransfer outside content transfer =>
    discard (Node.submitMessageWithTransfer setup outside content transfer)
  | .submitMessageWithParentsAndTransfer outside content parents features transfer =>
    discard (Node.submitMessageWithParentsAndTransfer setup outside content parents features transfer)
  | .processIncomingMessages outside messages => Node.processIncomingMessages setup outside messages
  | .checkFinality outside => Node.checkFinality setup outside

def NodeRequest.run (node : AdicNode σ B) (request : NodeRequest σ B) : AdicNode σ B :=
  Calls.stateAfter (request.call setup) node

end

end AdicModel.Node
