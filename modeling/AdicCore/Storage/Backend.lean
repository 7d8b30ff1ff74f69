import AdicCore.Library.OrderedScan
import AdicCore.Storage.Store

namespace AdicModel

def MessageId.key (id : MessageId) : List Nat := id.asBytes.bytes.map UInt8.toNat

theorem MessageId.key_injective : Function.Injective MessageId.key := by
  intro a b same
  have bytes := List.map_injective_iff.mpr (fun _ _ => UInt8.toNat_inj.mp) same
  obtain ⟨⟨first, _⟩⟩ := a
  obtain ⟨⟨second, _⟩⟩ := b
  cases bytes
  rfl

instance : LinearOrder MessageId := LinearOrder.lift' MessageId.key MessageId.key_injective

def DateTime.timestampMillis (time : DateTime) : Int := time.timestamp * 1000 + (time.nanos / 1000000).toNat

namespace Storage

def sortIds (ids : Finset MessageId) : List MessageId := ids.sort (· ≤ ·)

@[simp] theorem mem_sortIds {ids : Finset MessageId} {id : MessageId} : id ∈ sortIds ids ↔ id ∈ ids := Finset.mem_sort _

theorem sortIds_nodup (ids : Finset MessageId) : (sortIds ids).Nodup := Finset.sort_nodup _ _

/-- The height is the metadata under the key `height`. Transactions are no-ops. -/
class StorageBackend (B : Type) where
  putMessage : AdicMessage → B → Except StorageError B
  getMessage : MessageId → B → Option AdicMessage
  deleteMessage : MessageId → B → B
  listMessages : B → Finset MessageId
  addParentChild : MessageId → MessageId → B → B
  getChildren : MessageId → B → List MessageId
  getParents : MessageId → B → List MessageId
  addTip : MessageId → B → B
  removeTip : MessageId → B → B
  getTips : B → Finset MessageId
  putHeight : MessageId → Nat → B → B
  getHeight : MessageId → B → Option Nat
  markFinalized : MessageId → List UInt8 → B → B
  isFinalized : MessageId → B → Bool
  getFinalityArtifact : MessageId → B → Option (List UInt8)
  storeFinalityArtifact : MessageId → List UInt8 → B → B
  /-- No result where the call panics. -/
  getMessagesInTimeRange : Int → Option Int → Nat → B → Option (List MessageId)

def i64Max : Int := 2 ^ 63 - 1

/-- The bytes of an `i64` as an unsigned number. -/
def i64ToBeBytes (value : Int) : Nat := (value % 2 ^ 64).toNat

def i64FromBeBytes (bytes : Nat) : Int := if bytes < 2 ^ 63 then bytes else bytes - 2 ^ 64

/-- The scores are the bits of a float. -/
structure MemoryBackend where
  messages : HashMap.Table MessageId AdicMessage
  parents : HashMap.Table MessageId (List MessageId)
  children : HashMap.Table MessageId (List MessageId)
  tips : Finset MessageId
  heights : HashMap.Table MessageId Nat
  reputation : HashMap.Table PublicKey UInt64
  finalized : HashMap.Table MessageId (List UInt8)
  conflicts : HashMap.Table String (Finset MessageId)
  timeIndex : HashMap.Table Int (List MessageId)

namespace MemoryBackend

def new : MemoryBackend := ⟨∅, ∅, ∅, ∅, ∅, ∅, ∅, ∅, ∅⟩

def putMessage (message : AdicMessage) (backend : MemoryBackend) : Except StorageError MemoryBackend :=
  if message.id ∈ backend.messages then .error (.alreadyExists message.id)
  else
    let millis := message.metadata.timestamp.timestampMillis
    .ok { backend with
      messages := backend.messages.insert message.id message
      timeIndex := backend.timeIndex.insert millis ((backend.timeIndex.lookup millis).getD [] ++ [message.id]) }

def getMessage (id : MessageId) (backend : MemoryBackend) : Option AdicMessage := backend.messages.lookup id

/-- The children of a parent without one child. -/
def forgetChild (child parent : MessageId) (children : HashMap.Table MessageId (List MessageId)) :
    HashMap.Table MessageId (List MessageId) :=
  match children.lookup parent with
  | some stored => children.insert parent (stored.filter fun other => other ≠ child)
  | none => children

def deleteMessage (id : MessageId) (backend : MemoryBackend) : MemoryBackend :=
  let retained := match backend.parents.lookup id with
    | some parents => parents.foldl (fun children parent => forgetChild id parent children) backend.children
    | none => backend.children
  { backend with
    messages := backend.messages.erase id
    parents := backend.parents.erase id
    children := retained.erase id }

def listMessages (backend : MemoryBackend) : Finset MessageId := backend.messages.keys.toFinset

def getChildren (parent : MessageId) (backend : MemoryBackend) : List MessageId :=
  (backend.children.lookup parent).getD []

def getParents (child : MessageId) (backend : MemoryBackend) : List MessageId :=
  (backend.parents.lookup child).getD []

def addParentChild (parent child : MessageId) (backend : MemoryBackend) : MemoryBackend :=
  { backend with
    children := backend.children.insert parent (getChildren parent backend ++ [child])
    parents := backend.parents.insert child (getParents child backend ++ [parent]) }

def addTip (id : MessageId) (backend : MemoryBackend) : MemoryBackend :=
  { backend with tips := insert id backend.tips }

def removeTip (id : MessageId) (backend : MemoryBackend) : MemoryBackend :=
  { backend with tips := backend.tips.erase id }

def putHeight (id : MessageId) (height : Nat) (backend : MemoryBackend) : MemoryBackend :=
  { backend with heights := backend.heights.insert id height }

def putReputation (pubkey : PublicKey) (score : UInt64) (backend : MemoryBackend) : MemoryBackend :=
  { backend with reputation := backend.reputation.insert pubkey score }

def getReputation (pubkey : PublicKey) (backend : MemoryBackend) : Option UInt64 := backend.reputation.lookup pubkey

def markFinalized (id : MessageId) (artifact : List UInt8) (backend : MemoryBackend) : MemoryBackend :=
  { backend with finalized := backend.finalized.insert id artifact }

def isFinalized (id : MessageId) (backend : MemoryBackend) : Bool := id ∈ backend.finalized

def getFinalityArtifact (id : MessageId) (backend : MemoryBackend) : Option (List UInt8) := backend.finalized.lookup id

def storeFinalityArtifact (id : MessageId) (artifact : List UInt8) (backend : MemoryBackend) : MemoryBackend :=
  { backend with finalized := backend.finalized.insert id artifact }

def getConflictSet (conflictId : String) (backend : MemoryBackend) : Finset MessageId :=
  (backend.conflicts.lookup conflictId).getD ∅

def addToConflict (conflictId : String) (id : MessageId) (backend : MemoryBackend) : MemoryBackend :=
  { backend with conflicts := backend.conflicts.insert conflictId (insert id (getConflictSet conflictId backend)) }

/-- The range of a `BTreeMap` panics where it starts after its end. -/
def getMessagesInTimeRange (start : Int) (stop : Option Int) (limit : Nat) (backend : MemoryBackend) :
    Option (List MessageId) :=
  let stop := stop.getD i64Max
  if stop < start then none
  else
    let inRange := (HashMap.scanForward backend.timeIndex start).takeWhile fun entry => entry.1 < stop
    some ((inRange.flatMap fun entry => entry.2).take limit)

instance : StorageBackend MemoryBackend where
  putMessage := putMessage
  getMessage := getMessage
  deleteMessage := deleteMessage
  listMessages := listMessages
  addParentChild := addParentChild
  getChildren := getChildren
  getParents := getParents
  addTip := addTip
  removeTip := removeTip
  getTips := fun backend => backend.tips
  putHeight := putHeight
  getHeight := fun id backend => backend.heights.lookup id
  markFinalized := markFinalized
  isFinalized := isFinalized
  getFinalityArtifact := getFinalityArtifact
  storeFinalityArtifact := storeFinalityArtifact
  getMessagesInTimeRange := getMessagesInTimeRange

end MemoryBackend

/-- The database by key prefix. A scan of a prefix yields one column in the order of its bytes. -/
structure RocksBackend where
  msg : HashMap.Table MessageId AdicMessage
  pc : Finset (MessageId × MessageId)
  cp : Finset (MessageId × MessageId)
  tip : Finset MessageId
  heights : HashMap.Table MessageId Nat
  fin : Finset MessageId
  finArt : HashMap.Table MessageId (List UInt8)
  msgByTime : Finset (Nat ×ₗ MessageId)

namespace RocksBackend

def new : RocksBackend := ⟨∅, ∅, ∅, ∅, ∅, ∅, ∅, ∅⟩

def putMessage (message : AdicMessage) (backend : RocksBackend) : Except StorageError RocksBackend :=
  .ok { backend with
    msg := backend.msg.insert message.id message
    msgByTime := insert (toLex (i64ToBeBytes message.metadata.timestamp.timestampMillis, message.id))
      backend.msgByTime }

def getMessage (id : MessageId) (backend : RocksBackend) : Option AdicMessage := backend.msg.lookup id

def deleteMessage (id : MessageId) (backend : RocksBackend) : RocksBackend :=
  { backend with msg := backend.msg.erase id }

def listMessages (backend : RocksBackend) : Finset MessageId := backend.msg.keys.toFinset ∪ backend.tip

def addParentChild (parent child : MessageId) (backend : RocksBackend) : RocksBackend :=
  { backend with
    pc := insert (parent, child) backend.pc
    cp := insert (child, parent) backend.cp }

def scanFrom (id : MessageId) (column : Finset (MessageId × MessageId)) : List MessageId :=
  ((column.filter fun key => key.1 = id).image Prod.snd).sort (· ≤ ·)

def getChildren (parent : MessageId) (backend : RocksBackend) : List MessageId := scanFrom parent backend.pc

def getParents (child : MessageId) (backend : RocksBackend) : List MessageId := scanFrom child backend.cp

def addTip (id : MessageId) (backend : RocksBackend) : RocksBackend :=
  { backend with tip := insert id backend.tip }

def removeTip (id : MessageId) (backend : RocksBackend) : RocksBackend :=
  { backend with tip := backend.tip.erase id }

def putHeight (id : MessageId) (height : Nat) (backend : RocksBackend) : RocksBackend :=
  { backend with heights := backend.heights.insert id height }

def markFinalized (id : MessageId) (artifact : List UInt8) (backend : RocksBackend) : RocksBackend :=
  { backend with
    fin := insert id backend.fin
    finArt := backend.finArt.insert id artifact }

def isFinalized (id : MessageId) (backend : RocksBackend) : Bool := id ∈ backend.fin

def getFinalityArtifact (id : MessageId) (backend : RocksBackend) : Option (List UInt8) := backend.finArt.lookup id

def storeFinalityArtifact (id : MessageId) (artifact : List UInt8) (backend : RocksBackend) : RocksBackend :=
  { backend with finArt := backend.finArt.insert id artifact }

/-- A scan from the start that stops at the first timestamp past the end. -/
def getMessagesInTimeRange (start : Int) (stop : Option Int) (limit : Nat) (backend : RocksBackend) :
    Option (List MessageId) :=
  let stop := stop.getD i64Max
  let keys := (backend.msgByTime.filter fun key => i64ToBeBytes start ≤ (ofLex key).1).sort (· ≤ ·)
  let inRange := keys.takeWhile fun key => i64FromBeBytes (ofLex key).1 < stop
  some ((inRange.map fun key => (ofLex key).2).take limit)

instance : StorageBackend RocksBackend where
  putMessage := putMessage
  getMessage := getMessage
  deleteMessage := deleteMessage
  listMessages := listMessages
  addParentChild := addParentChild
  getChildren := getChildren
  getParents := getParents
  addTip := addTip
  removeTip := removeTip
  getTips := fun backend => backend.tip
  putHeight := putHeight
  getHeight := fun id backend => backend.heights.lookup id
  markFinalized := markFinalized
  isFinalized := isFinalized
  getFinalityArtifact := getFinalityArtifact
  storeFinalityArtifact := storeFinalityArtifact
  getMessagesInTimeRange := getMessagesInTimeRange

end RocksBackend

namespace Engine

open StorageBackend

variable {B : Type} [StorageBackend B]

/-- A parent without height counts as height zero. -/
def calculateMessageHeight (message : AdicMessage) (backend : B) : Nat :=
  if message.parents.isEmpty then 0
  else (message.parents.filterMap fun parent => getHeight parent backend).foldl max 0 + 1

def storeMessage (message : AdicMessage) (backend : B) : Except StorageError B :=
  let height := calculateMessageHeight message backend
  match putMessage message backend with
  | .error error => .error error
  | .ok written =>
    let measured := putHeight message.id height written
    let linked := message.parents.foldl (fun backend parent => addParentChild parent message.id backend) measured
    let untipped := message.parents.foldl (fun backend parent => removeTip parent backend) linked
    .ok (addTip message.id untipped)

def finalizeMessage (id : MessageId) (artifact : List UInt8) (backend : B) : B :=
  removeTip id (markFinalized id artifact backend)

def deleteMessage (id : MessageId) (backend : B) : B := removeTip id (StorageBackend.deleteMessage id backend)

def gather (checkpoint : MessageId) (limit : Nat) (backend : B) : List MessageId → List AdicMessage → List AdicMessage
  | [], messages => messages
  | id :: rest, messages =>
    if messages.length ≥ limit then messages
    else if id = checkpoint then gather checkpoint limit backend rest messages
    else
      match getMessage id backend with
      | some message => gather checkpoint limit backend rest (messages ++ [message])
      | none => gather checkpoint limit backend rest messages

def getMessagesSince (checkpoint : MessageId) (limit : Nat) (backend : B) : Option (List AdicMessage) :=
  match getMessage checkpoint backend with
  | none => some []
  | some checkpointMsg =>
    let checkpointMillis := checkpointMsg.metadata.timestamp.timestampMillis
    (getMessagesInTimeRange checkpointMillis none ((limit + 10) % 2 ^ 64) backend).map fun messageIds =>
      gather checkpoint limit backend messageIds []

end Engine

inductive BackendCall where
  | putMessage (message : AdicMessage)
  | deleteMessage (id : MessageId)
  | addParentChild (parent child : MessageId)
  | markFinalized (id : MessageId) (artifact : List UInt8)
  | storeFinalityArtifact (id : MessageId) (artifact : List UInt8)

/-- A call that fails changes nothing. -/
def BackendCall.run {B : Type} [StorageBackend B] (backend : B) : BackendCall → B
  | .putMessage message =>
    match StorageBackend.putMessage message backend with
    | .ok written => written
    | .error _ => backend
  | .deleteMessage id => StorageBackend.deleteMessage id backend
  | .addParentChild parent child => StorageBackend.addParentChild parent child backend
  | .markFinalized id artifact => StorageBackend.markFinalized id artifact backend
  | .storeFinalityArtifact id artifact => StorageBackend.storeFinalityArtifact id artifact backend

end Storage

end AdicModel

namespace AdicModel.Storage

/-- The metadata of a snapshot is not used to restore it. -/
structure Snapshot where
  messages : List AdicMessage
  tips : Finset MessageId
  finalized : HashMap.Table MessageId (List UInt8)
  reputation : HashMap.Table PublicKey UInt64
  conflicts : HashMap.Table String (Finset MessageId)

namespace Snapshot

/-- Reputation and conflicts have no method to enumerate them and are left empty. -/
def create (order : HashMap.Order) (backend : MemoryBackend) : Snapshot :=
  let messageIds := order.iterate (sortIds backend.listMessages)
  let finalized := messageIds.filterMap fun id =>
    if backend.isFinalized id then (backend.getFinalityArtifact id).map fun artifact => (id, artifact) else none
  { messages := messageIds.filterMap fun id => backend.getMessage id
    tips := backend.tips
    finalized := HashMap.ofPairs finalized
    reputation := ∅
    conflicts := ∅ }

def restore (order : HashMap.Order) (snapshot : Snapshot) (backend : MemoryBackend) :
    Except StorageError MemoryBackend := do
  let backend ← snapshot.messages.foldlM (fun backend message => backend.putMessage message) backend
  let backend := (order.iterate (sortIds snapshot.tips)).foldl (fun backend id => backend.addTip id) backend
  let backend := (order.iterate (HashMap.pairs snapshot.finalized)).foldl
    (fun backend entry => backend.markFinalized entry.1 entry.2) backend
  let backend := (order.iterate (HashMap.pairs snapshot.reputation)).foldl
    (fun backend entry => backend.putReputation entry.1 entry.2) backend
  return (order.iterate (HashMap.pairs snapshot.conflicts)).foldl
    (fun backend entry => (order.iterate (sortIds entry.2)).foldl
      (fun backend id => backend.addToConflict entry.1 id) backend) backend

end Snapshot

inductive EngineCall where
  | storeMessage (message : AdicMessage)
  | finalizeMessage (id : MessageId) (artifact : List UInt8)
  | addToConflict (conflictId : String) (id : MessageId)
  | updateReputation (pubkey : PublicKey) (score : UInt64)

def EngineCall.run (backend : MemoryBackend) : EngineCall → MemoryBackend
  | .storeMessage message =>
    match Engine.storeMessage message backend with
    | .ok next => next
    | .error _ => backend
  | .finalizeMessage id artifact => Engine.finalizeMessage id artifact backend
  | .addToConflict conflictId id => backend.addToConflict conflictId id
  | .updateReputation pubkey score => backend.putReputation pubkey score

end AdicModel.Storage
