import AdicCore.Crypto.Dkg
import AdicCore.Network.UpdateProtocol

open AdicModel.Crypto HashMap

namespace AdicModel.Network

inductive DKGMessage where
  | commitment (epochId : UInt64) (commitment : DKGCommitment)
  | share (epochId : UInt64) (share : DKGShare)
  | complete (epochId : UInt64) (participantId : Nat)

inductive GossipMessage where
  | message (message : AdicMessage)
  | tips (tips : List MessageId)
  | finalityUpdate (messageId : MessageId) (kCore : UInt64)
  | conflictAnnouncement (conflictId : String) (messages : List MessageId)
  | peerAnnouncement (peerId : String) (addresses : List String)
  | dkg (message : DKGMessage)

inductive GossipEvent where
  | messageReceived (message : GossipMessage) (source : PeerId)
  | messageValidated (messageId : MessageId) (isValid : Bool)

/-- Instants are nanoseconds of one clock, and an earlier one is no time after a later one. -/
structure MessageCache where
  messages : Table MessageId (AdicMessage × Nat)
  maxSize : Nat
  ttl : Nat

namespace MessageCache

def new (maxSize ttl : Nat) : MessageCache := ⟨∅, maxSize, ttl⟩

def oldestId (order : Order) (messages : Table MessageId (AdicMessage × Nat)) : Option MessageId :=
  ((order.iterate (pairs messages)).foldl (fun oldest entry =>
    match oldest with
    | none => some (entry.1, entry.2.2)
    | some (id, timestamp) => if entry.2.2 < timestamp then some (entry.1, entry.2.2) else some (id, timestamp))
    none).map Prod.fst

def insert (order : Order) (now : Nat) (message : AdicMessage) (cache : MessageCache) : MessageCache :=
  let messages := retain (fun _ entry => now - entry.2 < cache.ttl) cache.messages
  let messages :=
    if (pairs messages).length ≥ cache.maxSize then
      match oldestId order messages with
      | some oldestId => messages.erase oldestId
      | none => messages
    else messages
  { cache with messages := messages.insert message.id (message, now) }

def contains (now : Nat) (id : MessageId) (cache : MessageCache) : Bool :=
  match cache.messages.lookup id with
  | some (_, timestamp) => now - timestamp < cache.ttl
  | none => false

end MessageCache

structure ValidationQueue where
  pending : List (MessageId × AdicMessage × PeerId)
  maxSize : Nat

namespace ValidationQueue

def new (maxSize : Nat) : ValidationQueue := ⟨[], maxSize⟩

def push (id : MessageId) (message : AdicMessage) (source : PeerId) (queue : ValidationQueue) :
    Bool × ValidationQueue :=
  if queue.pending.length ≥ queue.maxSize then (false, queue)
  else (true, { queue with pending := queue.pending ++ [(id, message, source)] })

end ValidationQueue

/-- The events are those that have been sent. -/
structure GossipProtocol where
  messageCache : MessageCache
  validationQueue : ValidationQueue
  events : List GossipEvent

namespace GossipProtocol

def new : GossipProtocol := ⟨.new 10000 (300 * 10 ^ 9), .new 1000, []⟩

/-- The clock is read for the check of the cache and again for the insertion. -/
def handleReceivedMessage (order : Order) (checkedAt insertedAt : Nat) (message : GossipMessage) (source : PeerId)
    (protocol : GossipProtocol) : GossipProtocol :=
  match message with
  | .message adicMsg =>
    if protocol.messageCache.contains checkedAt adicMsg.id then protocol
    else
      { protocol with
        messageCache := protocol.messageCache.insert order insertedAt adicMsg
        validationQueue := (protocol.validationQueue.push adicMsg.id adicMsg source).2 }
  | _ => { protocol with events := protocol.events ++ [.messageReceived message source] }

def processValidationQueue (validator : AdicMessage → Bool) (protocol : GossipProtocol) : GossipProtocol :=
  let pending := protocol.validationQueue.pending
  let received := (pending.filter fun entry => validator entry.2.1).map fun entry =>
    GossipEvent.messageReceived (.message entry.2.1) entry.2.2
  let validated := pending.map fun entry => GossipEvent.messageValidated entry.1 (validator entry.2.1)
  { protocol with
    validationQueue := { protocol.validationQueue with pending := [] }
    events := protocol.events ++ received ++ validated }

end GossipProtocol

inductive GossipCall where
  | handleReceivedMessage (order : Order) (checkedAt insertedAt : Nat) (message : GossipMessage) (source : PeerId)
  | processValidationQueue (validator : AdicMessage → Bool)

def GossipCall.next (protocol : GossipProtocol) : GossipCall → GossipProtocol
  | handleReceivedMessage order checkedAt insertedAt message source =>
    protocol.handleReceivedMessage order checkedAt insertedAt message source
  | processValidationQueue validator => protocol.processValidationQueue validator

end AdicModel.Network

open AdicModel AdicModel.Network

namespace AdicProof.Network

def protocolAfter (calls : List GossipCall) : GossipProtocol := Runs.after GossipCall.next GossipProtocol.new calls

abbrev received (order : Order) (checkedAt insertedAt : Nat) (message : AdicMessage) (source : PeerId) : GossipCall :=
  .handleReceivedMessage order checkedAt insertedAt (.message message) source

def QueuedAt (calls : List GossipCall) (message : AdicMessage) (time : Nat) : Prop :=
  ∃ before order checkedAt source, before ++ [received order checkedAt time message source] <+: calls ∧
    (protocolAfter (before ++ [received order checkedAt time message source])).validationQueue.pending =
      (protocolAfter before).validationQueue.pending ++ [(message.id, message, source)]

/-- A message is skipped only if it was put into the queue within the time to live. -/
def NeverSuppressed (calls : List GossipCall) : Prop :=
  ∀ before order checkedAt insertedAt message source,
    before ++ [received order checkedAt insertedAt message source] <+: calls →
      (protocolAfter before).messageCache.contains checkedAt message.id = true →
        ∃ time, QueuedAt before message time ∧ checkedAt - time < (protocolAfter before).messageCache.ttl

/-- A message without a fresh entry in the cache finds room in the queue, and a fresh entry is of the message. -/
def FindsRoom (before : List GossipCall) (checkedAt : Nat) (message : AdicMessage) : Prop :=
  ((protocolAfter before).messageCache.contains checkedAt message.id = false →
      (protocolAfter before).validationQueue.pending.length < (protocolAfter before).validationQueue.maxSize) ∧
    ((protocolAfter before).messageCache.contains checkedAt message.id = true →
      ∀ cached time, (protocolAfter before).messageCache.messages.lookup message.id = some (cached, time) →
        cached = message)

section

variable {calls before : List GossipCall} {cache : MessageCache} {order : Order} {now checkedAt insertedAt : Nat}
  {message : AdicMessage} {source : PeerId}

theorem protocolAfter_snoc (before : List GossipCall) (call : GossipCall) :
    protocolAfter (before ++ [call]) = call.next (protocolAfter before) :=
  Runs.after_snoc before call

theorem lookup_insert_cases {id : MessageId} {entry : AdicMessage × Nat}
    (found : (cache.insert order now message).messages.lookup id = some entry) :
    (id = message.id ∧ entry = (message, now)) ∨ cache.messages.lookup id = some entry := by
  unfold MessageCache.insert at found
  dsimp only at found
  rw [lookup_insert_eq] at found
  split at found
  next same =>
    cases found
    exact .inl ⟨same, rfl⟩
  · right
    have kept : (retain (fun _ entry => decide (now - entry.2 < cache.ttl)) cache.messages).lookup id = some entry := by
      split at found
      · split at found
        · rw [lookup_erase_eq] at found
          split at found
          · cases found
          · exact found
        · exact found
      · exact found
    rw [lookup_retain_eq] at kept
    exact (Option.filter_eq_some_iff.mp kept).1

theorem contains_iff {id : MessageId} : cache.contains now id = true ↔
    ∃ cached time, cache.messages.lookup id = some (cached, time) ∧ now - time < cache.ttl := by
  unfold MessageCache.contains
  cases cache.messages.lookup id with
  | none => simp
  | some entry =>
    obtain ⟨cached, time⟩ := entry
    simp

def CachedQueued (calls : List GossipCall) : Prop :=
  ∀ id cached time, (protocolAfter calls).messageCache.messages.lookup id = some (cached, time) →
    id = cached.id ∧ QueuedAt calls cached time

theorem QueuedAt.extend {longer : List GossipCall} {time : Nat} (queued : QueuedAt calls message time)
    (extends_ : calls <+: longer) : QueuedAt longer message time := by
  obtain ⟨before, order, checkedAt, source, part, pending⟩ := queued
  exact ⟨before, order, checkedAt, source, part.trans extends_, pending⟩

theorem CachedQueued.extend {call : GossipCall} (cached : CachedQueued before)
    (same : (protocolAfter (before ++ [call])).messageCache = (protocolAfter before).messageCache) :
    CachedQueued (before ++ [call]) := by
  intro id message time found
  rw [same] at found
  obtain ⟨isId, queued⟩ := cached id message time found
  exact ⟨isId, queued.extend (List.prefix_append _ _)⟩

theorem cachedQueued_received (cached : CachedQueued before)
    (room : FindsRoom before checkedAt message) :
    CachedQueued (before ++ [received order checkedAt insertedAt message source]) := by
  cases fresh : (protocolAfter before).messageCache.contains checkedAt message.id with
  | true =>
    apply cached.extend
    rw [protocolAfter_snoc]
    show (GossipProtocol.handleReceivedMessage _ _ _ _ _ _).messageCache = _
    unfold GossipProtocol.handleReceivedMessage
    dsimp only
    rw [if_pos fresh]
  | false =>
    have run : protocolAfter (before ++ [received order checkedAt insertedAt message source]) =
        { protocolAfter before with
          messageCache := (protocolAfter before).messageCache.insert order insertedAt message
          validationQueue := ((protocolAfter before).validationQueue.push message.id message source).2 } := by
      rw [protocolAfter_snoc]
      show (protocolAfter before).handleReceivedMessage order checkedAt insertedAt (.message message) source = _
      unfold GossipProtocol.handleReceivedMessage
      dsimp only
      rw [fresh]
      rfl
    have queued : QueuedAt (before ++ [received order checkedAt insertedAt message source]) message insertedAt := by
      refine ⟨before, order, checkedAt, source, List.prefix_refl _, ?_⟩
      rw [run]
      unfold ValidationQueue.push
      rw [if_neg (not_le.mpr (room.1 fresh))]
    intro id other time found
    rw [run] at found
    rcases lookup_insert_cases found with ⟨isId, same⟩ | kept
    · cases same
      exact ⟨isId, queued⟩
    · obtain ⟨isId, earlier⟩ := cached id other time kept
      exact ⟨isId, earlier.extend (List.prefix_append _ _)⟩

theorem cachedQueued
    (room : ∀ before order checkedAt insertedAt message source,
      before ++ [received order checkedAt insertedAt message source] <+: calls → FindsRoom before checkedAt message) :
    ∀ before, before <+: calls → CachedQueued before := by
  refine Runs.forall_prefixes ?_ ?_
  · intro id cached time impossible
    cases impossible
  · intro before call part cached
    cases call with
    | handleReceivedMessage order checkedAt insertedAt message source =>
      cases message with
      | message message =>
        exact cachedQueued_received cached (room before order checkedAt insertedAt message source part)
      | tips tips => exact cached.extend (by rw [protocolAfter_snoc]; rfl)
      | finalityUpdate messageId kCore => exact cached.extend (by rw [protocolAfter_snoc]; rfl)
      | conflictAnnouncement conflictId messages => exact cached.extend (by rw [protocolAfter_snoc]; rfl)
      | peerAnnouncement peerId addresses => exact cached.extend (by rw [protocolAfter_snoc]; rfl)
      | dkg message => exact cached.extend (by rw [protocolAfter_snoc]; rfl)
    | processValidationQueue validator => exact cached.extend (by rw [protocolAfter_snoc]; rfl)

end

/-- No message is suppressed whose like find room when they are cached, and otherwise have the cached content. -/
theorem never_suppressed (calls : List GossipCall)
    (room : ∀ before order checkedAt insertedAt message source,
      before ++ [received order checkedAt insertedAt message source] <+: calls →
        FindsRoom before checkedAt message) :
    NeverSuppressed calls := by
  intro before order checkedAt insertedAt message source part fresh
  obtain ⟨cached, time, found, isFresh⟩ := contains_iff.mp fresh
  have same := (room before order checkedAt insertedAt message source part).2 fresh cached time found
  subst same
  have queued := cachedQueued room before ((List.prefix_append _ _).trans part)
  exact ⟨time, (queued cached.id cached time found).2, isFresh⟩

namespace ForgedId

def source : PeerId := ⟨[1]⟩

def claimed (data : List UInt8) : AdicMessage where
  id := ⟨Bytes32.replicate 1⟩
  parents := []
  features := ⟨[]⟩
  metadata := .new ⟨0, 0⟩
  proposerPk := ⟨Bytes32.replicate 2⟩
  signature := .empty
  transfer := none
  data := data

def receive (time : Nat) (message : AdicMessage) : GossipCall := received .stored time time message source

theorem repeated_never_suppressed : NeverSuppressed [receive 0 (claimed [1]), receive 1 (claimed [1])] := by
  refine never_suppressed [receive 0 (claimed [1]), receive 1 (claimed [1])] ?_
  have rooms : ∀ before call, before ++ [call] <+: [receive 0 (claimed [1]), receive 1 (claimed [1])] →
      FindsRoom before (before.length) (claimed [1]) ∧ call = receive before.length (claimed [1]) := by
    refine Runs.forall_steps_cons.mpr ⟨?_, Runs.forall_steps_cons.mpr ⟨?_, Runs.forall_steps_nil⟩⟩
    · refine ⟨⟨by decide +kernel, ?_⟩, rfl⟩
      intro impossible
      exact absurd impossible (by decide +kernel)
    · refine ⟨⟨by decide +kernel, ?_⟩, rfl⟩
      intro _ cached time found
      have entry : (protocolAfter [receive 0 (claimed [1])]).messageCache.messages.lookup (claimed [1]).id =
          some (claimed [1], 0) := by
        decide +kernel
      cases entry.symm.trans found
      rfl
  intro before order checkedAt insertedAt message peer part
  obtain ⟨room, isCall⟩ := rooms before _ part
  cases isCall
  exact room

theorem other_data_suppressed : ¬ NeverSuppressed [receive 0 (claimed [1]), receive 1 (claimed [2])] := by
  intro never
  obtain ⟨time, ⟨before, order, checkedAt, peer, part, _⟩, _⟩ := never [receive 0 (claimed [1])] .stored 1 1
    (claimed [2]) source (List.prefix_refl _) (by decide +kernel)
  have member := part.subset (List.mem_append_right before (List.mem_singleton_self _))
  simp [receive, claimed] at member

end ForgedId

end AdicProof.Network
