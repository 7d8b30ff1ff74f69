import AdicCore.Node.IncomingBatch

open AdicModel AdicModel.Economics AdicModel.Consensus AdicModel.Finality AdicModel.Storage AdicModel.Node
open AdicProof.Consensus AdicProof.Finality Calls
open AdicProof.Storage (LawfulBackend)

namespace AdicProof.Node

class ArtifactsApart (B : Type) [StorageBackend B] : Prop where
  getMessage : ∀ (id other : MessageId) (artifact : List UInt8) (storage : B),
    StorageBackend.getMessage other (StorageBackend.storeFinalityArtifact id artifact storage) =
      StorageBackend.getMessage other storage

instance memoryArtifactsApart : ArtifactsApart MemoryBackend where
  getMessage _ _ _ _ := rfl

instance rocksArtifactsApart : ArtifactsApart RocksBackend where
  getMessage _ _ _ _ := rfl

section

variable (setup : Setup)

structure Authorized (message : AdicMessage) (transfer : ValueTransfer) : Prop where
  carried : message.getTransfer = some transfer
  owner : AccountAddress.fromBytes transfer.sender = some (setup.accountOf message.proposerPk)
  signed : Crypto.CryptoEngine.verifySignature setup.ed25519 (setup.toBytes message) message.proposerPk
    message.signature = .ok true

def OwnTransfer (message : AdicMessage) : Prop :=
  ∀ transfer, message.getTransfer = some transfer →
    AccountAddress.fromBytes transfer.sender = some (setup.accountOf message.proposerPk)

variable {setup}

theorem authorized_of_accepts {σ B : Type} {outside : Outside σ B} {message : AdicMessage}
    (accepted : accepts setup outside message = true)
    (own : OwnTransfer setup message) (transfer : ValueTransfer) (carried : message.getTransfer = some transfer) :
    Authorized setup message transfer :=
  ⟨carried, own transfer carried, (validateMessage_valid accepted).1⟩

end

section

variable {σ B : Type} [StorageBackend B] (setup : Setup)

def EventAuthorized : NodeEvent σ B → Prop
  | .stored _ _ _ => True
  | .executed message transfer _ => Authorized setup message transfer

structure Safe (record : Record σ B) : Prop where
  stored : ∀ id message, StorageBackend.getMessage id record.storage = some message →
    ∀ transfer, message.getTransfer = some transfer → Authorized setup message transfer
  executed : ∀ event ∈ record.history, EventAuthorized setup event

variable {setup} {outside : Outside σ B} {message : AdicMessage} [LawfulBackend B]

theorem storeMessage_safe
    (authorized : ∀ transfer, message.getTransfer = some transfer → Authorized setup message transfer) :
    Keeps (Safe setup) (Node.storeMessage message : NodeCall σ B Unit) := by
  intro node safe
  rw [storeMessage_eq]
  cases stored : Engine.storeMessage message node.world.storage with
  | error error => exact safe
  | ok storage =>
    constructor
    · intro id other found
      change StorageBackend.getMessage id storage = some other at found
      rw [getMessage_storeMessage stored] at found
      split at found
      · cases found
        exact authorized
      · exact safe.stored id other found
    · intro event member
      rcases List.mem_append.mp member with earlier | new
      · exact safe.executed event earlier
      · cases List.mem_singleton.mp new
        trivial

theorem takeIn_safe (usedTips : List MessageId)
    (authorized : ∀ transfer, message.getTransfer = some transfer → Authorized setup message transfer) :
    Keeps (Safe setup) (takeIn message usedTips : NodeCall σ B Unit) := by
  refine (storeMessage_safe authorized).bind fun _ => ?_
  have tips : Silent (onParts fun parts : Parts σ B =>
      { parts with tipManager := insert message.id parts.tipManager \ usedTips.toFinset }) := fun _ => rfl
  exact (tips.bind fun _ => addToFinality_silent message.id).triple _

theorem broadcastMessage_safe
    (authorized : ∀ transfer, message.getTransfer = some transfer → Authorized setup message transfer) :
    Keeps (Safe setup) (broadcastMessage outside message) := by
  unfold broadcastMessage
  apply triple_ite
  · intro _
    exact triple_throw fun _ safe => safe
  · intro _
    refine (storeMessage_safe authorized).bind fun _ => ?_
    refine ((addToFinality_silent message.id).triple _).bind fun _ => ?_
    split
    · exact triple_throw fun _ safe => safe
    · exact triple_pure fun _ safe => safe

end

section

variable {σ B : Type} [EconomicsStorage σ] [StorageBackend B] {setup : Setup} {outside : Outside σ B}
  {message : AdicMessage}

theorem validateAndSlash_safe : Triple (fun node : AdicNode σ B => Safe setup (recordOf node))
    (validateAndSlash setup outside message)
    (fun result node => result = MessageValidator.new.validateMessage (setup.context outside.now) message ∧
      Safe setup (recordOf node))
    fun node => Safe setup (recordOf node) := by
  unfold validateAndSlash
  apply triple_ite
  · intro _
    exact triple_pure fun _ safe => ⟨rfl, safe⟩
  · intro _
    refine ((onDeposits_silent _).triple (Safe setup)).bind fun _ => Triple.get_any fun node => ?_
    dsimp only
    split
    · refine Triple.bind (triple_modify fun _ safe => ?_) fun _ => triple_pure fun _ safe => ⟨rfl, safe⟩
      exact ⟨safe.stored, safe.executed⟩
    · exact triple_pure fun _ safe => ⟨rfl, safe⟩

theorem checkAdmissibility_safe :
    Keeps (Safe setup) (checkAdmissibility setup outside message : NodeCall σ B Unit) := by
  unfold checkAdmissibility
  apply triple_ite
  · intro _
    exact triple_pure fun _ safe => safe
  · intro _
    refine Triple.get_any fun node => ?_
    dsimp only
    split
    · exact triple_throw fun _ safe => safe
    · split
      · exact triple_throw fun _ safe => safe
      · apply triple_ite
        · intro _
          exact triple_pure fun _ safe => safe
        · intro _
          exact ((onDeposits_silent _).triple (Safe setup)).bind fun _ => triple_throw fun _ safe => safe

theorem executeTransfer_safe (msgId : MessageId) :
    Keeps (Safe setup) (executeTransfer setup outside msgId : NodeCall σ B Unit) := by
  apply Triple.get
  intro node safe
  dsimp only
  split
  · apply triple_pure
    rintro _ rfl
    exact safe
  · next message stored =>
    split
    · apply triple_pure
      rintro _ rfl
      exact safe
    · next transfer carried =>
      have recorded : Triple (fun current => current = node)
          (record (.executed message transfer node.world.balances) : NodeCall σ B Unit)
          (fun _ current => Safe setup (recordOf current)) fun current => Safe setup (recordOf current) := by
        apply triple_modify
        rintro _ rfl
        refine ⟨safe.stored, ?_⟩
        intro event member
        rcases List.mem_append.mp member with earlier | new
        · exact safe.executed event earlier
        · cases List.mem_singleton.mp new
          exact safe.stored msgId message stored transfer carried
      exact recorded.bind fun _ => (logged_silent (onBalances_silent _)).triple _

theorem finalizeOne_executes {node : AdicNode σ B} {msgId : MessageId} {transfer : ValueTransfer}
    (stored : StorageBackend.getMessage msgId node.world.storage = some message)
    (carried : message.getTransfer = some transfer) :
    Happened (.executed message transfer node.world.balances)
      (recordOf (stateAfter (finalizeOne setup outside msgId) node)) := by
  have executes : Triple (fun current => current = node) (executeTransfer setup outside msgId)
      (fun _ current => Happened (.executed message transfer node.world.balances) (recordOf current))
      fun current => Happened (.executed message transfer node.world.balances) (recordOf current) := by
    apply Triple.get
    rintro _ rfl
    dsimp only
    rw [stored]
    dsimp only
    rw [carried]
    refine Triple.bind (triple_modify ?_) fun _ => (logged_silent (onBalances_silent _)).triple _
    rintro _ rfl
    exact List.mem_append_right _ List.mem_cons_self
  exact (executes.bind fun _ => triple_modify fun _ happened => happened).stateAfter rfl

theorem engineKeeps_safe [ArtifactsApart B] : EngineKeeps (surroundings setup outside)
    fun node : AdicNode σ B => Safe setup (recordOf node) where
  other _ _ _ safe := safe
  artifact _ _ _ _ safe := safe
  checkF2 _ _ safe := safe
  analyze _ _ safe := safe
  refund node id safe := by
    dsimp only [surroundings]
    split
    · exact safe
    · exact safe
  goodUpdate _ _ _ _ safe := ⟨safe.stored, safe.executed⟩
  storeFinalityArtifact node id artifact safe := by
    refine ⟨?_, safe.executed⟩
    intro other message found
    change StorageBackend.getMessage other (StorageBackend.storeFinalityArtifact id _ node.world.storage) = _ at found
    rw [ArtifactsApart.getMessage] at found
    exact safe.stored other message found

theorem checkFinality_safe [ArtifactsApart B] :
    Keeps (Safe setup) (Node.checkFinality setup outside : NodeCall σ B Unit) := by
  refine ((checkFinality_keeps engineKeeps_safe).adapt _).bind fun finalized => ?_
  refine triple_forM (fun msgId => ?_) finalized
  exact (executeTransfer_safe msgId).bind fun _ => triple_modify fun _ safe => safe

end

section

variable {σ B : Type} [EconomicsStorage σ] [StorageBackend B] {setup : Setup} {outside : Outside σ B}
  {message : AdicMessage} [LawfulBackend B]

theorem submitSigned_safe (own : accepts setup outside message = true → OwnTransfer setup message) :
    Keeps (Safe setup) (submitSigned setup outside message : NodeCall σ B MessageId) := by
  refine ((onDeposits_silent _).triple (Safe setup)).bind fun _ => ?_
  refine checkAdmissibility_safe.bind fun _ => validateAndSlash_safe.bind fun result => ?_
  apply triple_ite
  · rintro valid node ⟨rfl, safe⟩
    have authorized := authorized_of_accepts valid (own valid)
    have announced : Keeps (Safe setup) (do
        if setup.hasNetwork then broadcastMessage outside message
        return message.id : NodeCall σ B MessageId) := by
      dsimp only
      apply triple_ite
      · intro _
        exact (broadcastMessage_safe authorized).bind fun _ => triple_pure fun _ safe => safe
      · intro _
        exact triple_pure fun _ safe => safe
    exact ((takeIn_safe message.parents authorized).bind fun _ => announced) node safe
  · intro _
    exact triple_throw fun _ post => post.2

theorem processIncoming_safe (own : accepts setup outside message = true → OwnTransfer setup message) :
    Keeps (Safe setup) (processIncoming setup outside message) := by
  refine validateAndSlash_safe.bind fun result => ?_
  apply triple_ite
  · rintro valid node ⟨rfl, safe⟩
    have authorized := authorized_of_accepts valid (own valid)
    exact ((takeIn_safe [] authorized).bind fun _ => broadcastMessage_safe authorized) node safe
  · intro _
    exact triple_pure fun _ post => post.2

def SubmitsOwn (setup : Setup) (outside : Outside σ B) (content : List UInt8) (transfer : Option ValueTransfer) :
    Prop :=
  ∀ parents features, accepts setup outside (ownMessage setup outside parents features transfer content) = true →
    OwnTransfer setup (ownMessage setup outside parents features transfer content)

theorem submitMessageWithTransfer_safe {content : List UInt8} {transfer : Option ValueTransfer}
    (own : SubmitsOwn setup outside content transfer) : Keeps (Safe setup)
      (submitMessageWithTransfer setup outside content transfer : NodeCall σ B MessageId) := by
  apply Triple.get_any
  intro node
  refine ((tipFeatures_onlyBalances setup outside _).silent.triple _).bind fun features => ?_
  refine ((selectParents_onlyBalances setup outside features _).silent.triple _).bind fun parents => ?_
  refine ((checkTransfer_onlyBalances outside transfer).silent.triple _).bind fun _ => ?_
  exact submitSigned_safe (own parents features)

theorem submitMessageWithParentsAndTransfer_safe {content : List UInt8} {transfer : Option ValueTransfer}
    (own : SubmitsOwn setup outside content transfer) (parents : List MessageId) (features : Option SubmitFeatures) :
    Keeps (Safe setup) (submitMessageWithParentsAndTransfer setup outside content parents features transfer :
      NodeCall σ B MessageId) := by
  refine ((explicitFeatures_onlyBalances setup outside parents features).silent.triple _).bind fun features => ?_
  refine ((checkTransfer_onlyBalances outside transfer).silent.triple _).bind fun _ => ?_
  exact submitSigned_safe (own parents features)

def Authenticated (setup : Setup) (outside : Outside σ B) (request : SubmitMessageRequest) : Prop :=
  ∃ bytes signature, setup.decodeAddress request.proposerAddress = some bytes ∧
    (setup.hexDecode request.signature).filter (fun bytes => bytes.length = 64) = some signature ∧
    Crypto.CryptoEngine.verifySignature setup.ed25519 (setup.toBytes (requestMessage setup outside request ⟨bytes⟩))
      ⟨bytes⟩ ⟨signature⟩ = .ok true

theorem submitMessage_safe {request : SubmitMessageRequest} (own : Authenticated setup outside request →
      ∀ transfer, request.transfer.mapM (decodeTransfer setup) = .ok transfer →
        SubmitsOwn setup outside request.content.toUTF8.toList transfer) :
    Keeps (Safe setup) (submitMessage setup outside request : NodeCall σ B MessageId) := by
  unfold submitMessage
  split
  · exact triple_throw fun _ safe => safe
  · next bytes decoded =>
    split
    · exact triple_throw fun _ safe => safe
    · next signature read =>
      dsimp only
      split
      · next verified =>
        refine ((checkDeposit_silent setup outside ⟨bytes⟩).triple _).bind fun _ => ?_
        cases transferred : request.transfer.mapM (decodeTransfer setup) with
        | error error => exact fun _ safe => safe
        | ok transfer =>
          have submits := own ⟨bytes, signature, decoded, read, verified⟩ transfer transferred
          change Keeps (Safe setup) (pure transfer >>= _)
          rw [pure_bind]
          split
          · refine ((fromResult_silent _).triple _).bind fun parents => ?_
            exact submitMessageWithParentsAndTransfer_safe submits parents _
          · exact submitMessageWithTransfer_safe submits
      · exact triple_throw fun _ safe => safe

def OwnTransfers (setup : Setup) : NodeRequest σ B → Prop
  | .submitMessage outside request => Authenticated setup outside request →
      ∀ transfer, request.transfer.mapM (decodeTransfer setup) = .ok transfer →
        SubmitsOwn setup outside request.content.toUTF8.toList transfer
  | .submitMessageWithTransfer outside content transfer => SubmitsOwn setup outside content transfer
  | .submitMessageWithParentsAndTransfer outside content _ _ transfer => SubmitsOwn setup outside content transfer
  | .processIncomingMessages outside messages =>
    ∀ message ∈ messages, accepts setup outside message = true → OwnTransfer setup message
  | .checkFinality _ => True

theorem run_safe [ArtifactsApart B] {node : AdicNode σ B} (request : NodeRequest σ B)
    (safe : Safe setup (recordOf node)) (own : OwnTransfers setup request) :
    Safe setup (recordOf (request.run setup node)) := by
  have discarded : ∀ {call : NodeCall σ B MessageId}, Keeps (Safe setup) call →
      Safe setup (recordOf (stateAfter (discard call : NodeCall σ B Unit) node)) := by
    intro call keeps
    exact (keeps.bind fun _ => triple_pure fun _ kept => kept).stateAfter safe
  cases request with
  | submitMessage outside request => exact discarded (submitMessage_safe own)
  | submitMessageWithTransfer outside content transfer => exact discarded (submitMessageWithTransfer_safe own)
  | submitMessageWithParentsAndTransfer outside content parents features transfer =>
    exact discarded (submitMessageWithParentsAndTransfer_safe own parents features)
  | processIncomingMessages outside messages =>
    show Safe setup (recordOf (stateAfter (processIncomingMessages setup outside messages) node))
    unfold processIncomingMessages
    split
    · exact (triple_forM_mem fun message member => processIncoming_safe (own message member)).stateAfter safe
    · exact safe
  | checkFinality outside => exact checkFinality_safe.stateAfter safe

variable (setup)

/-- Every transfer that is executed is authorized, where each that is brought is from the account of its proposer. -/
theorem transfers_authorized [ArtifactsApart B] {storage : B} (fresh : ∀ id, StorageBackend.getMessage id storage = none)
    (balances : BalanceManager σ) {requests : List (NodeRequest σ B)}
    (own : ∀ request ∈ requests, OwnTransfers setup request) :
    ∀ event ∈ (nodeAfter setup storage balances requests).world.history, EventAuthorized setup event := by
  have initially : Safe setup (recordOf (AdicNode.new setup storage balances)) := by
    refine ⟨fun id message found => ?_, fun event member => nomatch member⟩
    change StorageBackend.getMessage id storage = some message at found
    rw [fresh id] at found
    cases found
  have safe := @Runs.invariant_of_conditions _ _ (NodeRequest.run setup) (.new setup storage balances) requests
    (fun node => Safe setup (recordOf node)) (fun request _ => OwnTransfers setup request) initially
    (fun _ request safe own => run_safe request safe own)
    (fun before request part => own request (part.subset (by simp))) requests (List.prefix_refl requests)
  exact safe.executed

end

def foreignTransfer : ValueTransfer := ⟨List.replicate 32 9, List.replicate 32 8, 1, 1⟩

def foreignMessage : AdicMessage := { parentless with transfer := some foreignTransfer }

/-- `parentless` with a transfer from the account of its proposer. -/
def ownMessageOfPeer : AdicMessage :=
  { parentless with transfer := some ⟨List.replicate 32 0, List.replicate 32 8, 1, 1⟩ }

def finalizing : Outside MemoryStorage MemoryBackend :=
  { quiet with analyze := fun _ _ => .ok { KCoreResult.notFinal with isFinal := true } }

def takeAndFinalize (message : AdicMessage) : List (NodeRequest MemoryStorage MemoryBackend) :=
  [.processIncomingMessages quiet [message], .checkFinality finalizing]

theorem transfers_authorized_peer : (nodeAfter oneSignatureNode MemoryBackend.new (.new MemoryStorage.new)
    (takeAndFinalize ownMessageOfPeer)).world.history.Forall (EventAuthorized oneSignatureNode) := by
  refine List.forall_iff_forall_mem.mpr (transfers_authorized oneSignatureNode (fun _ => rfl) _ ?_)
  intro request member
  rcases List.mem_pair.mp member with rfl | rfl
  · intro message listed _
    cases List.mem_singleton.mp listed
    intro transfer carried
    cases carried
    rfl
  · trivial

def funded : BalanceManager MemoryStorage :=
  .new { MemoryStorage.new with balances := HashMap.ofPairs [(⟨.replicate 9⟩, ⟨10⟩)] }

/-- A peer spends from the account of another key, without a request of the API in the run. -/
theorem foreign_transfer_executed :
    let node := nodeAfter oneSignatureNode MemoryBackend.new funded (takeAndFinalize foreignMessage)
    (∀ outside request, NodeRequest.submitMessage outside request ∉ takeAndFinalize foreignMessage) ∧
      node.world.balances.storage.balances.lookup ⟨.replicate 9⟩ = some ⟨9⟩ ∧
      ∃ event ∈ node.world.history, ¬ EventAuthorized oneSignatureNode event := by
  have taken : ∃ next, FinalityEngine.checkFinality (surroundings oneSignatureNode finalizing)
      (nodeAfter oneSignatureNode .new funded [.processIncomingMessages quiet [foreignMessage]]) =
        .ok [foreignMessage.id] next ∧
      StorageBackend.getMessage foreignMessage.id next.world.storage = some foreignMessage := ⟨_, rfl, rfl⟩
  obtain ⟨next, finalized, stored⟩ := taken
  have executed : NodeEvent.executed foreignMessage foreignTransfer next.world.balances ∈
      (nodeAfter oneSignatureNode .new funded (takeAndFinalize foreignMessage)).world.history := by
    have checked : (EStateM.adaptExcept .finality (FinalityEngine.checkFinality
        (surroundings oneSignatureNode finalizing)) : NodeCall MemoryStorage MemoryBackend (List MessageId))
          (nodeAfter oneSignatureNode .new funded [.processIncomingMessages quiet [foreignMessage]]) =
        .ok [foreignMessage.id] next := by
      unfold EStateM.adaptExcept
      rw [finalized]
    have last : nodeAfter oneSignatureNode .new funded (takeAndFinalize foreignMessage) =
        stateAfter (finalizeOne oneSignatureNode finalizing foreignMessage.id) next := by
      show stateAfter (Node.checkFinality oneSignatureNode finalizing) (nodeAfter oneSignatureNode .new funded
        [.processIncomingMessages quiet [foreignMessage]]) = _
      unfold Node.checkFinality stateAfter
      rw [bind_ok checked]
      exact stateAfter_bind_pure
    rw [last]
    exact finalizeOne_executes stored rfl
  refine ⟨by simp [takeAndFinalize], by decide +kernel, _, executed, fun authorized => ?_⟩
  have owner := authorized.owner
  revert owner
  decide +kernel

end AdicProof.Node
