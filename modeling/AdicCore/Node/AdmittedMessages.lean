import AdicCore.Finality.OneGate
import AdicCore.Library.Fallible
import AdicCore.Node.SilentCalls
import AdicCore.Storage.BackendLaws

open AdicModel AdicModel.Economics AdicModel.Consensus AdicModel.Finality AdicModel.Storage AdicModel.Node
open AdicProof.Consensus AdicProof.Finality Calls
open AdicProof.Storage (Graph LawfulBackend of_storeMessage)

namespace AdicProof.Node

section

variable {σ B : Type} [StorageBackend B] (setup : Setup)

def Admitted (message : AdicMessage) (storage : B) (reputation : ReputationTracker) : Prop :=
  ∃ found result, findParents storage message.parents = .ok found ∧
    (AdmissibilityChecker.new setup.params).checkMessage setup.format message (found.map qpDigits)
      (found.map fun parent => reputation.getReputation parent.proposerPk) = .ok result ∧ result.isAdmissible = true

def EventAdmitted : NodeEvent σ B → Prop
  | .stored message storage reputation => message.parents ≠ [] → Admitted setup message storage reputation
  | .executed _ _ _ => True

def AllAdmitted (record : Record σ B) : Prop := ∀ event ∈ record.history, EventAdmitted setup event

def Ready (message : AdicMessage) (record : Record σ B) : Prop :=
  AllAdmitted setup record ∧ ∀ storage, Engine.storeMessage message record.storage = .ok storage →
    message.parents ≠ [] → Admitted setup message record.storage record.reputation

variable {setup} {outside : Outside σ B} {message : AdicMessage}

instance {storage : B} {reputation : ReputationTracker} : Decidable (Admitted setup message storage reputation) :=
  match read : findParents storage message.parents with
  | .error _ => .isFalse fun ⟨_, _, found, _⟩ => nomatch read.symm.trans found
  | .ok found =>
    match checked : (AdmissibilityChecker.new setup.params).checkMessage setup.format message (found.map qpDigits)
        (found.map fun parent => reputation.getReputation parent.proposerPk) with
    | .error _ => .isFalse fun ⟨_, _, same, passed, _⟩ => by
      cases read.symm.trans same
      cases checked.symm.trans passed
    | .ok result => decidable_of_iff (result.isAdmissible = true)
      ⟨fun admissible => ⟨found, result, read, checked, admissible⟩, fun ⟨_, _, same, passed, admissible⟩ => by
        cases read.symm.trans same
        cases checked.symm.trans passed
        exact admissible⟩

instance : DecidablePred (@EventAdmitted σ B _ setup)
  | .stored _ _ _ => inferInstanceAs (Decidable (_ → _))
  | .executed _ _ _ => .isTrue trivial

instance {record : Record σ B} : Decidable (AllAdmitted setup record) :=
  inferInstanceAs (Decidable (∀ event ∈ record.history, EventAdmitted setup event))

theorem penalize_admitted (proposerPk : PublicKey) : Keeps (AllAdmitted setup)
    (onParts fun parts => { parts with reputation := parts.reputation.badUpdate proposerPk 1 } : NodeCall σ B Unit) :=
  triple_modify fun _ admitted => admitted

variable {before after : B}

theorem findParents_congr {parents : List MessageId}
    (same : ∀ parent ∈ parents, StorageBackend.getMessage parent after = StorageBackend.getMessage parent before) :
    findParents after parents = findParents before parents := by
  unfold findParents
  induction parents with
  | nil => rfl
  | cons parent parents ih =>
    have first : findParent after parent = findParent before parent := by
      unfold findParent
      rw [same parent List.mem_cons_self]
    rw [List.mapM_cons, List.mapM_cons, first]
    rw [ih fun other member => same other (List.mem_cons_of_mem parent member)]

theorem findParents_of_fetchParents {storage : B} {parents : List MessageId} {found : List AdicMessage}
    (fetched : fetchParents outside storage parents = .ok found) : findParents storage parents = .ok found := by
  refine Fallible.mapM_of_ok ?_ fetched
  intro parent message read
  unfold fetchParent at read
  split at read
  · cases read
  · exact read

variable [LawfulBackend B]

theorem getMessage_storeMessage (stored : Engine.storeMessage message before = .ok after)
    (id : MessageId) : StorageBackend.getMessage id after =
      if id = message.id then some message else StorageBackend.getMessage id before := by
  have graph := congrArg (fun graph : Graph => graph.stored id) (of_storeMessage stored)
  have updated : StorageBackend.getMessage id after =
      Function.update (Graph.of before).stored message.id (some message) id := graph
  rw [updated, Function.update_apply]
  rfl

section

variable (own : message.id ∉ message.parents)

include own

theorem Admitted.storeMessage {reputation : ReputationTracker}
    (stored : Engine.storeMessage message before = .ok after) (admitted : Admitted setup message before reputation) :
    Admitted setup message after reputation := by
  have same : findParents after message.parents = findParents before message.parents := by
    apply findParents_congr
    intro parent member
    have other : parent ≠ message.id := fun equal => own (equal ▸ member)
    rw [getMessage_storeMessage stored, if_neg other]
  unfold Admitted
  rw [same]
  exact admitted

theorem storeMessage_admitted :
    Triple (fun node : AdicNode σ B => Ready setup message (recordOf node)) (Node.storeMessage message)
      (fun _ node => Ready setup message (recordOf node)) fun node => AllAdmitted setup (recordOf node) := by
  apply Triple.get
  intro node ready
  dsimp only
  cases stored : Engine.storeMessage message node.world.storage with
  | error error =>
    apply triple_throw
    rintro _ rfl
    exact ready.1
  | ok storage =>
    have admitted := ready.2 storage stored
    rintro _ rfl
    constructor
    · intro event member
      rcases List.mem_append.mp member with earlier | new
      · exact ready.1 event earlier
      · cases List.mem_singleton.mp new
        exact admitted
    · intro _ _ parents
      exact (admitted parents).storeMessage own stored

theorem takeIn_ready (usedTips : List MessageId) :
    Triple (fun node : AdicNode σ B => Ready setup message (recordOf node)) (takeIn message usedTips)
      (fun _ node => Ready setup message (recordOf node)) fun node => AllAdmitted setup (recordOf node) := by
  refine (storeMessage_admitted own).bind fun _ => ?_
  have tips : Silent (onParts fun parts : Parts σ B =>
      { parts with tipManager := insert message.id parts.tipManager \ usedTips.toFinset }) := fun _ => rfl
  have rest := (tips.bind fun _ => addToFinality_silent message.id).triple (Ready setup message)
  exact rest.weaken (fun _ ready => ready) (fun _ _ ready => ready) fun _ ready => ready.1

theorem broadcastMessage_admitted :
    Triple (fun node : AdicNode σ B => Ready setup message (recordOf node)) (broadcastMessage outside message)
      (fun _ node => AllAdmitted setup (recordOf node)) fun node => AllAdmitted setup (recordOf node) := by
  unfold broadcastMessage
  apply triple_ite
  · intro _
    exact triple_throw fun _ ready => ready.1
  · intro _
    refine (storeMessage_admitted own).bind fun _ => ?_
    refine (Silent.triple ?delivered (AllAdmitted setup)).weaken (fun _ ready => ready.1) (fun _ _ holds => holds)
      fun _ holds => holds
    refine (addToFinality_silent message.id).bind fun _ => ?_
    split
    · exact silent_throw _
    · exact silent_pure _

end

end

section

variable {σ B : Type} [EconomicsStorage σ] [StorageBackend B] {setup : Setup} {outside : Outside σ B}
  {message : AdicMessage}

theorem slash_admitted (id : MessageId) : Keeps (AllAdmitted setup)
    (onDeposits (DepositManager.slash setup.hash outside.now.timestamp id) : NodeCall σ B Unit) :=
  (onDeposits_silent _).triple _

theorem checkAdmissibility_ready :
    Triple (fun node : AdicNode σ B => AllAdmitted setup (recordOf node)) (checkAdmissibility setup outside message)
      (fun _ node => Ready setup message (recordOf node)) fun node => AllAdmitted setup (recordOf node) := by
  unfold checkAdmissibility
  apply triple_ite
  · intro none
    apply triple_pure
    exact fun node admitted => ⟨admitted, fun _ _ parents => absurd (List.isEmpty_iff.mp none) parents⟩
  · intro _
    apply Triple.get
    intro node admitted
    dsimp only
    split
    · apply triple_throw
      rintro _ rfl
      exact admitted
    · next found stored =>
      split
      · apply triple_throw
        rintro _ rfl
        exact admitted
      · next result checked =>
        apply triple_ite
        · intro passed
          apply triple_pure
          rintro _ rfl
          exact ⟨admitted, fun _ _ _ => ⟨found, result, findParents_of_fetchParents stored, checked, passed⟩⟩
        · intro _
          refine ((slash_admitted message.id).weaken ?_ (fun _ _ holds => holds) fun _ holds => holds).bind
            fun _ => ?_
          · rintro _ rfl
            exact admitted
          · exact triple_throw fun _ holds => holds

theorem validateAndSlash_ready {kept : Record σ B → Prop} (weaken : ∀ record, kept record → AllAdmitted setup record) :
    Triple (fun node => kept (recordOf node)) (validateAndSlash setup outside message)
      (fun result node => result = MessageValidator.new.validateMessage (setup.context outside.now) message ∧
        AllAdmitted setup (recordOf node) ∧ (result.isValid = true → kept (recordOf node)))
      fun node => AllAdmitted setup (recordOf node) := by
  unfold validateAndSlash
  apply triple_ite
  · intro valid
    exact triple_pure fun node holds => ⟨rfl, weaken _ holds, fun _ => holds⟩
  · intro invalid
    have slashed := (@slash_admitted σ B _ _ setup outside message.id).weaken (fun node holds => weaken _ holds)
      (fun _ _ holds => holds) fun _ holds => holds
    refine slashed.bind fun _ => Triple.get_any fun node => ?_
    dsimp only
    split
    · refine (penalize_admitted _).bind fun _ => triple_pure fun _ admitted => ?_
      exact ⟨rfl, admitted, fun valid => absurd valid invalid⟩
    · exact triple_pure fun _ admitted => ⟨rfl, admitted, fun valid => absurd valid invalid⟩

theorem engineKeeps_admitted : EngineKeeps (surroundings setup outside)
    fun node : AdicNode σ B => AllAdmitted setup (recordOf node) where
  other _ _ _ admitted := admitted
  artifact _ _ _ _ admitted := admitted
  checkF2 _ _ admitted := admitted
  analyze _ _ admitted := admitted
  refund node id admitted := by
    dsimp only [surroundings]
    split
    · exact admitted
    · exact admitted
  goodUpdate _ _ _ _ admitted := admitted
  storeFinalityArtifact _ _ _ admitted := admitted

theorem executeTransfer_admitted (msgId : MessageId) :
    Keeps (AllAdmitted setup) (executeTransfer setup outside msgId : NodeCall σ B Unit) := by
  apply Triple.get_any
  intro node
  dsimp only
  split
  · exact triple_pure fun _ admitted => admitted
  · next message _ =>
    split
    · exact triple_pure fun _ admitted => admitted
    · next transfer _ =>
      have recorded : Keeps (AllAdmitted setup)
          (record (.executed message transfer node.world.balances) : NodeCall σ B Unit) := by
        apply triple_modify
        intro node admitted event member
        rcases List.mem_append.mp member with earlier | new
        · exact admitted event earlier
        · cases List.mem_singleton.mp new
          trivial
      exact recorded.bind fun _ => (logged_silent (onBalances_silent _)).triple _

theorem finalizeOne_admitted (msgId : MessageId) :
    Keeps (AllAdmitted setup) (finalizeOne setup outside msgId : NodeCall σ B Unit) := by
  exact (executeTransfer_admitted msgId).bind fun _ => triple_modify fun _ admitted => admitted

theorem checkFinality_admitted :
    Keeps (AllAdmitted setup) (Node.checkFinality setup outside : NodeCall σ B Unit) := by
  refine ((checkFinality_keeps engineKeeps_admitted).adapt _).bind fun finalized => ?_
  exact triple_forM finalizeOne_admitted finalized

variable [LawfulBackend B]

theorem submitSigned_admitted :
    Keeps (AllAdmitted setup) (submitSigned setup outside message : NodeCall σ B MessageId) := by
  refine ((onDeposits_silent _).triple (AllAdmitted setup)).bind fun _ => ?_
  refine checkAdmissibility_ready.bind fun _ => ?_
  refine (validateAndSlash_ready fun _ ready => ready.1).bind fun result => ?_
  apply triple_ite
  · intro valid
    rintro node ⟨rfl, _, kept⟩
    have own := (validateMessage_valid valid).2
    have announced : Triple (fun node : AdicNode σ B => Ready setup message (recordOf node))
        (do if setup.hasNetwork then broadcastMessage outside message
            return message.id)
        (fun _ node => AllAdmitted setup (recordOf node)) fun node => AllAdmitted setup (recordOf node) := by
      dsimp only
      apply triple_ite
      · intro _
        exact (broadcastMessage_admitted own).bind fun _ => triple_pure fun _ admitted => admitted
      · intro _
        exact triple_pure fun _ ready => ready.1
    exact ((takeIn_ready own message.parents).bind fun _ => announced) node (kept valid)
  · intro _
    exact triple_throw fun _ post => post.2.1

def PeerAdmitted (setup : Setup) (outside : Outside σ B) (message : AdicMessage) (record : Record σ B) : Prop :=
  (MessageValidator.new.validateMessage (setup.context outside.now) message).isValid = true →
    ∀ storage, Engine.storeMessage message record.storage = .ok storage → message.parents ≠ [] →
      Admitted setup message record.storage record.reputation

theorem processIncoming_admitted :
    Triple (fun node : AdicNode σ B => AllAdmitted setup (recordOf node) ∧ PeerAdmitted setup outside message
      (recordOf node)) (processIncoming setup outside message) (fun _ node => AllAdmitted setup (recordOf node))
      fun node => AllAdmitted setup (recordOf node) := by
  have validated := @validateAndSlash_ready σ B _ _ setup outside message
    (fun record => AllAdmitted setup record ∧ PeerAdmitted setup outside message record) fun _ both => both.1
  refine validated.bind fun result => ?_
  apply triple_ite
  · intro valid
    rintro node ⟨rfl, _, kept⟩
    have own := (validateMessage_valid valid).2
    have ready : Ready setup message (recordOf node) := ⟨(kept valid).1, (kept valid).2 valid⟩
    exact ((takeIn_ready own []).bind fun _ => broadcastMessage_admitted own) node ready
  · intro _
    exact triple_pure fun _ post => post.2.1

theorem submitWith_admitted (parents : List MessageId) (features : AdicFeatures) (transfer : Option ValueTransfer)
    (content : List UInt8) : Keeps (AllAdmitted setup)
      (submitWith setup outside parents features transfer content : NodeCall σ B MessageId) :=
  ((checkTransfer_onlyBalances outside transfer).silent.triple _).bind fun _ => submitSigned_admitted

theorem submitMessageWithTransfer_admitted (content : List UInt8) (transfer : Option ValueTransfer) :
    Keeps (AllAdmitted setup) (submitMessageWithTransfer setup outside content transfer : NodeCall σ B MessageId) := by
  apply Triple.get_any
  intro node
  refine ((tipFeatures_onlyBalances setup outside _).silent.triple _).bind fun features => ?_
  refine ((selectParents_onlyBalances setup outside features _).silent.triple _).bind fun parents => ?_
  exact submitWith_admitted parents features transfer content

theorem submitMessageWithParentsAndTransfer_admitted (content : List UInt8) (parents : List MessageId)
    (features : Option SubmitFeatures) (transfer : Option ValueTransfer) : Keeps (AllAdmitted setup)
      (submitMessageWithParentsAndTransfer setup outside content parents features transfer :
        NodeCall σ B MessageId) := by
  refine ((explicitFeatures_onlyBalances setup outside parents features).silent.triple _).bind fun features => ?_
  exact submitWith_admitted parents features transfer content

theorem submitMessage_admitted (request : SubmitMessageRequest) :
    Keeps (AllAdmitted setup) (submitMessage setup outside request : NodeCall σ B MessageId) := by
  unfold submitMessage
  split
  · exact triple_throw fun _ admitted => admitted
  · next bytes decoded =>
    split
    · exact triple_throw fun _ admitted => admitted
    · dsimp only
      split
      · refine ((checkDeposit_silent setup outside ⟨bytes⟩).triple _).bind fun _ => ?_
        refine ((fromResult_silent _).triple _).bind fun transfer => ?_
        split
        · refine ((fromResult_silent _).triple _).bind fun parents => ?_
          exact submitMessageWithParentsAndTransfer_admitted _ parents _ transfer
        · exact submitMessageWithTransfer_admitted _ transfer
      · exact triple_throw fun _ admitted => admitted

end

section

variable {σ B : Type} [StorageBackend B] (event : NodeEvent σ B) {setup : Setup} {outside : Outside σ B}
  {message : AdicMessage}

def Happened (record : Record σ B) : Prop := event ∈ record.history

abbrev Remembers {α : Type} (call : NodeCall σ B α) : Prop := Keeps (Happened event) call

theorem storeMessage_remembers (message : AdicMessage) : Remembers event (Node.storeMessage message) := by
  apply Triple.get_any
  intro node
  dsimp only
  split
  · exact triple_throw fun _ member => member
  · intro _ member
    exact List.mem_append_left _ member

theorem takeIn_happened {pre : AdicNode σ B → Prop} {usedTips : List MessageId}
    (stores : Triple pre (Node.storeMessage message) (fun _ node => Happened event (recordOf node))
      fun node => Happened event (recordOf node)) :
    Triple pre (takeIn message usedTips) (fun _ node => Happened event (recordOf node))
      fun node => Happened event (recordOf node) := by
  refine stores.bind fun _ => ?_
  have tips : Remembers event (onParts fun parts =>
      { parts with tipManager := insert message.id parts.tipManager \ usedTips.toFinset }) :=
    triple_modify fun _ happened => happened
  exact tips.bind fun _ => (addToFinality_silent message.id).triple _

theorem broadcastMessage_remembers : Remembers event (broadcastMessage outside message) := by
  unfold broadcastMessage
  apply triple_ite
  · intro _
    exact triple_throw fun _ member => member
  · intro _
    refine (storeMessage_remembers event message).bind fun _ => ?_
    refine ((addToFinality_silent message.id).triple _).bind fun _ => ?_
    split
    · exact triple_throw fun _ member => member
    · exact triple_pure fun _ member => member

variable [EconomicsStorage σ]

theorem processIncoming_remembers : Remembers event (processIncoming setup outside message) := by
  have validated : Remembers event (validateAndSlash setup outside message) := by
    unfold validateAndSlash
    apply triple_ite
    · intro _
      exact triple_pure fun _ happened => happened
    · intro _
      refine ((onDeposits_silent _).triple _).bind fun _ => Triple.get_any fun node => ?_
      dsimp only
      split
      · refine Triple.bind ?_ fun _ => triple_pure fun _ happened => happened
        exact triple_modify fun _ happened => happened
      · exact triple_pure fun _ happened => happened
  refine validated.bind fun result => triple_ite ?_ ?_
  · intro _
    exact (takeIn_happened event (storeMessage_remembers event message)).bind fun _ => broadcastMessage_remembers event
  · intro _
    exact triple_pure fun _ happened => happened

variable {event}

theorem processIncoming_stored {node : AdicNode σ B} {storage : B}
    (valid : (MessageValidator.new.validateMessage (setup.context outside.now) message).isValid = true)
    (stored : Engine.storeMessage message node.world.storage = .ok storage) :
    Happened (.stored message node.world.storage node.world.reputation)
      (recordOf (stateAfter (processIncoming setup outside message) node)) := by
  have validated : (validateAndSlash setup outside message) node =
      .ok (MessageValidator.new.validateMessage (setup.context outside.now) message) node := by
    unfold validateAndSlash
    dsimp only
    rw [if_pos valid]
    rfl
  have stores : Triple (fun current : AdicNode σ B => current = node) (Node.storeMessage message)
      (fun _ after => Happened (.stored message node.world.storage node.world.reputation) (recordOf after))
      fun after => Happened (.stored message node.world.storage node.world.reputation) (recordOf after) := by
    apply Triple.get
    rintro _ rfl
    dsimp only
    rw [stored]
    rintro _ rfl
    exact List.mem_append_right _ List.mem_cons_self
  have ran := (@takeIn_happened _ _ _ _ _ _ [] stores).bind fun _ => @broadcastMessage_remembers _ _ _ _ outside message
  have processed : processIncoming setup outside message node =
      (takeIn message [] >>= fun _ => broadcastMessage outside message) node := by
    unfold processIncoming
    rw [bind_ok validated, if_pos valid]
  unfold stateAfter
  rw [processed]
  exact ran.stateAfter rfl

theorem forM_processIncoming {messages : List AdicMessage} {node : AdicNode σ B} (event : NodeEvent σ B)
    (happened : Happened event (recordOf node)) :
    Happened event (recordOf (stateAfter (messages.forM (processIncoming setup outside)) node)) :=
  (triple_forM (fun _ => processIncoming_remembers event) messages).stateAfter happened

end

section

variable {σ B : Type} [EconomicsStorage σ] [StorageBackend B] (setup : Setup)

def PeersAdmitted (request : NodeRequest σ B) (node : AdicNode σ B) : Prop :=
  match request with
  | .processIncomingMessages outside messages => setup.hasNetwork = true →
    ∀ before message, before ++ [message] <+: messages →
      ∀ next, before.forM (processIncoming setup outside) node = .ok ⟨⟩ next →
        PeerAdmitted setup outside message (recordOf next)
  | _ => True

variable {setup} {outside : Outside σ B} {node : AdicNode σ B}

theorem forM_admitted [LawfulBackend B] {messages : List AdicMessage} (admitted : AllAdmitted setup (recordOf node))
    (peers : ∀ before message, before ++ [message] <+: messages →
      ∀ next, before.forM (processIncoming setup outside) node = .ok ⟨⟩ next →
        PeerAdmitted setup outside message (recordOf next)) :
    AllAdmitted setup (recordOf (stateAfter (messages.forM (processIncoming setup outside)) node)) := by
  induction messages generalizing node with
  | nil => exact admitted
  | cons message messages ih =>
    rw [Runs.forall_steps_cons] at peers
    have one := processIncoming_admitted node ⟨admitted, peers.1 node rfl⟩
    cases run : processIncoming setup outside message node with
    | error error next =>
      rw [run] at one
      unfold stateAfter
      rw [forM_error run]
      exact one
    | ok value next =>
      rw [run] at one
      unfold stateAfter
      rw [forM_ok run]
      apply ih one
      intro before other part last ran
      apply peers.2 before other part last
      rw [forM_ok run]
      exact ran

theorem forM_happened {message : AdicMessage} {messages : List AdicMessage} {event : NodeEvent σ B}
    (happened : Happened event (recordOf (stateAfter (processIncoming setup outside message) node))) :
    Happened event (recordOf (stateAfter ((message :: messages).forM (processIncoming setup outside)) node)) := by
  unfold stateAfter at happened ⊢
  cases run : processIncoming setup outside message node with
  | error error next =>
    rw [run] at happened
    rw [forM_error run]
    exact happened
  | ok value next =>
    rw [run] at happened
    rw [forM_ok run]
    exact forM_processIncoming event happened

theorem peers_of_forM {messages before : List AdicMessage} {message : AdicMessage} {next : AdicNode σ B}
    (admitted : AllAdmitted setup (recordOf (stateAfter (messages.forM (processIncoming setup outside)) node)))
    (part : before ++ [message] <+: messages)
    (ran : before.forM (processIncoming setup outside) node = .ok ⟨⟩ next) :
    PeerAdmitted setup outside message (recordOf next) := by
  induction before generalizing node messages with
  | nil =>
    cases ran
    obtain ⟨rest, rfl⟩ := part
    intro valid storage stored
    exact admitted _ (forM_happened (processIncoming_stored valid stored))
  | cons first before ih =>
    obtain ⟨rest, rfl⟩ := part
    cases run : processIncoming setup outside first node with
    | error error last =>
      rw [forM_error run] at ran
      cases ran
    | ok value last =>
      rw [forM_ok run] at ran
      refine ih ?_ ⟨rest, rfl⟩ ran
      have whole : stateAfter ((first :: (before ++ [message] ++ rest)).forM (processIncoming setup outside)) node =
          stateAfter ((before ++ [message] ++ rest).forM (processIncoming setup outside)) last := by
        unfold stateAfter
        rw [forM_ok run]
      rw [← whole]
      exact admitted

end

section

variable {σ B : Type} [EconomicsStorage σ] [StorageBackend B] (setup : Setup)

theorem peers_of_run {node : AdicNode σ B} (request : NodeRequest σ B)
    (admitted : AllAdmitted setup (recordOf (request.run setup node))) : PeersAdmitted setup request node := by
  cases request with
  | processIncomingMessages outside messages =>
    intro network before message part next ran
    apply peers_of_forM _ part ran
    have call : NodeRequest.run setup node (.processIncomingMessages outside messages) =
        stateAfter (messages.forM (processIncoming setup outside)) node := by
      show stateAfter (processIncomingMessages setup outside messages) node = _
      unfold processIncomingMessages
      rw [if_pos network]
    rw [← call]
    exact admitted
  | _ => trivial

def nodeAfter (storage : B) (balances : BalanceManager σ) (requests : List (NodeRequest σ B)) : AdicNode σ B :=
  Runs.after (NodeRequest.run setup) (.new setup storage balances) requests

variable [LawfulBackend B]

theorem run_admitted {node : AdicNode σ B} (request : NodeRequest σ B) (admitted : AllAdmitted setup (recordOf node))
    (peers : PeersAdmitted setup request node) : AllAdmitted setup (recordOf (request.run setup node)) := by
  have discarded : ∀ {call : NodeCall σ B MessageId}, Keeps (AllAdmitted setup) call →
      AllAdmitted setup (recordOf (stateAfter (discard call : NodeCall σ B Unit) node)) := by
    intro call keeps
    exact (keeps.bind fun _ => triple_pure fun _ kept => kept).stateAfter admitted
  cases request with
  | submitMessage outside request => exact discarded (submitMessage_admitted request)
  | submitMessageWithTransfer outside content transfer =>
    exact discarded (submitMessageWithTransfer_admitted content transfer)
  | submitMessageWithParentsAndTransfer outside content parents features transfer =>
    exact discarded (submitMessageWithParentsAndTransfer_admitted content parents features transfer)
  | processIncomingMessages outside messages =>
    show AllAdmitted setup (recordOf (stateAfter (processIncomingMessages setup outside messages) node))
    unfold processIncomingMessages
    split
    · next network => exact forM_admitted admitted (peers network)
    · exact admitted
  | checkFinality outside => exact checkFinality_admitted.stateAfter admitted

/-- Every message with parents was admitted when it was stored exactly if each message of a peer that the node took
    was. -/
theorem admitted_messages_iff (storage : B) (balances : BalanceManager σ) (requests : List (NodeRequest σ B)) :
    (∀ before, before <+: requests → AllAdmitted setup (recordOf (nodeAfter setup storage balances before))) ↔
      ∀ before request, before ++ [request] <+: requests →
        PeersAdmitted setup request (nodeAfter setup storage balances before) := by
  refine @Runs.invariant_iff _ _ (NodeRequest.run setup) (.new setup storage balances) requests
    (fun node => AllAdmitted setup (recordOf node)) (fun node => AllAdmitted setup (recordOf node))
    (PeersAdmitted setup) (fun _ _ => True) ?_ ?_ ?_ ?_ ?_
  · exact fun event member => nomatch member
  · exact fun _ admitted => admitted
  · exact fun _ request admitted _ peers => run_admitted setup request admitted peers
  · exact fun _ request _ _ admitted => peers_of_run setup request admitted
  · exact fun _ _ _ => trivial

end

def oneSignatureNode : Setup where
  params := .default
  depositAmount := ⟨100000000⟩
  gamma := 9 / 10
  finalityConfig := .default
  hasNetwork := true
  publicKey := ⟨.replicate 3⟩
  sign := fun _ => ⟨List.replicate 64 1⟩
  format := ⟨fun _ => "", fun _ => ""⟩
  timestampText := oneSignature.timestampText
  order := oneSignature.order
  toString := oneSignature.toString
  blake3 := oneSignature.blake3
  ed25519 := oneSignature.ed25519
  hexDecode := fun _ => none
  decodeAddress := fun _ => none
  artifactBytes := fun _ => []
  economicsErrorText := fun _ => ""
  depositErrorText := fun _ => ""

def quietAt {σ B : Type} (seconds : Int) : Outside σ B where
  now := ⟨seconds, 0⟩
  readError := fun _ _ => none
  deliver := fun _ => none
  encodeAll := fun _ _ => []
  conflictPenalty := fun _ _ => 0
  checkF2 := fun _ _ => .pending
  analyze := fun _ _ => .ok .notFinal
  chance := ⟨fun _ _ _ _ => 1, fun _ _ _ _ => one_pos, fun _ _ _ => 0, fun _ _ _ => ⟨le_refl 0, one_pos⟩, .stored⟩

def quiet : Outside MemoryStorage MemoryBackend := quietAt 0

def parentless : AdicMessage := { signedMessage with parents := [] }

def dataText : Json.Value → String
  | .object fields =>
    match fields.lookup "data" with
    | some (.array bytes) => String.ofList (bytes.map fun _ => '0')
    | _ => ""
  | _ => ""

/-- Every byte of an id is the length of the data. -/
def countingNode : Setup :=
  { oneSignatureNode with
    params := ⟨3, 1, [1], 1, 1, 2⟩
    toString := dataText
    blake3 := fun bytes => .replicate (UInt8.ofNat bytes.size) }

def sizedMessage (size : Nat) (parents : List UInt8) (key : UInt8) (seconds : Int) : AdicMessage :=
  { signedMessage with
    id := ⟨.replicate (UInt8.ofNat size)⟩
    parents := parents.map fun parent => ⟨.replicate parent⟩
    features := ⟨[⟨⟨0⟩, .fromU64 0 3 10⟩]⟩
    metadata := .new ⟨seconds, 0⟩
    proposerPk := ⟨.replicate key⟩
    data := List.replicate size 1 }

/-- The node submits the first message of the batch, and every broadcast brings the whole batch back. -/
def submitFirst : NodeRequest MemoryStorage RocksBackend :=
  .submitMessageWithParentsAndTransfer (quietAt 0) [1] [] (some ⟨[⟨0, 0⟩]⟩) none

def takeBatch (seconds : Int) : NodeRequest MemoryStorage RocksBackend :=
  .processIncomingMessages (quietAt seconds)
    [sizedMessage 1 [] 3 0, sizedMessage 2 [] 2 100, sizedMessage 3 [1, 2] 2 100]

def afterRequests (requests : List (NodeRequest MemoryStorage RocksBackend)) : AdicNode MemoryStorage RocksBackend :=
  nodeAfter countingNode .new (.new .new) requests

theorem admitted_messages_child : PeersAdmitted countingNode (takeBatch 100)
    (nodeAfter countingNode .new (.new .new) [submitFirst]) := by
  have all : ∀ before ∈ [submitFirst, takeBatch 100].inits, AllAdmitted countingNode (recordOf (afterRequests before)) := by
    decide +kernel
  have peers := (admitted_messages_iff countingNode RocksBackend.new (.new MemoryStorage.new) _).mp
    fun before part => all before ((List.mem_inits _ _).mpr part)
  exact peers [submitFirst] (takeBatch 100) (List.prefix_refl _)

/-- The first message has become old, and its refusal costs its proposer the reputation that the last one needs. -/
theorem fallen_reputation_stored :
    AllAdmitted countingNode (recordOf (afterRequests [submitFirst, takeBatch 100])) ∧
      ¬ AllAdmitted countingNode (recordOf (afterRequests [submitFirst, takeBatch 100, takeBatch 350])) := by
  constructor
  · decide +kernel
  · decide +kernel

end AdicProof.Node
