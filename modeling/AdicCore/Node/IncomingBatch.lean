import AdicCore.Node.AdmittedMessages

open AdicModel AdicModel.Economics AdicModel.Consensus AdicModel.Finality AdicModel.Storage AdicModel.Node
open AdicProof.Consensus Calls
open AdicProof.Storage (LawfulBackend)

namespace AdicProof.Node

section

variable {σ : Type} [EconomicsStorage σ] {blake3 : List UInt8 → Bytes32} {now : Int} {manager : DepositManager σ}
  {id : MessageId}

def EscrowedIn (table : HashMap.Table MessageId Deposit) (id : MessageId) : Prop :=
  ∃ deposit, table.lookup id = some deposit ∧ deposit.status = .escrowed

def slashDeposit (table : HashMap.Table MessageId Deposit) (id : MessageId) : HashMap.Table MessageId Deposit :=
  match table.lookup id with
  | some deposit => table.insert id { deposit with status := .slashed }
  | none => table

def slashAll (table : HashMap.Table MessageId Deposit) (ids : List MessageId) : HashMap.Table MessageId Deposit :=
  ids.foldl slashDeposit table

theorem lookup_slashDeposit (table : HashMap.Table MessageId Deposit) (id other : MessageId) :
    (slashDeposit table id).lookup other =
      if other = id then (table.lookup id).map fun deposit => { deposit with status := .slashed }
      else table.lookup other := by
  unfold slashDeposit
  cases found : table.lookup id with
  | some deposit =>
    simp only [HashMap.lookup_insert_eq]
    rfl
  | none =>
    show table.lookup other = if other = id then none else table.lookup other
    split
    · next same => rw [same, found]
    · rfl

variable {table : HashMap.Table MessageId Deposit} {ids : List MessageId}

theorem lookup_slashAll_other {other : MessageId}
    (unnamed : other ∉ ids) : (slashAll table ids).lookup other = table.lookup other := by
  induction ids generalizing table with
  | nil => rfl
  | cons id ids ih =>
    rw [List.mem_cons, not_or] at unnamed
    have rest : (slashAll (slashDeposit table id) ids).lookup other = (slashDeposit table id).lookup other :=
      ih unnamed.2
    rw [lookup_slashDeposit, if_neg unnamed.1] at rest
    exact rest

def Slashable (table : HashMap.Table MessageId Deposit) (ids : List MessageId) : Prop :=
  ids.Nodup ∧ ∀ id ∈ ids, EscrowedIn table id

theorem escrowedIn_slashDeposit {id other : MessageId} :
    EscrowedIn (slashDeposit table id) other ↔ other ≠ id ∧ EscrowedIn table other := by
  unfold EscrowedIn
  simp only [lookup_slashDeposit]
  by_cases same : other = id
  · simp [same]
  · simp [same]

theorem slashable_cons {id : MessageId} :
    Slashable table (id :: ids) ↔ EscrowedIn table id ∧ Slashable (slashDeposit table id) ids := by
  unfold Slashable
  simp only [List.nodup_cons, List.forall_mem_cons, escrowedIn_slashDeposit]
  constructor
  · rintro ⟨⟨fresh, nodup⟩, first, rest⟩
    exact ⟨first, nodup, fun other member => ⟨fun same => fresh (same ▸ member), rest other member⟩⟩
  · rintro ⟨first, nodup, rest⟩
    exact ⟨⟨fun member => (rest id member).1 rfl, nodup⟩, first, fun other member => (rest other member).2⟩

theorem lookup_slashAll_mem {id : MessageId}
    (slashable : Slashable table ids) (named : id ∈ ids) :
    ∃ deposit, (slashAll table ids).lookup id = some deposit ∧ deposit.status = .slashed := by
  induction ids generalizing table with
  | nil => cases named
  | cons first ids ih =>
    have rest := slashable_cons.mp slashable
    by_cases later : id ∈ ids
    · exact ih rest.2 later
    · have same : id = first := (List.mem_cons.mp named).resolve_right later
      obtain ⟨deposit, found, _⟩ := rest.1
      refine ⟨{ deposit with status := .slashed }, ?_, rfl⟩
      have kept : (slashAll (slashDeposit table first) ids).lookup id = (slashDeposit table first).lookup id :=
        lookup_slashAll_other later
      rw [lookup_slashDeposit, if_pos same, found] at kept
      exact kept

theorem slash_escrowed (unmanaged : manager.balanceManager = none) (held : EscrowedIn manager.deposits id) :
    DepositManager.slash blake3 now id manager = .ok () { manager with deposits := slashDeposit manager.deposits id } := by
  obtain ⟨deposit, found, escrowed⟩ := held
  have slashed : DepositManager.slash blake3 now id manager =
      .ok () { manager with deposits := manager.deposits.insert id { deposit with status := .slashed } } := by
    unfold DepositManager.slash
    rw [bind_get]
    simp only [found]
    rw [if_neg (not_not.mpr escrowed)]
    have free : ∀ block, DepositManager.onBalanceManager block manager = .ok () manager := by
      intro block
      unfold DepositManager.onBalanceManager
      rw [unmanaged]
    rw [bind_ok (free _)]
    rfl
  rw [slashed]
  simp only [slashDeposit, found]

theorem slash_unescrowed (unheld : ¬EscrowedIn manager.deposits id) :
    ∃ error, DepositManager.slash blake3 now id manager = .error error manager := by
  unfold DepositManager.slash
  rw [bind_get]
  cases found : manager.deposits.lookup id with
  | none => exact ⟨_, rfl⟩
  | some deposit =>
    simp only []
    rw [if_pos fun escrowed => unheld ⟨deposit, found, escrowed⟩]
    exact ⟨_, rfl⟩

end

section

variable {σ B : Type} (setup : Setup) (outside : Outside σ B)

def accepts (message : AdicMessage) : Bool :=
  (MessageValidator.new.validateMessage (setup.context outside.now) message).isValid

def contentId (message : AdicMessage) : MessageId :=
  message.computeId setup.timestampText setup.order setup.toString setup.blake3

def refusedIds (messages : List AdicMessage) : List MessageId :=
  (messages.filter fun message => !accepts setup outside message).map AdicMessage.id

def trackedIds (messages : List AdicMessage) : List MessageId :=
  (messages.filter (accepts setup outside)).flatMap fun message => [message.id, message.id]

def storedBy (message : AdicMessage) (storage : B) (node : AdicNode σ B) : AdicNode σ B :=
  { node with world := { node.world with
      storage
      history := node.world.history ++ [.stored message node.world.storage node.world.reputation] } }

def trackedBy (id : MessageId) (node : AdicNode σ B) : AdicNode σ B := { node with engine := node.engine.addMessage id }

def tippedBy (message : AdicMessage) (usedTips : List MessageId) (node : AdicNode σ B) : AdicNode σ B :=
  { node with world := { node.world with
      tipManager := insert message.id node.world.tipManager \ usedTips.toFinset } }

def slashedBy (id : MessageId) (node : AdicNode σ B) : AdicNode σ B :=
  { node with world := { node.world with
      deposits := { node.world.deposits with deposits := slashDeposit node.world.deposits.deposits id } } }

def penalizedBy (reputation : ReputationTracker) (node : AdicNode σ B) : AdicNode σ B :=
  { node with world := { node.world with reputation } }

def FromOutside : NodeError → Prop
  | .storage _ => True
  | .network _ => True
  | _ => False

def Undisturbed (call : NodeCall σ B Unit) (node : AdicNode σ B) : Prop :=
  ∀ error next, call node = .error error next → ¬FromOutside error

end

variable {messages : List AdicMessage}

section

variable {σ B : Type} {setup : Setup} {outside : Outside σ B} {message : AdicMessage}

theorem mem_refusedIds {id : MessageId} : id ∈ refusedIds setup outside messages ↔
    ∃ message ∈ messages, accepts setup outside message = false ∧ message.id = id := by
  simp [refusedIds, and_assoc]

theorem signed_of_accepts (accepted : accepts setup outside message = true) :
    message.signature.asBytes.isEmpty = false := by
  have verified := (validateMessage_valid accepted).1
  unfold Crypto.CryptoEngine.verifySignature at verified
  cases signature : message.signature.asBytes with
  | nil =>
    rw [signature] at verified
    split at verified
    · cases verified
    · cases verified
  | cons _ _ => rfl

theorem validateAndSlash_accepted [EconomicsStorage σ] (accepted : accepts setup outside message = true)
    (node : AdicNode σ B) :
    validateAndSlash setup outside message node =
      .ok (MessageValidator.new.validateMessage (setup.context outside.now) message) node := by
  have valid : (MessageValidator.new.validateMessage (setup.context outside.now) message).isValid = true := accepted
  unfold validateAndSlash
  dsimp only
  rw [if_pos valid]
  rfl

theorem invalid_of_refused (refused : accepts setup outside message = false) :
    ¬(MessageValidator.new.validateMessage (setup.context outside.now) message).isValid = true :=
  fun valid => Bool.false_ne_true (refused.symm.trans valid)

variable [EconomicsStorage σ] {node : AdicNode σ B}

theorem onDeposits_slash {id : MessageId} (unmanaged : node.world.deposits.balanceManager = none)
    (held : EscrowedIn node.world.deposits.deposits id) :
    (onDeposits (DepositManager.slash setup.hash outside.now.timestamp id) : NodeCall σ B Unit) node =
      .ok () (slashedBy id node) := by
  unfold onDeposits
  rw [slash_escrowed unmanaged held]
  rfl

theorem validateAndSlash_refused (refused : accepts setup outside message = false)
    (unmanaged : node.world.deposits.balanceManager = none)
    (held : EscrowedIn node.world.deposits.deposits message.id) :
    ∃ reputation, validateAndSlash setup outside message node =
      .ok (MessageValidator.new.validateMessage (setup.context outside.now) message)
        (penalizedBy reputation (slashedBy message.id node)) := by
  have slashed := @onDeposits_slash _ _ setup outside _ _ _ unmanaged held
  obtain ⟨deposit, found, _⟩ := held
  have costs : (slashedBy message.id node).world.deposits.deposits.lookup message.id =
      some { deposit with status := .slashed } := by
    unfold slashedBy
    dsimp only
    rw [lookup_slashDeposit, if_pos rfl, found]
    rfl
  unfold validateAndSlash
  dsimp only
  rw [if_neg (invalid_of_refused refused), bind_ok slashed, bind_get, costs]
  exact ⟨_, rfl⟩

end

section

variable {σ B : Type} [StorageBackend B] {setup : Setup} {outside : Outside σ B} {message : AdicMessage}
  {node : AdicNode σ B}

theorem storeMessage_eq (message : AdicMessage) (node : AdicNode σ B) : Node.storeMessage message node =
    match Engine.storeMessage message node.world.storage with
    | .error error => .error (.storage error) node
    | .ok storage => .ok () (storedBy message storage node) := by
  unfold Node.storeMessage
  rw [bind_get]
  cases Engine.storeMessage message node.world.storage with
  | error error => rfl
  | ok storage => rfl

theorem takeIn_eq (message : AdicMessage) (usedTips : List MessageId) (node : AdicNode σ B) :
    takeIn message usedTips node =
      match Engine.storeMessage message node.world.storage with
      | .error error => .error (.storage error) node
      | .ok storage => .ok () (trackedBy message.id (tippedBy message usedTips (storedBy message storage node))) := by
  unfold takeIn
  have stores := storeMessage_eq message node
  cases stored : Engine.storeMessage message node.world.storage with
  | error error =>
    rw [stored] at stores
    exact bind_error stores
  | ok storage =>
    rw [stored] at stores
    exact bind_ok stores

theorem broadcastMessage_eq (signed : message.signature.asBytes.isEmpty = false) (node : AdicNode σ B) :
    broadcastMessage outside message node =
      match Engine.storeMessage message node.world.storage with
      | .error error => .error (.storage error) node
      | .ok storage =>
        match outside.deliver message with
        | some text => .error (.network text) (trackedBy message.id (storedBy message storage node))
        | none => .ok () (trackedBy message.id (storedBy message storage node)) := by
  unfold broadcastMessage
  rw [signed]
  have stores := storeMessage_eq message node
  cases stored : Engine.storeMessage message node.world.storage with
  | error error =>
    rw [stored] at stores
    exact bind_error stores
  | ok storage =>
    rw [stored] at stores
    refine (bind_ok stores).trans ?_
    show (match outside.deliver message with
      | some text => (throw (NodeError.network text) : NodeCall σ B Unit)
      | none => return ()) _ = _
    cases outside.deliver message with
    | some text => rfl
    | none => rfl

variable [EconomicsStorage σ]

theorem processIncoming_accepted (accepted : accepts setup outside message = true) (node : AdicNode σ B) :
    processIncoming setup outside message node =
      match Engine.storeMessage message node.world.storage with
      | .error error => .error (.storage error) node
      | .ok storage =>
        broadcastMessage outside message (trackedBy message.id (tippedBy message [] (storedBy message storage node))) := by
  have valid : (MessageValidator.new.validateMessage (setup.context outside.now) message).isValid = true := accepted
  unfold processIncoming
  rw [bind_ok (validateAndSlash_accepted accepted node), if_pos valid]
  have taken := takeIn_eq message [] node
  cases stored : Engine.storeMessage message node.world.storage with
  | error error =>
    rw [stored] at taken
    exact bind_error taken
  | ok storage =>
    rw [stored] at taken
    exact bind_ok taken

theorem processIncoming_refused (refused : accepts setup outside message = false)
    (unmanaged : node.world.deposits.balanceManager = none)
    (held : EscrowedIn node.world.deposits.deposits message.id) :
    ∃ reputation, processIncoming setup outside message node =
      .ok () (penalizedBy reputation (slashedBy message.id node)) := by
  obtain ⟨reputation, validated⟩ := @validateAndSlash_refused _ _ _ outside _ _ _ refused unmanaged held
  refine ⟨reputation, ?_⟩
  unfold processIncoming
  rw [bind_ok validated, if_neg (invalid_of_refused refused)]
  rfl

theorem processIncoming_unheld (refused : accepts setup outside message = false)
    (unheld : ¬EscrowedIn node.world.deposits.deposits message.id) :
    ∃ error, processIncoming setup outside message node = .error (.deposit error) node := by
  have invalid := invalid_of_refused refused
  obtain ⟨error, failed⟩ := @slash_unescrowed σ _ setup.hash outside.now.timestamp node.world.deposits message.id unheld
  have slashed : (onDeposits (DepositManager.slash setup.hash outside.now.timestamp message.id) :
      NodeCall σ B Unit) node = .error (.deposit error) node := by
    unfold onDeposits
    rw [failed]
  refine ⟨error, ?_⟩
  unfold processIncoming validateAndSlash
  dsimp only
  rw [if_neg invalid]
  exact bind_error (bind_error slashed)

end

section

variable {σ B : Type} [StorageBackend B] {setup : Setup} {outside : Outside σ B} {message : AdicMessage}
  {node next : AdicNode σ B}

theorem broadcastMessage_error {error : NodeError} (signed : message.signature.asBytes.isEmpty = false)
    (failed : broadcastMessage outside message node = .error error next) : FromOutside error := by
  rw [broadcastMessage_eq signed] at failed
  cases stored : Engine.storeMessage message node.world.storage with
  | error cause =>
    rw [stored] at failed
    cases failed
    trivial
  | ok storage =>
    rw [stored] at failed
    cases delivered : outside.deliver message with
    | some text =>
      rw [delivered] at failed
      cases failed
      trivial
    | none =>
      rw [delivered] at failed
      cases failed

theorem broadcastMessage_ok (signed : message.signature.asBytes.isEmpty = false)
    (ran : broadcastMessage outside message node = .ok () next) :
    ∃ storage, Engine.storeMessage message node.world.storage = .ok storage ∧
      next = trackedBy message.id (storedBy message storage node) := by
  rw [broadcastMessage_eq signed] at ran
  cases stored : Engine.storeMessage message node.world.storage with
  | error cause =>
    rw [stored] at ran
    cases ran
  | ok storage =>
    rw [stored] at ran
    cases delivered : outside.deliver message with
    | some text =>
      rw [delivered] at ran
      cases ran
    | none =>
      rw [delivered] at ran
      cases ran
      exact ⟨storage, rfl, rfl⟩

variable [EconomicsStorage σ]

theorem accepted_error {error : NodeError} (accepted : accepts setup outside message = true)
    (failed : processIncoming setup outside message node = .error error next) : FromOutside error := by
  rw [processIncoming_accepted accepted] at failed
  cases stored : Engine.storeMessage message node.world.storage with
  | error cause =>
    rw [stored] at failed
    cases failed
    trivial
  | ok storage =>
    rw [stored] at failed
    exact broadcastMessage_error (signed_of_accepts accepted) failed

theorem accepted_ok (accepted : accepts setup outside message = true)
    (ran : processIncoming setup outside message node = .ok () next) :
    ∃ between last, Engine.storeMessage message node.world.storage = .ok between ∧
      Engine.storeMessage message between = .ok last ∧
      next = trackedBy message.id (storedBy message last
        (trackedBy message.id (tippedBy message [] (storedBy message between node)))) := by
  rw [processIncoming_accepted accepted] at ran
  cases stored : Engine.storeMessage message node.world.storage with
  | error cause =>
    rw [stored] at ran
    cases ran
  | ok between =>
    rw [stored] at ran
    obtain ⟨last, kept, same⟩ := broadcastMessage_ok (signed_of_accepts accepted) ran
    exact ⟨between, last, rfl, kept, same⟩

end

section

variable {σ B : Type} [StorageBackend B] (setup : Setup) (outside : Outside σ B)

def storedAfter (messages : List AdicMessage) (stored : MessageId → Option AdicMessage) :
    MessageId → Option AdicMessage :=
  (messages.filter (accepts setup outside)).foldl
    (fun stored message => Function.update stored message.id (some message)) stored

def WasStored (message : AdicMessage) (node : AdicNode σ B) : Prop :=
  ∃ storage reputation, Happened (.stored message storage reputation) (recordOf node)

structure Processed (messages : List AdicMessage) (node next : AdicNode σ B) : Prop where
  slashable : Slashable node.world.deposits.deposits (refusedIds setup outside messages)
  deposits : next.world.deposits = { node.world.deposits with
    deposits := slashAll node.world.deposits.deposits (refusedIds setup outside messages) }
  engine : next.engine = (trackedIds setup outside messages).foldl (fun engine id => engine.addMessage id) node.engine
  storage : ∀ id, StorageBackend.getMessage id next.world.storage =
    storedAfter setup outside messages (fun id => StorageBackend.getMessage id node.world.storage) id
  history : ∀ message ∈ messages, accepts setup outside message = true → WasStored message next

variable {setup outside} {message : AdicMessage} {messages : List AdicMessage} {node next : AdicNode σ B}

theorem refused_then {reputation : ReputationTracker} (refused : accepts setup outside message = false)
    (held : EscrowedIn node.world.deposits.deposits message.id)
    (rest : Processed setup outside messages (penalizedBy reputation (slashedBy message.id node)) next) :
    Processed setup outside (message :: messages) node next := by
  have ids : refusedIds setup outside (message :: messages) = message.id :: refusedIds setup outside messages := by
    simp [refusedIds, refused]
  have others : (message :: messages).filter (accepts setup outside) = messages.filter (accepts setup outside) := by
    simp [refused]
  constructor
  · rw [ids]
    exact slashable_cons.mpr ⟨held, rest.slashable⟩
  · rw [ids]
    exact rest.deposits
  · unfold trackedIds
    rw [others]
    exact rest.engine
  · unfold storedAfter
    rw [others]
    exact rest.storage
  · intro other member accepted
    rcases List.mem_cons.mp member with rfl | later
    · rw [refused] at accepted
      cases accepted
    · exact rest.history other later accepted

theorem accepted_then [LawfulBackend B] {between last : B} (accepted : accepts setup outside message = true)
    (first : Engine.storeMessage message node.world.storage = .ok between)
    (second : Engine.storeMessage message between = .ok last)
    (rest : Processed setup outside messages (trackedBy message.id (storedBy message last
      (trackedBy message.id (tippedBy message [] (storedBy message between node))))) next)
    (stored : WasStored message next) : Processed setup outside (message :: messages) node next := by
  have ids : refusedIds setup outside (message :: messages) = refusedIds setup outside messages := by
    simp [refusedIds, accepted]
  have others : (message :: messages).filter (accepts setup outside) =
      message :: messages.filter (accepts setup outside) := by
    simp [accepted]
  constructor
  · rw [ids]
    exact rest.slashable
  · rw [ids]
    exact rest.deposits
  · unfold trackedIds
    rw [others]
    exact rest.engine
  · have read : (fun id => StorageBackend.getMessage id last) = Function.update
        (fun id => StorageBackend.getMessage id node.world.storage) message.id (some message) := by
      funext id
      rw [getMessage_storeMessage second, getMessage_storeMessage first, Function.update_apply]
      split
      · rfl
      · rfl
    unfold storedAfter
    rw [others, List.foldl_cons, ← read]
    exact rest.storage
  · intro other member accepted
    rcases List.mem_cons.mp member with rfl | later
    · exact stored
    · exact rest.history other later accepted

variable [EconomicsStorage σ]

theorem forM_wasStored (stored : WasStored message node)
    (ran : messages.forM (processIncoming setup outside) node = .ok () next) :
    WasStored message next := by
  obtain ⟨storage, reputation, happened⟩ := stored
  refine ⟨storage, reputation, ?_⟩
  have kept := @forM_processIncoming _ _ _ setup outside _ messages node _ happened
  unfold stateAfter at kept
  rw [ran] at kept
  exact kept

theorem forM_runs (unmanaged : node.world.deposits.balanceManager = none)
    (slashable : Slashable node.world.deposits.deposits (refusedIds setup outside messages))
    (undisturbed : Undisturbed (messages.forM (processIncoming setup outside)) node) :
    ∃ next, messages.forM (processIncoming setup outside) node = .ok () next := by
  induction messages generalizing node with
  | nil => exact ⟨node, rfl⟩
  | cons message messages ih =>
    cases verdict : accepts setup outside message with
    | true =>
      cases first : processIncoming setup outside message node with
      | error error middle =>
        exact absurd (accepted_error verdict first) (undisturbed error middle (forM_error first))
      | ok value middle =>
        unfold Undisturbed at undisturbed
        rw [forM_ok first] at undisturbed ⊢
        obtain ⟨between, last, _, _, rfl⟩ := accepted_ok verdict first
        apply ih
        · exact unmanaged
        · have ids : refusedIds setup outside (message :: messages) = refusedIds setup outside messages := by
            simp [refusedIds, verdict]
          rw [ids] at slashable
          exact slashable
        · exact undisturbed
    | false =>
      have ids : refusedIds setup outside (message :: messages) = message.id :: refusedIds setup outside messages := by
        simp [refusedIds, verdict]
      rw [ids, slashable_cons] at slashable
      obtain ⟨reputation, first⟩ := @processIncoming_refused _ _ _ setup outside _ _ _ verdict unmanaged slashable.1
      unfold Undisturbed at undisturbed
      rw [forM_ok first] at undisturbed ⊢
      apply ih
      · exact unmanaged
      · exact slashable.2
      · exact undisturbed

theorem undisturbed_of_sound (unmanaged : node.world.deposits.balanceManager = none)
    (stores : ∀ (message : AdicMessage) (storage : B), ∃ next, Engine.storeMessage message storage = .ok next)
    (delivers : ∀ message, outside.deliver message = none) :
    Undisturbed (messages.forM (processIncoming setup outside)) node := by
  induction messages generalizing node with
  | nil => exact fun error next ran => nomatch ran
  | cons message messages ih =>
    unfold Undisturbed
    cases verdict : accepts setup outside message with
    | true =>
      obtain ⟨between, stored⟩ := stores message node.world.storage
      obtain ⟨last, kept⟩ := stores message between
      have first := processIncoming_accepted verdict node
      rw [stored] at first
      dsimp only at first
      have passed : broadcastMessage outside message
          (trackedBy message.id (tippedBy message [] (storedBy message between node))) = .ok () (trackedBy message.id
            (storedBy message last (trackedBy message.id (tippedBy message [] (storedBy message between node))))) := by
        have again : Engine.storeMessage message (trackedBy message.id (tippedBy message []
          (storedBy message between node))).world.storage = .ok last := kept
        rw [broadcastMessage_eq (signed_of_accepts verdict), again, delivers]
      rw [forM_ok (first.trans passed)]
      apply ih
      exact unmanaged
    | false =>
      by_cases held : EscrowedIn node.world.deposits.deposits message.id
      · obtain ⟨reputation, first⟩ := @processIncoming_refused _ _ _ setup outside _ _ _ verdict unmanaged held
        rw [forM_ok first]
        apply ih
        exact unmanaged
      · obtain ⟨error, failed⟩ := @processIncoming_unheld _ _ _ setup outside _ _ _ verdict held
        rw [forM_error failed]
        rintro _ _ same
        cases same
        exact id

theorem forM_processed [LawfulBackend B] (unmanaged : node.world.deposits.balanceManager = none)
    (ran : messages.forM (processIncoming setup outside) node = .ok () next) :
    Processed setup outside messages node next := by
  induction messages generalizing node with
  | nil =>
    cases ran
    exact ⟨⟨List.nodup_nil, nofun⟩, rfl, rfl, fun _ => rfl, nofun⟩
  | cons message messages ih =>
    cases first : processIncoming setup outside message node with
    | error error middle =>
      rw [forM_error first] at ran
      cases ran
    | ok value middle =>
      rw [forM_ok first] at ran
      cases verdict : accepts setup outside message with
      | true =>
        obtain ⟨between, last, stored, kept, same⟩ := accepted_ok verdict first
        have still : middle.world.deposits.balanceManager = none := by
          rw [same]
          exact unmanaged
        have happened : WasStored message middle := by
          rw [same]
          exact ⟨between, node.world.reputation, List.mem_append_right _ List.mem_cons_self⟩
        have rest := ih still ran
        rw [same] at rest
        exact accepted_then verdict stored kept rest (forM_wasStored happened ran)
      | false =>
        by_cases held : EscrowedIn node.world.deposits.deposits message.id
        · obtain ⟨reputation, processed⟩ := @processIncoming_refused _ _ _ setup outside _ _ _ verdict unmanaged held
          rw [processed] at first
          cases first
          have rest := ih (by exact unmanaged) ran
          exact refused_then verdict held rest
        · obtain ⟨error, failed⟩ := @processIncoming_unheld _ _ _ setup outside _ _ _ verdict held
          rw [failed] at first
          cases first

end

theorem foldl_update_mem {message : AdicMessage} (member : message ∈ messages)
    (stored : MessageId → Option AdicMessage) : ∃ last ∈ messages, last.id = message.id ∧
      messages.foldl (fun (stored : MessageId → Option AdicMessage) message =>
        Function.update stored message.id (some message)) stored message.id = some last := by
  induction messages using List.reverseRecOn with
  | nil => cases member
  | append_singleton messages last ih =>
    rw [List.foldl_append, List.foldl_cons, List.foldl_nil]
    by_cases same : last.id = message.id
    · refine ⟨last, List.mem_append_right _ List.mem_cons_self, same, ?_⟩
      rw [same, Function.update_self]
    · have earlier : message ∈ messages := by
        rcases List.mem_append.mp member with earlier | new
        · exact earlier
        · rw [List.mem_singleton.mp new] at same
          exact absurd rfl same
      obtain ⟨found, held, id, read⟩ := ih earlier
      refine ⟨found, List.mem_append_left _ held, id, ?_⟩
      rw [Function.update_of_ne fun equal => same equal.symm]
      exact read

section

variable {σ B : Type} [EconomicsStorage σ] [StorageBackend B] (setup : Setup) (outside : Outside σ B)
  (messages : List AdicMessage) (node : AdicNode σ B)

abbrev batchAfter : AdicNode σ B := stateAfter (processIncomingMessages setup outside messages) node

structure Harmless : Prop where
  returns : ∃ next, processIncomingMessages setup outside messages node = .ok () next
  stored : ∀ message ∈ messages, accepts setup outside message = true →
    WasStored message (batchAfter setup outside messages node) ∧
      ∃ last ∈ messages, accepts setup outside last = true ∧ last.id = message.id ∧
        StorageBackend.getMessage message.id (batchAfter setup outside messages node).world.storage = some last
  tracked : (batchAfter setup outside messages node).engine =
    (trackedIds setup outside messages).foldl (fun engine id => engine.addMessage id) node.engine
  deposits : ∀ id deposit, node.world.deposits.deposits.lookup id = some deposit → deposit.status = .escrowed →
    (∀ message ∈ messages, accepts setup outside message = false → message.id = id → contentId setup message ≠ id) →
      (batchAfter setup outside messages node).world.deposits.deposits.lookup id = some deposit

structure RefusedPay (table : HashMap.Table MessageId Deposit) : Prop where
  slashable : Slashable table (refusedIds setup outside messages)
  content : ∀ message ∈ messages, accepts setup outside message = false → contentId setup message = message.id

variable {setup outside messages node}

theorem harmless_of_processed {next : AdicNode σ B} (network : setup.hasNetwork = true)
    (ran : messages.forM (processIncoming setup outside) node = .ok () next)
    (processed : Processed setup outside messages node next)
    (content : ∀ message ∈ messages, accepts setup outside message = false → contentId setup message = message.id) :
    Harmless setup outside messages node := by
  have call : processIncomingMessages setup outside messages node = .ok () next := by
    unfold processIncomingMessages
    rw [if_pos network]
    exact ran
  have after : batchAfter setup outside messages node = next := by
    unfold batchAfter stateAfter
    rw [call]
  constructor
  · exact ⟨next, call⟩
  · intro message member accepted
    rw [after]
    refine ⟨processed.history message member accepted, ?_⟩
    obtain ⟨last, held, same, read⟩ := foldl_update_mem
      (List.mem_filter.mpr ⟨member, accepted⟩ : message ∈ messages.filter (accepts setup outside))
      (fun id => StorageBackend.getMessage id node.world.storage)
    refine ⟨last, (List.mem_filter.mp held).1, (List.mem_filter.mp held).2, same, ?_⟩
    rw [processed.storage]
    exact read
  · rw [after]
    exact processed.engine
  · intro id deposit found _ unnamed
    rw [after, processed.deposits]
    have other : id ∉ refusedIds setup outside messages := by
      intro named
      obtain ⟨message, member, refused, same⟩ := mem_refusedIds.mp named
      exact unnamed message member refused same ((content message member refused).trans same)
    exact (lookup_slashAll_other other).trans found

theorem refusedPay_of_harmless [LawfulBackend B] (network : setup.hasNetwork = true)
    (unmanaged : node.world.deposits.balanceManager = none) (harmless : Harmless setup outside messages node) :
    RefusedPay setup outside messages node.world.deposits.deposits := by
  obtain ⟨next, call⟩ := harmless.returns
  have after : batchAfter setup outside messages node = next := by
    unfold batchAfter stateAfter
    rw [call]
  unfold processIncomingMessages at call
  rw [if_pos network] at call
  have processed := forM_processed unmanaged call
  refine ⟨processed.slashable, ?_⟩
  intro message member refused
  have named : message.id ∈ refusedIds setup outside messages := mem_refusedIds.mpr ⟨message, member, refused, rfl⟩
  obtain ⟨deposit, found, escrowed⟩ := processed.slashable.2 message.id named
  obtain ⟨cost, read, slashed⟩ := lookup_slashAll_mem processed.slashable named
  by_contra foreign
  have kept := harmless.deposits message.id deposit found escrowed ?_
  · rw [after, processed.deposits] at kept
    have same : some cost = some deposit := read.symm.trans kept
    cases same
    rw [slashed] at escrowed
    cases escrowed
  · intro other held refusal same
    have equal : other = message := List.inj_on_of_nodup_map processed.slashable.1
      (List.mem_filter.mpr ⟨held, by simp [refusal]⟩) (List.mem_filter.mpr ⟨member, by simp [refused]⟩) same
    rw [equal]
    exact foreign

/-- A batch of messages of peers harms nobody else exactly if each refused message pays with a deposit of its own. -/
theorem batch_harmless_iff [LawfulBackend B] (network : setup.hasNetwork = true)
    (unmanaged : node.world.deposits.balanceManager = none)
    (undisturbed : Undisturbed (processIncomingMessages setup outside messages) node) :
    Harmless setup outside messages node ↔ RefusedPay setup outside messages node.world.deposits.deposits := by
  constructor
  · exact refusedPay_of_harmless network unmanaged
  · intro pay
    unfold processIncomingMessages at undisturbed
    rw [if_pos network] at undisturbed
    obtain ⟨next, ran⟩ := forM_runs unmanaged pay.slashable undisturbed
    exact harmless_of_processed network ran (forM_processed unmanaged ran) pay.content

end

def staleBatch : List AdicMessage := [sizedMessage 2 [] 2 0, sizedMessage 3 [] 2 400]

def freshRocks : AdicNode MemoryStorage RocksBackend := .new countingNode .new (.new .new)

def depositedRocks : AdicNode MemoryStorage RocksBackend :=
  { freshRocks with world := { freshRocks.world with
      deposits := { freshRocks.world.deposits with
        deposits := HashMap.ofPairs
          [(⟨.replicate 2⟩, ⟨⟨.replicate 2⟩, ⟨.replicate 2⟩, ⟨100000000⟩, .escrowed, 0⟩)] } } }

theorem undisturbed_rocks {node : AdicNode MemoryStorage RocksBackend}
    (unmanaged : node.world.deposits.balanceManager = none) :
    Undisturbed (processIncomingMessages countingNode (quietAt 400) messages) node :=
  undisturbed_of_sound unmanaged (fun _ _ => ⟨_, rfl⟩) fun _ => rfl

theorem refusedIds_staleBatch :
    refusedIds countingNode (quietAt 400 : Outside MemoryStorage RocksBackend) staleBatch = [⟨.replicate 2⟩] := by
  decide +kernel

theorem batch_harmless_deposited : Harmless countingNode (quietAt 400) staleBatch depositedRocks := by
  refine (batch_harmless_iff rfl rfl (undisturbed_rocks rfl)).mpr ⟨⟨by decide +kernel, ?_⟩, by decide +kernel⟩
  intro id member
  rw [refusedIds_staleBatch, List.mem_singleton] at member
  exact ⟨⟨⟨.replicate 2⟩, ⟨.replicate 2⟩, ⟨100000000⟩, .escrowed, 0⟩, by rw [member]; decide +kernel, rfl⟩

/-- One old message ends the batch. -/
theorem stale_message_stops_batch :
    ¬ ∀ (setup : Setup) (outside : Outside MemoryStorage RocksBackend) (messages : List AdicMessage)
      (node : AdicNode MemoryStorage RocksBackend), setup.hasNetwork = true →
        node.world.deposits.balanceManager = none →
        Undisturbed (processIncomingMessages setup outside messages) node → Harmless setup outside messages node := by
  intro harmless
  have batch := harmless countingNode (quietAt 400) staleBatch freshRocks rfl rfl (undisturbed_rocks rfl)
  have pay := refusedPay_of_harmless rfl rfl batch
  have named : (⟨.replicate 2⟩ : MessageId) ∈
      refusedIds countingNode (quietAt 400 : Outside MemoryStorage RocksBackend) staleBatch := by
    rw [refusedIds_staleBatch]
    exact List.mem_singleton_self _
  obtain ⟨deposit, found, _⟩ := pay.slashable.2 _ named
  cases found

end AdicProof.Node
