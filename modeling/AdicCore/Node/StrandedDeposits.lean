import AdicCore.Node.IncomingBatch

open AdicModel AdicModel.Economics AdicModel.Consensus AdicModel.Finality AdicModel.Storage AdicModel.Node
open AdicProof.Storage (LawfulBackend)
open Calls

namespace AdicProof.Node

inductive Submission (σ B : Type) where
  | withTransfer (outside : Outside σ B) (content : List UInt8) (transfer : Option ValueTransfer)
  | withParentsAndTransfer (outside : Outside σ B) (content : List UInt8) (parents : List MessageId)
      (features : Option SubmitFeatures) (transfer : Option ValueTransfer)

namespace Submission

variable {σ B : Type}

def outside : Submission σ B → Outside σ B
  | .withTransfer outside _ _ => outside
  | .withParentsAndTransfer outside _ _ _ _ => outside

def request : Submission σ B → NodeRequest σ B
  | .withTransfer outside content transfer => .submitMessageWithTransfer outside content transfer
  | .withParentsAndTransfer outside content parents features transfer =>
    .submitMessageWithParentsAndTransfer outside content parents features transfer

variable [EconomicsStorage σ] [StorageBackend B] (setup : Setup)

def compose : Submission σ B → NodeCall σ B AdicMessage
  | .withTransfer outside content transfer => do
    let tips := outside.chance.order.iterate (sortIds (← get).world.tipManager)
    let features ← tipFeatures setup outside tips
    let parents ← selectParents setup outside features tips
    checkTransfer outside transfer
    return ownMessage setup outside parents features transfer content
  | .withParentsAndTransfer outside content parents features transfer => do
    let features ← explicitFeatures setup outside parents features
    checkTransfer outside transfer
    return ownMessage setup outside parents features transfer content

theorem compose_onlyBalances (submission : Submission σ B) : OnlyBalances (submission.compose setup) := by
  cases submission with
  | withTransfer outside content transfer =>
    apply onlyBalances_get
    intro node
    refine (tipFeatures_onlyBalances setup outside _).bind fun features => ?_
    refine (selectParents_onlyBalances setup outside features _).bind fun parents => ?_
    exact (checkTransfer_onlyBalances outside transfer).bind fun _ => onlyBalances_pure _
  | withParentsAndTransfer outside content parents features transfer =>
    refine (explicitFeatures_onlyBalances setup outside parents features).bind fun features => ?_
    exact (checkTransfer_onlyBalances outside transfer).bind fun _ => onlyBalances_pure _

theorem call_eq (submission : Submission σ B) : submission.request.call setup =
    discard (submission.compose setup >>= submitSigned setup submission.outside) := by
  cases submission with
  | withTransfer outside content transfer =>
    simp only [request, NodeRequest.call, submitMessageWithTransfer, submitWith, compose, Submission.outside, bind_assoc,
      pure_bind]
  | withParentsAndTransfer outside content parents features transfer =>
    simp only [request, NodeRequest.call, submitMessageWithParentsAndTransfer, submitWith, compose, Submission.outside,
      bind_assoc, pure_bind]

end Submission

section

variable {σ B : Type} [StorageBackend B] (setup : Setup) (outside : Outside σ B)

def NoneStranded (node : AdicNode σ B) : Prop :=
  ∀ id, EscrowedIn node.world.deposits.deposits id → (StorageBackend.getMessage id node.world.storage).isSome = true

def verdict (message : AdicMessage) (storage : B) (reputation : ReputationTracker) : Option Bool :=
  if message.parents.isEmpty then some true
  else match fetchParents outside storage message.parents with
    | .error _ => none
    | .ok found =>
      match (AdmissibilityChecker.new setup.params).checkMessage setup.format message (found.map qpDigits)
        (found.map fun parent => reputation.getReputation parent.proposerPk) with
      | .error _ => none
      | .ok result => some result.isAdmissible

/-- The message is stored already, or its checks end without an error and the storage takes it if it passes them. -/
def Settles (message : AdicMessage) (node : AdicNode σ B) : Prop :=
  (StorageBackend.getMessage message.id node.world.storage).isSome = true ∨
    ∃ passed, verdict setup outside message node.world.storage node.world.reputation = some passed ∧
      (passed = true → accepts setup outside message = true →
        ∃ next, Engine.storeMessage message node.world.storage = .ok next)

def escrowTable (message : AdicMessage) (node : AdicNode σ B) : HashMap.Table MessageId Deposit :=
  node.world.deposits.deposits.insert message.id
    ⟨message.id, setup.publicKey, node.world.deposits.depositAmount, .escrowed, outside.now.timestamp⟩

def escrowedBy (message : AdicMessage) (node : AdicNode σ B) : AdicNode σ B :=
  { node with world := { node.world with
      deposits := { node.world.deposits with deposits := escrowTable setup outside message node } } }

inductive Submitted (message : AdicMessage) (node after : AdicNode σ B) : Prop where
  | stopped (stops : ¬∃ passed, verdict setup outside message node.world.storage node.world.reputation = some passed ∧
      (passed = true → accepts setup outside message = true →
        ∃ next, Engine.storeMessage message node.world.storage = .ok next))
    (deposits : after.world.deposits = (escrowedBy setup outside message node).world.deposits)
    (storage : after.world.storage = node.world.storage)
  | slashed (passed : Bool) (judged : verdict setup outside message node.world.storage node.world.reputation = some passed)
    (refused : passed = true → accepts setup outside message = false)
    (deposits : after.world.deposits = (slashedBy message.id (escrowedBy setup outside message node)).world.deposits)
    (storage : after.world.storage = node.world.storage)
  | stored (judged : verdict setup outside message node.world.storage node.world.reputation = some true)
    (taken : ∃ next, Engine.storeMessage message node.world.storage = .ok next)
    (deposits : after.world.deposits = (escrowedBy setup outside message node).world.deposits)
    (storage : ∀ id, id = message.id ∨ (StorageBackend.getMessage id node.world.storage).isSome = true →
      (StorageBackend.getMessage id after.world.storage).isSome = true)

end

section

variable {σ B : Type} {setup : Setup} {outside : Outside σ B} {message : AdicMessage} {node : AdicNode σ B}

theorem escrowedIn_escrowTable : EscrowedIn (escrowTable setup outside message node) message.id := by
  refine ⟨⟨message.id, setup.publicKey, node.world.deposits.depositAmount, .escrowed, outside.now.timestamp⟩, ?_, rfl⟩
  exact AList.lookup_insert _

theorem escrowedIn_escrowTable_other {id : MessageId} (other : id ≠ message.id) :
    EscrowedIn (escrowTable setup outside message node) id ↔ EscrowedIn node.world.deposits.deposits id := by
  unfold EscrowedIn escrowTable
  rw [HashMap.lookup_insert_eq, if_neg other]

theorem onDeposits_escrow [EconomicsStorage σ] (unmanaged : node.world.deposits.balanceManager = none) :
    (onDeposits (DepositManager.escrow setup.hash outside.now.timestamp message.id setup.publicKey) :
      NodeCall σ B Unit) node = .ok () (escrowedBy setup outside message node) := by
  have escrowed : DepositManager.escrow setup.hash outside.now.timestamp message.id setup.publicKey node.world.deposits =
      .ok () { node.world.deposits with deposits := escrowTable setup outside message node } := by
    unfold DepositManager.escrow
    rw [bind_get]
    have free : ∀ block, DepositManager.onBalanceManager block node.world.deposits = .ok () node.world.deposits := by
      intro block
      unfold DepositManager.onBalanceManager
      rw [unmanaged]
    rw [bind_ok (free _)]
    rfl
  unfold onDeposits
  rw [escrowed]
  rfl

variable [StorageBackend B]

theorem getMessage_kept [LawfulBackend B] {before after : B} (stored : Engine.storeMessage message before = .ok after)
    {id : MessageId} (held : id = message.id ∨ (StorageBackend.getMessage id before).isSome = true) :
    (StorageBackend.getMessage id after).isSome = true := by
  rw [getMessage_storeMessage stored]
  split
  · rfl
  · next other => exact held.resolve_left other

theorem broadcastMessage_keeps [LawfulBackend B] (signed : message.signature.asBytes.isEmpty = false) :
    (stateAfter (broadcastMessage outside message) node).world.deposits = node.world.deposits ∧
      ∀ id, (StorageBackend.getMessage id node.world.storage).isSome = true →
        (StorageBackend.getMessage id (stateAfter (broadcastMessage outside message) node).world.storage).isSome =
          true := by
  unfold stateAfter
  rw [broadcastMessage_eq signed]
  cases stored : Engine.storeMessage message node.world.storage with
  | error error => exact ⟨rfl, fun _ held => held⟩
  | ok storage =>
    have kept := fun id held => getMessage_kept stored (Or.inr held : id = message.id ∨ _)
    cases outside.deliver message with
    | some text => exact ⟨rfl, kept⟩
    | none => exact ⟨rfl, kept⟩

theorem submitted_of_taken [LawfulBackend B] {storage : B}
    (judged : verdict setup outside message node.world.storage node.world.reputation = some true)
    (signed : message.signature.asBytes.isEmpty = false)
    (stored : Engine.storeMessage message node.world.storage = .ok storage) :
    Submitted setup outside message node (stateAfter
      (do if setup.hasNetwork then broadcastMessage outside message
          return message.id)
      (trackedBy message.id (tippedBy message message.parents
        (storedBy message storage (escrowedBy setup outside message node))))) := by
  have kept := fun id held => @getMessage_kept _ _ _ _ _ _ stored id held
  by_cases network : setup.hasNetwork = true
  · have passed := @broadcastMessage_keeps _ _ outside message (trackedBy message.id (tippedBy message message.parents
      (storedBy message storage (escrowedBy setup outside message node)))) _ _ signed
    dsimp only
    rw [if_pos network, stateAfter_bind_pure]
    exact .stored judged ⟨storage, stored⟩ passed.1 fun id held => passed.2 id (kept id held)
  · dsimp only
    rw [if_neg network]
    exact .stored judged ⟨storage, stored⟩ rfl kept

variable [EconomicsStorage σ]

theorem checkAdmissibility_run (unmanaged : node.world.deposits.balanceManager = none)
    (held : EscrowedIn node.world.deposits.deposits message.id) :
    match verdict setup outside message node.world.storage node.world.reputation with
    | none => ∃ error, checkAdmissibility setup outside message node = .error error node
    | some false => ∃ error, checkAdmissibility setup outside message node = .error error (slashedBy message.id node)
    | some true => checkAdmissibility setup outside message node = .ok () node := by
  unfold verdict checkAdmissibility
  by_cases parents : message.parents.isEmpty = true
  · simp only [if_pos parents]
    rfl
  · simp only [if_neg parents, bind_get]
    cases fetchParents outside node.world.storage message.parents with
    | error error => exact ⟨_, rfl⟩
    | ok found =>
      dsimp only
      cases (AdmissibilityChecker.new setup.params).checkMessage setup.format message (found.map qpDigits)
        (found.map fun parent => node.world.reputation.getReputation parent.proposerPk) with
      | error error => exact ⟨_, rfl⟩
      | ok result =>
        dsimp only
        cases result.isAdmissible with
        | true => rfl
        | false =>
          rw [if_neg Bool.false_ne_true, bind_ok (onDeposits_slash unmanaged held)]
          exact ⟨_, rfl⟩

theorem submitSigned_submitted [LawfulBackend B] (unmanaged : node.world.deposits.balanceManager = none) :
    Submitted setup outside message node (stateAfter (submitSigned setup outside message) node) := by
  have held : EscrowedIn (escrowedBy setup outside message node).world.deposits.deposits message.id :=
    escrowedIn_escrowTable
  have checked := @checkAdmissibility_run _ _ setup outside message (escrowedBy setup outside message node) _ _
    unmanaged held
  unfold stateAfter submitSigned
  rw [bind_ok (onDeposits_escrow unmanaged)]
  cases judged : verdict setup outside message node.world.storage node.world.reputation with
  | none =>
    have same : verdict setup outside message (escrowedBy setup outside message node).world.storage
        (escrowedBy setup outside message node).world.reputation = none := judged
    rw [same] at checked
    obtain ⟨error, failed⟩ := checked
    rw [bind_error failed]
    refine .stopped ?_ rfl rfl
    rintro ⟨passed, other, _⟩
    rw [judged] at other
    cases other
  | some passed =>
    have same : verdict setup outside message (escrowedBy setup outside message node).world.storage
        (escrowedBy setup outside message node).world.reputation = some passed := judged
    rw [same] at checked
    cases passed with
    | false =>
      obtain ⟨error, failed⟩ := checked
      rw [bind_error failed]
      exact .slashed false judged nofun rfl rfl
    | true =>
      rw [bind_ok checked]
      cases refusal : accepts setup outside message with
      | false =>
        obtain ⟨reputation, validated⟩ := @validateAndSlash_refused _ _ _ outside message _
          (escrowedBy setup outside message node) refusal unmanaged held
        rw [bind_ok validated, if_neg (invalid_of_refused refusal)]
        exact .slashed true judged (fun _ => refusal) rfl rfl
      | true =>
        have valid : (MessageValidator.new.validateMessage (setup.context outside.now) message).isValid = true := refusal
        rw [bind_ok (validateAndSlash_accepted refusal _), if_pos valid]
        have taken := takeIn_eq message message.parents (escrowedBy setup outside message node)
        cases stored : Engine.storeMessage message node.world.storage with
        | error error =>
          have again : Engine.storeMessage message (escrowedBy setup outside message node).world.storage =
            .error error := stored
          rw [again] at taken
          rw [bind_error taken]
          refine .stopped ?_ rfl rfl
          rintro ⟨passed, other, takes⟩
          rw [judged] at other
          cases other
          obtain ⟨next, kept⟩ := takes rfl refusal
          rw [stored] at kept
          cases kept
        | ok storage =>
          have again : Engine.storeMessage message (escrowedBy setup outside message node).world.storage =
            .ok storage := stored
          rw [again] at taken
          rw [bind_ok taken]
          exact submitted_of_taken judged (signed_of_accepts refusal) stored

end

section

variable {σ B : Type} [StorageBackend B] {setup : Setup} {outside : Outside σ B} {message : AdicMessage}
  {node after : AdicNode σ B}

theorem noneStranded_escrowed (none : NoneStranded node)
    (deposits : after.world.deposits = (escrowedBy setup outside message node).world.deposits)
    (storage : after.world.storage = node.world.storage) :
    NoneStranded after ↔ (StorageBackend.getMessage message.id node.world.storage).isSome = true := by
  unfold NoneStranded
  rw [deposits, storage]
  constructor
  · intro settled
    exact settled message.id escrowedIn_escrowTable
  · intro held id escrowed
    by_cases same : id = message.id
    · rw [same]
      exact held
    · exact none id ((escrowedIn_escrowTable_other same).mp escrowed)

theorem submitted_iff (none : NoneStranded node) (submitted : Submitted setup outside message node after) :
    NoneStranded after ↔ Settles setup outside message node := by
  cases submitted with
  | stopped stops deposits storage =>
    rw [noneStranded_escrowed none deposits storage]
    exact ⟨Or.inl, fun settles => settles.resolve_right stops⟩
  | slashed passed judged refused deposits storage =>
    constructor
    · intro _
      refine Or.inr ⟨passed, judged, ?_⟩
      intro passes accepted
      rw [refused passes] at accepted
      cases accepted
    · intro _ id escrowed
      rw [deposits] at escrowed
      obtain ⟨other, held⟩ := escrowedIn_slashDeposit.mp escrowed
      rw [storage]
      exact none id ((escrowedIn_escrowTable_other other).mp held)
  | stored judged taken deposits storage =>
    constructor
    · intro _
      exact Or.inr ⟨true, judged, fun _ _ => taken⟩
    · intro _ id escrowed
      rw [deposits] at escrowed
      apply storage
      by_cases same : id = message.id
      · exact Or.inl same
      · exact Or.inr (none id ((escrowedIn_escrowTable_other same).mp escrowed))

theorem Submitted.unmanaged (submitted : Submitted setup outside message node after)
    (unmanaged : node.world.deposits.balanceManager = none) : after.world.deposits.balanceManager = none := by
  cases submitted with
  | stopped _ deposits _ =>
    rw [deposits]
    exact unmanaged
  | slashed _ _ _ deposits _ =>
    rw [deposits]
    exact unmanaged
  | stored _ _ deposits _ =>
    rw [deposits]
    exact unmanaged

end

section

variable {σ B : Type} [EconomicsStorage σ] [StorageBackend B] (setup : Setup)

def SubmissionSettles (submission : Submission σ B) (node : AdicNode σ B) : Prop :=
  ∀ message next, submission.compose setup node = .ok message next → Settles setup submission.outside message node

def submissionStep (node : AdicNode σ B) (submission : Submission σ B) : AdicNode σ B :=
  submission.request.run setup node

def afterSubmissions (storage : B) (balances : BalanceManager σ) (submissions : List (Submission σ B)) : AdicNode σ B :=
  Runs.after (submissionStep setup) (.new setup storage balances) submissions

variable {setup} {node : AdicNode σ B}

theorem submissionStep_eq (submission : Submission σ B) : submissionStep setup node submission =
    stateAfter (submission.compose setup >>= submitSigned setup submission.outside) node := by
  unfold submissionStep NodeRequest.run
  rw [submission.call_eq]
  exact stateAfter_bind_pure

theorem submissionStep_iff [LawfulBackend B] (unmanaged : node.world.deposits.balanceManager = none)
    (none : NoneStranded node) (submission : Submission σ B) :
    (submissionStep setup node submission).world.deposits.balanceManager = Option.none ∧
      (NoneStranded (submissionStep setup node submission) ↔ SubmissionSettles setup submission node) := by
  rw [submissionStep_eq]
  obtain ⟨balances, same⟩ := submission.compose_onlyBalances setup node
  unfold SubmissionSettles
  unfold stateAfter at same
  cases composed : submission.compose setup node with
  | error error next =>
    rw [composed] at same
    have after : stateAfter (submission.compose setup >>= submitSigned setup submission.outside) node = next := by
      unfold stateAfter
      rw [bind_error composed]
    rw [after]
    change next = _ at same
    rw [same]
    refine ⟨unmanaged, ⟨?_, fun _ => none⟩⟩
    intro _ message last ran
    cases ran
  | ok message next =>
    rw [composed] at same
    change next = _ at same
    have after : stateAfter (submission.compose setup >>= submitSigned setup submission.outside) node =
        stateAfter (submitSigned setup submission.outside message) next := by
      unfold stateAfter
      rw [bind_ok composed]
    rw [after, same]
    have submitted := @submitSigned_submitted _ _ setup submission.outside message
      { node with world := { node.world with balances } } _ _ _ unmanaged
    have still : NoneStranded { node with world := { node.world with balances } } := none
    refine ⟨submitted.unmanaged unmanaged, (submitted_iff still submitted).trans ?_⟩
    constructor
    · intro settles other last ran
      cases ran
      exact settles
    · intro settles
      exact settles message _ rfl

/-- No submission of a run strands its deposit exactly if the message of each of them settles. -/
theorem no_deposit_stranded_iff [LawfulBackend B] (storage : B) (balances : BalanceManager σ)
    (submissions : List (Submission σ B)) :
    (∀ before, before <+: submissions → NoneStranded (afterSubmissions setup storage balances before)) ↔
      ∀ before submission, before ++ [submission] <+: submissions →
        SubmissionSettles setup submission (afterSubmissions setup storage balances before) := by
  refine @Runs.invariant_iff _ _ (submissionStep setup) (.new setup storage balances) submissions NoneStranded
    (fun node => node.world.deposits.balanceManager = none ∧ NoneStranded node) (SubmissionSettles setup)
    (fun _ _ => True) ?_ ?_ ?_ ?_ ?_
  · exact ⟨rfl, fun id escrowed => nomatch escrowed.choose_spec.1⟩
  · exact fun _ both => both.2
  · intro node submission both _ settles
    have step := @submissionStep_iff _ _ _ _ setup _ _ both.1 both.2 submission
    exact ⟨step.1, step.2.mpr settles⟩
  · intro node submission both _ later
    exact (submissionStep_iff both.1 both.2 submission).2.mp later
  · exact fun _ _ _ => trivial

end

def submitUnder (parents : List MessageId) : Submission MemoryStorage MemoryBackend :=
  .withParentsAndTransfer quiet [1] parents (some ⟨[⟨0, 1⟩]⟩) none

theorem no_deposit_stranded_parentless :
    NoneStranded (afterSubmissions oneSignatureNode MemoryBackend.new (.new MemoryStorage.new) [submitUnder []]) := by
  refine (no_deposit_stranded_iff MemoryBackend.new (.new MemoryStorage.new) _).mpr ?_ _ (List.prefix_refl _)
  intro before submission part message next composed
  cases before with
  | nil =>
    have last : submission ∈ [submitUnder []] := part.subset (by simp)
    cases List.mem_singleton.mp last
    cases composed
    exact Or.inr ⟨true, rfl, fun _ _ => ⟨_, rfl⟩⟩
  | cons first before =>
    have short := part.length_le
    simp at short

theorem unknown_parent_strands_deposit :
    ¬ ∀ (setup : Setup) (storage : MemoryBackend) (balances : BalanceManager MemoryStorage)
      (submissions : List (Submission MemoryStorage MemoryBackend)) before, before <+: submissions →
        NoneStranded (afterSubmissions setup storage balances before) := by
  intro all
  have last := all oneSignatureNode .new (.new .new) [submitUnder [⟨.replicate 1⟩]] _ (List.prefix_refl _)
  have step := @submissionStep_iff _ _ _ _ oneSignatureNode (.new oneSignatureNode MemoryBackend.new
    (.new MemoryStorage.new)) _ rfl (fun id escrowed => nomatch escrowed.choose_spec.1)
    (submitUnder [⟨.replicate 1⟩])
  rcases step.2.mp last _ _ rfl with stored | ⟨passed, judged, _⟩
  · cases stored
  · cases judged

end AdicProof.Node
