import AdicCore.Storage.BackendLaws

open AdicModel AdicModel.Storage

namespace AdicProof.Storage

section

variable {order : HashMap.Order} {backend restored : MemoryBackend}

theorem foldl_addTip (ids : List MessageId) (backend : MemoryBackend) :
    ids.foldl (fun backend id => backend.addTip id) backend =
      { backend with tips := backend.tips ∪ ids.toFinset } := by
  induction ids generalizing backend with
  | nil => simp
  | cons id ids ih =>
    rw [List.foldl_cons, ih]
    simp [MemoryBackend.addTip, Finset.insert_union]

theorem foldl_markFinalized (entries : List (MessageId × List UInt8)) (backend : MemoryBackend) :
    entries.foldl (fun backend entry => backend.markFinalized entry.1 entry.2) backend =
      { backend with
        finalized := entries.foldl (fun table entry => table.insert entry.1 entry.2) backend.finalized } := by
  induction entries generalizing backend with
  | nil => rfl
  | cons entry entries ih =>
    rw [List.foldl_cons, ih]
    rfl

theorem foldlM_putMessage {messages : List AdicMessage} (nodup : (messages.map AdicMessage.id).Nodup)
    (unknown : ∀ message ∈ messages, message.id ∉ backend.messages) :
    ∃ table timeIndex, messages.foldlM (fun backend message => backend.putMessage message) backend =
        .ok { backend with messages := table, timeIndex := timeIndex } ∧
      ∀ id message, table.lookup id = some message ↔
        message ∈ messages ∧ message.id = id ∨ backend.messages.lookup id = some message := by
  induction messages generalizing backend with
  | nil => exact ⟨backend.messages, backend.timeIndex, rfl, by simp⟩
  | cons first rest ih =>
    rw [List.map_cons, List.nodup_cons] at nodup
    have isNew := unknown first List.mem_cons_self
    have put : ∃ timeIndex, backend.putMessage first = .ok { backend with
        messages := backend.messages.insert first.id first, timeIndex := timeIndex } := ⟨_, if_neg isNew⟩
    obtain ⟨middleIndex, put⟩ := put
    have absent : backend.messages.lookup first.id = none := AList.lookup_eq_none.mpr isNew
    obtain ⟨table, timeIndex, written, lookups⟩ := @ih
      { backend with messages := backend.messages.insert first.id first, timeIndex := middleIndex } nodup.2 (by
        intro message member
        rw [AList.mem_insert, not_or]
        exact ⟨fun same => nodup.1 (same ▸ List.mem_map_of_mem member), unknown message (List.mem_cons_of_mem _ member)⟩)
    refine ⟨table, timeIndex, ?_, ?_⟩
    · rw [List.foldlM_cons, put]
      exact written
    · intro id message
      rw [lookups, HashMap.lookup_insert_eq, List.mem_cons]
      by_cases same : id = first.id
      · subst same
        rw [if_pos rfl, absent]
        have only : message ∈ rest ∧ message.id = first.id ↔ False := by
          rw [iff_false, not_and]
          exact fun member equal => nodup.1 (equal ▸ List.mem_map_of_mem member)
        rw [only]
        constructor
        · rintro (none | equal)
          · exact none.elim
          · cases equal
            exact .inl ⟨.inl rfl, rfl⟩
        · rintro (⟨rfl | member, equal⟩ | none)
          · exact .inr rfl
          · exact (only.mp ⟨member, equal⟩).elim
          · cases none
      · have other : message = first → message.id = id → False := by
          rintro rfl equal
          exact same equal.symm
        rw [if_neg same]
        constructor
        · rintro (⟨member, equal⟩ | stored)
          · exact .inl ⟨.inr member, equal⟩
          · exact .inr stored
        · rintro (⟨isFirst | member, equal⟩ | stored)
          · exact (other isFirst equal).elim
          · exact .inl ⟨member, equal⟩
          · exact .inr stored

structure Restored (backend restored : MemoryBackend) : Prop where
  message : ∀ id, restored.getMessage id = backend.getMessage id
  tips : restored.tips = backend.tips
  finalized : ∀ id, restored.finalized.lookup id =
    if id ∈ backend.messages then backend.finalized.lookup id else none
  parents : restored.parents = ∅
  children : restored.children = ∅
  heights : restored.heights = ∅
  reputation : restored.reputation = ∅
  conflicts : restored.conflicts = ∅

theorem iterate_nil (order : HashMap.Order) {β : Type} : order.iterate ([] : List β) = [] :=
  List.perm_nil.mp (order.perm [])

theorem mem_listMessages {id : MessageId} : id ∈ backend.listMessages ↔ id ∈ backend.messages := List.mem_toFinset

theorem lookup_created (order : HashMap.Order) (id : MessageId) :
    (Snapshot.create order backend).finalized.lookup id =
      if id ∈ backend.messages then backend.finalized.lookup id else none := by
  have distinct : (order.iterate (sortIds backend.listMessages)).Nodup :=
    (order.perm _).nodup_iff.mpr (sortIds_nodup _)
  have select : ∀ id entry, (if backend.isFinalized id then (backend.getFinalityArtifact id).map fun artifact =>
      (id, artifact) else none) = some entry ↔ entry.1 = id ∧ backend.finalized.lookup id = some entry.2 := by
    rintro id ⟨first, artifact⟩
    unfold MemoryBackend.isFinalized MemoryBackend.getFinalityArtifact
    cases found : backend.finalized.lookup id with
    | none =>
      have absent := AList.lookup_eq_none.mp found
      simp [absent]
    | some stored =>
      have present : id ∈ backend.finalized := AList.lookup_isSome.mp (by simp [found])
      simp [present, eq_comm]
  have nodup : (((order.iterate (sortIds backend.listMessages)).filterMap fun id =>
      if backend.isFinalized id then (backend.getFinalityArtifact id).map fun artifact => (id, artifact)
      else none).map Prod.fst).Nodup := by
    rw [List.map_filterMap]
    refine distinct.filterMap ?_
    intro first second entry isFirst isSecond
    rw [Option.mem_def, Option.map_eq_some_iff] at isFirst isSecond
    obtain ⟨one, isOne, rfl⟩ := isFirst
    obtain ⟨two, isTwo, same⟩ := isSecond
    rw [← ((select first one).mp isOne).1, ← same, ((select second two).mp isTwo).1]
  apply Option.ext
  intro artifact
  refine (HashMap.lookup_ofPairs nodup).trans ?_
  rw [List.mem_filterMap]
  simp only [select, HashMap.Order.mem_iterate, mem_sortIds, mem_listMessages]
  split
  · next known =>
    constructor
    · rintro ⟨other, _, rfl, found⟩
      exact found
    · intro found
      exact ⟨id, known, rfl, found⟩
  · next unknown =>
    constructor
    · rintro ⟨other, known, rfl, _⟩
      exact absurd known unknown
    · intro none
      cases none

theorem restore_create (order order' : HashMap.Order)
    (keyed : ∀ id message, backend.getMessage id = some message → message.id = id) :
    ∃ restored, Snapshot.restore order' (Snapshot.create order backend) .new = .ok restored ∧
      Restored backend restored := by
  have ids : ∀ message, message ∈ (Snapshot.create order backend).messages ↔
      backend.getMessage message.id = some message := by
    intro message
    show message ∈ List.filterMap _ _ ↔ _
    rw [List.mem_filterMap]
    constructor
    · rintro ⟨id, _, found⟩
      rw [keyed id message found]
      exact found
    · intro found
      refine ⟨message.id, ?_, found⟩
      rw [HashMap.Order.mem_iterate, mem_sortIds, mem_listMessages, ← AList.lookup_isSome]
      exact Option.isSome_of_eq_some found
  have nodup : ((Snapshot.create order backend).messages.map AdicMessage.id).Nodup := by
    show ((List.filterMap _ _).map AdicMessage.id).Nodup
    rw [List.map_filterMap]
    refine List.Nodup.filterMap ?_ ((order.perm _).nodup_iff.mpr (sortIds_nodup _))
    intro first second id isFirst isSecond
    rw [Option.mem_def, Option.map_eq_some_iff] at isFirst isSecond
    obtain ⟨one, isOne, rfl⟩ := isFirst
    obtain ⟨two, isTwo, same⟩ := isSecond
    rw [← keyed first one isOne, ← keyed second two isTwo, same]
  obtain ⟨table, timeIndex, put, lookups⟩ := @foldlM_putMessage .new _ nodup fun _ _ => List.not_mem_nil
  have restored : Snapshot.restore order' (Snapshot.create order backend) .new = .ok { MemoryBackend.new with
      messages := table
      timeIndex := timeIndex
      tips := ∅ ∪ (order'.iterate (sortIds backend.tips)).toFinset
      finalized := (order'.iterate (HashMap.pairs (Snapshot.create order backend).finalized)).foldl
        (fun table entry => table.insert entry.1 entry.2) ∅ } := by
    have noReputation : order'.iterate (HashMap.pairs (Snapshot.create order backend).reputation) = [] :=
      iterate_nil order'
    have noConflicts : order'.iterate (HashMap.pairs (Snapshot.create order backend).conflicts) = [] :=
      iterate_nil order'
    unfold Snapshot.restore
    rw [put, noReputation, noConflicts]
    show Except.ok (List.foldl _ (List.foldl _ _ _) _) = _
    rw [foldl_addTip, foldl_markFinalized]
    rfl
  refine ⟨_, restored, ?_, ?_, ?_, rfl, rfl, rfl, rfl, rfl⟩
  · intro id
    apply Option.ext
    intro message
    refine (lookups id message).trans ?_
    rw [ids]
    constructor
    · rintro (⟨found, rfl⟩ | none)
      · exact found
      · cases none
    · intro found
      have same := keyed id message found
      rw [same]
      exact .inl ⟨found, rfl⟩
  · ext id
    simp [HashMap.Order.mem_iterate]
  · intro id
    rw [← lookup_created order id]
    apply Option.ext
    intro artifact
    have distinct : ((order'.iterate (HashMap.pairs (Snapshot.create order backend).finalized)).map Prod.fst).Nodup :=
      ((order'.perm _).map Prod.fst).nodup_iff.mpr (HashMap.pairs_keys_nodup _)
    refine (HashMap.lookup_ofPairs distinct).trans ?_
    rw [HashMap.Order.mem_iterate, HashMap.mem_pairs]

end

def firstStored (id : MessageId) (calls : List EngineCall) : Option AdicMessage :=
  calls.findSome? fun
    | .storeMessage message => if message.id = id then some message else none
    | _ => none

theorem firstStored_id {id : MessageId} {calls : List EngineCall} {message : AdicMessage}
    (found : firstStored id calls = some message) : message.id = id := by
  obtain ⟨call, _, stored⟩ := List.exists_of_findSome?_eq_some found
  cases call with
  | storeMessage other =>
    dsimp only at stored
    split at stored
    · next same =>
      cases stored
      exact same
    · cases stored
  | finalizeMessage id artifact => cases stored
  | addToConflict conflictId id => cases stored
  | updateReputation pubkey score => cases stored

def stateAfter (calls : List EngineCall) : MemoryBackend := Runs.after EngineCall.run .new calls

structure Keeps (stored : MessageId → Option AdicMessage) (backend : MemoryBackend) : Prop where
  message : ∀ id, backend.getMessage id = stored id
  height : ∀ id, (backend.heights.lookup id).isSome = (stored id).isSome
  parents : ∀ parent child, parent ∈ backend.getParents child ↔
    ∃ message, stored child = some message ∧ parent ∈ message.parents
  children : ∀ parent child, child ∈ backend.getChildren parent ↔
    ∃ message, stored child = some message ∧ parent ∈ message.parents

structure Reached (calls : List EngineCall) (backend : MemoryBackend) : Prop where
  keeps : Keeps (fun id => firstStored id calls) backend
  finalized : ∀ id, id ∈ backend.finalized ↔ ∃ artifact, .finalizeMessage id artifact ∈ calls
  conflicts : ∀ conflictId id, id ∈ backend.getConflictSet conflictId ↔ .addToConflict conflictId id ∈ calls
  reputation : ∀ pubkey, pubkey ∈ backend.reputation ↔ ∃ score, .updateReputation pubkey score ∈ calls

section

variable {calls : List EngineCall} {message : AdicMessage} {backend next : MemoryBackend}

theorem storeMessage_frame (stored : Engine.storeMessage message backend = .ok next) :
    next.finalized = backend.finalized ∧ next.conflicts = backend.conflicts ∧ next.reputation = backend.reputation := by
  let part (backend : MemoryBackend) := (backend.finalized, backend.conflicts, backend.reputation)
  rcases @storeMessage_part _ _ _ part _ stored (fun _ _ _ => rfl) (fun _ _ => rfl) (fun _ _ => rfl) (fun _ _ _ => rfl)
    with ⟨written, put, same⟩
  unfold MemoryBackend.putMessage at put
  split at put
  · cases put
  · cases put
    exact ⟨congrArg Prod.fst same, congrArg (fun parts => parts.2.1) same, congrArg (fun parts => parts.2.2) same⟩

theorem keeps_storeMessage {known : MessageId → Option AdicMessage} (keeps : Keeps known backend)
    (absent : known message.id = none) (stored : Engine.storeMessage message backend = .ok next) :
    Keeps (Function.update known message.id (some message)) next := by
  have graph := of_storeMessage stored
  refine ⟨?_, ?_, ?_, ?_⟩
  · intro id
    refine (congrFun (congrArg Graph.stored graph) id).trans ?_
    dsimp only [Graph.store]
    rw [Function.update_apply, Function.update_apply]
    split
    · rfl
    · exact keeps.message id
  · intro id
    refine (congrArg Option.isSome (congrFun (congrArg Graph.heights graph) id)).trans ?_
    dsimp only [Graph.store]
    rw [Function.update_apply, Function.update_apply]
    split
    · rfl
    · exact keeps.height id
  · intro parent child
    refine (Set.ext_iff.mp (congrFun (congrArg Graph.parents graph) child) parent).trans ?_
    have earlier : parent ∈ (Graph.of backend).parents child ↔ _ := keeps.parents parent child
    dsimp only [Graph.store]
    rw [Function.update_apply]
    split
    · next same =>
      rw [same, absent] at earlier
      rw [Set.mem_union, same, earlier]
      simp
    · exact earlier
  · intro parent child
    refine (Set.ext_iff.mp (congrFun (congrArg Graph.children graph) parent) child).trans ?_
    have earlier : child ∈ (Graph.of backend).children parent ↔ _ := keeps.children parent child
    dsimp only [Graph.store]
    rw [Function.update_apply]
    by_cases same : child = message.id
    · rw [same, absent] at earlier
      rw [if_pos same, same]
      split
      · next isParent => simp [isParent]
      · next notParent => simpa [notParent] using earlier
    · rw [if_neg same, ← earlier]
      split
      · rw [Set.mem_insert_iff, or_iff_right same]
      · rfl

theorem firstStored_snoc (id : MessageId) (calls : List EngineCall) (call : EngineCall) :
    firstStored id (calls ++ [call]) = (firstStored id calls).or (firstStored id [call]) := List.findSome?_append

theorem firstStored_storeMessage (id : MessageId) (calls : List EngineCall) (message : AdicMessage) :
    firstStored id (calls ++ [.storeMessage message]) =
      (firstStored id calls).or (if message.id = id then some message else none) := by
  rw [firstStored_snoc]
  congr 1
  unfold firstStored
  rw [List.findSome?_singleton]

theorem reached_run (reached : Reached calls backend) (call : EngineCall) :
    Reached (calls ++ [call]) (call.run backend) := by
  have other : (∀ id, firstStored id [call] = none) →
      (fun id => firstStored id (calls ++ [call])) = fun id => firstStored id calls := by
    intro none
    funext id
    rw [firstStored_snoc, none id, Option.or_none]
  obtain ⟨keeps, finalized, conflicts, reputation⟩ := reached
  cases call with
  | storeMessage message =>
    by_cases known : message.id ∈ backend.messages
    · have refused : EngineCall.run backend (.storeMessage message) = backend := by
        simp only [EngineCall.run]
        rw [storeMessage_known known]
      have same : (fun id => firstStored id (calls ++ [.storeMessage message])) = fun id => firstStored id calls := by
        funext id
        rw [firstStored_storeMessage]
        split
        · next equal =>
          obtain ⟨stored, found⟩ := Option.isSome_iff_exists.mp (AList.lookup_isSome.mpr known)
          have first : firstStored id calls = some stored := by
            rw [← keeps.message id, ← equal]
            exact found
          rw [first]
          rfl
        · rw [Option.or_none]
      rw [refused]
      refine ⟨?_, ?_, ?_, ?_⟩
      · rw [same]
        exact keeps
      · simpa using finalized
      · simpa using conflicts
      · simpa using reputation
    · obtain ⟨next, stored⟩ := storeMessage_unknown known
      have accepted : EngineCall.run backend (.storeMessage message) = next := by
        simp only [EngineCall.run]
        rw [stored]
      have absent : firstStored message.id calls = none := by
        rw [← keeps.message]
        exact AList.lookup_eq_none.mpr known
      have updated : (fun id => firstStored id (calls ++ [.storeMessage message])) =
          Function.update (fun id => firstStored id calls) message.id (some message) := by
        funext id
        rw [firstStored_storeMessage, Function.update_apply]
        by_cases same : id = message.id
        · subst same
          simp [absent]
        · simp [same, Ne.symm same]
      obtain ⟨sameFinalized, sameConflicts, sameReputation⟩ := storeMessage_frame stored
      rw [accepted]
      refine ⟨?_, ?_, ?_, ?_⟩
      · rw [updated]
        exact keeps_storeMessage keeps absent stored
      · rw [sameFinalized]
        simpa using finalized
      · intro conflictId id
        have before := conflicts conflictId id
        unfold MemoryBackend.getConflictSet at before ⊢
        rw [sameConflicts]
        simpa using before
      · rw [sameReputation]
        simpa using reputation
  | finalizeMessage id artifact =>
    refine ⟨?_, ?_, ?_, ?_⟩
    · rw [other fun _ => rfl]
      exact ⟨keeps.message, keeps.height, keeps.parents, keeps.children⟩
    · intro first
      show first ∈ backend.finalized.insert id artifact ↔ _
      rw [AList.mem_insert, finalized]
      simp [exists_or, or_comm]
    · exact fun conflictId first => (conflicts conflictId first).trans (by simp)
    · exact fun pubkey => (reputation pubkey).trans (by simp)
  | addToConflict conflictId id =>
    refine ⟨?_, ?_, ?_, ?_⟩
    · rw [other fun _ => rfl]
      exact ⟨keeps.message, keeps.height, keeps.parents, keeps.children⟩
    · exact fun first => (finalized first).trans (by simp)
    · intro first second
      show second ∈ ((backend.conflicts.insert conflictId (insert id (backend.getConflictSet conflictId))).lookup
        first).getD ∅ ↔ _
      rw [HashMap.lookup_insert_eq]
      split
      · next equal =>
        rw [equal, Option.getD_some, Finset.mem_insert, conflicts]
        simp [or_comm]
      · next different =>
        refine (conflicts first second).trans ?_
        simp [different]
    · exact fun pubkey => (reputation pubkey).trans (by simp)
  | updateReputation pubkey score =>
    refine ⟨?_, ?_, ?_, ?_⟩
    · rw [other fun _ => rfl]
      exact ⟨keeps.message, keeps.height, keeps.parents, keeps.children⟩
    · exact fun first => (finalized first).trans (by simp)
    · exact fun conflictId first => (conflicts conflictId first).trans (by simp)
    · intro first
      show first ∈ backend.reputation.insert pubkey score ↔ _
      rw [AList.mem_insert, reputation]
      simp [exists_or, or_comm]

theorem reached_stateAfter (calls : List EngineCall) : Reached calls (stateAfter calls) := by
  induction calls using List.reverseRecOn with
  | nil =>
    refine ⟨⟨fun _ => rfl, fun _ => rfl, ?_, ?_⟩, ?_, ?_, ?_⟩
    · simp [stateAfter, MemoryBackend.getParents, MemoryBackend.new, firstStored]
    · simp [stateAfter, MemoryBackend.getChildren, MemoryBackend.new, firstStored]
    · simp [stateAfter, MemoryBackend.new]
    · simp [stateAfter, MemoryBackend.getConflictSet, MemoryBackend.new]
    · simp [stateAfter, MemoryBackend.new]
  | append_singleton calls call ih =>
    unfold stateAfter
    rw [Runs.after_snoc]
    exact reached_run ih call

end

structure SameQueries (first second : MemoryBackend) : Prop where
  message : ∀ id, second.getMessage id = first.getMessage id
  tips : second.tips = first.tips
  parents : ∀ child, second.getParents child = first.getParents child
  children : ∀ parent, second.getChildren parent = first.getChildren parent
  height : ∀ id, second.heights.lookup id = first.heights.lookup id
  isFinalized : ∀ id, second.isFinalized id = first.isFinalized id
  artifact : ∀ id, second.getFinalityArtifact id = first.getFinalityArtifact id
  conflictSet : ∀ conflictId, second.getConflictSet conflictId = first.getConflictSet conflictId
  reputation : ∀ pubkey, second.getReputation pubkey = first.getReputation pubkey

structure KeptExactly (calls : List EngineCall) (backend restored : MemoryBackend) : Prop where
  message : ∀ id, restored.getMessage id = backend.getMessage id
  tips : restored.tips = backend.tips
  parents : (∀ child, restored.getParents child = backend.getParents child) ↔
    ∀ id message, firstStored id calls = some message → message.parents = []
  children : (∀ parent, restored.getChildren parent = backend.getChildren parent) ↔
    ∀ id message, firstStored id calls = some message → message.parents = []
  height : (∀ id, restored.heights.lookup id = backend.heights.lookup id) ↔
    ∀ message, .storeMessage message ∉ calls
  isFinalized : (∀ id, restored.isFinalized id = backend.isFinalized id) ↔
    ∀ id artifact, .finalizeMessage id artifact ∈ calls → ∃ message, .storeMessage message ∈ calls ∧ message.id = id
  artifact : (∀ id, restored.getFinalityArtifact id = backend.getFinalityArtifact id) ↔
    ∀ id artifact, .finalizeMessage id artifact ∈ calls → ∃ message, .storeMessage message ∈ calls ∧ message.id = id
  conflictSet : (∀ conflictId, restored.getConflictSet conflictId = backend.getConflictSet conflictId) ↔
    ∀ conflictId id, .addToConflict conflictId id ∉ calls
  reputation : (∀ pubkey, restored.getReputation pubkey = backend.getReputation pubkey) ↔
    ∀ pubkey score, .updateReputation pubkey score ∉ calls

section

variable {calls : List EngineCall} {backend restored : MemoryBackend}

theorem firstStored_isSome {id : MessageId} :
    (firstStored id calls).isSome ↔ ∃ message, .storeMessage message ∈ calls ∧ message.id = id := by
  unfold firstStored
  rw [List.findSome?_isSome_iff]
  constructor
  · rintro ⟨call, member, stores⟩
    cases call with
    | storeMessage message =>
      dsimp only at stores
      split at stores
      · next same => exact ⟨message, member, same⟩
      · cases stores
    | finalizeMessage id artifact => cases stores
    | addToConflict conflictId id => cases stores
    | updateReputation pubkey score => cases stores
  · rintro ⟨message, member, same⟩
    refine ⟨.storeMessage message, member, ?_⟩
    dsimp only
    rw [if_pos same]
    rfl

theorem reached_keyed (reached : Reached calls backend) (id : MessageId) (message : AdicMessage)
    (found : backend.getMessage id = some message) : message.id = id := by
  rw [reached.keeps.message] at found
  exact firstStored_id found

theorem keptExactly (reached : Reached calls backend) (kept : Restored backend restored) :
    KeptExactly calls backend restored := by
  have noParents : ∀ child, restored.getParents child = [] := by
    intro child
    unfold MemoryBackend.getParents
    rw [kept.parents]
    rfl
  have noChildren : ∀ parent, restored.getChildren parent = [] := by
    intro parent
    unfold MemoryBackend.getChildren
    rw [kept.children]
    rfl
  have known : ∀ id, id ∈ backend.messages ↔ ∃ message, .storeMessage message ∈ calls ∧ message.id = id := by
    intro id
    rw [← firstStored_isSome, ← reached.keeps.message id]
    exact AList.lookup_isSome.symm
  refine ⟨kept.message, kept.tips, ?_, ?_, ?_, ?_, ?_, ?_, ?_⟩
  · constructor
    · intro same id message found
      rw [List.eq_nil_iff_forall_not_mem]
      intro parent isParent
      have stored := (reached.keeps.parents parent id).mpr ⟨message, found, isParent⟩
      rw [← same, noParents] at stored
      exact List.not_mem_nil stored
    · intro none child
      rw [noParents, eq_comm, List.eq_nil_iff_forall_not_mem]
      intro parent stored
      obtain ⟨message, found, isParent⟩ := (reached.keeps.parents parent child).mp stored
      rw [none child message found] at isParent
      exact List.not_mem_nil isParent
  · constructor
    · intro same id message found
      rw [List.eq_nil_iff_forall_not_mem]
      intro parent isParent
      have stored := (reached.keeps.children parent id).mpr ⟨message, found, isParent⟩
      rw [← same, noChildren] at stored
      exact List.not_mem_nil stored
    · intro none parent
      rw [noChildren, eq_comm, List.eq_nil_iff_forall_not_mem]
      intro child stored
      obtain ⟨message, found, isParent⟩ := (reached.keeps.children parent child).mp stored
      rw [none child message found] at isParent
      exact List.not_mem_nil isParent
  · rw [kept.heights]
    constructor
    · intro same message member
      have stored := reached.keeps.height message.id
      rw [← same, firstStored_isSome.mpr ⟨message, member, rfl⟩] at stored
      cases stored
    · intro none id
      have absent : ¬(firstStored id calls).isSome := by
        rw [firstStored_isSome]
        rintro ⟨message, member, _⟩
        exact none message member
      rw [← reached.keeps.height, Option.not_isSome_iff_eq_none] at absent
      rw [absent]
      rfl
  · constructor
    · intro same id artifact member
      have stored : id ∈ backend.finalized := (reached.finalized id).mpr ⟨artifact, member⟩
      have isFinal := same id
      unfold MemoryBackend.isFinalized at isFinal
      rw [decide_eq_decide, ← AList.lookup_isSome, kept.finalized] at isFinal
      by_contra unknown
      rw [← known] at unknown
      rw [if_neg unknown] at isFinal
      cases isFinal.mpr stored
    · intro all id
      unfold MemoryBackend.isFinalized
      rw [decide_eq_decide, ← AList.lookup_isSome, kept.finalized]
      split
      · exact AList.lookup_isSome
      · next unknown =>
        constructor
        · intro none
          cases none
        · intro stored
          obtain ⟨artifact, member⟩ := (reached.finalized id).mp stored
          exact absurd ((known id).mpr (all id artifact member)) unknown
  · constructor
    · intro same id artifact member
      have stored : id ∈ backend.finalized := (reached.finalized id).mpr ⟨artifact, member⟩
      have found : restored.finalized.lookup id = backend.finalized.lookup id := same id
      rw [kept.finalized] at found
      by_contra unknown
      rw [← known] at unknown
      rw [if_neg unknown, eq_comm, AList.lookup_eq_none] at found
      exact found stored
    · intro all id
      show restored.finalized.lookup id = backend.finalized.lookup id
      rw [kept.finalized]
      split
      · rfl
      · next unknown =>
        rw [eq_comm, AList.lookup_eq_none]
        intro stored
        obtain ⟨artifact, member⟩ := (reached.finalized id).mp stored
        exact unknown ((known id).mpr (all id artifact member))
  · have none : ∀ conflictId, restored.getConflictSet conflictId = ∅ := by
      intro conflictId
      unfold MemoryBackend.getConflictSet
      rw [kept.conflicts]
      rfl
    constructor
    · intro same conflictId id member
      have stored := (reached.conflicts conflictId id).mpr member
      rw [← same, none] at stored
      exact Finset.notMem_empty id stored
    · intro absent conflictId
      rw [none, eq_comm, Finset.eq_empty_iff_forall_notMem]
      intro id stored
      exact absent conflictId id ((reached.conflicts conflictId id).mp stored)
  · unfold MemoryBackend.getReputation
    rw [kept.reputation]
    constructor
    · intro same pubkey score member
      have stored := (reached.reputation pubkey).mpr ⟨score, member⟩
      rw [← AList.lookup_isSome, ← same] at stored
      cases stored
    · intro absent pubkey
      have notStored : pubkey ∉ backend.reputation := by
        rw [reached.reputation]
        rintro ⟨score, member⟩
        exact absent pubkey score member
      rw [AList.lookup_eq_none.mpr notStored]
      rfl

/-- A restored snapshot answers as the backend it was taken from exactly if that one was never changed. -/
theorem restored_same_iff (order order' : HashMap.Order) (calls : List EngineCall) :
    ∃ restored, Snapshot.restore order' (Snapshot.create order (stateAfter calls)) .new = .ok restored ∧
      (SameQueries (stateAfter calls) restored ↔ calls = []) ∧ KeptExactly calls (stateAfter calls) restored := by
  have reached := reached_stateAfter calls
  obtain ⟨restored, restores, kept⟩ := restore_create order order' (reached_keyed reached)
  have exactly := keptExactly reached kept
  refine ⟨restored, restores, ⟨?_, ?_⟩, exactly⟩
  · intro same
    rw [List.eq_nil_iff_forall_not_mem]
    intro call member
    cases call with
    | storeMessage message => exact exactly.height.mp same.height message member
    | finalizeMessage id artifact =>
      obtain ⟨message, stored, _⟩ := exactly.isFinalized.mp same.isFinalized id artifact member
      exact exactly.height.mp same.height message stored
    | addToConflict conflictId id => exact exactly.conflictSet.mp same.conflictSet conflictId id member
    | updateReputation pubkey score => exact exactly.reputation.mp same.reputation pubkey score member
  · rintro rfl
    refine ⟨exactly.message, exactly.tips, exactly.parents.mpr ?_, exactly.children.mpr ?_, exactly.height.mpr ?_,
      exactly.isFinalized.mpr ?_, exactly.artifact.mpr ?_, exactly.conflictSet.mpr ?_, exactly.reputation.mpr ?_⟩
    · exact fun _ _ found => nomatch found
    · exact fun _ _ found => nomatch found
    all_goals simp

end

theorem restored_loses_edges :
    let backend := stateAfter [.storeMessage (plainMessage 1 []), .storeMessage (plainMessage 2 [1])]
    ∃ restored, Snapshot.restore .stored (Snapshot.create .stored backend) .new = .ok restored ∧
      backend.getParents ⟨.replicate 2⟩ = [⟨.replicate 1⟩] ∧ restored.getParents ⟨.replicate 2⟩ = [] ∧
      backend.heights.lookup ⟨.replicate 2⟩ = some 1 ∧ restored.heights.lookup ⟨.replicate 2⟩ = none ∧
      ¬SameQueries backend restored := by
  intro backend
  obtain ⟨restored, restores, kept⟩ := restore_create .stored .stored (reached_keyed (reached_stateAfter
    [.storeMessage (plainMessage 1 []), .storeMessage (plainMessage 2 [1])]))
  have known : backend.heights.lookup ⟨.replicate 2⟩ = some 1 := by decide +kernel
  have lost : restored.heights.lookup ⟨.replicate 2⟩ = none := by
    rw [kept.heights]
    rfl
  refine ⟨restored, restores, by decide +kernel, ?_, known, lost, ?_⟩
  · unfold MemoryBackend.getParents
    rw [kept.parents]
    rfl
  · intro same
    have height := same.height ⟨.replicate 2⟩
    rw [known, lost] at height
    cases height

end AdicProof.Storage
