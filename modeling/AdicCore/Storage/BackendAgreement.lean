import AdicCore.Library.ArrivalPaths
import AdicCore.Storage.BackendLaws

open AdicModel AdicModel.Storage ArrivalPaths

namespace AdicProof.Storage

def memoryAfter (calls : List BackendCall) : MemoryBackend := Runs.after BackendCall.run .new calls

def rocksAfter (calls : List BackendCall) : RocksBackend := Runs.after BackendCall.run .new calls

def PutOnce (calls : List BackendCall) : Prop :=
  (calls.filterMap fun
    | .putMessage message => some message.id
    | _ => none).Nodup

instance (calls : List BackendCall) : Decidable (PutOnce calls) := inferInstanceAs (Decidable (List.Nodup _))

def IsTimestamp (millis : Int) : Prop := 0 ≤ millis ∧ millis ≤ i64Max

def Timestamped (calls : List BackendCall) : Prop :=
  ∀ message, .putMessage message ∈ calls → IsTimestamp message.metadata.timestamp.timestampMillis

def ForgetsParents (child : MessageId) (call : BackendCall) : Prop := call = .deleteMessage child

def ForgetsChild (parent child : MessageId) (call : BackendCall) : Prop :=
  call = .deleteMessage parent ∨ call = .deleteMessage child

section

variable {memory : MemoryBackend}

theorem getChildren_forgetChild (child parent other : MessageId)
    (children : HashMap.Table MessageId (List MessageId)) :
    ((MemoryBackend.forgetChild child parent children).lookup other).getD [] =
      if other = parent then ((children.lookup other).getD []).filter fun stored => stored ≠ child
      else (children.lookup other).getD [] := by
  unfold MemoryBackend.forgetChild
  cases found : children.lookup parent with
  | none =>
    dsimp only
    split
    · next same =>
      rw [same, found]
      rfl
    · rfl
  | some stored =>
    dsimp only
    rw [HashMap.lookup_insert_eq]
    split
    · next same =>
      rw [same, found]
      rfl
    · rfl

theorem mem_foldl_forgetChild {child parent other : MessageId} (parents : List MessageId)
    (children : HashMap.Table MessageId (List MessageId)) :
    other ∈ (((parents.foldl (fun children parent => MemoryBackend.forgetChild child parent children) children).lookup
        parent).getD []) ↔
      other ∈ ((children.lookup parent).getD []) ∧ (parent ∈ parents → other ≠ child) := by
  induction parents generalizing children with
  | nil => simp
  | cons first rest ih =>
    rw [List.foldl_cons, ih, getChildren_forgetChild]
    by_cases same : parent = first
    · subst same
      simp only [if_true, List.mem_filter, decide_eq_true_eq, List.mem_cons, true_or, true_imp_iff]
      tauto
    · simp [same]

theorem mem_getChildren_deleteMessage {id parent child : MessageId} :
    child ∈ (memory.deleteMessage id).getChildren parent ↔
      parent ≠ id ∧ child ∈ memory.getChildren parent ∧ (parent ∈ memory.getParents id → child ≠ id) := by
  unfold MemoryBackend.deleteMessage MemoryBackend.getChildren MemoryBackend.getParents
  dsimp only
  rw [HashMap.lookup_erase_eq]
  by_cases same : parent = id
  · simp [same]
  · rw [if_neg same]
    cases found : memory.parents.lookup id with
    | none => simp [same]
    | some parents =>
      rw [mem_foldl_forgetChild]
      simp [same]

theorem mem_getParents_deleteMessage {id parent child : MessageId} :
    parent ∈ (memory.deleteMessage id).getParents child ↔ child ≠ id ∧ parent ∈ memory.getParents child := by
  unfold MemoryBackend.deleteMessage MemoryBackend.getParents
  dsimp only
  rw [HashMap.lookup_erase_eq]
  by_cases same : child = id
  · simp [same]
  · simp [same]

end

structure MemoryIndexes (calls : List BackendCall) (memory : MemoryBackend) : Prop where
  parents : ∀ parent child, parent ∈ memory.getParents child ↔
    NotFollowedBy (ForgetsParents child) calls (.addParentChild parent child)
  children : ∀ parent child, child ∈ memory.getChildren parent ↔
    NotFollowedBy (ForgetsChild parent child) calls (.addParentChild parent child)
  finalized : ∀ id, id ∈ memory.finalized ↔
    (∃ artifact, .markFinalized id artifact ∈ calls) ∨ ∃ artifact, .storeFinalityArtifact id artifact ∈ calls

structure RocksIndexes (calls : List BackendCall) (rocks : RocksBackend) : Prop where
  parents : ∀ parent child, parent ∈ rocks.getParents child ↔ .addParentChild parent child ∈ calls
  children : ∀ parent child, child ∈ rocks.getChildren parent ↔ .addParentChild parent child ∈ calls
  finalized : ∀ id, id ∈ rocks.fin ↔ ∃ artifact, .markFinalized id artifact ∈ calls

section

variable {calls : List BackendCall} {memory : MemoryBackend} {rocks : RocksBackend}

theorem notFollowedBy_mono {α : Type} {kind other : α → Prop} {arrivals : List α} {element : α}
    (weaker : ∀ later, kind later → other later) (alone : NotFollowedBy other arrivals element) :
    NotFollowedBy kind arrivals element := by
  obtain ⟨before, after, split, none⟩ := alone
  exact ⟨before, after, split, fun later member isKind => none later member (weaker later isKind)⟩

theorem memoryIndexes_run (indexes : MemoryIndexes calls memory) (call : BackendCall) :
    MemoryIndexes (calls ++ [call]) (call.run memory) := by
  obtain ⟨parents, children, finalized⟩ := indexes
  cases call with
  | putMessage message =>
    have same : (BackendCall.run memory (.putMessage message)).parents = memory.parents ∧
        (BackendCall.run memory (.putMessage message)).children = memory.children ∧
        (BackendCall.run memory (.putMessage message)).finalized = memory.finalized := by
      simp only [BackendCall.run, StorageBackend.putMessage, MemoryBackend.putMessage]
      split
      · next written put =>
        split at put
        · cases put
        · cases put
          exact ⟨rfl, rfl, rfl⟩
      · exact ⟨rfl, rfl, rfl⟩
    refine ⟨?_, ?_, ?_⟩
    · intro parent child
      unfold MemoryBackend.getParents
      rw [same.1, notFollowedBy_snoc]
      refine (parents parent child).trans ?_
      simp [ForgetsParents]
    · intro parent child
      unfold MemoryBackend.getChildren
      rw [same.2.1, notFollowedBy_snoc]
      refine (children parent child).trans ?_
      simp [ForgetsChild]
    · intro id
      rw [same.2.2]
      simpa using finalized id
  | deleteMessage id =>
    refine ⟨?_, ?_, ?_⟩
    · intro parent child
      refine mem_getParents_deleteMessage.trans ?_
      rw [parents, notFollowedBy_snoc]
      simp [ForgetsParents, eq_comm]
    · intro parent child
      refine mem_getChildren_deleteMessage.trans ?_
      rw [parents, children, notFollowedBy_snoc]
      constructor
      · rintro ⟨other, live, kept⟩
        refine .inr ⟨?_, live⟩
        rintro (same | same)
        · cases same
          exact other rfl
        · cases same
          exact kept (notFollowedBy_mono (fun later => .inr) live) rfl
      · rintro (same | ⟨notForgets, live⟩)
        · cases same
        · refine ⟨?_, live, fun _ => ?_⟩
          · rintro rfl
            exact notForgets (.inl rfl)
          · rintro rfl
            exact notForgets (.inr rfl)
    · exact fun other => (finalized other).trans (by simp)
  | addParentChild parent child =>
    have graph := LawfulBackend.addParentChild parent child memory
    refine ⟨?_, ?_, ?_⟩
    · intro first second
      refine (Set.ext_iff.mp (congrFun (congrArg Graph.parents graph) second) first).trans ?_
      have earlier : first ∈ (Graph.of memory).parents second ↔ _ := parents first second
      dsimp only [Graph.link]
      rw [Function.update_apply, notFollowedBy_snoc, ← earlier]
      split
      · next same => simp [same, ForgetsParents, eq_comm]
      · next different => simp [Ne.symm different, ForgetsParents]
    · intro first second
      refine (Set.ext_iff.mp (congrFun (congrArg Graph.children graph) first) second).trans ?_
      have earlier : second ∈ (Graph.of memory).children first ↔ _ := children first second
      dsimp only [Graph.link]
      rw [Function.update_apply, notFollowedBy_snoc, ← earlier]
      split
      · next same => simp [same, ForgetsChild, eq_comm]
      · next different => simp [Ne.symm different, ForgetsChild]
    · exact fun other => (finalized other).trans (by simp)
  | markFinalized id artifact | storeFinalityArtifact id artifact =>
    refine ⟨?_, ?_, ?_⟩
    · exact fun parent child => (parents parent child).trans (by simp [notFollowedBy_snoc, ForgetsParents])
    · exact fun parent child => (children parent child).trans (by simp [notFollowedBy_snoc, ForgetsChild])
    · intro other
      show other ∈ memory.finalized.insert id artifact ↔ _
      rw [AList.mem_insert, finalized]
      simp [exists_or]
      tauto

theorem rocksIndexes_run (indexes : RocksIndexes calls rocks) (call : BackendCall) :
    RocksIndexes (calls ++ [call]) (call.run rocks) := by
  obtain ⟨parents, children, finalized⟩ := indexes
  cases call with
  | putMessage _ | deleteMessage _ | storeFinalityArtifact _ _ =>
    exact ⟨fun parent child => (parents parent child).trans (by simp),
      fun parent child => (children parent child).trans (by simp), fun id => (finalized id).trans (by simp)⟩
  | addParentChild parent child =>
    refine ⟨?_, ?_, fun id => (finalized id).trans (by simp)⟩
    · intro first second
      have earlier := parents first second
      unfold RocksBackend.getParents at earlier
      rw [mem_scanFrom] at earlier
      show first ∈ RocksBackend.scanFrom second (insert (child, parent) rocks.cp) ↔ _
      rw [mem_scanFrom, Finset.mem_insert, earlier]
      simp [and_comm, or_comm]
    · intro first second
      have earlier := children first second
      unfold RocksBackend.getChildren at earlier
      rw [mem_scanFrom] at earlier
      show second ∈ RocksBackend.scanFrom first (insert (parent, child) rocks.pc) ↔ _
      rw [mem_scanFrom, Finset.mem_insert, earlier]
      simp [or_comm]
  | markFinalized id artifact =>
    refine ⟨fun parent child => (parents parent child).trans (by simp),
      fun parent child => (children parent child).trans (by simp), ?_⟩
    intro other
    show other ∈ insert id rocks.fin ↔ _
    rw [Finset.mem_insert, finalized]
    simp [exists_or, or_comm]

theorem memoryIndexes_after (calls : List BackendCall) : MemoryIndexes calls (memoryAfter calls) := by
  induction calls using List.reverseRecOn with
  | nil => exact ⟨by simp [NotFollowedBy, memoryAfter, MemoryBackend.getParents, MemoryBackend.new],
      by simp [NotFollowedBy, memoryAfter, MemoryBackend.getChildren, MemoryBackend.new],
      by simp [memoryAfter, MemoryBackend.new]⟩
  | append_singleton calls call ih =>
    unfold memoryAfter
    rw [Runs.after_snoc]
    exact memoryIndexes_run ih call

theorem rocksIndexes_after (calls : List BackendCall) : RocksIndexes calls (rocksAfter calls) := by
  induction calls using List.reverseRecOn with
  | nil => exact ⟨by simp [rocksAfter, RocksBackend.getParents, RocksBackend.new, mem_scanFrom],
      by simp [rocksAfter, RocksBackend.getChildren, RocksBackend.new, mem_scanFrom],
      by simp [rocksAfter, RocksBackend.new]⟩
  | append_singleton calls call ih =>
    unfold rocksAfter
    rw [Runs.after_snoc]
    exact rocksIndexes_run ih call

end

structure SameStore (calls : List BackendCall) (memory : MemoryBackend) (rocks : RocksBackend) : Prop where
  messages : ∀ id, memory.messages.lookup id = rocks.msg.lookup id
  put : ∀ id, id ∈ memory.messages → ∃ message, .putMessage message ∈ calls ∧ message.id = id
  tip : rocks.tip = ∅
  artifacts : ∀ id, memory.finalized.lookup id = rocks.finArt.lookup id
  times : ∀ millis id, IsTimestamp millis →
    (id ∈ (memory.timeIndex.lookup millis).getD [] ↔ toLex (i64ToBeBytes millis, id) ∈ rocks.msgByTime)
  memoryTimes : ∀ millis, millis ∈ memory.timeIndex → IsTimestamp millis
  rocksTimes : ∀ key ∈ rocks.msgByTime, (ofLex key).1 < 2 ^ 63
  memoryCount : HashMap.total List.length memory.timeIndex ≤ calls.length
  rocksCount : rocks.msgByTime.card ≤ calls.length

section

variable {calls : List BackendCall} {memory : MemoryBackend} {rocks : RocksBackend}

theorem i64ToBeBytes_timestamp {millis : Int} (isTimestamp : IsTimestamp millis) :
    i64ToBeBytes millis = millis.toNat := by
  obtain ⟨positive, bound⟩ := isTimestamp
  unfold i64Max at bound
  unfold i64ToBeBytes
  rw [Int.emod_eq_of_lt positive (by omega)]

theorem i64ToBeBytes_lt {millis : Int} (isTimestamp : IsTimestamp millis) : i64ToBeBytes millis < 2 ^ 63 := by
  rw [i64ToBeBytes_timestamp isTimestamp]
  obtain ⟨positive, bound⟩ := isTimestamp
  unfold i64Max at bound
  omega

theorem i64ToBeBytes_inj {first second : Int} (isFirst : IsTimestamp first) (isSecond : IsTimestamp second) :
    i64ToBeBytes first = i64ToBeBytes second ↔ first = second := by
  rw [i64ToBeBytes_timestamp isFirst, i64ToBeBytes_timestamp isSecond]
  have positive := isFirst.1
  have positive' := isSecond.1
  omega

theorem run_putMessage {message : AdicMessage} (unknown : message.id ∉ memory.messages) :
    BackendCall.run memory (.putMessage message) = { memory with
      messages := memory.messages.insert message.id message
      timeIndex := memory.timeIndex.insert message.metadata.timestamp.timestampMillis
        ((memory.timeIndex.lookup message.metadata.timestamp.timestampMillis).getD [] ++ [message.id]) } := by
  simp only [BackendCall.run, StorageBackend.putMessage, MemoryBackend.putMessage]
  rw [if_neg unknown]

theorem sameStore_run (same : SameStore calls memory rocks) {call : BackendCall} (once : PutOnce (calls ++ [call]))
    (times : Timestamped (calls ++ [call])) : SameStore (calls ++ [call]) (call.run memory) (call.run rocks) := by
  have longer : calls.length ≤ (calls ++ [call]).length := by simp
  have kept : ∀ {id}, (∃ message, .putMessage message ∈ calls ∧ message.id = id) →
      ∃ message, .putMessage message ∈ calls ++ [call] ∧ message.id = id := by
    rintro id ⟨message, member, equal⟩
    exact ⟨message, List.mem_append_left _ member, equal⟩
  cases call with
  | putMessage message =>
    have unknown : message.id ∉ memory.messages := by
      intro known
      obtain ⟨other, member, equal⟩ := same.put message.id known
      unfold PutOnce at once
      rw [List.filterMap_append, List.nodup_append] at once
      refine once.2.2 message.id ?_ message.id (by simp) rfl
      exact List.mem_filterMap.mpr ⟨.putMessage other, member, congrArg some equal⟩
    have isTimestamp := times message (by simp)
    rw [run_putMessage unknown]
    refine ⟨?_, ?_, same.tip, same.artifacts, ?_, ?_, ?_, ?_, ?_⟩
    · intro id
      show (memory.messages.insert message.id message).lookup id = (rocks.msg.insert message.id message).lookup id
      rw [HashMap.lookup_insert_eq, HashMap.lookup_insert_eq, same.messages]
    · intro id known
      rcases (AList.mem_insert _).mp known with rfl | known
      · exact ⟨message, by simp, rfl⟩
      · exact kept (same.put id known)
    · intro millis id isTime
      show id ∈ ((memory.timeIndex.insert _ _).lookup millis).getD [] ↔ _ ∈ insert (toLex (i64ToBeBytes _, _)) _
      rw [HashMap.lookup_insert_eq, Finset.mem_insert, ← same.times millis id isTime, toLex_inj, Prod.mk.injEq,
        i64ToBeBytes_inj isTime isTimestamp]
      split
      · next equal =>
        rw [Option.getD_some, List.mem_append, List.mem_singleton, equal]
        simp [or_comm]
      · next different => simp [different]
    · intro millis member
      rcases (AList.mem_insert _).mp member with rfl | member
      · exact isTimestamp
      · exact same.memoryTimes millis member
    · intro key member
      rcases Finset.mem_insert.mp member with rfl | member
      · exact i64ToBeBytes_lt isTimestamp
      · exact same.rocksTimes key member
    · have counted := HashMap.total_insert List.length memory.timeIndex message.metadata.timestamp.timestampMillis
        ((memory.timeIndex.lookup message.metadata.timestamp.timestampMillis).getD [] ++ [message.id])
      have before := same.memoryCount
      show HashMap.total List.length (memory.timeIndex.insert _ _) ≤ _
      rw [List.length_append, List.length_singleton] at counted ⊢
      cases found : memory.timeIndex.lookup message.metadata.timestamp.timestampMillis with
      | none =>
        rw [found] at counted
        simp only [Option.map_none, Option.getD_none, List.length_nil] at counted ⊢
        omega
      | some stored =>
        rw [found] at counted
        simp only [Option.map_some, Option.getD_some] at counted ⊢
        omega
    · have before := same.rocksCount
      have grows := Finset.card_insert_le (toLex (i64ToBeBytes message.metadata.timestamp.timestampMillis, message.id))
        rocks.msgByTime
      show (insert _ rocks.msgByTime).card ≤ _
      rw [List.length_append, List.length_singleton]
      omega
  | deleteMessage id =>
    refine ⟨?_, ?_, same.tip, same.artifacts, same.times, same.memoryTimes, same.rocksTimes,
      same.memoryCount.trans longer, same.rocksCount.trans longer⟩
    · intro other
      show (memory.messages.erase id).lookup other = (rocks.msg.erase id).lookup other
      rw [HashMap.lookup_erase_eq, HashMap.lookup_erase_eq, same.messages]
    · intro other known
      exact kept (same.put other (AList.mem_erase.mp known).2)
  | addParentChild parent child =>
    exact ⟨same.messages, fun id known => kept (same.put id known), same.tip, same.artifacts, same.times,
      same.memoryTimes, same.rocksTimes, same.memoryCount.trans longer, same.rocksCount.trans longer⟩
  | markFinalized id artifact | storeFinalityArtifact id artifact =>
    refine ⟨same.messages, fun id known => kept (same.put id known), same.tip, ?_, same.times, same.memoryTimes,
      same.rocksTimes, same.memoryCount.trans longer, same.rocksCount.trans longer⟩
    intro other
    show (memory.finalized.insert id artifact).lookup other = (rocks.finArt.insert id artifact).lookup other
    rw [HashMap.lookup_insert_eq, HashMap.lookup_insert_eq, same.artifacts]

theorem sameStore_after {calls : List BackendCall} (once : PutOnce calls) (times : Timestamped calls) :
    SameStore calls (memoryAfter calls) (rocksAfter calls) := by
  induction calls using List.reverseRecOn with
  | nil =>
    refine ⟨fun _ => rfl, ?_, rfl, fun _ => rfl, ?_, ?_, ?_, le_rfl, le_rfl⟩
    · simp [memoryAfter, MemoryBackend.new]
    · simp [memoryAfter, rocksAfter, MemoryBackend.new, RocksBackend.new]
    · simp [memoryAfter, MemoryBackend.new]
    · simp [rocksAfter, RocksBackend.new]
  | append_singleton calls call ih =>
    have onceBefore : PutOnce calls := by
      unfold PutOnce at once ⊢
      rw [List.filterMap_append] at once
      exact once.of_append_left
    have same := ih onceBefore fun message member => times message (List.mem_append_left _ member)
    unfold memoryAfter rocksAfter
    rw [Runs.after_snoc, Runs.after_snoc]
    exact sameStore_run same once times

theorem memory_range {start : Int} {stop : Option Int} {limit : Nat} (ordered : start ≤ stop.getD i64Max)
    (unlimited : HashMap.total List.length memory.timeIndex ≤ limit) :
    ∃ found, memory.getMessagesInTimeRange start stop limit = some found ∧ ∀ id, id ∈ found ↔
      ∃ millis, start ≤ millis ∧ millis < stop.getD i64Max ∧ id ∈ (memory.timeIndex.lookup millis).getD [] := by
  have counted : (((HashMap.scanForward memory.timeIndex start).takeWhile fun entry => entry.1 < stop.getD i64Max).flatMap
      fun entry => entry.2).length ≤ limit := by
    refine le_trans ?_ unlimited
    rw [List.length_flatMap]
    unfold HashMap.total
    have pairs : memory.timeIndex.entries.map (fun entry => entry.2.length) =
        (HashMap.pairs memory.timeIndex).map fun entry => entry.2.length := by
      simp [HashMap.pairs]
    rw [pairs]
    have scanned : ((HashMap.scanForward memory.timeIndex start).map fun entry => entry.2.length).sum =
        (((HashMap.pairs memory.timeIndex).filter fun entry => start ≤ entry.1).map fun entry => entry.2.length).sum :=
      ((List.mergeSort_perm _ _).map _).sum_eq
    refine (((List.takeWhile_sublist _).map _).sum_le_sum fun _ _ => Nat.zero_le _).trans ?_
    rw [scanned]
    exact ((List.filter_sublist).map _).sum_le_sum fun _ _ => Nat.zero_le _
  refine ⟨_, if_neg (not_lt.mpr ordered), ?_⟩
  intro id
  rw [List.take_of_length_le counted, HashMap.flatMap_takeWhile, List.mem_map]
  constructor
  · rintro ⟨⟨millis, _⟩, member, rfl⟩
    rw [List.mem_filter, decide_eq_true_eq, HashMap.mem_flattened] at member
    exact ⟨millis, member.2.1, member.2.2, member.1⟩
  · rintro ⟨millis, later, earlier, isIn⟩
    refine ⟨(millis, id), ?_, rfl⟩
    rw [List.mem_filter, decide_eq_true_eq, HashMap.mem_flattened]
    exact ⟨isIn, later, earlier⟩

theorem rocks_range {start : Int} {stop : Option Int} {limit : Nat} (fits : ∀ key ∈ rocks.msgByTime, (ofLex key).1 < 2 ^ 63)
    (unlimited : rocks.msgByTime.card ≤ limit) :
    ∃ found, rocks.getMessagesInTimeRange start stop limit = some found ∧ ∀ id, id ∈ found ↔
      ∃ millis : Nat, i64ToBeBytes start ≤ millis ∧ (millis : Int) < stop.getD i64Max ∧
        toLex (millis, id) ∈ rocks.msgByTime := by
  have decoded : ∀ key ∈ rocks.msgByTime, i64FromBeBytes (ofLex key).1 = (ofLex key).1 :=
    fun key member => if_pos (fits key member)
  have stored : ∀ key ∈ (rocks.msgByTime.filter fun key => i64ToBeBytes start ≤ (ofLex key).1).sort (· ≤ ·),
      key ∈ rocks.msgByTime := by
    intro key member
    rw [Finset.mem_sort, Finset.mem_filter] at member
    exact member.1
  have closed : ∀ first ∈ (rocks.msgByTime.filter fun key => i64ToBeBytes start ≤ (ofLex key).1).sort (· ≤ ·),
      ∀ second ∈ (rocks.msgByTime.filter fun key => i64ToBeBytes start ≤ (ofLex key).1).sort (· ≤ ·), first ≤ second →
        decide (i64FromBeBytes (ofLex second).1 < stop.getD i64Max) = true →
        decide (i64FromBeBytes (ofLex first).1 < stop.getD i64Max) = true := by
    intro first isFirst second isSecond before inside
    rw [decide_eq_true_eq, decoded second (stored second isSecond)] at inside
    rw [decide_eq_true_eq, decoded first (stored first isFirst)]
    have ordered : (ofLex first).1 ≤ (ofLex second).1 := Prod.Lex.monotone_fst first second before
    omega
  refine ⟨_, rfl, ?_⟩
  intro id
  rw [List.take_of_length_le]
  · rw [HashMap.takeWhile_eq_filter (Finset.pairwise_sort _ _) closed, List.mem_map]
    constructor
    · rintro ⟨key, member, rfl⟩
      rw [List.mem_filter, decide_eq_true_eq, Finset.mem_sort, Finset.mem_filter] at member
      refine ⟨(ofLex key).1, member.1.2, ?_, member.1.1⟩
      rw [← decoded key member.1.1]
      exact member.2
    · rintro ⟨millis, later, earlier, member⟩
      refine ⟨toLex (millis, id), ?_, rfl⟩
      rw [List.mem_filter, decide_eq_true_eq, Finset.mem_sort, Finset.mem_filter, decoded _ member]
      exact ⟨⟨member, later⟩, earlier⟩
  · refine le_trans ?_ unlimited
    rw [List.length_map]
    refine (List.takeWhile_sublist _).length_le.trans ?_
    rw [Finset.length_sort]
    exact Finset.card_filter_le _ _

end

def SameIds (first second : Option (List MessageId)) : Prop :=
  ∃ one two, first = some one ∧ second = some two ∧ ∀ id, id ∈ one ↔ id ∈ two

structure AgreeExactly (calls : List BackendCall) (memory : MemoryBackend) (rocks : RocksBackend) : Prop where
  list : memory.listMessages = rocks.listMessages
  artifact : ∀ id, memory.getFinalityArtifact id = rocks.getFinalityArtifact id
  timeRange : ∀ start (stop : Option Int) limit, IsTimestamp start → (∀ stop' ∈ stop, IsTimestamp stop') →
    calls.length ≤ limit → (SameIds (memory.getMessagesInTimeRange start stop limit)
      (rocks.getMessagesInTimeRange start stop limit) ↔ start ≤ stop.getD i64Max)
  parents : ∀ child, (∀ parent, parent ∈ memory.getParents child ↔ parent ∈ rocks.getParents child) ↔
    ∀ parent, .addParentChild parent child ∈ calls →
      NotFollowedBy (ForgetsParents child) calls (.addParentChild parent child)
  children : ∀ parent, (∀ child, child ∈ memory.getChildren parent ↔ child ∈ rocks.getChildren parent) ↔
    ∀ child, .addParentChild parent child ∈ calls →
      NotFollowedBy (ForgetsChild parent child) calls (.addParentChild parent child)
  isFinalized : ∀ id, memory.isFinalized id = rocks.isFinalized id ↔
    ((∃ artifact, .storeFinalityArtifact id artifact ∈ calls) → ∃ artifact, .markFinalized id artifact ∈ calls)

theorem notFollowedBy_mem {α : Type} {kind : α → Prop} {arrivals : List α} {element : α}
    (alone : NotFollowedBy kind arrivals element) : element ∈ arrivals := by
  obtain ⟨before, after, rfl, _⟩ := alone
  simp

theorem agreeExactly (calls : List BackendCall) (once : PutOnce calls) (times : Timestamped calls) :
    AgreeExactly calls (memoryAfter calls) (rocksAfter calls) := by
  have same := sameStore_after once times
  have memory := memoryIndexes_after calls
  have rocks := rocksIndexes_after calls
  refine ⟨?_, same.artifacts, ?_, ?_, ?_, ?_⟩
  · ext id
    show id ∈ (memoryAfter calls).messages.keys.toFinset ↔
      id ∈ (rocksAfter calls).msg.keys.toFinset ∪ (rocksAfter calls).tip
    rw [same.tip, Finset.union_empty, List.mem_toFinset, List.mem_toFinset]
    show id ∈ (memoryAfter calls).messages ↔ id ∈ (rocksAfter calls).msg
    rw [← AList.lookup_isSome, ← AList.lookup_isSome, same.messages]
  · intro start stop limit isStart isStop unlimited
    constructor
    · rintro ⟨one, two, found, _⟩
      unfold MemoryBackend.getMessagesInTimeRange at found
      dsimp only at found
      split at found
      · cases found
      · next ordered => exact not_lt.mp ordered
    · intro ordered
      obtain ⟨one, foundOne, inOne⟩ := memory_range ordered (same.memoryCount.trans unlimited)
      obtain ⟨two, foundTwo, inTwo⟩ := @rocks_range _ start stop limit same.rocksTimes
        (same.rocksCount.trans unlimited)
      refine ⟨one, two, foundOne, foundTwo, ?_⟩
      intro id
      rw [inOne, inTwo]
      rw [i64ToBeBytes_timestamp isStart]
      have positive := isStart.1
      constructor
      · rintro ⟨millis, later, earlier, member⟩
        have known : millis ∈ (memoryAfter calls).timeIndex := by
          rw [← AList.lookup_isSome]
          by_contra none
          rw [Option.not_isSome_iff_eq_none] at none
          rw [none] at member
          cases member
        have isTime := same.memoryTimes millis known
        have stored := (same.times millis id isTime).mp member
        rw [i64ToBeBytes_timestamp isTime] at stored
        exact ⟨millis.toNat, by omega, by omega, stored⟩
      · rintro ⟨millis, later, earlier, member⟩
        have small := same.rocksTimes _ member
        have isTime : IsTimestamp millis := by
          refine ⟨Int.natCast_nonneg millis, ?_⟩
          unfold i64Max
          have bound : millis < 2 ^ 63 := small
          omega
        refine ⟨millis, by omega, earlier, (same.times millis id isTime).mpr ?_⟩
        rw [i64ToBeBytes_timestamp isTime]
        exact member
  · intro child
    refine forall_congr' fun parent => ?_
    rw [memory.parents, rocks.parents]
    exact ⟨Iff.mpr, fun live => ⟨notFollowedBy_mem, live⟩⟩
  · intro parent
    refine forall_congr' fun child => ?_
    rw [memory.children, rocks.children]
    exact ⟨Iff.mpr, fun live => ⟨notFollowedBy_mem, live⟩⟩
  · intro id
    unfold MemoryBackend.isFinalized RocksBackend.isFinalized
    rw [decide_eq_decide, memory.finalized, rocks.finalized]
    exact ⟨fun agree stored => agree.mp (.inr stored), fun marked => ⟨fun either => either.elim (fun isMarked => isMarked) marked, .inl⟩⟩

structure SameResults (calls : List BackendCall) (memory : MemoryBackend) (rocks : RocksBackend) : Prop where
  list : memory.listMessages = rocks.listMessages
  artifact : ∀ id, memory.getFinalityArtifact id = rocks.getFinalityArtifact id
  timeRange : ∀ start (stop : Option Int) limit, IsTimestamp start → (∀ stop' ∈ stop, IsTimestamp stop') →
    calls.length ≤ limit → start ≤ stop.getD i64Max →
    SameIds (memory.getMessagesInTimeRange start stop limit) (rocks.getMessagesInTimeRange start stop limit)
  parents : ∀ parent child, parent ∈ memory.getParents child ↔ parent ∈ rocks.getParents child
  children : ∀ parent child, child ∈ memory.getChildren parent ↔ child ∈ rocks.getChildren parent
  isFinalized : ∀ id, memory.isFinalized id = rocks.isFinalized id

/-- Every edge is added after the last deletion of its ends, and an artifact is only stored for a marked message. -/
structure Compatible (calls : List BackendCall) : Prop where
  edges : ∀ parent child, .addParentChild parent child ∈ calls →
    NotFollowedBy (ForgetsChild parent child) calls (.addParentChild parent child)
  marked : ∀ id artifact, .storeFinalityArtifact id artifact ∈ calls → ∃ other, .markFinalized id other ∈ calls

/-- The backends agree exactly after compatible calls. Each query has its own condition. -/
theorem same_results_iff (calls : List BackendCall) (once : PutOnce calls) (times : Timestamped calls) :
    (SameResults calls (memoryAfter calls) (rocksAfter calls) ↔ Compatible calls) ∧
      AgreeExactly calls (memoryAfter calls) (rocksAfter calls) := by
  have exactly := agreeExactly calls once times
  refine ⟨⟨?_, ?_⟩, exactly⟩
  · intro same
    refine ⟨fun parent => (exactly.children parent).mp (same.children parent), ?_⟩
    exact fun id artifact stored => (exactly.isFinalized id).mp (same.isFinalized id) ⟨artifact, stored⟩
  · rintro ⟨edges, marked⟩
    refine ⟨exactly.list, exactly.artifact, ?_, ?_, fun parent => (exactly.children parent).mpr (edges parent), ?_⟩
    · intro start stop limit isStart isStop unlimited ordered
      exact (exactly.timeRange start stop limit isStart isStop unlimited).mpr ordered
    · intro parent child
      refine (exactly.parents child).mpr ?_ parent
      exact fun other added => notFollowedBy_mono (fun later => .inr) (edges other child added)
    · intro id
      refine (exactly.isFinalized id).mpr ?_
      rintro ⟨artifact, stored⟩
      exact marked id artifact stored

theorem same_results_pair :
    let calls := [.putMessage (plainMessage 1 []), .putMessage (plainMessage 2 [1]),
      .addParentChild ⟨.replicate 1⟩ ⟨.replicate 2⟩, .markFinalized ⟨.replicate 1⟩ [7]]
    SameResults calls (memoryAfter calls) (rocksAfter calls) := by
  intro calls
  refine (same_results_iff calls (by decide) ?_).1.mpr ⟨?_, ?_⟩
  · intro message member
    simp only [calls, List.mem_cons, BackendCall.putMessage.injEq, List.not_mem_nil, reduceCtorEq, or_false] at member
    rcases member with rfl | rfl <;> exact ⟨by decide, by decide⟩
  · intro parent child member
    simp only [calls, List.mem_cons, BackendCall.addParentChild.injEq, List.not_mem_nil, reduceCtorEq, or_false,
      false_or] at member
    obtain ⟨rfl, rfl⟩ := member
    exact ⟨[.putMessage (plainMessage 1 []), .putMessage (plainMessage 2 [1])], [.markFinalized ⟨.replicate 1⟩ [7]], rfl,
      by simp [ForgetsChild]⟩
  · intro id artifact member
    simp [calls] at member

theorem deleted_edges_differ :
    let calls := [.putMessage (plainMessage 1 []), .putMessage (plainMessage 2 [1]),
      .addParentChild ⟨.replicate 1⟩ ⟨.replicate 2⟩, .deleteMessage ⟨.replicate 2⟩,
      .storeFinalityArtifact ⟨.replicate 1⟩ [7]]
    PutOnce calls ∧ (memoryAfter calls).getParents ⟨.replicate 2⟩ = [] ∧
      (⟨.replicate 1⟩ : MessageId) ∈ (rocksAfter calls).getParents ⟨.replicate 2⟩ ∧
      (memoryAfter calls).isFinalized ⟨.replicate 1⟩ = true ∧ (rocksAfter calls).isFinalized ⟨.replicate 1⟩ = false := by
  refine ⟨by decide, by decide +kernel, ?_, by decide +kernel, by decide +kernel⟩
  exact mem_scanFrom.mpr (by decide +kernel)

end AdicProof.Storage
