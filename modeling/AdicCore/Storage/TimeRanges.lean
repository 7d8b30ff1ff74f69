import AdicCore.Storage.BackendAgreement

open AdicModel AdicModel.Storage

namespace AdicProof.Storage

def millisOf (message : AdicMessage) : Int := message.metadata.timestamp.timestampMillis

def stamps (messages : List AdicMessage) : List (Int × MessageId) :=
  messages.map fun message => (millisOf message, message.id)

def memoryOf (messages : List AdicMessage) : MemoryBackend := memoryAfter (messages.map .putMessage)

def rocksOf (messages : List AdicMessage) : RocksBackend := rocksAfter (messages.map .putMessage)

section

variable {messages : List AdicMessage}

theorem mem_stamps {time : Int} {id : MessageId} :
    (time, id) ∈ stamps messages ↔ ∃ message ∈ messages, millisOf message = time ∧ message.id = id := by
  unfold stamps
  simp only [List.mem_map, Prod.mk.injEq]

theorem stamps_nodup (distinct : (messages.map AdicMessage.id).Nodup) : (stamps messages).Nodup := by
  apply List.Nodup.of_map Prod.snd
  unfold stamps
  rw [List.map_map]
  exact distinct

structure MemoryHolds (messages : List AdicMessage) (memory : MemoryBackend) : Prop where
  known : ∀ id, id ∈ memory.messages ↔ id ∈ messages.map AdicMessage.id
  found : ∀ message ∈ messages, memory.messages.lookup message.id = some message
  times : ∀ millis, (memory.timeIndex.lookup millis).getD [] =
    (messages.filter fun message => millisOf message = millis).map AdicMessage.id

theorem memoryHolds (distinct : (messages.map AdicMessage.id).Nodup) : MemoryHolds messages (memoryOf messages) := by
  unfold memoryOf memoryAfter
  induction messages using List.reverseRecOn with
  | nil => exact ⟨by simp [MemoryBackend.new], by simp, fun millis => rfl⟩
  | append_singleton before message ih =>
    rw [List.map_append, List.nodup_append] at distinct
    rcases ih distinct.1 with ⟨known, found, times⟩
    have unknown : message.id ∉ before.map AdicMessage.id := by
      intro member
      exact distinct.2.2 _ member _ List.mem_cons_self rfl
    rw [List.map_append, List.map_singleton, Runs.after_snoc, run_putMessage (fun member => unknown ((known _).mp member))]
    refine ⟨?_, ?_, ?_⟩
    · intro id
      rw [AList.mem_insert, known]
      simp [or_comm]
    · intro other member
      rw [HashMap.lookup_insert_eq]
      rcases List.mem_append.mp member with earlier | last
      · rw [if_neg, found other earlier]
        intro same
        exact unknown (same ▸ List.mem_map_of_mem earlier)
      · rw [List.mem_singleton.mp last, if_pos rfl]
    · intro millis
      rw [HashMap.lookup_insert_eq, List.filter_append, List.map_append, ← times millis]
      have here : message.metadata.timestamp.timestampMillis = millisOf message := rfl
      by_cases same : millis = millisOf message
      · subst same
        rw [here, if_pos rfl, Option.getD_some]
        simp
      · rw [here, if_neg same]
        simp [Ne.symm same]

theorem flattened_perm (distinct : (messages.map AdicMessage.id).Nodup) :
    (HashMap.flattened (memoryOf messages).timeIndex).Perm (stamps messages) := by
  have holds := memoryHolds distinct
  have nodup : (HashMap.flattened (memoryOf messages).timeIndex).Nodup := by
    apply HashMap.flattened_nodup
    intro millis
    rw [holds.times]
    exact distinct.sublist (List.filter_sublist.map AdicMessage.id)
  rw [List.perm_ext_iff_of_nodup nodup (stamps_nodup distinct)]
  rintro ⟨time, id⟩
  rw [HashMap.mem_flattened, holds.times, mem_stamps, List.mem_map]
  simp only [List.mem_filter, decide_eq_true_eq, and_assoc]

end

def Answers (stored : List (Int × MessageId)) (start stop : Int) (limit : Nat) (result : List MessageId) : Prop :=
  ∃ ordered : List (Int × MessageId), ordered.Perm (stored.filter fun stamp => start ≤ stamp.1 ∧ stamp.1 < stop) ∧
    (ordered.Pairwise fun first second => first.1 ≤ second.1) ∧ result = (ordered.take limit).map Prod.snd

section

variable {messages : List AdicMessage} {start : Int} {stop : Option Int} {limit : Nat}

theorem memory_timeRange (ordered : start ≤ stop.getD i64Max) (memory : MemoryBackend) :
    memory.getMessagesInTimeRange start stop limit =
      some ((((HashMap.flattened memory.timeIndex).filter
        fun stamp => start ≤ stamp.1 ∧ stamp.1 < stop.getD i64Max).map Prod.snd).take limit) := by
  unfold MemoryBackend.getMessagesInTimeRange
  dsimp only
  rw [if_neg (not_lt.mpr ordered), HashMap.flatMap_takeWhile]

theorem memory_answers (distinct : (messages.map AdicMessage.id).Nodup) (ordered : start ≤ stop.getD i64Max) :
    ∃ found, (memoryOf messages).getMessagesInTimeRange start stop limit = some found ∧
      Answers (stamps messages) start (stop.getD i64Max) limit found := by
  refine ⟨_, memory_timeRange ordered _, _, (flattened_perm distinct).filter _, HashMap.flattened_sorted.filter _, ?_⟩
  exact List.map_take.symm

end

def IsI64 (value : Int) : Prop := -2 ^ 63 ≤ value ∧ value < 2 ^ 63

instance IsI64.decidable (value : Int) : Decidable (IsI64 value) := inferInstanceAs (Decidable (_ ∧ _))

section

variable {first second : Int}

theorem fromBeBytes_toBeBytes (fits : IsI64 first) : i64FromBeBytes (i64ToBeBytes first) = first := by
  unfold IsI64 at fits
  unfold i64FromBeBytes i64ToBeBytes
  split <;> omega

theorem toBeBytes_le_iff (isFirst : IsI64 first) (isSecond : IsI64 second) :
    i64ToBeBytes first ≤ i64ToBeBytes second ↔
      if first < 0 then first ≤ second ∧ second < 0 else second < 0 ∨ first ≤ second := by
  unfold IsI64 at isFirst isSecond
  unfold i64ToBeBytes
  split <;> omega

end

def scanned (rocks : RocksBackend) (start : Int) : List (Int × MessageId) :=
  (HashMap.sortedKeys (rocks.msgByTime.filter fun key => i64ToBeBytes start ≤ (ofLex key).1)).map
    fun key => (i64FromBeBytes (ofLex key).1, (ofLex key).2)

theorem rocks_timeRange (rocks : RocksBackend) (start : Int) (stop : Option Int) (limit : Nat) :
    rocks.getMessagesInTimeRange start stop limit =
      some ((((scanned rocks start).takeWhile fun stamp => stamp.1 < stop.getD i64Max).take limit).map Prod.snd) := by
  unfold RocksBackend.getMessagesInTimeRange scanned
  rw [List.takeWhile_map, List.map_take, List.map_map]
  rfl

section

variable {messages : List AdicMessage} {start : Int}

theorem mem_msgByTime {key : Nat ×ₗ MessageId} :
    key ∈ (rocksOf messages).msgByTime ↔
      ∃ stamp ∈ stamps messages, key = toLex (i64ToBeBytes stamp.1, stamp.2) := by
  unfold rocksOf rocksAfter
  induction messages using List.reverseRecOn with
  | nil => simp [RocksBackend.new, stamps]
  | append_singleton before message ih =>
    rw [List.map_append, List.map_singleton, Runs.after_snoc]
    show key ∈ insert (toLex (i64ToBeBytes (millisOf message), message.id)) _ ↔ _
    rw [Finset.mem_insert, ih]
    simp [stamps, or_comm, or_and_right, exists_or]

theorem stamps_fit (times : ∀ message ∈ messages, IsI64 (millisOf message)) :
    ∀ stamp ∈ stamps messages, IsI64 stamp.1 := by
  rintro ⟨time, id⟩ member
  rcases mem_stamps.mp member with ⟨message, stored, rfl, _⟩
  exact times message stored

theorem scanned_perm (distinct : (messages.map AdicMessage.id).Nodup)
    (times : ∀ message ∈ messages, IsI64 (millisOf message)) :
    (scanned (rocksOf messages) start).Perm
      ((stamps messages).filter fun stamp => i64ToBeBytes start ≤ i64ToBeBytes stamp.1) := by
  have fit := stamps_fit times
  have mem : ∀ stamp, stamp ∈ scanned (rocksOf messages) start ↔
      stamp ∈ stamps messages ∧ i64ToBeBytes start ≤ i64ToBeBytes stamp.1 := by
    intro stamp
    unfold scanned HashMap.sortedKeys
    rw [List.mem_map]
    simp only [Finset.mem_sort, Finset.mem_filter, mem_msgByTime]
    constructor
    · rintro ⟨_, ⟨⟨stored, member, rfl⟩, later⟩, rfl⟩
      have decoded := fromBeBytes_toBeBytes (fit stored member)
      simp only [ofLex_toLex] at later ⊢
      rw [decoded]
      exact ⟨member, later⟩
    · rintro ⟨member, later⟩
      refine ⟨toLex (i64ToBeBytes stamp.1, stamp.2), ⟨⟨stamp, member, rfl⟩, later⟩, ?_⟩
      rw [ofLex_toLex, fromBeBytes_toBeBytes (fit stamp member)]
  have nodup : (scanned (rocksOf messages) start).Nodup := by
    apply List.Nodup.map_on _ (Finset.sort_nodup _ _)
    intro key isKey other isOther same
    simp only [Finset.mem_sort, Finset.mem_filter, mem_msgByTime] at isKey isOther
    rcases isKey with ⟨⟨stored, member, rfl⟩, _⟩
    rcases isOther with ⟨⟨stored', member', rfl⟩, _⟩
    simp only [ofLex_toLex, Prod.mk.injEq, fromBeBytes_toBeBytes (fit _ member),
      fromBeBytes_toBeBytes (fit _ member')] at same
    rw [same.1, same.2]
  rw [List.perm_ext_iff_of_nodup nodup ((stamps_nodup distinct).filter _)]
  intro stamp
  rw [mem, List.mem_filter, decide_eq_true_eq]

theorem scanned_sorted (times : ∀ message ∈ messages, IsI64 (millisOf message)) :
    (scanned (rocksOf messages) start).Pairwise fun first second => i64ToBeBytes first.1 ≤ i64ToBeBytes second.1 := by
  unfold scanned HashMap.sortedKeys
  rw [List.pairwise_map]
  refine (Finset.pairwise_sort _ (· ≤ ·)).imp_of_mem ?_
  intro first second isFirst isSecond ordered
  simp only [Finset.mem_sort, Finset.mem_filter, mem_msgByTime] at isFirst isSecond
  rcases isFirst with ⟨⟨stored, member, rfl⟩, _⟩
  rcases isSecond with ⟨⟨stored', member', rfl⟩, _⟩
  simp only [ofLex_toLex, fromBeBytes_toBeBytes (stamps_fit times _ member),
    fromBeBytes_toBeBytes (stamps_fit times _ member')]
  exact Prod.Lex.monotone_fst _ _ ordered

variable {stop : Int}

theorem takeWhile_negative (distinct : (messages.map AdicMessage.id).Nodup)
    (times : ∀ message ∈ messages, IsI64 (millisOf message)) (fits : IsI64 start) (negative : start < 0) :
    ((scanned (rocksOf messages) start).takeWhile fun stamp => stamp.1 < stop).Perm
        ((stamps messages).filter fun stamp => (start ≤ stamp.1 ∧ stamp.1 < stop) ∧ stamp.1 < 0) ∧
      ((scanned (rocksOf messages) start).takeWhile fun stamp => stamp.1 < stop).Pairwise
        fun first second => first.1 ≤ second.1 := by
  have perm := @scanned_perm _ start distinct times
  have inScan : ∀ stamp ∈ scanned (rocksOf messages) start, IsI64 stamp.1 ∧ start ≤ stamp.1 ∧ stamp.1 < 0 := by
    intro stamp member
    have stored := perm.mem_iff.mp member
    rw [List.mem_filter, decide_eq_true_eq] at stored
    have fit := stamps_fit times stamp stored.1
    rw [toBeBytes_le_iff fits fit, if_pos negative] at stored
    exact ⟨fit, stored.2⟩
  have sorted : (scanned (rocksOf messages) start).Pairwise fun first second => first.1 ≤ second.1 := by
    refine (scanned_sorted times).imp_of_mem ?_
    intro first second isFirst isSecond ordered
    rw [toBeBytes_le_iff (inScan first isFirst).1 (inScan second isSecond).1, if_pos (inScan first isFirst).2.2]
      at ordered
    exact ordered.1
  rw [HashMap.takeWhile_eq_filter sorted]
  · refine ⟨(perm.filter _).trans ?_, sorted.filter _⟩
    rw [List.filter_filter]
    apply List.Perm.of_eq
    apply List.filter_congr
    intro stamp member
    rw [← Bool.decide_and, decide_eq_decide, toBeBytes_le_iff fits (stamps_fit times stamp member), if_pos negative]
    tauto
  · intro first _ second _ before inside
    rw [decide_eq_true_eq] at inside ⊢
    exact before.trans_lt inside

theorem takeWhile_append_sorted {first second : List (Int × MessageId)}
    (sorted : first.Pairwise fun one other => one.1 ≤ other.1)
    (sorted' : second.Pairwise fun one other => one.1 ≤ other.1) :
    ∃ outside, ((first ++ second).takeWhile fun stamp => stamp.1 < stop) =
        (first.filter fun stamp => stamp.1 < stop) ++ outside ∧
      (outside = [] ↔ (∃ stamp ∈ first, stop ≤ stamp.1) ∨ ∀ stamp ∈ second, stop ≤ stamp.1) := by
  have closed : ∀ one other : Int × MessageId, one.1 ≤ other.1 → decide (other.1 < stop) = true →
      decide (one.1 < stop) = true := by
    intro one other before inside
    rw [decide_eq_true_eq] at inside ⊢
    exact before.trans_lt inside
  have begins := HashMap.takeWhile_eq_filter sorted fun one _ other _ => closed one other
  have goesOn := HashMap.takeWhile_eq_filter sorted' fun one _ other _ => closed one other
  by_cases behind : ∃ stamp ∈ first, stop ≤ stamp.1
  · refine ⟨[], ?_, iff_of_true rfl (.inl behind)⟩
    rw [List.takeWhile_append, if_neg, begins, List.append_nil]
    intro whole
    rcases behind with ⟨stamp, member, late⟩
    have part : (first.takeWhile fun stamp => stamp.1 < stop) <+: first := List.takeWhile_prefix _
    have all := part.eq_of_length whole
    rw [begins] at all
    rw [← all, List.mem_filter, decide_eq_true_eq] at member
    exact absurd member.2 (not_lt.mpr late)
  · have all : ∀ stamp ∈ first, decide (stamp.1 < stop) = true := by
      intro stamp member
      rw [decide_eq_true_eq]
      by_contra late
      exact behind ⟨stamp, member, not_lt.mp late⟩
    refine ⟨second.filter fun stamp => stamp.1 < stop, ?_, ?_⟩
    · rw [List.takeWhile_append_of_pos all, goesOn, List.filter_eq_self.mpr all]
    · rw [List.filter_eq_nil_iff]
      simp only [decide_eq_true_eq, not_lt, behind, false_or]

theorem takeWhile_positive (distinct : (messages.map AdicMessage.id).Nodup)
    (times : ∀ message ∈ messages, IsI64 (millisOf message)) (fits : IsI64 start) (positive : 0 ≤ start) :
    ∃ inside outside, ((scanned (rocksOf messages) start).takeWhile fun stamp => stamp.1 < stop) = inside ++ outside ∧
      inside.Perm ((stamps messages).filter fun stamp => start ≤ stamp.1 ∧ stamp.1 < stop) ∧
      (inside.Pairwise fun first second => first.1 ≤ second.1) ∧
      (outside = [] ↔ (∃ stamp ∈ stamps messages, start ≤ stamp.1 ∧ stop ≤ stamp.1) ∨
        ∀ stamp ∈ stamps messages, stamp.1 < 0 → stop ≤ stamp.1) := by
  have perm := @scanned_perm _ start distinct times
  have bytes := @scanned_sorted _ start times
  generalize scanned (rocksOf messages) start = entries at perm bytes
  have fit : ∀ stamp ∈ entries, IsI64 stamp.1 := by
    intro stamp member
    exact stamps_fit times stamp (List.mem_of_mem_filter (perm.mem_iff.mp member))
  have positives : (entries.filter fun stamp => 0 ≤ stamp.1).Perm
      ((stamps messages).filter fun stamp => start ≤ stamp.1) := by
    refine (perm.filter _).trans (List.Perm.of_eq ?_)
    rw [List.filter_filter]
    apply List.filter_congr
    intro stamp member
    rw [← Bool.decide_and, decide_eq_decide, toBeBytes_le_iff fits (stamps_fit times stamp member),
      if_neg (not_lt.mpr positive)]
    omega
  have negatives : (entries.filter fun stamp => !decide (0 ≤ stamp.1)).Perm
      ((stamps messages).filter fun stamp => stamp.1 < 0) := by
    refine (perm.filter _).trans (List.Perm.of_eq ?_)
    rw [List.filter_filter]
    apply List.filter_congr
    intro stamp member
    rw [← decide_not, ← Bool.decide_and, decide_eq_decide, toBeBytes_le_iff fits (stamps_fit times stamp member),
      if_neg (not_lt.mpr positive)]
    omega
  have parts : entries.filter (fun stamp => 0 ≤ stamp.1) ++ entries.filter (fun stamp => !decide (0 ≤ stamp.1)) =
      entries := by
    refine HashMap.filter_append_filter_not bytes ?_
    intro first isFirst second isSecond ordered inside
    rw [toBeBytes_le_iff (fit first isFirst) (fit second isSecond)] at ordered
    rw [decide_eq_true_eq] at inside ⊢
    split at ordered <;> omega
  have sorted : ∀ sign : Bool, (entries.filter fun stamp => decide (0 ≤ stamp.1) == sign).Pairwise
      fun first second => first.1 ≤ second.1 := by
    intro sign
    refine (bytes.filter _).imp_of_mem ?_
    intro first second isFirst isSecond ordered
    rw [List.mem_filter] at isFirst isSecond
    rw [toBeBytes_le_iff (fit first isFirst.1) (fit second isSecond.1)] at ordered
    have one := isFirst.2
    have other := isSecond.2
    simp only [beq_iff_eq] at one other
    split at ordered
    · exact ordered.1
    · cases sign <;> simp only [decide_eq_true_eq, decide_eq_false_iff_not] at one other <;> omega
  have behind := @takeWhile_append_sorted stop _ _ (sorted true) (sorted false)
  simp only [beq_true, beq_false] at behind
  rw [parts] at behind
  rcases behind with ⟨outside, split, none⟩
  refine ⟨_, outside, split, ?_, ?_, none.trans (or_congr ?_ ?_)⟩
  · refine (positives.filter _).trans (List.Perm.of_eq ?_)
    rw [List.filter_filter]
    apply List.filter_congr
    intro stamp _
    rw [Bool.decide_and, Bool.and_comm]
  · have ordered := (sorted true).filter fun stamp => decide (stamp.1 < stop)
    simp only [beq_true] at ordered
    exact ordered
  · refine exists_congr fun stamp => ?_
    rw [positives.mem_iff, List.mem_filter, decide_eq_true_eq, and_assoc]
  · refine forall_congr' fun stamp => ?_
    rw [negatives.mem_iff, List.mem_filter, decide_eq_true_eq, and_imp]

end

def timesOf (memory : MemoryBackend) (result : List MessageId) : List (Option Int) :=
  result.map fun id => (memory.getMessage id).map millisOf

section

variable {messages : List AdicMessage} {start stop : Int} {limit : Nat} {result other : List MessageId}

theorem timesOf_stamps (distinct : (messages.map AdicMessage.id).Nodup) {ordered : List (Int × MessageId)}
    (stored : ∀ stamp ∈ ordered, stamp ∈ stamps messages) :
    timesOf (memoryOf messages) (ordered.map Prod.snd) = ordered.map fun stamp => some stamp.1 := by
  unfold timesOf
  rw [List.map_map]
  apply List.map_congr_left
  rintro ⟨time, id⟩ member
  rcases mem_stamps.mp (stored _ member) with ⟨message, isStored, rfl, rfl⟩
  show ((memoryOf messages).messages.lookup message.id).map millisOf = _
  rw [(memoryHolds distinct).found message isStored, Option.map_some]

theorem Answers.length (answers : Answers (stamps messages) start stop limit result) :
    result.length = min limit ((stamps messages).filter fun stamp => start ≤ stamp.1 ∧ stamp.1 < stop).length := by
  rcases answers with ⟨ordered, perm, _, rfl⟩
  rw [List.length_map, List.length_take, perm.length_eq]

theorem Answers.times_eq (distinct : (messages.map AdicMessage.id).Nodup)
    (answers : Answers (stamps messages) start stop limit result)
    (others : Answers (stamps messages) start stop limit other) :
    timesOf (memoryOf messages) result = timesOf (memoryOf messages) other := by
  rcases answers with ⟨ordered, perm, sorted, rfl⟩
  rcases others with ⟨ordered', perm', sorted', rfl⟩
  have times : ordered.map Prod.fst = ordered'.map Prod.fst :=
    ((perm.trans perm'.symm).map Prod.fst).eq_of_pairwise (fun _ _ _ _ => le_antisymm) (List.pairwise_map.mpr sorted)
      (List.pairwise_map.mpr sorted')
  have split : ∀ entries : List (Int × MessageId), (entries.take limit).map (fun stamp => some stamp.1) =
      ((entries.map Prod.fst).take limit).map some := by
    intro entries
    rw [← List.map_take, List.map_map]
    rfl
  rw [timesOf_stamps distinct, timesOf_stamps distinct, split, split, times]
  · intro stamp member
    exact List.mem_of_mem_filter (perm'.mem_iff.mp (List.mem_of_mem_take member))
  · intro stamp member
    exact List.mem_of_mem_filter (perm.mem_iff.mp (List.mem_of_mem_take member))

theorem timesOf_length (memory : MemoryBackend) : (timesOf memory result).length = result.length := List.length_map _

end

/-- The times of the other sign do not matter: the limit or the end comes before them, or there are none. -/
def SignSafe (stored : List (Int × MessageId)) (start stop : Int) (limit : Nat) : Prop :=
  limit ≤ (stored.filter fun stamp => (start ≤ stamp.1 ∧ stamp.1 < stop) ∧ (stamp.1 < 0 ↔ start < 0)).length ∨
    if start < 0 then ∀ stamp ∈ stored, 0 ≤ stamp.1 → stop ≤ stamp.1
    else (∃ stamp ∈ stored, start ≤ stamp.1 ∧ stop ≤ stamp.1) ∨ ∀ stamp ∈ stored, stamp.1 < 0 → stop ≤ stamp.1

section

variable {messages : List AdicMessage} {start stop : Int} {limit : Nat}

theorem take_append_length {α : Type} {first more : List α} :
    ((first ++ more).take limit).length = (first.take limit).length ↔ more = [] ∨ limit ≤ first.length := by
  rw [List.length_take, List.length_take, List.length_append, ← List.length_eq_zero_iff]
  omega

theorem take_append_left {α : Type} {first more : List α} (enough : more = [] ∨ limit ≤ first.length) :
    (first ++ more).take limit = first.take limit := by
  rcases enough with rfl | enough
  · rw [List.append_nil]
  · exact List.take_append_of_le_length enough

theorem sorted_rest {stored found : List (Int × MessageId)} (negative : start < 0)
    (perm : found.Perm (stored.filter fun stamp => (start ≤ stamp.1 ∧ stamp.1 < stop) ∧ stamp.1 < 0))
    (sorted : found.Pairwise fun first second => first.1 ≤ second.1) :
    ∃ missing : List (Int × MessageId),
      (found ++ missing).Perm (stored.filter fun stamp => start ≤ stamp.1 ∧ stamp.1 < stop) ∧
      ((found ++ missing).Pairwise fun first second => first.1 ≤ second.1) ∧
      (missing = [] ↔ ∀ stamp ∈ stored, 0 ≤ stamp.1 → stop ≤ stamp.1) := by
  have rest := List.mergeSort_perm (stored.filter fun stamp => (start ≤ stamp.1 ∧ stamp.1 < stop) ∧ ¬ stamp.1 < 0)
    fun first second => decide (first.1 ≤ second.1)
  refine ⟨_, (perm.append rest).trans ?_, ?_, ?_⟩
  · have both := List.filter_append_perm (fun stamp : Int × MessageId => decide (stamp.1 < 0))
      (stored.filter fun stamp => start ≤ stamp.1 ∧ stamp.1 < stop)
    rw [List.filter_filter, List.filter_filter] at both
    refine (List.Perm.of_eq ?_).trans both
    congr 1
    · apply List.filter_congr
      intro stamp _
      rw [Bool.decide_and, Bool.and_comm]
    · apply List.filter_congr
      intro stamp _
      rw [Bool.decide_and, Bool.and_comm, decide_not]
  · rw [List.pairwise_append]
    refine ⟨sorted, ?_, ?_⟩
    · exact HashMap.mergeSort_sorted Prod.fst
        (stored.filter fun stamp => (start ≤ stamp.1 ∧ stamp.1 < stop) ∧ ¬ stamp.1 < 0)
    · intro first isFirst second isSecond
      have before := perm.mem_iff.mp isFirst
      have after := rest.mem_iff.mp isSecond
      rw [List.mem_filter, decide_eq_true_eq] at before after
      omega
  · rw [← List.length_eq_zero_iff, List.length_mergeSort, List.length_eq_zero_iff, List.filter_eq_nil_iff]
    refine forall_congr' fun stamp => forall_congr' fun _ => ?_
    rw [decide_eq_true_eq]
    omega

theorem scan_answers (distinct : (messages.map AdicMessage.id).Nodup)
    (times : ∀ message ∈ messages, IsI64 (millisOf message)) (fits : IsI64 start) :
    (SignSafe (stamps messages) start stop limit →
      Answers (stamps messages) start stop limit
        ((((scanned (rocksOf messages) start).takeWhile fun stamp => stamp.1 < stop).take limit).map Prod.snd)) ∧
    ((((scanned (rocksOf messages) start).takeWhile fun stamp => stamp.1 < stop).take limit).length =
      min limit ((stamps messages).filter fun stamp => start ≤ stamp.1 ∧ stamp.1 < stop).length →
        SignSafe (stamps messages) start stop limit) := by
  by_cases negative : start < 0
  · have ⟨perm, sorted⟩ := @takeWhile_negative messages start stop distinct times fits negative
    generalize (scanned (rocksOf messages) start).takeWhile (fun stamp => stamp.1 < stop) = found at perm sorted
    rcases sorted_rest negative perm sorted with ⟨missing, whole, ordered, none⟩
    have safe : SignSafe (stamps messages) start stop limit ↔ missing = [] ∨ limit ≤ found.length := by
      unfold SignSafe
      rw [if_pos negative, ← none, or_comm, perm.length_eq]
      have same : (stamps messages).filter (fun stamp => (start ≤ stamp.1 ∧ stamp.1 < stop) ∧ (stamp.1 < 0 ↔ start < 0)) =
          (stamps messages).filter fun stamp => (start ≤ stamp.1 ∧ stamp.1 < stop) ∧ stamp.1 < 0 := by
        apply List.filter_congr
        intro stamp _
        rw [decide_eq_decide]
        simp only [negative, iff_true]
      rw [same]
    rw [safe, ← whole.length_eq, ← List.length_take]
    refine ⟨fun enough => ⟨_, whole, ordered, ?_⟩, fun same => take_append_length.mp same.symm⟩
    rw [take_append_left enough]
  · rcases @takeWhile_positive messages start stop distinct times fits (not_lt.mp negative) with
      ⟨inside, outside, split, perm, sorted, none⟩
    rw [split]
    have safe : SignSafe (stamps messages) start stop limit ↔ outside = [] ∨ limit ≤ inside.length := by
      unfold SignSafe
      rw [if_neg negative, ← none, or_comm, perm.length_eq]
      have same : (stamps messages).filter (fun stamp => (start ≤ stamp.1 ∧ stamp.1 < stop) ∧ (stamp.1 < 0 ↔ start < 0)) =
          (stamps messages).filter fun stamp => start ≤ stamp.1 ∧ stamp.1 < stop := by
        apply List.filter_congr
        intro stamp _
        rw [decide_eq_decide]
        omega
      rw [same]
    rw [safe, ← perm.length_eq, ← List.length_take]
    refine ⟨fun enough => ⟨inside, perm, sorted, ?_⟩, take_append_length.mp⟩
    rw [take_append_left enough]

end

def ExactRange (messages : List AdicMessage) (start : Int) (stop : Option Int) (limit : Nat) : Prop :=
  ∃ found, (rocksOf messages).getMessagesInTimeRange start stop limit = some found ∧
    Answers (stamps messages) start (stop.getD i64Max) limit found

def SameTimes (messages : List AdicMessage) (start : Int) (stop : Option Int) (limit : Nat) : Prop :=
  ∃ found other, (rocksOf messages).getMessagesInTimeRange start stop limit = some found ∧
    (memoryOf messages).getMessagesInTimeRange start stop limit = some other ∧
    timesOf (memoryOf messages) found = timesOf (memoryOf messages) other

section

variable {messages : List AdicMessage} (distinct : (messages.map AdicMessage.id).Nodup)
  (times : ∀ message ∈ messages, IsI64 (millisOf message)) {start : Int} (fits : IsI64 start) {stop : Option Int}
  {limit : Nat}
include distinct times fits

theorem exactRange_iff : ExactRange messages start stop limit ↔
    SignSafe (stamps messages) start (stop.getD i64Max) limit := by
  have ⟨answers, safe⟩ := @scan_answers _ start (stop.getD i64Max) limit distinct times fits
  unfold ExactRange
  rw [rocks_timeRange]
  constructor
  · rintro ⟨_, same, exact⟩
    cases same
    have length := exact.length
    rw [List.length_map] at length
    exact safe length
  · intro isSafe
    exact ⟨_, rfl, answers isSafe⟩

theorem sameTimes_iff : SameTimes messages start stop limit ↔
    start ≤ stop.getD i64Max ∧ SignSafe (stamps messages) start (stop.getD i64Max) limit := by
  by_cases ordered : stop.getD i64Max < start
  · have panics : (memoryOf messages).getMessagesInTimeRange start stop limit = none := if_pos ordered
    unfold SameTimes
    rw [panics]
    constructor
    · rintro ⟨_, _, _, none, _⟩
      cases none
    · intro both
      exact absurd ordered (not_lt.mpr both.1)
  rw [not_lt] at ordered
  have ⟨answers, safe⟩ := @scan_answers _ start (stop.getD i64Max) limit distinct times fits
  rcases @memory_answers messages start stop limit distinct ordered with ⟨other, found, known⟩
  unfold SameTimes
  rw [rocks_timeRange, found, and_iff_right ordered]
  constructor
  · rintro ⟨_, _, here, there, equal⟩
    cases here
    cases there
    have length := congrArg List.length equal
    rw [timesOf_length, timesOf_length, known.length, List.length_map] at length
    exact safe length
  · intro isSafe
    exact ⟨_, _, rfl, rfl, (answers isSafe).times_eq distinct known⟩

end

/-- A range of the database is exact if and only if the other sign does not matter, and the memory agrees if it also
    does not start after its end. -/
theorem time_range_exact_iff (messages : List AdicMessage) (distinct : (messages.map AdicMessage.id).Nodup)
    (times : ∀ message ∈ messages, IsI64 (millisOf message)) (start : Int) (fits : IsI64 start) (stop : Option Int)
    (limit : Nat) :
    (ExactRange messages start stop limit ↔ SignSafe (stamps messages) start (stop.getD i64Max) limit) ∧
      (SameTimes messages start stop limit ↔
        start ≤ stop.getD i64Max ∧ SignSafe (stamps messages) start (stop.getD i64Max) limit) :=
  ⟨exactRange_iff distinct times fits, sameTimes_iff distinct times fits⟩

def messageAt (byte : UInt8) (millis : Int) : AdicMessage :=
  ⟨⟨.replicate byte⟩, [], ⟨[]⟩, .new ⟨millis / 1000, .ofNat ((millis % 1000).toNat * 1000000)⟩, ⟨.replicate byte⟩,
    .empty, none, []⟩

theorem time_range_exact_two : ExactRange [messageAt 1 5, messageAt 2 7] 0 none 10 ∧
    SameTimes [messageAt 1 5, messageAt 2 7] 0 none 10 := by
  have safe : SignSafe (stamps [messageAt 1 5, messageAt 2 7]) 0 ((none : Option Int).getD i64Max) 10 := by
    refine .inr ?_
    rw [if_neg (by decide)]
    exact .inr (by decide)
  have exact := time_range_exact_iff [messageAt 1 5, messageAt 2 7] (by decide) (by decide) 0 (by decide) none 10
  exact ⟨exact.1.mpr safe, exact.2.mpr ⟨by decide, safe⟩⟩

/-- A range from the last millisecond before the epoch on leaves out the epoch. -/
theorem range_across_epoch : ¬ ∀ (messages : List AdicMessage), (messages.map AdicMessage.id).Nodup →
    (∀ message ∈ messages, IsI64 (millisOf message)) → ∀ start, IsI64 start → ∀ stop limit,
      ExactRange messages start stop limit := by
  intro claim
  have exact := claim [messageAt 1 (-1), messageAt 2 0] (by decide) (by decide) (-1) (by decide) none 10
  rw [exactRange_iff (by decide) (by decide) (by decide)] at exact
  rcases exact with reached | none
  · exact absurd reached (by decide)
  · rw [if_pos (by decide)] at none
    exact absurd (none (millisOf (messageAt 2 0), (messageAt 2 0).id) (by decide) (by decide)) (by decide)

end AdicProof.Storage
