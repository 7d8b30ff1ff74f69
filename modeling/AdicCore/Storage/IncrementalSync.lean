import AdicCore.Library.Paging
import AdicCore.Storage.TimeRanges

open AdicModel AdicModel.Storage

namespace AdicProof.Storage

def inOrder (messages : List AdicMessage) : List AdicMessage :=
  messages.mergeSort fun first second => millisOf first ≤ millisOf second

def syncFrom (backend : MemoryBackend) (limit : Nat) : Nat → MessageId → Option (List AdicMessage)
  | 0, _ => none
  | steps + 1, checkpoint =>
    (Engine.getMessagesSince checkpoint limit backend).bind fun page =>
      match page.getLast? with
      | none => some []
      | some last => (syncFrom backend limit steps last.id).map (page ++ ·)

def SyncComplete (messages : List AdicMessage) (limit : Nat) (checkpoint : AdicMessage) : Prop :=
  ∃ steps visited, syncFrom (memoryOf messages) limit steps checkpoint.id = some visited ∧
    ∀ message ∈ messages, millisOf checkpoint ≤ millisOf message → message ≠ checkpoint → message ∈ visited

section

variable {messages : List AdicMessage}

theorem inOrder_sorted : (inOrder messages).Pairwise fun first second => millisOf first ≤ millisOf second :=
  HashMap.mergeSort_sorted millisOf messages

theorem mem_inOrder {message : AdicMessage} : message ∈ inOrder messages ↔ message ∈ messages := List.mem_mergeSort

theorem inOrder_shared (millis : Int) :
    ((inOrder messages).filter fun message => millisOf message = millis) =
      messages.filter fun message => millisOf message = millis := by
  have kept : (messages.filter fun message => millisOf message = millis).Sublist (inOrder messages) := by
    refine List.sublist_mergeSort (fun a b c => by simpa using le_trans)
      (fun a b => by simpa using le_total (millisOf a) (millisOf b)) ?_ List.filter_sublist
    apply List.pairwise_of_forall_mem_list
    intro first isFirst second isSecond
    simp only [List.mem_filter, decide_eq_true_eq] at isFirst isSecond ⊢
    rw [isFirst.2, isSecond.2]
  have inside := kept.filter fun message => decide (millisOf message = millis)
  simp only [List.filter_filter, Bool.and_self] at inside
  refine (inside.eq_of_length ?_).symm
  exact ((List.mergeSort_perm _ _).filter _).length_eq.symm

variable (distinct : (messages.map AdicMessage.id).Nodup)
include distinct

theorem flattened_eq : HashMap.flattened (memoryOf messages).timeIndex = stamps (inOrder messages) := by
  refine @HashMap.eq_of_parts _ _ _ Prod.fst _ _ HashMap.flattened_sorted ?_ ?_
  · unfold stamps
    exact List.pairwise_map.mpr inOrder_sorted
  · intro millis
    rw [HashMap.flattened_part, (memoryHolds distinct).times, ← inOrder_shared, List.map_map]
    unfold stamps
    rw [List.filter_map]
    apply List.map_congr_left
    intro message member
    rw [List.mem_filter, decide_eq_true_eq] at member
    show (millis, message.id) = (millisOf message, message.id)
    rw [member.2]

theorem inOrder_nodup : (inOrder messages).Nodup :=
  (List.mergeSort_perm _ _).nodup_iff.mpr distinct.of_map

theorem id_inj {first second : AdicMessage} (isFirst : first ∈ messages) (isSecond : second ∈ messages)
    (same : first.id = second.id) : first = second := List.inj_on_of_nodup_map distinct isFirst isSecond same

theorem gather_eq (checkpoint : AdicMessage) (stored : checkpoint ∈ messages) (limit : Nat)
    (listed gathered : List AdicMessage) (inside : ∀ message ∈ listed, message ∈ messages) :
    Engine.gather checkpoint.id limit (memoryOf messages) (listed.map AdicMessage.id) gathered =
      gathered ++ (listed.filter fun message => message ≠ checkpoint).take (limit - gathered.length) := by
  induction listed generalizing gathered with
  | nil => simp [Engine.gather]
  | cons message listed ih =>
    have known := inside message List.mem_cons_self
    have found : StorageBackend.getMessage message.id (memoryOf messages) = some message :=
      (memoryHolds distinct).found message known
    have rest := fun gathered => ih gathered fun other member => inside other (List.mem_cons_of_mem _ member)
    rw [List.map_cons]
    unfold Engine.gather
    by_cases full : gathered.length ≥ limit
    · rw [if_pos full, Nat.sub_eq_zero_of_le full, List.take_zero, List.append_nil]
    · rw [if_neg full]
      by_cases same : message = checkpoint
      · rw [if_pos (congrArg AdicMessage.id same), rest, List.filter_cons_of_neg (by simpa using same)]
      · rw [if_neg fun ids => same (id_inj distinct known stored ids), found]
        dsimp only
        rw [rest, List.filter_cons_of_pos (by simpa using same), List.length_append, List.length_singleton,
          List.append_assoc]
        obtain ⟨more, left⟩ : ∃ more, limit - gathered.length = more + 1 := ⟨limit - gathered.length - 1, by omega⟩
        rw [left, List.take_succ_cons, List.singleton_append, ← Nat.sub_sub, left, Nat.add_sub_cancel]

variable (times : ∀ message ∈ messages, millisOf message < i64Max)
include times

variable {checkpoint : AdicMessage}

theorem getMessagesSince_eq (limit : Nat) (stored : checkpoint ∈ messages) :
    Engine.getMessagesSince checkpoint.id limit (memoryOf messages) =
      some (Paging.pageSince millisOf (inOrder messages) ((limit + 10) % 2 ^ 64) limit checkpoint) := by
  have found : StorageBackend.getMessage checkpoint.id (memoryOf messages) = some checkpoint :=
    (memoryHolds distinct).found checkpoint stored
  have range : StorageBackend.getMessagesInTimeRange (millisOf checkpoint) none ((limit + 10) % 2 ^ 64)
      (memoryOf messages) =
        some (((Paging.since millisOf (inOrder messages) checkpoint).take ((limit + 10) % 2 ^ 64)).map
          AdicMessage.id) := by
    refine (memory_timeRange (times checkpoint stored).le _).trans ?_
    rw [flattened_eq distinct]
    unfold stamps Paging.since
    rw [List.filter_map, List.map_map, List.map_take]
    congr 3
    apply List.filter_congr
    intro message member
    show decide (millisOf checkpoint ≤ millisOf message ∧ millisOf message < i64Max) = _
    rw [decide_eq_decide]
    exact and_iff_left (times message (mem_inOrder.mp member))
  unfold Engine.getMessagesSince
  rw [found]
  dsimp only
  have millis : checkpoint.metadata.timestamp.timestampMillis = millisOf checkpoint := rfl
  rw [millis, range, Option.map_some, gather_eq distinct checkpoint stored]
  · rfl
  · intro message member
    exact mem_inOrder.mp (Paging.mem_since.mp (List.mem_of_mem_take member)).1

theorem syncFrom_eq (limit steps : Nat) (stored : checkpoint ∈ messages) :
    syncFrom (memoryOf messages) limit steps checkpoint.id =
      Paging.walk millisOf (inOrder messages) ((limit + 10) % 2 ^ 64) limit steps checkpoint := by
  induction steps generalizing checkpoint with
  | zero => rfl
  | succ steps ih =>
    unfold syncFrom Paging.walk
    rw [getMessagesSince_eq distinct times limit stored, Option.bind_some]
    cases found : (Paging.pageSince millisOf (inOrder messages) ((limit + 10) % 2 ^ 64) limit checkpoint).getLast? with
    | none => rfl
    | some last =>
      have onPage := Paging.mem_pageSince (List.mem_of_getLast? found)
      dsimp only
      rw [ih (mem_inOrder.mp (Paging.mem_since.mp onPage.1).1)]

theorem syncComplete_iff {limit : Nat} (positive : 0 < limit) (stored : checkpoint ∈ messages) :
    SyncComplete messages limit checkpoint ↔
      Paging.Paced millisOf (inOrder messages) ((limit + 10) % 2 ^ 64) limit checkpoint := by
  rw [← Paging.visits_iff positive inOrder_sorted (inOrder_nodup distinct) (mem_inOrder.mpr stored)]
  unfold SyncComplete Paging.Visits
  refine exists_congr fun steps => exists_congr fun visited => ?_
  rw [syncFrom_eq distinct times limit steps stored]
  refine and_congr_right fun _ => forall_congr' fun message => ?_
  rw [Paging.mem_since, mem_inOrder, and_imp]

end

/-- A sync is complete exactly if no time from its checkpoint on has more messages than a page, and the last has one. -/
theorem incremental_sync_iff (messages : List AdicMessage) (distinct : (messages.map AdicMessage.id).Nodup)
    (times : ∀ message ∈ messages, millisOf message < i64Max) (limit : Nat) (positive : 0 < limit)
    (checkpoint : AdicMessage) (stored : checkpoint ∈ messages) :
    SyncComplete messages limit checkpoint ↔
      Paging.Paced millisOf (inOrder messages) ((limit + 10) % 2 ^ 64) limit checkpoint :=
  syncComplete_iff distinct times positive stored

theorem incremental_sync_two : SyncComplete [messageAt 1 5, messageAt 2 7] 1 (messageAt 1 5) := by
  refine (incremental_sync_iff _ (by decide) (by decide) 1 (by decide) _ List.mem_cons_self).mpr ?_
  have ordered : inOrder [messageAt 1 5, messageAt 2 7] = [messageAt 1 5, messageAt 2 7] :=
    List.mergeSort_of_pairwise (by decide)
  rw [ordered]
  unfold Paging.Paced
  rw [if_neg (by decide)]
  exact ⟨by decide +kernel, by decide +kernel⟩

/-- Two messages of the last millisecond lead to each other. -/
theorem last_millisecond_loops : ¬ ∀ (messages : List AdicMessage), (messages.map AdicMessage.id).Nodup →
    ∀ limit, 0 < limit → ∀ checkpoint ∈ messages, SyncComplete messages limit checkpoint := by
  intro claim
  have complete := claim [messageAt 1 5, messageAt 2 5] (by decide) 1 (by decide) (messageAt 1 5) List.mem_cons_self
  rw [syncComplete_iff (by decide) (by decide) (by decide) List.mem_cons_self] at complete
  have ordered : inOrder [messageAt 1 5, messageAt 2 5] = [messageAt 1 5, messageAt 2 5] :=
    List.mergeSort_of_pairwise (by decide)
  rw [ordered] at complete
  unfold Paging.Paced at complete
  rw [if_neg (by decide)] at complete
  exact absurd (complete.1 (messageAt 1 5) (by decide +kernel)) (by decide +kernel)

end AdicProof.Storage
