import AdicCore.Storage.BackendAgreement

namespace AdicModel.Storage

inductive DagCall where
  | storeMessage (message : AdicMessage)
  | deleteMessage (id : MessageId)

def DagCall.run (backend : MemoryBackend) : DagCall → MemoryBackend
  | .storeMessage message =>
    match Engine.storeMessage message backend with
    | .ok next => next
    | .error _ => backend
  | .deleteMessage id => Engine.deleteMessage id backend

end AdicModel.Storage

open AdicModel AdicModel.Storage

namespace AdicProof.Storage

namespace Graph

def delete (id : MessageId) (graph : Graph) : Graph where
  stored := Function.update graph.stored id none
  children parent := { child | parent ≠ id ∧ child ∈ graph.children parent ∧ (parent ∈ graph.parents id → child ≠ id) }
  parents child := { parent | child ≠ id ∧ parent ∈ graph.parents child }
  tips := graph.tips.erase id
  heights := graph.heights

def MutuallyInverse (graph : Graph) : Prop :=
  ∀ parent child, child ∈ graph.children parent ↔ parent ∈ graph.parents child

def HasStoredChild (graph : Graph) (id : MessageId) : Prop :=
  ∃ other message, graph.stored other = some message ∧ id ∈ message.parents

def TipsExact (graph : Graph) : Prop :=
  ∀ id, id ∈ graph.tips ↔ (∃ message, graph.stored id = some message) ∧ ¬ graph.HasStoredChild id

end Graph

def DagCall.onGraph (graph : Graph) : DagCall → Graph
  | .storeMessage message => if (graph.stored message.id).isSome then graph else graph.store message
  | .deleteMessage id => graph.delete id

def DagCall.KeepsInverse (graph : Graph) : DagCall → Prop
  | .storeMessage _ => True
  | .deleteMessage id => ∀ child ∈ graph.children id, child = id

def DagCall.KeepsTimes (graph : Graph) : DagCall → Prop
  | .storeMessage _ => True
  | .deleteMessage id => graph.stored id = none

/-- A new message has no stored child, and each stored parent of a deleted one has another stored child. -/
def DagCall.KeepsTips (graph : Graph) : DagCall → Prop
  | .storeMessage message =>
    graph.stored message.id = none → message.id ∉ message.parents ∧ ¬ graph.HasStoredChild message.id
  | .deleteMessage id => ∀ message, graph.stored id = some message → ∀ parent ∈ message.parents, parent ≠ id →
      (∃ stored, graph.stored parent = some stored) →
        ∃ other sibling, other ≠ id ∧ graph.stored other = some sibling ∧ parent ∈ sibling.parents

section

variable {graph : Graph} {memory : MemoryBackend}

theorem of_deleteMessage (id : MessageId) :
    Graph.of (Engine.deleteMessage id memory) = (Graph.of memory).delete id := by
  apply Graph.ext
  · funext other
    show (memory.messages.erase id).lookup other = Function.update (fun other => memory.messages.lookup other) id none other
    rw [HashMap.lookup_erase_eq, Function.update_apply]
  · funext parent
    ext child
    exact mem_getChildren_deleteMessage
  · funext child
    ext parent
    exact mem_getParents_deleteMessage
  all_goals rfl

theorem of_run (call : DagCall) : Graph.of (call.run memory) = DagCall.onGraph (Graph.of memory) call := by
  cases call with
  | storeMessage message =>
    have isStored : (Graph.of memory).stored message.id = memory.messages.lookup message.id := rfl
    unfold DagCall.run DagCall.onGraph
    dsimp only
    rw [isStored]
    by_cases known : message.id ∈ memory.messages
    · rw [storeMessage_known known, if_pos (AList.lookup_isSome.mpr known)]
    · rcases storeMessage_unknown known with ⟨next, stored⟩
      rw [stored, if_neg fun isSome => known (AList.lookup_isSome.mp isSome)]
      exact of_storeMessage stored
  | deleteMessage id => exact of_deleteMessage id

theorem inverse_store (inverse : graph.MutuallyInverse) (message : AdicMessage) :
    (graph.store message).MutuallyInverse := by
  intro parent child
  have before := inverse parent child
  dsimp only [Graph.store]
  by_cases isParent : parent ∈ message.parents
  · by_cases isChild : child = message.id
    · simp [isParent, isChild]
    · simp [isParent, isChild, before]
  · by_cases isChild : child = message.id
    · subst isChild
      simp [isParent, before]
    · simp [isParent, isChild, before]

theorem inverse_delete (inverse : graph.MutuallyInverse) (id : MessageId) :
    (graph.delete id).MutuallyInverse ↔ ∀ child ∈ graph.children id, child = id := by
  constructor
  · intro after child listed
    by_contra different
    have both := (after id child).mpr ⟨different, (inverse id child).mp listed⟩
    exact both.1 rfl
  · intro only parent child
    constructor
    · intro listed
      have ⟨other, before, kept⟩ := listed
      have isParent := (inverse parent child).mp before
      refine ⟨?_, isParent⟩
      rintro rfl
      exact kept isParent rfl
    · intro listed
      have ⟨different, before⟩ := listed
      have isChild := (inverse parent child).mpr before
      refine ⟨?_, isChild, fun _ => different⟩
      rintro rfl
      exact different (only child isChild)

theorem inverse_iff (inverse : graph.MutuallyInverse) (call : DagCall) :
    (DagCall.onGraph graph call).MutuallyInverse ↔ DagCall.KeepsInverse graph call := by
  cases call with
  | storeMessage message =>
    refine iff_of_true ?_ trivial
    unfold DagCall.onGraph
    dsimp only
    split
    · exact inverse
    · exact inverse_store inverse message
  | deleteMessage id => exact inverse_delete inverse id

theorem hasStoredChild_store {message : AdicMessage} (unknown : graph.stored message.id = none) {id : MessageId} :
    (graph.store message).HasStoredChild id ↔ graph.HasStoredChild id ∨ id ∈ message.parents := by
  unfold Graph.HasStoredChild
  dsimp only [Graph.store]
  constructor
  · rintro ⟨other, child, stored, isParent⟩
    rw [Function.update_apply] at stored
    split at stored
    · cases stored
      exact .inr isParent
    · exact .inl ⟨other, child, stored, isParent⟩
  · rintro (⟨other, child, stored, isParent⟩ | isParent)
    · refine ⟨other, child, ?_, isParent⟩
      rw [Function.update_apply, if_neg, stored]
      rintro rfl
      rw [unknown] at stored
      cases stored
    · exact ⟨message.id, message, Function.update_self .., isParent⟩

theorem tips_store (exact : graph.TipsExact) {message : AdicMessage} (unknown : graph.stored message.id = none) :
    (graph.store message).TipsExact ↔ message.id ∉ message.parents ∧ ¬ graph.HasStoredChild message.id := by
  constructor
  · intro after
    have isTip : message.id ∈ (graph.store message).tips := Finset.mem_insert_self _ _
    have childless := ((after message.id).mp isTip).2
    rw [hasStoredChild_store unknown, not_or] at childless
    exact ⟨childless.2, childless.1⟩
  · rintro ⟨notParent, childless⟩ id
    have before := exact id
    rw [hasStoredChild_store unknown]
    dsimp only [Graph.store]
    rw [Finset.mem_insert, Finset.mem_sdiff, List.mem_toFinset, before, Function.update_apply]
    by_cases same : id = message.id
    · subst same
      simp [notParent, childless]
    · simp only [same, false_or, if_false]
      tauto

theorem hasStoredChild_delete {id parent : MessageId} :
    (graph.delete id).HasStoredChild parent ↔
      ∃ other sibling, other ≠ id ∧ graph.stored other = some sibling ∧ parent ∈ sibling.parents := by
  unfold Graph.HasStoredChild
  dsimp only [Graph.delete]
  refine exists_congr fun other => exists_congr fun sibling => ?_
  rw [Function.update_apply]
  by_cases same : other = id
  · simp [same]
  · simp [same]

theorem tips_delete (exact : graph.TipsExact) (id : MessageId) :
    (graph.delete id).TipsExact ↔ DagCall.KeepsTips graph (.deleteMessage id) := by
  have stored : ∀ other, other ≠ id → (graph.delete id).stored other = graph.stored other := by
    intro other different
    dsimp only [Graph.delete]
    rw [Function.update_apply, if_neg different]
  constructor
  · intro after message found parent isParent different isStored
    by_contra none
    have isTip : parent ∈ (graph.delete id).tips := by
      rw [after parent, stored parent different, hasStoredChild_delete]
      exact ⟨isStored, none⟩
    have childless := ((exact parent).mp (Finset.mem_of_mem_erase isTip)).2
    exact childless ⟨id, message, found, isParent⟩
  · intro keeps other
    rw [hasStoredChild_delete]
    by_cases same : other = id
    · have gone : (graph.delete id).stored id = none := Function.update_self ..
      rw [same, gone]
      dsimp only [Graph.delete]
      simp
    · rw [stored other same]
      dsimp only [Graph.delete]
      rw [Finset.mem_erase, exact other, and_iff_right same]
      refine and_congr_right fun isStored => not_congr ?_
      constructor
      · rintro ⟨child, message, found, isParent⟩
        by_cases deleted : child = id
        · subst deleted
          exact keeps message found other isParent same isStored
        · exact ⟨child, message, deleted, found, isParent⟩
      · rintro ⟨child, message, _, found, isParent⟩
        exact ⟨child, message, found, isParent⟩

theorem tips_iff (exact : graph.TipsExact) (call : DagCall) :
    (DagCall.onGraph graph call).TipsExact ↔ DagCall.KeepsTips graph call := by
  cases call with
  | storeMessage message =>
    unfold DagCall.onGraph DagCall.KeepsTips
    dsimp only
    cases found : graph.stored message.id with
    | none => simpa using tips_store exact found
    | some other => simpa using exact
  | deleteMessage id => exact tips_delete exact id

end

def TimesStored (memory : MemoryBackend) : Prop :=
  ∀ millis, ∀ id ∈ (memory.timeIndex.lookup millis).getD [], id ∈ memory.messages

def TimesExact (memory : MemoryBackend) : Prop :=
  ∀ id, id ∈ memory.messages ↔ ∃ millis, id ∈ (memory.timeIndex.lookup millis).getD []

section

variable {memory : MemoryBackend}

theorem times_store (exact : TimesExact memory) (message : AdicMessage) :
    TimesExact (DagCall.run memory (.storeMessage message)) := by
  unfold DagCall.run
  dsimp only
  by_cases known : message.id ∈ memory.messages
  · rw [storeMessage_known known]
    exact exact
  · rcases storeMessage_unknown known with ⟨next, stored⟩
    rw [stored]
    dsimp only
    rcases @storeMessage_part _ _ _ (fun memory => (memory.messages, memory.timeIndex)) _ stored (fun _ _ _ => rfl)
      (fun _ _ => rfl) (fun _ _ => rfl) (fun _ _ _ => rfl) with ⟨written, put, same⟩
    unfold MemoryBackend.putMessage at put
    rw [if_neg known] at put
    cases put
    rw [Prod.mk.injEq] at same
    intro id
    rw [same.1, same.2, AList.mem_insert, exact]
    dsimp only
    simp only [HashMap.lookup_insert_eq]
    constructor
    · rintro (rfl | ⟨millis, listed⟩)
      · exact ⟨message.metadata.timestamp.timestampMillis, by simp⟩
      · refine ⟨millis, ?_⟩
        split
        · next here =>
          subst here
          exact List.mem_append_left _ listed
        · exact listed
    · rintro ⟨millis, listed⟩
      split at listed
      · rcases List.mem_append.mp listed with earlier | last
        · exact .inr ⟨_, earlier⟩
        · exact .inl (List.mem_singleton.mp last)
      · exact .inr ⟨millis, listed⟩

theorem times_delete (exact : TimesExact memory) (id : MessageId) :
    (TimesStored (DagCall.run memory (.deleteMessage id)) → id ∉ memory.messages) ∧
      (id ∉ memory.messages → TimesExact (DagCall.run memory (.deleteMessage id))) := by
  constructor
  · intro after known
    rcases (exact id).mp known with ⟨millis, listed⟩
    exact (AList.mem_erase.mp (after millis id listed)).1 rfl
  · intro unknown other
    refine Iff.trans ?_ (exact other)
    rw [show other ∈ (DagCall.run memory (.deleteMessage id)).messages ↔ other ≠ id ∧ other ∈ memory.messages from
      AList.mem_erase]
    refine and_iff_right_of_imp ?_
    rintro known rfl
    exact unknown known

end

def dagAfter (calls : List DagCall) : MemoryBackend := Runs.after DagCall.run .new calls

def Always (calls : List DagCall) (holds : MemoryBackend → Prop) : Prop :=
  ∀ before, before <+: calls → holds (dagAfter before)

def EachCall (calls : List DagCall) (meets : Graph → DagCall → Prop) : Prop :=
  ∀ before call, before ++ [call] <+: calls → meets (Graph.of (dagAfter before)) call

section

variable {calls : List DagCall}

theorem graph_always_iff {holds : Graph → Prop} {keeps : Graph → DagCall → Prop}
    (fresh : holds (Graph.of MemoryBackend.new))
    (step : ∀ (memory : MemoryBackend) call, holds (Graph.of memory) →
      (holds (Graph.of (DagCall.run memory call)) ↔ keeps (Graph.of memory) call)) :
    Always calls (fun memory => holds (Graph.of memory)) ↔ EachCall calls keeps := by
  refine @Runs.invariant_iff _ _ DagCall.run .new calls (fun memory => holds (Graph.of memory))
    (fun memory => holds (Graph.of memory)) (fun call memory => keeps (Graph.of memory) call)
    (fun _ _ => True) fresh (fun _ held => held) ?_ ?_ (fun _ _ _ => trivial)
  · exact fun memory call held _ kept => (step memory call held).mpr kept
  · exact fun memory call held _ after => (step memory call held).mp after

theorem inverse_always_iff : Always calls (fun memory => (Graph.of memory).MutuallyInverse) ↔
    EachCall calls DagCall.KeepsInverse := by
  refine graph_always_iff ?_ fun memory call inverse => ?_
  · rw [of_memory_new]
    exact fun _ _ => Iff.rfl
  · rw [of_run]
    exact inverse_iff inverse call

theorem tips_always_iff : Always calls (fun memory => (Graph.of memory).TipsExact) ↔
    EachCall calls DagCall.KeepsTips := by
  refine graph_always_iff ?_ fun memory call exact => ?_
  · rw [of_memory_new]
    intro id
    simp [Graph.empty]
  · rw [of_run]
    exact tips_iff exact call

theorem times_always_iff : Always calls TimesStored ↔ EachCall calls DagCall.KeepsTimes := by
  have stored : ∀ (memory : MemoryBackend) id, (Graph.of memory).stored id = none ↔ id ∉ memory.messages :=
    fun memory id => AList.lookup_eq_none
  refine @Runs.invariant_iff _ _ DagCall.run .new calls TimesStored TimesExact
    (fun call memory => DagCall.KeepsTimes (Graph.of memory) call) (fun _ _ => True) ?_ ?_ ?_ ?_ (fun _ _ _ => trivial)
  · intro id
    simp [MemoryBackend.new]
  · exact fun memory exact millis id listed => (exact id).mpr ⟨millis, listed⟩
  · intro memory call exact _ keeps
    cases call with
    | storeMessage message => exact times_store exact message
    | deleteMessage id => exact (times_delete exact id).2 ((stored memory id).mp keeps)
  · intro memory call exact _ after
    cases call with
    | storeMessage message => trivial
    | deleteMessage id => exact (stored memory id).mpr ((times_delete exact id).1 after)

end

structure Consistent (memory : MemoryBackend) : Prop where
  inverse : (Graph.of memory).MutuallyInverse
  times : TimesStored memory
  tips : (Graph.of memory).TipsExact

structure DagCall.Keeps (graph : Graph) (call : DagCall) : Prop where
  inverse : DagCall.KeepsInverse graph call
  times : DagCall.KeepsTimes graph call
  tips : DagCall.KeepsTips graph call

theorem consistent_always_iff {calls : List DagCall} : Always calls Consistent ↔ EachCall calls DagCall.Keeps := by
  constructor
  · intro always
    have inverse := inverse_always_iff.mp fun before part => (always before part).inverse
    have times := times_always_iff.mp fun before part => (always before part).times
    have tips := tips_always_iff.mp fun before part => (always before part).tips
    exact fun before call part => ⟨inverse before call part, times before call part, tips before call part⟩
  · intro each
    have inverse := inverse_always_iff.mpr fun before call part => (each before call part).inverse
    have times := times_always_iff.mpr fun before call part => (each before call part).times
    have tips := tips_always_iff.mpr fun before call part => (each before call part).tips
    exact fun before part => ⟨inverse before part, times before part, tips before part⟩

/-- The indexes stay consistent if and only if each call keeps them so. The same holds of each index alone. -/
theorem indexes_consistent_iff (calls : List DagCall) :
    (Always calls Consistent ↔ EachCall calls DagCall.Keeps) ∧
      (Always calls (fun memory => (Graph.of memory).MutuallyInverse) ↔ EachCall calls DagCall.KeepsInverse) ∧
      (Always calls TimesStored ↔ EachCall calls DagCall.KeepsTimes) ∧
      (Always calls (fun memory => (Graph.of memory).TipsExact) ↔ EachCall calls DagCall.KeepsTips) :=
  ⟨consistent_always_iff, inverse_always_iff, times_always_iff, tips_always_iff⟩

def DagCall.ParentsFirst (graph : Graph) : DagCall → Prop
  | .storeMessage message => ∀ parent ∈ message.parents, ∃ stored, graph.stored parent = some stored
  | .deleteMessage _ => True

/-- The deletion of an only child leaves its id in the time index, and its parent is not a tip again. -/
theorem deleted_child_inconsistent : ¬ ∀ calls, EachCall calls DagCall.ParentsFirst → Always calls Consistent := by
  intro claim
  have consistent := claim [.storeMessage (plainMessage 1 []), .storeMessage (plainMessage 2 [1]),
    .deleteMessage ⟨.replicate 2⟩] ?_ _ List.prefix_rfl
  · exact absurd (consistent.times 2000 ⟨.replicate 2⟩ (by decide +kernel)) (by decide +kernel)
  · unfold EachCall
    rw [Runs.forall_steps_cons, Runs.forall_steps_cons, Runs.forall_steps_cons]
    refine ⟨?_, ?_, trivial, Runs.forall_steps_nil⟩
    · intro parent member
      cases member
    · intro parent member
      rw [List.mem_singleton.mp member]
      exact ⟨plainMessage 1 [], by decide +kernel⟩

end AdicProof.Storage
