import AdicCore.Library.Runs
import AdicCore.Types.Message

namespace AdicModel.Storage

inductive StorageError where
  | alreadyExists (id : MessageId)

/-- The engine over the memory. The heights are the metadata that it writes. -/
structure StorageEngine where
  messages : HashMap.Table MessageId AdicMessage
  parents : HashMap.Table MessageId (List MessageId)
  children : HashMap.Table MessageId (List MessageId)
  tips : List MessageId
  heights : HashMap.Table MessageId Nat

namespace StorageEngine

def new : StorageEngine := ⟨∅, ∅, ∅, [], ∅⟩

def getMessage (storage : StorageEngine) (id : MessageId) : Option AdicMessage := storage.messages.lookup id

def getChildren (storage : StorageEngine) (parent : MessageId) : List MessageId :=
  (storage.children.lookup parent).getD []

def getParents (storage : StorageEngine) (child : MessageId) : List MessageId := (storage.parents.lookup child).getD []

/-- A parent without height counts as height zero. -/
def calculateMessageHeight (storage : StorageEngine) (message : AdicMessage) : Nat :=
  if message.parents.isEmpty then 0
  else (message.parents.filterMap storage.heights.lookup).foldl max 0 + 1

def addParentChild (parent child : MessageId) (storage : StorageEngine) : StorageEngine :=
  { storage with
    children := storage.children.insert parent (storage.getChildren parent ++ [child])
    parents := storage.parents.insert child (storage.getParents child ++ [parent]) }

def addTip (tips : List MessageId) (id : MessageId) : List MessageId := if id ∈ tips then tips else tips ++ [id]

/-- Only the write of the message may fail, and it comes first. -/
def storeMessage (message : AdicMessage) (storage : StorageEngine) : Except StorageError StorageEngine :=
  let height := storage.calculateMessageHeight message
  match storage.messages.lookup message.id with
  | some _ => .error (.alreadyExists message.id)
  | none =>
    let written := { storage with
      messages := storage.messages.insert message.id message
      heights := storage.heights.insert message.id height }
    let linked := message.parents.foldl (fun storage parent => addParentChild parent message.id storage) written
    .ok { linked with tips := addTip (linked.tips.filter fun tip => tip ∉ message.parents) message.id }

end StorageEngine

end AdicModel.Storage

open AdicModel AdicModel.Storage

namespace AdicProof.Storage

def Linked (storage : StorageEngine) : Prop :=
  ∀ parent child, (storage.getParents child).count parent = (storage.getChildren parent).count child

structure Grows (storage grown : StorageEngine) : Prop where
  messages : ∀ id message, storage.getMessage id = some message → grown.getMessage id = some message
  parents : ∀ parent child, (storage.getParents child).count parent ≤ (grown.getParents child).count parent
  children : ∀ parent child, (storage.getChildren parent).count child ≤ (grown.getChildren parent).count child

theorem Grows.refl (storage : StorageEngine) : Grows storage storage :=
  ⟨fun _ _ found => found, fun _ _ => le_refl _, fun _ _ => le_refl _⟩

theorem Grows.trans {storage middle grown : StorageEngine} (first : Grows storage middle) (second : Grows middle grown) :
    Grows storage grown where
  messages id message found := second.messages id message (first.messages id message found)
  parents parent child := (first.parents parent child).trans (second.parents parent child)
  children parent child := (first.children parent child).trans (second.children parent child)

theorem linked_new : Linked StorageEngine.new := fun _ _ => rfl

section

variable {storage : StorageEngine} {parent child : MessageId}

theorem getChildren_addParentChild (other : MessageId) :
    (StorageEngine.addParentChild parent child storage).getChildren other =
      if other = parent then storage.getChildren parent ++ [child] else storage.getChildren other := by
  unfold StorageEngine.addParentChild StorageEngine.getChildren
  rw [HashMap.lookup_insert_eq]
  split <;> rfl

theorem getParents_addParentChild (other : MessageId) :
    (StorageEngine.addParentChild parent child storage).getParents other =
      if other = child then storage.getParents child ++ [parent] else storage.getParents other := by
  unfold StorageEngine.addParentChild StorageEngine.getParents
  rw [HashMap.lookup_insert_eq]
  split <;> rfl

theorem count_children_addParentChild (other second : MessageId) :
    ((StorageEngine.addParentChild parent child storage).getChildren other).count second =
      (storage.getChildren other).count second + if other = parent ∧ second = child then 1 else 0 := by
  rw [getChildren_addParentChild]
  by_cases same : other = parent
  · subst same
    rw [if_pos rfl, List.count_append, List.count_singleton']
    simp [eq_comm]
  · simp [same]

theorem count_parents_addParentChild (other second : MessageId) :
    ((StorageEngine.addParentChild parent child storage).getParents other).count second =
      (storage.getParents other).count second + if second = parent ∧ other = child then 1 else 0 := by
  rw [getParents_addParentChild]
  by_cases same : other = child
  · subst same
    rw [if_pos rfl, List.count_append, List.count_singleton']
    simp [eq_comm]
  · simp [same]

theorem linked_addParentChild (linked : Linked storage) : Linked (StorageEngine.addParentChild parent child storage) := by
  intro first second
  rw [count_parents_addParentChild, count_children_addParentChild, linked first second]

theorem linked_addParents (linked : Linked storage) (parents : List MessageId) :
    Linked (parents.foldl (fun storage parent => StorageEngine.addParentChild parent child storage) storage) := by
  induction parents generalizing storage with
  | nil => exact linked
  | cons first rest ih => exact ih (linked_addParentChild linked)

def nextStorage (storage : StorageEngine) (message : AdicMessage) : StorageEngine :=
  match StorageEngine.storeMessage message storage with
  | .ok next => next
  | .error _ => storage

theorem linked_nextStorage (linked : Linked storage) (message : AdicMessage) : Linked (nextStorage storage message) := by
  unfold nextStorage StorageEngine.storeMessage
  cases storage.messages.lookup message.id with
  | some stored => exact linked
  | none =>
    have written : Linked { storage with
        messages := storage.messages.insert message.id message
        heights := storage.heights.insert message.id (storage.calculateMessageHeight message) } := linked
    exact linked_addParents written message.parents

end

end AdicProof.Storage
