import AdicCore.Storage.Backend

open AdicModel AdicModel.Storage AdicModel.Storage.StorageBackend

namespace AdicProof.Storage

@[ext] structure Graph where
  stored : MessageId → Option AdicMessage
  children : MessageId → Set MessageId
  parents : MessageId → Set MessageId
  tips : Finset MessageId
  heights : MessageId → Option Nat

namespace Graph

def empty : Graph := ⟨fun _ => none, fun _ => ∅, fun _ => ∅, ∅, fun _ => none⟩

def of {B : Type} [StorageBackend B] (backend : B) : Graph where
  stored id := getMessage id backend
  children parent := { child | child ∈ getChildren parent backend }
  parents child := { parent | parent ∈ getParents child backend }
  tips := getTips backend
  heights id := getHeight id backend

def link (parent child : MessageId) (graph : Graph) : Graph :=
  { graph with
    children := Function.update graph.children parent (insert child (graph.children parent))
    parents := Function.update graph.parents child (insert parent (graph.parents child)) }

def heightOf (message : AdicMessage) (graph : Graph) : Nat :=
  if message.parents.isEmpty then 0 else (message.parents.filterMap graph.heights).foldl max 0 + 1

def store (message : AdicMessage) (graph : Graph) : Graph where
  stored := Function.update graph.stored message.id (some message)
  children parent := if parent ∈ message.parents then insert message.id (graph.children parent)
    else graph.children parent
  parents child := if child = message.id then graph.parents child ∪ { parent | parent ∈ message.parents }
    else graph.parents child
  tips := insert message.id (graph.tips \ message.parents.toFinset)
  heights := Function.update graph.heights message.id (some (graph.heightOf message))

end Graph

class LawfulBackend (B : Type) [StorageBackend B] : Prop where
  put : ∀ {message : AdicMessage} {backend written : B}, putMessage message backend = .ok written →
    Graph.of written = { Graph.of backend with
      stored := Function.update (Graph.of backend).stored message.id (some message) }
  addParentChild : ∀ (parent child : MessageId) (backend : B),
    Graph.of (StorageBackend.addParentChild parent child backend) = (Graph.of backend).link parent child
  addTip : ∀ (id : MessageId) (backend : B),
    Graph.of (StorageBackend.addTip id backend) =
      { Graph.of backend with tips := insert id (Graph.of backend).tips }
  removeTip : ∀ (id : MessageId) (backend : B),
    Graph.of (StorageBackend.removeTip id backend) =
      { Graph.of backend with tips := (Graph.of backend).tips.erase id }
  putHeight : ∀ (id : MessageId) (height : Nat) (backend : B),
    Graph.of (StorageBackend.putHeight id height backend) =
      { Graph.of backend with heights := Function.update (Graph.of backend).heights id (some height) }

section

variable {κ α : Type} [DecidableEq κ]

theorem lookup_insert_update (table : HashMap.Table κ α) (key : κ) (value : α) :
    (fun other => (table.insert key value).lookup other) =
      Function.update (fun other => table.lookup other) key (some value) := by
  funext other
  rw [HashMap.lookup_insert_eq, Function.update_apply]

theorem mem_insert_append (table : HashMap.Table κ (List α)) (key : κ) (value : α) :
    (fun other => { element | element ∈ ((table.insert key ((table.lookup key).getD [] ++ [value])).lookup other).getD [] }) =
      Function.update (fun other => { element | element ∈ (table.lookup other).getD [] }) key
        (insert value { element | element ∈ (table.lookup key).getD [] }) := by
  funext other
  rw [HashMap.lookup_insert_eq, Function.update_apply]
  split
  · ext element
    simp [or_comm]
  · rfl

end

theorem mem_scanFrom {id other : MessageId} {column : Finset (MessageId × MessageId)} :
    other ∈ RocksBackend.scanFrom id column ↔ (id, other) ∈ column := by
  unfold RocksBackend.scanFrom
  rw [Finset.mem_sort, Finset.mem_image]
  constructor
  · rintro ⟨⟨first, second⟩, member, rfl⟩
    rw [Finset.mem_filter] at member
    obtain ⟨member, rfl⟩ := member
    exact member
  · intro member
    exact ⟨(id, other), Finset.mem_filter.mpr ⟨member, rfl⟩, rfl⟩

theorem scanFrom_insert (id other : MessageId) (column : Finset (MessageId × MessageId)) :
    (fun first => { second | second ∈ RocksBackend.scanFrom first (insert (id, other) column) }) =
      Function.update (fun first => { second | second ∈ RocksBackend.scanFrom first column }) id
        (insert other { second | second ∈ RocksBackend.scanFrom id column }) := by
  funext first
  rw [Function.update_apply]
  ext second
  rw [Set.mem_ofPred_eq, mem_scanFrom, Finset.mem_insert]
  split
  · next same =>
    rw [same, Set.mem_insert_iff, Set.mem_ofPred_eq, mem_scanFrom]
    simp
  · next different =>
    rw [Set.mem_ofPred_eq, mem_scanFrom]
    simp [different]

instance : LawfulBackend MemoryBackend where
  put {message backend written} stored := by
    change MemoryBackend.putMessage message backend = .ok written at stored
    unfold MemoryBackend.putMessage at stored
    split at stored
    · cases stored
    · cases stored
      apply Graph.ext
      · exact lookup_insert_update backend.messages message.id message
      all_goals rfl
  addParentChild parent child backend := by
    apply Graph.ext
    · rfl
    · exact mem_insert_append backend.children parent child
    · exact mem_insert_append backend.parents child parent
    all_goals rfl
  addTip _ _ := rfl
  removeTip _ _ := rfl
  putHeight id height backend := by
    apply Graph.ext
    case heights => exact lookup_insert_update backend.heights id height
    all_goals rfl

instance : LawfulBackend RocksBackend where
  put {message backend written} stored := by
    cases stored
    apply Graph.ext
    · exact lookup_insert_update backend.msg message.id message
    all_goals rfl
  addParentChild parent child backend := by
    apply Graph.ext
    · rfl
    · exact scanFrom_insert parent child backend.pc
    · exact scanFrom_insert child parent backend.cp
    all_goals rfl
  addTip _ _ := rfl
  removeTip _ _ := rfl
  putHeight id height backend := by
    apply Graph.ext
    case heights => exact lookup_insert_update backend.heights id height
    all_goals rfl

theorem of_memory_new : Graph.of MemoryBackend.new = Graph.empty := by
  apply Graph.ext
  case children =>
    funext parent
    exact Set.eq_empty_of_forall_notMem fun child member => List.not_mem_nil member
  case parents =>
    funext child
    exact Set.eq_empty_of_forall_notMem fun parent member => List.not_mem_nil member
  all_goals rfl

theorem of_rocks_new : Graph.of RocksBackend.new = Graph.empty := by
  apply Graph.ext
  case children =>
    funext parent
    exact Set.eq_empty_of_forall_notMem fun child member => Finset.notMem_empty _ (mem_scanFrom.mp member)
  case parents =>
    funext child
    exact Set.eq_empty_of_forall_notMem fun parent member => Finset.notMem_empty _ (mem_scanFrom.mp member)
  all_goals rfl

section

variable {B : Type} [StorageBackend B] [LawfulBackend B]

theorem of_addParents (parents : List MessageId) (child : MessageId) (backend : B) :
    Graph.of (parents.foldl (fun backend parent => addParentChild parent child backend) backend) =
      { Graph.of backend with
        children := fun parent => if parent ∈ parents then insert child ((Graph.of backend).children parent)
          else (Graph.of backend).children parent
        parents := fun other => if other = child then (Graph.of backend).parents other ∪ { parent | parent ∈ parents }
          else (Graph.of backend).parents other } := by
  induction parents generalizing backend with
  | nil => simp
  | cons first rest ih =>
    rw [List.foldl_cons, ih, LawfulBackend.addParentChild]
    apply Graph.ext
    · rfl
    · funext parent
      dsimp only [Graph.link]
      rw [Function.update_apply]
      by_cases same : parent = first
      · subst same
        simp
      · simp [same]
    · funext other
      dsimp only [Graph.link]
      rw [Function.update_apply]
      by_cases same : other = child
      · subst same
        ext parent
        simp only [if_true, Set.mem_union, Set.mem_insert_iff, Set.mem_ofPred_eq, List.mem_cons]
        tauto
      · simp [same]
    all_goals rfl

theorem of_removeTips (parents : List MessageId) (backend : B) :
    Graph.of (parents.foldl (fun backend parent => removeTip parent backend) backend) =
      { Graph.of backend with tips := (Graph.of backend).tips \ parents.toFinset } := by
  induction parents generalizing backend with
  | nil => simp
  | cons first rest ih =>
    rw [List.foldl_cons, ih, LawfulBackend.removeTip]
    apply Graph.ext
    case tips =>
      show (Graph.of backend).tips.erase first \ rest.toFinset = (Graph.of backend).tips \ (first :: rest).toFinset
      rw [List.toFinset_cons, Finset.sdiff_insert, Finset.erase_sdiff_comm]
    all_goals rfl

theorem of_storeMessage {message : AdicMessage} {backend next : B}
    (stored : Engine.storeMessage message backend = .ok next) :
    Graph.of next = (Graph.of backend).store message := by
  unfold Engine.storeMessage at stored
  dsimp only at stored
  cases put : putMessage message backend with
  | error error =>
    rw [put] at stored
    cases stored
  | ok written =>
    rw [put] at stored
    cases stored
    rw [LawfulBackend.addTip, of_removeTips, of_addParents, LawfulBackend.putHeight, LawfulBackend.put put]
    rfl

end

theorem foldl_keeps {σ α β : Type} {part : σ → β} {step : σ → α → σ} (keeps : ∀ state action, part (step state action) = part state)
    (state : σ) (actions : List α) : part (actions.foldl step state) = part state := by
  induction actions generalizing state with
  | nil => rfl
  | cons action actions ih => exact (ih (step state action)).trans (keeps state action)

section

variable {message : AdicMessage} {backend : MemoryBackend}

theorem storeMessage_part {β : Type} {part : MemoryBackend → β} {next : MemoryBackend}
    (stored : Engine.storeMessage message backend = .ok next)
    (edges : ∀ memory parent child, part (MemoryBackend.addParentChild parent child memory) = part memory)
    (tips : ∀ memory id, part (MemoryBackend.addTip id memory) = part memory)
    (untips : ∀ memory id, part (MemoryBackend.removeTip id memory) = part memory)
    (heights : ∀ memory id height, part (MemoryBackend.putHeight id height memory) = part memory) :
    ∃ written, backend.putMessage message = .ok written ∧ part next = part written := by
  unfold Engine.storeMessage at stored
  dsimp only at stored
  cases put : StorageBackend.putMessage message backend with
  | error error =>
    rw [put] at stored
    cases stored
  | ok written =>
    rw [put] at stored
    cases stored
    have untipped := @foldl_keeps _ _ _ part
      (fun (backend : MemoryBackend) parent => StorageBackend.removeTip parent backend) untips
    have linked := @foldl_keeps _ _ _ part
      (fun (backend : MemoryBackend) parent => StorageBackend.addParentChild parent message.id backend)
      fun memory parent => edges memory parent message.id
    refine ⟨written, put, ?_⟩
    exact (tips _ _).trans ((untipped _ message.parents).trans ((linked _ message.parents).trans (heights _ _ _)))

theorem storeMessage_known (known : message.id ∈ backend.messages) :
    Engine.storeMessage message backend = .error (.alreadyExists message.id) := by
  have refused : putMessage message backend = .error (.alreadyExists message.id) := if_pos known
  unfold Engine.storeMessage
  rw [refused]

theorem storeMessage_unknown (unknown : message.id ∉ backend.messages) :
    ∃ next, Engine.storeMessage message backend = .ok next := by
  obtain ⟨written, accepted⟩ : ∃ written, putMessage message backend = .ok written := ⟨_, if_neg unknown⟩
  unfold Engine.storeMessage
  rw [accepted]
  exact ⟨_, rfl⟩

end

def plainMessage (byte : UInt8) (parents : List UInt8) : AdicMessage :=
  ⟨⟨.replicate byte⟩, parents.map fun parent => ⟨.replicate parent⟩, ⟨[]⟩, .new ⟨byte.toNat, 0⟩, ⟨.replicate byte⟩,
    .empty, none, []⟩

end AdicProof.Storage
