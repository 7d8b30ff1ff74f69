import AdicCore.Library.ArrivalPaths
import AdicCore.Storage.BackendLaws

open AdicModel AdicModel.Storage AdicModel.Storage.StorageBackend ArrivalPaths

namespace AdicProof.Storage

structure MessageDag where
  messages : List AdicMessage
  ids : ∀ first ∈ messages, ∀ second ∈ messages, first.id = second.id → first = second
  closed : ∀ message ∈ messages, ∀ parent ∈ message.parents, ∃ stored ∈ messages, stored.id = parent
  acyclic : ∃ rank : MessageId → Nat, ∀ message ∈ messages, ∀ parent ∈ message.parents, rank parent < rank message.id

def IsParent (parent child : AdicMessage) : Prop := parent.id ∈ child.parents

def IsGenesis (message : AdicMessage) : Prop := message.parents = []

def MessageDag.pathLengths (dag : MessageDag) (message : AdicMessage) : Set Nat :=
  { length | ∃ path : List AdicMessage, path.length = length + 1 ∧ (∀ element ∈ path, element ∈ dag.messages) ∧
    path.IsChain IsParent ∧ (∃ genesis, path.head? = some genesis ∧ IsGenesis genesis) ∧ path.getLast? = some message }

structure Describes (dag : MessageDag) (graph : Graph) : Prop where
  tips : ∀ id, id ∈ graph.tips ↔
    ∃ message ∈ dag.messages, message.id = id ∧ ∀ other ∈ dag.messages, ¬IsParent message other
  parents : ∀ parent child, parent ∈ graph.parents child ↔
    ∃ message ∈ dag.messages, message.id = child ∧ parent ∈ message.parents
  children : ∀ parent child, child ∈ graph.children parent ↔
    ∃ message ∈ dag.messages, message.id = child ∧ parent ∈ message.parents
  heights : ∀ message ∈ dag.messages, ∃ height, graph.heights message.id = some height ∧
    IsGreatest (dag.pathLengths message) height

/-- A parent is followed by a child, and a longest path to every message arrives in its order but for the genesis. -/
structure InOrder (dag : MessageDag) (arrivals : List AdicMessage) : Prop where
  followed : ∀ message ∈ dag.messages, (∃ child ∈ dag.messages, IsParent message child) →
    FollowedBy (IsParent message) arrivals message
  paths : ∀ message ∈ dag.messages, ∃ length ∈ Ordered IsParent IsGenesis arrivals message,
    IsGreatest (dag.pathLengths message) length

/-- The backend after a call for every arrival. A call that fails changes nothing. -/
def storeNext {B : Type} [StorageBackend B] (backend : B) (message : AdicMessage) : B :=
  match Engine.storeMessage message backend with
  | .ok next => next
  | .error _ => backend

def storeAll {B : Type} [StorageBackend B] (backend : B) (arrivals : List AdicMessage) : B :=
  Runs.after storeNext backend arrivals

structure Recorded (arrivals : List AdicMessage) (graph : Graph) : Prop where
  stored : ∀ id, (graph.stored id).isSome ↔ ∃ message ∈ arrivals, message.id = id
  tips : ∀ id, id ∈ graph.tips ↔ ∃ message ∈ arrivals, message.id = id ∧
    NotFollowedBy (IsParent message) arrivals message
  parents : ∀ parent child, parent ∈ graph.parents child ↔
    ∃ message ∈ arrivals, message.id = child ∧ parent ∈ message.parents
  children : ∀ parent child, child ∈ graph.children parent ↔
    ∃ message ∈ arrivals, message.id = child ∧ parent ∈ message.parents
  unknown : ∀ id, (∀ message ∈ arrivals, message.id ≠ id) → graph.heights id = none
  heights : ∀ message ∈ arrivals, ∃ height, graph.heights message.id = some height ∧
    IsGreatest (Ordered IsParent IsGenesis arrivals message) height

theorem recorded_nil : Recorded [] Graph.empty where
  stored _ := by simp [Graph.empty]
  tips _ := by simp [Graph.empty]
  parents _ _ := by simp [Graph.empty]
  children _ _ := by simp [Graph.empty]
  unknown _ _ := rfl
  heights _ member := absurd member List.not_mem_nil

section

variable {arrivals : List AdicMessage} {message : AdicMessage} {graph : Graph}

theorem isGreatest_foldl_max (values : List Nat) :
    (values.foldl max 0 = 0 ∨ values.foldl max 0 ∈ values) ∧ ∀ value ∈ values, value ≤ values.foldl max 0 := by
  induction values using List.reverseRecOn with
  | nil => simp
  | append_singleton values last ih =>
    rw [List.foldl_append, List.foldl_cons, List.foldl_nil]
    constructor
    · rcases max_choice (values.foldl max 0) last with larger | larger
      · rw [larger]
        rcases ih.1 with zero | member
        · exact .inl zero
        · exact .inr (List.mem_append_left _ member)
      · rw [larger]
        exact .inr (by simp)
    · intro value member
      rcases List.mem_append.mp member with member | member
      · exact (ih.2 value member).trans (le_max_left _ _)
      · rw [List.mem_singleton.mp member]
        exact le_max_right _ _

theorem heightOf_isGreatest (recorded : Recorded arrivals graph) :
    IsGreatest (Ordered IsParent IsGenesis (arrivals ++ [message]) message) (graph.heightOf message) := by
  unfold Graph.heightOf
  by_cases genesis : IsGenesis message
  · rw [if_pos (List.isEmpty_iff.mpr genesis)]
    exact ⟨zero_mem_ordered, fun length member => (ordered_root genesis member).le⟩
  · rw [if_neg (fun empty => genesis (List.isEmpty_iff.mp empty))]
    have largest := isGreatest_foldl_max (message.parents.filterMap graph.heights)
    constructor
    · rw [ordered_snoc_self genesis]
      rcases largest.1 with zero | member
      · left
        rw [zero]
      · right
        obtain ⟨parent, isParent, known⟩ := List.mem_filterMap.mp member
        obtain ⟨before, arrived, rfl⟩ : ∃ before ∈ arrivals, before.id = parent := by
          by_contra absent
          push Not at absent
          rw [recorded.unknown parent absent] at known
          cases known
        obtain ⟨height, stored, greatest⟩ := recorded.heights before arrived
        rw [stored] at known
        rw [← Option.some.inj known]
        exact ⟨before, arrived, isParent, height, greatest.1, rfl⟩
    · intro length member
      rcases (ordered_snoc_self genesis).mp member with small | ⟨before, arrived, isParent, shorter, isPath, rfl⟩
      · omega
      · obtain ⟨height, stored, greatest⟩ := recorded.heights before arrived
        have bound := greatest.2 isPath
        have counted := largest.2 height (List.mem_filterMap.mpr ⟨before.id, isParent, stored⟩)
        omega

theorem recorded_store (recorded : Recorded arrivals graph)
    (ids : ∀ first ∈ arrivals ++ [message], ∀ second ∈ arrivals ++ [message], first.id = second.id → first = second) :
    Recorded (arrivals ++ [message]) (graph.store message) := by
  have final : message ∈ arrivals ++ [message] := List.mem_append_right _ (List.mem_singleton_self message)
  have unknownId : ∀ other ∈ arrivals ++ [message], other ≠ message → other.id ≠ message.id :=
    fun other member different same => different (ids other member message final same)
  refine ⟨?_, ?_, ?_, ?_, ?_, ?_⟩
  · intro id
    show (Function.update graph.stored message.id (some message) id).isSome ↔ _
    rw [Function.update_apply]
    split
    · next same => simp [same]
    · next different =>
      rw [recorded.stored id]
      simp [List.mem_append, or_and_right, exists_or, Ne.symm different]
  · intro id
    show id ∈ insert message.id (graph.tips \ message.parents.toFinset) ↔ _
    rw [Finset.mem_insert, Finset.mem_sdiff, recorded.tips id, List.mem_toFinset]
    constructor
    · rintro (rfl | ⟨⟨other, member, rfl, tip⟩, notParent⟩)
      · exact ⟨message, final, rfl, notFollowedBy_snoc.mpr (.inl rfl)⟩
      · exact ⟨other, List.mem_append_left _ member, rfl, notFollowedBy_snoc.mpr (.inr ⟨notParent, tip⟩)⟩
    · rintro ⟨other, member, rfl, tip⟩
      rcases notFollowedBy_snoc.mp tip with rfl | ⟨notParent, earlier⟩
      · exact .inl rfl
      · right
        have arrived : other ∈ arrivals := by
          obtain ⟨before, after, split, _⟩ := earlier
          simp [split]
        exact ⟨⟨other, arrived, rfl, earlier⟩, notParent⟩
  · intro parent child
    show parent ∈ (if child = message.id then graph.parents child ∪ { parent | parent ∈ message.parents }
      else graph.parents child) ↔ _
    split
    · next same =>
      subst same
      rw [Set.mem_union, recorded.parents]
      simp [or_and_right, exists_or]
    · next different =>
      rw [recorded.parents]
      simp [or_and_right, exists_or, Ne.symm different]
  · intro parent child
    show child ∈ (if parent ∈ message.parents then insert message.id (graph.children parent)
      else graph.children parent) ↔ _
    split
    · next isParent =>
      rw [Set.mem_insert_iff, recorded.children]
      simp [or_and_right, exists_or, isParent, or_comm, eq_comm]
    · next notParent =>
      rw [recorded.children]
      simp [or_and_right, exists_or, notParent]
  · intro id absent
    show Function.update graph.heights message.id (some (graph.heightOf message)) id = none
    rw [Function.update_of_ne (Ne.symm (absent message final))]
    exact recorded.unknown id fun other member => absent other (List.mem_append_left _ member)
  · intro other member
    show ∃ height, Function.update graph.heights message.id (some (graph.heightOf message)) other.id = some height ∧ _
    by_cases same : other = message
    · subst same
      exact ⟨_, Function.update_self .., heightOf_isGreatest recorded⟩
    · rw [Function.update_of_ne (unknownId other member same), ordered_snoc_of_ne (Ne.symm same)]
      refine recorded.heights other ?_
      rcases List.mem_append.mp member with earlier | isLast
      · exact earlier
      · exact absurd (List.mem_singleton.mp isLast) same

end

section

variable {arrivals : List AdicMessage}
  (ids : ∀ first ∈ arrivals, ∀ second ∈ arrivals, first.id = second.id → first = second)

include ids

theorem recorded_rocks : Recorded arrivals (Graph.of (storeAll RocksBackend.new arrivals)) := by
  induction arrivals using List.reverseRecOn with
  | nil =>
    rw [storeAll, Runs.after_nil, of_rocks_new]
    exact recorded_nil
  | append_singleton arrivals message ih =>
    have earlier := ih fun first member second member' =>
      ids first (List.mem_append_left _ member) second (List.mem_append_left _ member')
    have recorded := recorded_store earlier ids
    rw [storeAll, Runs.after_snoc]
    rw [storeAll] at recorded
    generalize Runs.after storeNext RocksBackend.new arrivals = backend at recorded ⊢
    have stored : Engine.storeMessage message backend = .ok (storeNext backend message) := rfl
    rw [of_storeMessage stored]
    exact recorded

theorem recorded_memory : Recorded arrivals.eraseDups (Graph.of (storeAll MemoryBackend.new arrivals)) := by
  induction arrivals using List.reverseRecOn with
  | nil =>
    rw [storeAll, Runs.after_nil, of_memory_new]
    exact recorded_nil
  | append_singleton arrivals message ih =>
    have earlier := ih fun first member second member' =>
      ids first (List.mem_append_left _ member) second (List.mem_append_left _ member')
    rw [storeAll, Runs.after_snoc]
    rw [storeAll] at earlier
    generalize Runs.after storeNext MemoryBackend.new arrivals = backend at earlier ⊢
    have known : message.id ∈ backend.messages ↔ message ∈ arrivals := by
      rw [← AList.lookup_isSome]
      refine (earlier.stored message.id).trans ⟨?_, fun member => ⟨message, List.mem_eraseDups.mpr member, rfl⟩⟩
      rintro ⟨other, member, same⟩
      have isIn := List.mem_eraseDups.mp member
      rw [← ids other (List.mem_append_left _ isIn) message (List.mem_append_right _ (List.mem_singleton_self _)) same]
      exact isIn
    rw [List.eraseDups_append]
    by_cases repeated : message ∈ arrivals
    · have refused : storeNext backend message = backend := by
        unfold storeNext
        rw [storeMessage_known (known.mpr repeated)]
      have none : ([message].removeAll arrivals).eraseDups = [] := by
        simp [List.removeAll, repeated]
      rw [refused, none, List.append_nil]
      exact earlier
    · have once : ([message].removeAll arrivals).eraseDups = [message] := by
        simp [List.removeAll, repeated, List.eraseDups_cons]
      obtain ⟨next, stored⟩ := storeMessage_unknown fun isIn => repeated (known.mp isIn)
      have accepted : storeNext backend message = next := by
        unfold storeNext
        rw [stored]
      rw [once, accepted, of_storeMessage stored]
      exact recorded_store earlier fun first member second member' =>
        ids first (by simpa using member) second (by simpa using member')

end

section

variable {dag : MessageDag} {message : AdicMessage}

theorem exists_path (member : message ∈ dag.messages) : ∃ length, length ∈ dag.pathLengths message := by
  obtain ⟨rank, less⟩ := dag.acyclic
  induction bound : rank message.id using Nat.strong_induction_on generalizing message with
  | _ bound ih =>
    subst bound
    cases listed : message.parents with
    | nil =>
      exact ⟨0, [message], rfl, by simpa using member, .singleton message, ⟨message, rfl, listed⟩, rfl⟩
    | cons parent rest =>
      have isParent : parent ∈ message.parents := by simp [listed]
      obtain ⟨stored, isIn, rfl⟩ := dag.closed message member parent isParent
      obtain ⟨length, path, counted, inside, chain, starts, ends⟩ :=
        ih (rank stored.id) (less message member stored.id isParent) isIn rfl
      refine ⟨length + 1, path ++ [message], by simp [counted], ?_, ?_, ?_, List.getLast?_concat⟩
      · intro element isElement
        rcases List.mem_append.mp isElement with isElement | isElement
        · exact inside element isElement
        · rw [List.mem_singleton.mp isElement]
          exact member
      · refine chain.append (.singleton message) ?_
        intro last isLast next isNext
        rw [ends] at isLast
        cases isLast
        cases isNext
        exact isParent
      · obtain ⟨genesis, first, isGenesis⟩ := starts
        exact ⟨genesis, by rw [List.head?_append, first]; rfl, isGenesis⟩

variable {arrivals : List AdicMessage}

theorem exists_longer {length : Nat} (arrived : ∀ other ∈ arrivals, other ∈ dag.messages)
    (member : message ∈ dag.messages) (ordered : length ∈ Ordered IsParent IsGenesis arrivals message) :
    ∃ longer ∈ dag.pathLengths message, length ≤ longer := by
  obtain ⟨path, rfl, part, chain, inner, ends⟩ := ordered
  cases path with
  | nil =>
    obtain ⟨longer, isPath⟩ := exists_path member
    exact ⟨longer, isPath, Nat.zero_le _⟩
  | cons first rest =>
    have inside : ∀ element ∈ first :: rest, element ∈ dag.messages :=
      fun element isElement => arrived element (part.subset isElement)
    cases listed : first.parents with
    | nil => exact absurd listed (inner first List.mem_cons_self)
    | cons parent others =>
      have isParent : parent ∈ first.parents := by simp [listed]
      obtain ⟨stored, isIn, rfl⟩ := dag.closed first (inside first List.mem_cons_self) parent isParent
      obtain ⟨length, start, counted, startInside, startChain, starts, startEnds⟩ := exists_path isIn
      refine ⟨length + (first :: rest).length, ⟨start ++ first :: rest, ?_, ?_, ?_, ?_, ?_⟩, Nat.le_add_left _ _⟩
      · rw [List.length_append, counted]
        omega
      · intro element isElement
        rcases List.mem_append.mp isElement with isElement | isElement
        · exact startInside element isElement
        · exact inside element isElement
      · refine startChain.append chain ?_
        intro last isLast next isNext
        rw [startEnds] at isLast
        cases isLast
        cases isNext
        exact isParent
      · obtain ⟨genesis, isFirst, isGenesis⟩ := starts
        exact ⟨genesis, by rw [List.head?_append, isFirst]; rfl, isGenesis⟩
      · rw [List.getLast?_append]
        cases found : (first :: rest).getLast? with
        | none => simp at found
        | some last =>
          rw [ends last found]
          rfl

theorem not_isParent_self (member : message ∈ dag.messages) : ¬IsParent message message := by
  intro isParent
  obtain ⟨rank, less⟩ := dag.acyclic
  exact absurd (less message member message.id isParent) (lt_irrefl _)

theorem describes_iff {graph : Graph}
    (arrived : ∀ other, other ∈ arrivals ↔ other ∈ dag.messages) (recorded : Recorded arrivals graph) :
    Describes dag graph ↔ InOrder dag arrivals := by
  have tipIff : ∀ message ∈ dag.messages,
      (message.id ∈ graph.tips ↔ ¬FollowedBy (IsParent message) arrivals message) := by
    intro message member
    rw [← notFollowedBy_iff ((arrived message).mpr member) (not_isParent_self member), recorded.tips]
    constructor
    · rintro ⟨other, isIn, same, tip⟩
      rw [dag.ids other ((arrived other).mp isIn) message member same] at tip
      exact tip
    · intro tip
      exact ⟨message, (arrived message).mpr member, rfl, tip⟩
  have follower : ∀ message, FollowedBy (IsParent message) arrivals message →
      ∃ child ∈ dag.messages, IsParent message child := by
    rintro message ⟨before, child, after, split, isParent, _⟩
    exact ⟨child, (arrived child).mp (by simp [split]), isParent⟩
  constructor
  · intro describes
    refine ⟨?_, ?_⟩
    · rintro message member ⟨child, isIn, isParent⟩
      by_contra notFollowed
      obtain ⟨other, isOther, same, childless⟩ := (describes.tips message.id).mp ((tipIff message member).mpr notFollowed)
      rw [dag.ids other isOther message member same] at childless
      exact childless child isIn isParent
    · intro message member
      obtain ⟨height, stored, longest⟩ := describes.heights message member
      obtain ⟨other, known, greatest⟩ := recorded.heights message ((arrived message).mpr member)
      rw [stored] at known
      rw [← Option.some.inj known] at greatest
      exact ⟨height, greatest.1, longest⟩
  · intro inOrder
    refine ⟨?_, ?_, ?_, ?_⟩
    · intro id
      constructor
      · intro tip
        obtain ⟨message, isIn, rfl, _⟩ := (recorded.tips id).mp tip
        have member := (arrived message).mp isIn
        refine ⟨message, member, rfl, ?_⟩
        intro child isChild isParent
        exact (tipIff message member).mp tip (inOrder.followed message member ⟨child, isChild, isParent⟩)
      · rintro ⟨message, member, rfl, childless⟩
        refine (tipIff message member).mpr ?_
        intro followed
        obtain ⟨child, isChild, isParent⟩ := follower message followed
        exact childless child isChild isParent
    · intro parent child
      rw [recorded.parents]
      simp only [arrived]
    · intro parent child
      rw [recorded.children]
      simp only [arrived]
    · intro message member
      obtain ⟨height, stored, greatest⟩ := recorded.heights message ((arrived message).mpr member)
      obtain ⟨length, ordered, longest⟩ := inOrder.paths message member
      obtain ⟨longer, isPath, atMost⟩ := exists_longer (fun other isIn => (arrived other).mp isIn) member greatest.1
      have same : height = length := le_antisymm (atMost.trans (longest.2 isPath)) (greatest.2 ordered)
      rw [← same] at longest
      exact ⟨height, stored, longest⟩

def ParentsFirst (arrivals : List AdicMessage) : Prop :=
  ∀ before message, before ++ [message] <+: arrivals → ∀ parent ∈ message.parents, ∃ stored ∈ before, stored.id = parent

theorem ordered_of_parentsFirst {length : Nat} (parentsFirst : ParentsFirst arrivals)
    (arrived : ∀ other ∈ arrivals, other ∈ dag.messages) (member : message ∈ arrivals)
    (isPath : length ∈ dag.pathLengths message) : length ∈ Ordered IsParent IsGenesis arrivals message := by
  induction arrivals using List.reverseRecOn generalizing message length with
  | nil => simp at member
  | append_singleton arrivals last ih =>
    have earlierFirst : ParentsFirst arrivals := fun before first part =>
      parentsFirst before first (part.trans (List.prefix_append arrivals [last]))
    have earlier := @ih message length earlierFirst fun other isIn => arrived other (List.mem_append_left _ isIn)
    by_cases same : last = message
    · subst same
      obtain ⟨path, counted, inside, chain, ⟨genesis, starts, isGenesis⟩, ends⟩ := isPath
      obtain ⟨start, rfl⟩ := List.getLast?_eq_some_iff.mp ends
      rw [List.length_append, List.length_singleton, Nat.add_right_cancel_iff] at counted
      cases found : start.getLast? with
      | none =>
        rw [List.getLast?_eq_none_iff] at found
        rw [← counted, found]
        exact zero_mem_ordered
      | some before =>
        rw [List.isChain_append] at chain
        have isParent : IsParent before last := chain.2.2 before found last rfl
        have notGenesis : ¬IsGenesis last := by
          intro empty
          have none : before.id ∈ last.parents := isParent
          rw [empty] at none
          exact List.not_mem_nil none
        obtain ⟨stored, isIn, known⟩ := parentsFirst arrivals last (List.prefix_refl _) before.id isParent
        have isDag : before ∈ dag.messages := inside before (List.mem_append_left _ (List.mem_of_getLast? found))
        rw [dag.ids stored (arrived stored (List.mem_append_left _ isIn)) before isDag known] at isIn
        obtain ⟨first, rest, rfl⟩ : ∃ first rest, start = first :: rest :=
          List.exists_cons_of_ne_nil (by rintro rfl; simp at found)
        refine (ordered_snoc_self notGenesis).mpr (.inr ⟨before, isIn, isParent, rest.length, ?_, counted.symm⟩)
        refine ih earlierFirst (fun other isIn => arrived other (List.mem_append_left _ isIn)) isIn ?_
        refine ⟨first :: rest, rfl, ?_, chain.1, ⟨genesis, starts, isGenesis⟩, found⟩
        exact fun element isElement => inside element (List.mem_append_left _ isElement)
    · rw [ordered_snoc_of_ne same]
      rcases List.mem_append.mp member with isIn | isLast
      · exact earlier isIn isPath
      · exact absurd (List.mem_singleton.mp isLast).symm same

theorem inOrder_of_parentsFirst (parentsFirst : ParentsFirst arrivals)
    (arrived : ∀ other, other ∈ arrivals ↔ other ∈ dag.messages) (nodup : arrivals.Nodup) : InOrder dag arrivals := by
  have isDag : ∀ other ∈ arrivals, other ∈ dag.messages := fun other => (arrived other).mp
  constructor
  · rintro message member ⟨child, isChild, isParent⟩
    obtain ⟨before, after, split⟩ := List.append_of_mem ((arrived child).mpr isChild)
    have part : before ++ [child] <+: arrivals := ⟨after, by simp [split]⟩
    obtain ⟨stored, isIn, known⟩ := parentsFirst before child part message.id isParent
    have isStored : stored ∈ dag.messages := isDag stored (by simp [split, isIn])
    rw [dag.ids stored isStored message member known] at isIn
    refine ⟨before, child, after, split, isParent, ?_⟩
    rw [split, List.nodup_append] at nodup
    exact fun later => nodup.2.2 message isIn message (List.mem_cons_of_mem _ later) rfl
  · intro message member
    have recorded := recorded_rocks fun first isFirst second isSecond =>
      dag.ids first (isDag first isFirst) second (isDag second isSecond)
    obtain ⟨height, _, greatest⟩ := recorded.heights message ((arrived message).mpr member)
    have bound : ∀ length ∈ dag.pathLengths message, length ≤ height := fun length isPath =>
      greatest.2 (ordered_of_parentsFirst parentsFirst isDag ((arrived message).mpr member) isPath)
    obtain ⟨longer, isPath, atMost⟩ := exists_longer isDag member greatest.1
    have same : longer = height := le_antisymm (bound longer isPath) atMost
    rw [same] at isPath
    exact ⟨height, greatest.1, isPath, bound⟩

/-- The memory goes by the first arrival of every message and the database by all of them. -/
theorem described_iff_inOrder (dag : MessageDag)
    (arrived : ∀ message, message ∈ arrivals ↔ message ∈ dag.messages) :
    (Describes dag (Graph.of (storeAll MemoryBackend.new arrivals)) ↔ InOrder dag arrivals.eraseDups) ∧
      (Describes dag (Graph.of (storeAll RocksBackend.new arrivals)) ↔ InOrder dag arrivals) := by
  have ids : ∀ first ∈ arrivals, ∀ second ∈ arrivals, first.id = second.id → first = second :=
    fun first isFirst second isSecond => dag.ids first ((arrived first).mp isFirst) second ((arrived second).mp isSecond)
  refine ⟨describes_iff ?_ (recorded_memory ids), describes_iff arrived (recorded_rocks ids)⟩
  intro message
  rw [List.mem_eraseDups]
  exact arrived message

end

def pairDag : MessageDag where
  messages := [plainMessage 1 [], plainMessage 2 [1]]
  ids := by decide
  closed := by decide
  acyclic := ⟨fun id => if id = ⟨.replicate 1⟩ then 0 else 1, by decide⟩

theorem described_iff_inOrder_pair :
    Describes pairDag (Graph.of (storeAll MemoryBackend.new pairDag.messages)) ∧
      Describes pairDag (Graph.of (storeAll RocksBackend.new pairDag.messages)) := by
  have described := described_iff_inOrder pairDag fun message => Iff.rfl
  have parentsFirst : ParentsFirst pairDag.messages := by
    rintro before message ⟨after, split⟩ parent isParent
    match before, split with
    | [], split =>
      cases split
      cases isParent
    | [first], split =>
      cases split
      exact ⟨plainMessage 1 [], by simp, (List.mem_singleton.mp isParent).symm⟩
    | first :: second :: rest, split =>
      have lengths := congrArg List.length split
      simp [pairDag] at lengths
  have once : pairDag.messages.eraseDups = pairDag.messages := by decide
  have inOrder : InOrder pairDag pairDag.messages :=
    inOrder_of_parentsFirst parentsFirst (fun message => Iff.rfl) (by decide)
  rw [once] at described
  exact ⟨described.1.mpr inOrder, described.2.mpr inOrder⟩

theorem late_parent_stays_tip :
    ¬Describes pairDag (Graph.of (storeAll MemoryBackend.new [plainMessage 2 [1], plainMessage 1 []])) ∧
      ¬Describes pairDag (Graph.of (storeAll RocksBackend.new
        [plainMessage 1 [], plainMessage 2 [1], plainMessage 1 []])) := by
  have childless : ¬∃ message ∈ pairDag.messages, message.id = (plainMessage 1 []).id ∧
      ∀ other ∈ pairDag.messages, message.id ∉ other.parents := by decide
  constructor
  · intro describes
    exact childless ((describes.tips (plainMessage 1 []).id).mp (by decide +kernel))
  · intro describes
    exact childless ((describes.tips (plainMessage 1 []).id).mp (by decide +kernel))

end AdicProof.Storage
