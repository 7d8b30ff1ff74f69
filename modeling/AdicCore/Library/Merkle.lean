import Mathlib.Data.Nat.ModEq
import Mathlib.Data.Set.Function
import Mathlib.Tactic.Positivity
import Mathlib.Tactic.Ring
import Mathlib.Data.List.Basic

namespace MerklePath

variable {δ ν : Type} (hash : δ → ν) (join : ν → ν → δ)

section

variable (leaf : Nat → δ)

def content : Nat → Nat → δ
  | 0, index => leaf index
  | level + 1, index =>
    join (hash (content level (2 * index))) (hash (content level (2 * index + 1)))

def node (level index : Nat) : ν := hash (content hash join leaf level index)

def mate (index : Nat) : Nat := if index % 2 = 0 then index + 1 else index - 1

def siblings : Nat → Nat → Nat → List ν
  | _, _, 0 => []
  | level, index, steps + 1 => node hash join leaf level (mate index) :: siblings (level + 1) (index / 2) steps

end

def parent (current : ν) (index : Nat) (sibling : ν) : δ :=
  if index % 2 = 0 then join current sibling else join sibling current

def climb : ν → Nat → List ν → ν
  | current, _, [] => current
  | current, index, sibling :: rest => climb (hash (parent join current index sibling)) (index / 2) rest

def climbed : ν → Nat → List ν → List δ
  | _, _, [] => []
  | current, index, sibling :: rest =>
    parent join current index sibling :: climbed (hash (parent join current index sibling)) (index / 2) rest

def inputs (leaf : Nat → δ) (height : Nat) (data : δ) (index : Nat) (path : List ν) : Set δ :=
  {input | (∃ level position, level ≤ height ∧ position < 2 ^ (height - level) ∧
    input = content hash join leaf level position) ∨ input = data ∨ input ∈ climbed hash join (hash data) index path}

variable {hash join} {leaf : Nat → δ} {level index height : Nat} {current : ν} {path : List ν}

theorem climb_append (path rest : List ν) : climb hash join current index (path ++ rest) =
    climb hash join (climb hash join current index path) (index / 2 ^ path.length) rest := by
  induction path generalizing current index with
  | nil => rw [List.nil_append, List.length_nil, pow_zero, Nat.div_one, climb]
  | cons sibling path ih =>
    rw [List.cons_append, climb, climb, ih, List.length_cons, Nat.div_div_eq_div_mul, pow_succ']

theorem climbed_append (path rest : List ν) : climbed hash join current index (path ++ rest) =
    climbed hash join current index path ++
      climbed hash join (climb hash join current index path) (index / 2 ^ path.length) rest := by
  induction path generalizing current index with
  | nil => rw [List.nil_append, List.length_nil, pow_zero, Nat.div_one, climb, climbed, List.nil_append]
  | cons sibling path ih =>
    rw [List.cons_append, climbed, ih, climbed, climb, List.length_cons, Nat.div_div_eq_div_mul, pow_succ',
      List.cons_append]

theorem node_succ : node hash join leaf (level + 1) (index / 2) =
    hash (parent join (node hash join leaf level index) index (node hash join leaf level (mate index))) := by
  unfold parent mate
  by_cases even : index % 2 = 0
  · rw [if_pos even, if_pos even, node, content]
    have left : 2 * (index / 2) = index := by omega
    rw [left]
    rfl
  · rw [if_neg even, if_neg even, node, content]
    have left : 2 * (index / 2) = index - 1 := by omega
    have right : 2 * (index / 2) + 1 = index := by omega
    rw [right, left]
    rfl

theorem climb_siblings (steps : Nat) :
    climb hash join (node hash join leaf level index) index (siblings hash join leaf level index steps) =
      node hash join leaf (level + steps) (index / 2 ^ steps) := by
  induction steps generalizing level index with
  | zero => rw [siblings, climb, pow_zero, Nat.div_one, Nat.add_zero]
  | succ steps ih =>
    rw [siblings, climb, ← @node_succ _ _ hash join, ih, Nat.div_div_eq_div_mul, pow_succ', Nat.add_right_comm,
      Nat.add_assoc]

theorem climb_mod (index : Nat) :
    climb hash join current (index % 2 ^ path.length) path = climb hash join current index path := by
  induction path generalizing current index with
  | nil => rfl
  | cons sibling path ih =>
    have low : index % 2 ^ (path.length + 1) % 2 = index % 2 := by
      rw [pow_succ', Nat.mod_mul_right_mod]
    have high : index % 2 ^ (path.length + 1) / 2 = index / 2 % 2 ^ path.length := by
      rw [pow_succ', Nat.mod_mul_right_div_self]
    rw [List.length_cons, climb, climb, high, ih]
    unfold parent
    rw [low]

section

variable {hashed : Set δ} (free : Set.InjOn hash hashed)
  (joins : ∀ a b c d, join a b = join c d → a = c ∧ b = d)

include free joins

theorem parent_pins {sibling : ν} {above : Nat}
    (tree : content hash join leaf (level + 1) above ∈ hashed) (step : parent join current index sibling ∈ hashed)
    (reached : hash (parent join current index sibling) = node hash join leaf (level + 1) above) :
    current = node hash join leaf level (2 * above + index % 2) ∧
      sibling = node hash join leaf level (mate (2 * above + index % 2)) := by
  have same : parent join current index sibling = content hash join leaf (level + 1) above := free step tree reached
  rw [content] at same
  unfold parent at same
  unfold mate node
  by_cases even : index % 2 = 0
  · rw [if_pos even] at same
    have position : 2 * above + index % 2 = 2 * above := by omega
    rw [position, if_pos (Nat.mul_mod_right 2 above)]
    exact joins _ _ _ _ same
  · rw [if_neg even] at same
    have position : 2 * above + index % 2 = 2 * above + 1 := by omega
    rw [position, if_neg (by omega), Nat.add_sub_cancel]
    exact (joins _ _ _ _ same).symm

theorem climb_pins {top : Nat}
    (tree : ∀ lower below, lower ≤ level + path.length →
      below / 2 ^ (level + path.length - lower) = top → content hash join leaf lower below ∈ hashed)
    (steps : ∀ data ∈ climbed hash join current index path, data ∈ hashed)
    (reached : climb hash join current index path = node hash join leaf (level + path.length) top) :
    let position := top * 2 ^ path.length + index % 2 ^ path.length
    current = node hash join leaf level position ∧ path = siblings hash join leaf level position path.length := by
  induction path generalizing current index level with
  | nil =>
    rw [climb] at reached
    simpa [siblings, Nat.mod_one] using reached
  | cons sibling path ih =>
    rw [climb] at reached
    rw [climbed, List.forall_mem_cons] at steps
    rw [List.length_cons] at tree reached ⊢
    have length : level + 1 + path.length = level + (path.length + 1) := by omega
    obtain ⟨above, rest⟩ := @ih (level + 1) (index / 2) _ (by rw [length]; exact tree) steps.2
      (by rw [length]; exact reached)
    have low : (index / 2) % 2 ^ path.length < 2 ^ path.length := Nat.mod_lt _ (by positivity)
    have known := tree (level + 1) (top * 2 ^ path.length + index / 2 % 2 ^ path.length) (by omega) (by
      rw [← length, Nat.add_sub_cancel_left, Nat.mul_comm, Nat.mul_add_div (by positivity), Nat.div_eq_of_lt low,
        Nat.add_zero])
    obtain ⟨start, mate_eq⟩ := parent_pins free joins known steps.1 above
    have position : top * 2 ^ (path.length + 1) + index % 2 ^ (path.length + 1) =
        2 * (top * 2 ^ path.length + index / 2 % 2 ^ path.length) + index % 2 := by
      rw [pow_succ', Nat.mod_mul]
      ring
    have half : (2 * (top * 2 ^ path.length + index / 2 % 2 ^ path.length) + index % 2) / 2 =
        top * 2 ^ path.length + index / 2 % 2 ^ path.length := by omega
    rw [position]
    refine ⟨start, ?_⟩
    rw [siblings, half, ← mate_eq, ← rest]

theorem climb_root_pins (size : level + path.length = height)
    (tree : ∀ lower below, lower ≤ height → below < 2 ^ (height - lower) → content hash join leaf lower below ∈ hashed)
    (steps : ∀ data ∈ climbed hash join current index path, data ∈ hashed)
    (reached : climb hash join current index path = node hash join leaf height 0) :
    current = node hash join leaf level (index % 2 ^ path.length) ∧
      path = siblings hash join leaf level (index % 2 ^ path.length) path.length := by
  subst size
  have pins := climb_pins free joins (fun lower below low root =>
    tree lower below low ((Nat.div_eq_zero_iff_lt (by positivity)).mp root)) steps reached
  rwa [Nat.zero_mul, Nat.zero_add] at pins

omit joins in
theorem climb_ne_leaf (leaves : ∀ a b, leaf index ≠ join a b) (known : leaf index ∈ hashed) {start : Nat}
    (steps : ∀ data ∈ climbed hash join current start path, data ∈ hashed) (moved : path ≠ []) :
    climb hash join current start path ≠ node hash join leaf 0 index := by
  intro reached
  obtain ⟨path, sibling, rfl⟩ := List.eq_nil_or_concat path |>.resolve_left moved
  rw [List.concat_eq_append, climb_append, climb, climb, node, content] at reached
  rw [List.concat_eq_append, climbed_append] at steps
  have last := free (steps _ (List.mem_append_right _ (List.mem_cons_self ..))) known reached
  unfold parent at last
  split at last
  · exact leaves _ _ last.symm
  · exact leaves _ _ last.symm

theorem climb_too_long (leaves : ∀ position a b, position < 2 ^ height → leaf position ≠ join a b)
    (tree : ∀ lower below, lower ≤ height → below < 2 ^ (height - lower) → content hash join leaf lower below ∈ hashed)
    (steps : ∀ data ∈ climbed hash join current index path, data ∈ hashed) (long : height < path.length) :
    climb hash join current index path ≠ node hash join leaf height 0 := by
  intro reached
  have cut : path.take (path.length - height) ++ path.drop (path.length - height) = path := List.take_append_drop ..
  have size : 0 + (path.drop (path.length - height)).length = height := by
    rw [List.length_drop]
    omega
  have moved : path.take (path.length - height) ≠ [] := by
    intro none
    rw [← List.length_eq_zero_iff, List.length_take] at none
    omega
  rw [← cut, climb_append] at reached
  rw [← cut, climbed_append] at steps
  obtain ⟨start, -⟩ := climb_root_pins free joins size tree
    (fun data step => steps data (List.mem_append_right _ step)) reached
  have bound : index / 2 ^ (path.take (path.length - height)).length %
      2 ^ (path.drop (path.length - height)).length < 2 ^ height := by
    rw [← Nat.zero_add (path.drop (path.length - height)).length, size]
    exact Nat.mod_lt _ (by positivity)
  exact climb_ne_leaf free (fun a b => leaves _ a b bound) (tree 0 _ (Nat.zero_le _) bound)
    (fun data step => steps data (List.mem_append_left _ step)) moved start

end

/-- The paths to the root are those of the tree, from a leaf or from an inner node, whose data are two hashes. -/
theorem climb_eq_root_iff {data : δ} (free : Set.InjOn hash (inputs hash join leaf height data index path))
    (joins : ∀ a b c d, join a b = join c d → a = c ∧ b = d)
    (leaves : ∀ position a b, position < 2 ^ height → leaf position ≠ join a b) :
    climb hash join (hash data) index path = node hash join leaf height 0 ↔
      ∃ level, level + path.length = height ∧ data = content hash join leaf level (index % 2 ^ path.length) ∧
        path = siblings hash join leaf level (index % 2 ^ path.length) path.length := by
  have tree : ∀ lower below, lower ≤ height → below < 2 ^ (height - lower) →
      content hash join leaf lower below ∈ inputs hash join leaf height data index path :=
    fun lower below low bound => Or.inl ⟨lower, below, low, bound, rfl⟩
  have steps : ∀ input ∈ climbed hash join (hash data) index path,
      input ∈ inputs hash join leaf height data index path :=
    fun input step => Or.inr (Or.inr step)
  constructor
  · intro reached
    rcases Nat.lt_or_ge height path.length with long | short
    · exact absurd reached (climb_too_long free joins leaves tree steps long)
    · obtain ⟨level, rfl⟩ := Nat.exists_eq_add_of_le' short
      obtain ⟨start, mates⟩ := climb_root_pins free joins rfl tree steps reached
      have bound : index % 2 ^ path.length < 2 ^ (level + path.length - level) := by
        rw [Nat.add_sub_cancel_left]
        exact Nat.mod_lt _ (by positivity)
      exact ⟨level, rfl, free (Or.inr (Or.inl rfl)) (tree level _ (Nat.le_add_right ..) bound) start, mates⟩
  · rintro ⟨level, rfl, data_eq, mates⟩
    have low : index % 2 ^ path.length < 2 ^ path.length := Nat.mod_lt _ (by positivity)
    have start : hash data = node hash join leaf level (index % 2 ^ path.length) := by rw [data_eq, node]
    have up := @climb_siblings _ _ hash join leaf level (index % 2 ^ path.length) path.length
    rw [← mates, ← start, Nat.div_eq_of_lt low, climb_mod] at up
    exact up

end MerklePath

namespace MerkleRoot

variable {δ ν : Type} (hash : δ → ν) (join : ν → ν → δ)

def joined : List ν → List δ
  | [] => []
  | [node] => [join node node]
  | left :: right :: rest => join left right :: joined rest

def nextLevel (level : List ν) : List ν := (joined join level).map hash

def climb : Nat → List ν → List ν
  | 0, level => level
  | rounds + 1, level => if level.length ≤ 1 then level else climb rounds (nextLevel hash join level)

def top (level : List ν) : List ν := climb hash join level.length level

def climbed : Nat → List ν → List δ
  | 0, _ => []
  | rounds + 1, level =>
    if level.length ≤ 1 then [] else joined join level ++ climbed rounds (nextLevel hash join level)

def inputs (level : List ν) : List δ := climbed hash join level.length level

variable {hash join} {level other : List ν}

theorem length_joined : (joined join level).length = (level.length + 1) / 2 := by
  fun_induction joined join level with
  | case1 => simp
  | case2 node => simp
  | case3 left right rest ih =>
    rw [List.length_cons, List.length_cons, List.length_cons, ih]
    omega

theorem length_nextLevel : (nextLevel hash join level).length = (level.length + 1) / 2 := by
  rw [nextLevel, List.length_map, length_joined]

theorem joined_injective (injective : ∀ {left right left' right'}, join left right = join left' right' →
    left = left' ∧ right = right') : ∀ level other : List ν, level.length = other.length →
      joined join level = joined join other → level = other
  | [], [], _, _ => rfl
  | [node], [node'], _, same => by rw [(injective (List.cons.inj same).1).1]
  | left :: right :: rest, left' :: right' :: rest', length, same => by
    obtain ⟨head, tail⟩ := List.cons.inj same
    obtain ⟨first, second⟩ := injective head
    have equal := joined_injective injective rest rest' (by simpa using length) tail
    rw [first, second, equal]
  | [_], _ :: _ :: _, length, _ => by simp at length
  | _ :: _ :: _, [_], length, _ => by simp at length

theorem map_injective {first second : List δ} (free : ∀ input ∈ first, ∀ input' ∈ second, hash input = hash input' →
    input = input') (same : first.map hash = second.map hash) : first = second := by
  induction first generalizing second with
  | nil => exact (List.map_eq_nil_iff.mp same.symm).symm
  | cons input first ih =>
    cases second with
    | nil => cases same
    | cons input' second =>
      obtain ⟨head, tail⟩ := List.cons.inj same
      rw [free input List.mem_cons_self input' List.mem_cons_self head]
      rw [ih (fun member listed member' listed' => free member (List.mem_cons_of_mem _ listed) member'
        (List.mem_cons_of_mem _ listed')) tail]

variable {rounds : Nat}

theorem length_climb (enough : level.length ≤ rounds + 1) :
    (climb hash join rounds level).length ≤ 1 := by
  induction rounds generalizing level with
  | zero => exact enough
  | succ rounds ih =>
    rw [climb]
    split
    · assumption
    · apply ih
      rw [length_nextLevel]
      omega

theorem length_top : (top hash join level).length ≤ 1 := length_climb (Nat.le_succ _)

theorem length_climb_pos (nonempty : level ≠ []) : climb hash join rounds level ≠ [] := by
  induction rounds generalizing level with
  | zero => exact nonempty
  | succ rounds ih =>
    rw [climb]
    split
    · exact nonempty
    · apply ih
      intro empty
      have length := @length_nextLevel _ _ hash join level
      rw [empty, List.length_nil] at length
      omega

theorem top_ne_nil (nonempty : level ≠ []) : top hash join level ≠ [] := length_climb_pos nonempty

theorem mem_climb {node : ν} (member : node ∈ climb hash join rounds level) :
    node ∈ level ∨ ∃ data ∈ climbed hash join rounds level, hash data = node := by
  induction rounds generalizing level with
  | zero => exact .inl member
  | succ rounds ih =>
    unfold climb at member
    unfold climbed
    split at member
    · exact .inl member
    · next long =>
      rw [if_neg long]
      rcases ih member with next | ⟨data, listed, same⟩
      · obtain ⟨data, listed, same⟩ := List.mem_map.mp next
        exact .inr ⟨data, List.mem_append_left _ listed, same⟩
      · exact .inr ⟨data, List.mem_append_right _ listed, same⟩

theorem mem_top {data : List δ} {node : ν} (member : node ∈ top hash join (data.map hash)) :
    ∃ input, (input ∈ data ∨ input ∈ inputs hash join (data.map hash)) ∧ hash input = node := by
  rcases mem_climb member with leaf | ⟨input, listed, same⟩
  · obtain ⟨input, listed, same⟩ := List.mem_map.mp leaf
    exact ⟨input, .inl listed, same⟩
  · exact ⟨input, .inr listed, same⟩

section

variable (injective : ∀ {left right left' right'}, join left right = join left' right' → left = left' ∧ right = right')
  (length : level.length = other.length)

include injective length

/-- Levels of one length that lead to one top are equal, where the hashed data do not collide. -/
theorem climb_injective
    (free : Set.InjOn hash {input | input ∈ climbed hash join rounds level ∨ input ∈ climbed hash join rounds other})
    (same : climb hash join rounds level = climb hash join rounds other) : level = other := by
  induction rounds generalizing level other with
  | zero => exact same
  | succ rounds ih =>
    rw [climb, climb, ← length] at same
    unfold climbed at free
    rw [← length] at free
    split at same
    · exact same
    next long =>
    rw [if_neg long, if_neg long] at free
    have next : nextLevel hash join level = nextLevel hash join other := by
      refine ih ?_ (free.mono ?_) same
      · rw [length_nextLevel, length_nextLevel, length]
      · intro input hashed
        exact hashed.imp (List.mem_append_right _) (List.mem_append_right _)
    refine joined_injective injective level other length (map_injective ?_ next)
    intro input listed input' listed' equal
    exact free (.inl (List.mem_append_left _ listed)) (.inr (List.mem_append_left _ listed')) equal

theorem top_injective (free : Set.InjOn hash {input | input ∈ inputs hash join level ∨ input ∈ inputs hash join other})
    (same : top hash join level = top hash join other) : level = other := by
  unfold top inputs at *
  rw [← length] at same free
  exact climb_injective injective length free same

end

inductive Height (hash : δ → ν) (join : ν → ν → δ) (leaves inner : Set δ) : Nat → ν → Prop
  | leaf {node : ν} {data : δ} (listed : data ∈ leaves) (hashed : node = hash data) :
    Height hash join leaves inner 0 node
  | parent {node left right : ν} {height : Nat} (first : Height hash join leaves inner height left)
    (second : Height hash join leaves inner height right) (listed : join left right ∈ inner)
    (hashed : node = hash (join left right)) : Height hash join leaves inner (height + 1) node

section

variable {leaves inner : Set δ} {height : Nat} {node : ν}

theorem Height.unique (free : Set.InjOn hash (leaves ∪ inner))
    (apart : ∀ data ∈ leaves, ∀ left right, data ≠ join left right)
    (injective : ∀ {left right left' right'}, join left right = join left' right' → left = left' ∧ right = right')
    (first : Height hash join leaves inner height node) {height' : Nat}
    (second : Height hash join leaves inner height' node) : height = height' := by
  induction first generalizing height' with
  | leaf listed hashed =>
    cases second with
    | leaf listed' hashed' => rfl
    | parent first' second' listed' hashed' =>
      exact absurd (free (.inl listed) (.inr listed') (hashed.symm.trans hashed')) (apart _ listed _ _)
  | parent first second listed hashed ih ih' =>
    cases second with
    | leaf listed' hashed' =>
      exact absurd (free (.inl listed') (.inr listed) (hashed'.symm.trans hashed)) (apart _ listed' _ _)
    | parent first' second' listed' hashed' =>
      have same := injective (free (.inr listed) (.inr listed') (hashed.symm.trans hashed'))
      rw [← same.1] at first'
      rw [ih first']

theorem nextLevel_height (nodes : ∀ node ∈ level, Height hash join leaves inner height node)
    (listed : ∀ data ∈ joined join level, data ∈ inner) :
    ∀ node ∈ nextLevel hash join level, Height hash join leaves inner (height + 1) node := by
  intro node member
  obtain ⟨data, listedData, rfl⟩ := List.mem_map.mp member
  clear member
  fun_induction joined join level with
  | case1 => cases listedData
  | case2 only =>
    cases List.mem_singleton.mp listedData
    have below := nodes only List.mem_cons_self
    exact .parent below below (listed _ listedData) rfl
  | case3 left right rest ih =>
    rcases List.mem_cons.mp listedData with rfl | later
    · exact .parent (nodes left List.mem_cons_self) (nodes right (List.mem_cons_of_mem _ List.mem_cons_self))
        (listed _ listedData) rfl
    · exact ih (fun node member => nodes node (List.mem_cons_of_mem _ (List.mem_cons_of_mem _ member)))
        (fun data member => listed data (List.mem_cons_of_mem _ member)) later

theorem climb_height (nodes : ∀ node ∈ level, Height hash join leaves inner height node)
    (listed : ∀ data ∈ climbed hash join rounds level, data ∈ inner) :
    ∃ above, height ≤ above ∧ (level.length ≤ rounds + 1 → 1 < level.length → height < above) ∧
      ∀ node ∈ climb hash join rounds level, Height hash join leaves inner above node := by
  induction rounds generalizing level height with
  | zero => exact ⟨height, le_rfl, fun few many => by omega, nodes⟩
  | succ rounds ih =>
    unfold MerkleRoot.climb
    unfold climbed at listed
    split
    · next short => exact ⟨height, le_rfl, fun _ long => absurd long (not_lt.mpr short), nodes⟩
    · next long =>
      rw [if_neg long] at listed
      obtain ⟨above, higher, _, reached⟩ := ih
        (nextLevel_height nodes fun data member => listed data (List.mem_append_left _ member))
        (fun data member => listed data (List.mem_append_right _ member))
      exact ⟨above, by omega, fun _ _ => by omega, reached⟩

theorem mem_of_joined {data : δ} (member : data ∈ joined join level) :
    ∃ left ∈ level, ∃ right ∈ level, data = join left right := by
  fun_induction joined join level with
  | case1 => cases member
  | case2 only => exact ⟨only, List.mem_cons_self, only, List.mem_cons_self, List.mem_singleton.mp member⟩
  | case3 left right rest ih =>
    rcases List.mem_cons.mp member with rfl | later
    · exact ⟨left, List.mem_cons_self, right, List.mem_cons_of_mem _ List.mem_cons_self, rfl⟩
    · obtain ⟨first, listed, second, listed', same⟩ := ih later
      exact ⟨first, List.mem_cons_of_mem _ (List.mem_cons_of_mem _ listed), second,
        List.mem_cons_of_mem _ (List.mem_cons_of_mem _ listed'), same⟩

section

variable (injective : ∀ {left right left' right'}, join left right = join left' right' → left = left' ∧ right = right')

include injective

theorem joined_nodup (nodup : level.Nodup) : (joined join level).Nodup := by
  fun_induction joined join level with
  | case1 => exact List.nodup_nil
  | case2 only => exact List.nodup_singleton _
  | case3 left right rest ih =>
    obtain ⟨first, others⟩ := List.nodup_cons.mp nodup
    refine List.nodup_cons.mpr ⟨?_, ih (List.nodup_cons.mp others).2⟩
    intro again
    obtain ⟨left', listed, right', _, same⟩ := mem_of_joined again
    rw [← (injective same).1] at listed
    exact first (List.mem_cons_of_mem _ listed)

/-- Only a node that occurs twice could stand for a missing mate. -/
theorem joined_injective_of_nodup : ∀ {level other : List ν}, level.Nodup → other.Nodup →
    joined join level = joined join other → level = other
  | [], [], _, _, _ => rfl
  | [], [_], _, _, same => by cases same
  | [], _ :: _ :: _, _, _, same => by cases same
  | [_], [], _, _, same => by cases same
  | _ :: _ :: _, [], _, _, same => by cases same
  | [node], [node'], _, _, same => by rw [(injective (List.cons.inj same).1).1]
  | [node], left :: right :: rest, _, nodup, same => by
    have mates := injective (List.cons.inj same).1
    exact absurd (mates.1.symm.trans mates.2) (List.ne_of_not_mem_cons (List.nodup_cons.mp nodup).1)
  | left :: right :: rest, [node], nodup, _, same => by
    have mates := injective (List.cons.inj same).1
    exact absurd (mates.1.trans mates.2.symm) (List.ne_of_not_mem_cons (List.nodup_cons.mp nodup).1)
  | left :: right :: rest, left' :: right' :: rest', nodup, nodup', same => by
    obtain ⟨head, tail⟩ := List.cons.inj same
    obtain ⟨first, second⟩ := injective head
    have equal := joined_injective_of_nodup (List.nodup_cons.mp (List.nodup_cons.mp nodup).2).2
      (List.nodup_cons.mp (List.nodup_cons.mp nodup').2).2 tail
    rw [first, second, equal]

omit injective in
theorem climb_of_short (short : level.length ≤ 1) : climb hash join rounds level = level := by
  cases rounds with
  | zero => rfl
  | succ rounds => rw [climb, if_pos short]

section

variable (free : Set.InjOn hash (leaves ∪ inner)) (apart : ∀ data ∈ leaves, ∀ left right, data ≠ join left right)
  {rounds rounds' : Nat}

include free apart

theorem climb_ne_of_longer (short : level.length ≤ 1) (long : ¬ other.length ≤ 1) (nonempty : level ≠ [])
    (nodes : ∀ node ∈ level, Height hash join leaves inner height node)
    (nodes' : ∀ node ∈ other, Height hash join leaves inner height node) (enough : other.length ≤ rounds' + 1)
    (listed : ∀ data ∈ climbed hash join rounds' other, data ∈ inner) :
    climb hash join rounds level ≠ climb hash join rounds' other := by
  intro same
  obtain ⟨above, _, strictly, reached⟩ := climb_height nodes' listed
  obtain ⟨node, member⟩ := List.exists_mem_of_ne_nil level nonempty
  rw [climb_of_short short] at same
  have equal := Height.unique free apart injective (nodes node member) (reached node (same ▸ member))
  have less := strictly enough (by omega)
  omega

/-- Levels of one height without a repeated node that lead to one top are equal, whatever their lengths. -/
theorem climb_injective_of_nodup (enough : level.length ≤ rounds + 1) (enough' : other.length ≤ rounds' + 1)
    (nodup : level.Nodup) (nodup' : other.Nodup) (nonempty : level ≠ []) (nonempty' : other ≠ [])
    (nodes : ∀ node ∈ level, Height hash join leaves inner height node)
    (nodes' : ∀ node ∈ other, Height hash join leaves inner height node)
    (listed : ∀ data ∈ climbed hash join rounds level, data ∈ inner)
    (listed' : ∀ data ∈ climbed hash join rounds' other, data ∈ inner)
    (same : climb hash join rounds level = climb hash join rounds' other) : level = other := by
  induction rounds generalizing level other rounds' height with
  | zero =>
    by_cases short' : other.length ≤ 1
    · rw [climb_of_short enough, climb_of_short short'] at same
      exact same
    · exact absurd same (climb_ne_of_longer injective free apart enough short' nonempty nodes nodes' enough' listed')
  | succ rounds ih =>
    by_cases short : level.length ≤ 1
    · by_cases short' : other.length ≤ 1
      · rw [climb_of_short short, climb_of_short short'] at same
        exact same
      · exact absurd same (climb_ne_of_longer injective free apart short short' nonempty nodes nodes' enough' listed')
    · by_cases short' : other.length ≤ 1
      · exact absurd same.symm
          (climb_ne_of_longer injective free apart short' short nonempty' nodes' nodes enough listed)
      · obtain ⟨rounds', rfl⟩ : ∃ rest, rounds' = rest + 1 := ⟨rounds' - 1, by omega⟩
        rw [climb, climb, if_neg short, if_neg short'] at same
        rw [climbed, if_neg short] at listed
        rw [climbed, if_neg short'] at listed'
        have here := fun data member => listed data (List.mem_append_left _ member)
        have here' := fun data member => listed' data (List.mem_append_left _ member)
        have distinct : ∀ {level : List ν}, level.Nodup → (∀ data ∈ joined join level, data ∈ inner) →
            (nextLevel hash join level).Nodup := by
          intro level nodup here
          refine (joined_nodup injective nodup).map_on fun data member data' member' equal => ?_
          exact free (.inr (here data member)) (.inr (here data' member')) equal
        have shorter : ∀ {level : List ν} {rounds : Nat}, level.length ≤ rounds + 1 + 1 →
            (nextLevel hash join level).length ≤ rounds + 1 := by
          intro level rounds enough
          rw [length_nextLevel]
          omega
        have some : ∀ {level : List ν}, ¬ level.length ≤ 1 → nextLevel hash join level ≠ [] := by
          intro level long empty
          have length := @length_nextLevel _ _ hash join level
          rw [empty, List.length_nil] at length
          omega
        have next := ih (shorter enough) (shorter enough') (distinct nodup here) (distinct nodup' here') (some short)
          (some short') (nextLevel_height nodes here) (nextLevel_height nodes' here')
          (fun data member => listed data (List.mem_append_right _ member))
          (fun data member => listed' data (List.mem_append_right _ member)) same
        refine joined_injective_of_nodup injective nodup nodup' (map_injective ?_ next)
        intro input member input' member' equal
        exact free (.inr (here input member)) (.inr (here' input' member')) equal

end

theorem top_injective_of_nodup {data data' : List δ}
    (free : Set.InjOn hash {input | (input ∈ data ∨ input ∈ inputs hash join (data.map hash)) ∨
      input ∈ data' ∨ input ∈ inputs hash join (data'.map hash)})
    (apart : ∀ input, input ∈ data ∨ input ∈ data' → ∀ left right, input ≠ join left right)
    (nodup : data.Nodup) (nodup' : data'.Nodup) (nonempty : data ≠ []) (nonempty' : data' ≠ [])
    (same : top hash join (data.map hash) = top hash join (data'.map hash)) : data = data' := by
  let leaves : Set δ := {input | input ∈ data ∨ input ∈ data'}
  let inner : Set δ := {input | input ∈ inputs hash join (data.map hash) ∨ input ∈ inputs hash join (data'.map hash)}
  have all : Set.InjOn hash (leaves ∪ inner) := by
    refine free.mono ?_
    rintro input ((first | second) | (first | second))
    · exact .inl (.inl first)
    · exact .inr (.inl second)
    · exact .inl (.inr first)
    · exact .inr (.inr second)
  have nodes : ∀ {items : List δ}, (∀ input ∈ items, input ∈ leaves) →
      ∀ node ∈ items.map hash, Height hash join leaves inner 0 node := by
    intro items listed node member
    obtain ⟨input, listedInput, rfl⟩ := List.mem_map.mp member
    exact .leaf (listed input listedInput) rfl
  have hashes : data.map hash = data'.map hash :=
    climb_injective_of_nodup injective all apart (Nat.le_succ _) (Nat.le_succ _)
      (nodup.map_on fun input member input' member' => all (.inl (.inl member)) (.inl (.inl member')))
      (nodup'.map_on fun input member input' member' => all (.inl (.inr member)) (.inl (.inr member')))
      (mt List.map_eq_nil_iff.mp nonempty) (mt List.map_eq_nil_iff.mp nonempty') (nodes fun _ => .inl)
      (nodes fun _ => .inr) (fun _ => .inl) (fun _ => .inr) same
  exact map_injective (fun input member input' member' => all (.inl (.inl member)) (.inl (.inr member'))) hashes

end

end

end MerkleRoot
