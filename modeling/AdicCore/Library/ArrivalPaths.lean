import Mathlib

namespace ArrivalPaths

variable {α : Type*} {edge : α → α → Prop} {root : α → Prop}

def Ordered (edge : α → α → Prop) (root : α → Prop) (arrivals : List α) (target : α) : Set Nat :=
  { length | ∃ path : List α, path.length = length ∧ path.Sublist arrivals ∧ path.IsChain edge ∧
    (∀ element ∈ path, ¬root element) ∧ ∀ last ∈ path.getLast?, last = target }

variable {arrivals : List α} {target last : α} {length : Nat}

theorem zero_mem_ordered : 0 ∈ Ordered edge root arrivals target :=
  ⟨[], rfl, List.nil_sublist arrivals, .nil, by simp, by simp⟩

theorem ordered_root (isRoot : root target) (member : length ∈ Ordered edge root arrivals target) : length = 0 := by
  obtain ⟨path, rfl, _, _, inner, ends⟩ := member
  cases found : path.getLast? with
  | none =>
    rw [List.getLast?_eq_none_iff] at found
    rw [found, List.length_nil]
  | some last =>
    have same : last = target := ends last found
    have notRoot := inner last (List.mem_of_getLast? found)
    rw [same] at notRoot
    exact absurd isRoot notRoot

theorem ordered_snoc_of_ne (other : last ≠ target) :
    Ordered edge root (arrivals ++ [last]) target = Ordered edge root arrivals target := by
  ext length
  constructor
  · rintro ⟨path, counted, part, chain, inner, ends⟩
    refine ⟨path, counted, ?_, chain, inner, ends⟩
    obtain ⟨first, second, rfl, partFirst, partSecond⟩ := List.sublist_append_iff.mp part
    rcases List.sublist_singleton.mp partSecond with rfl | rfl
    · rw [List.append_nil]
      exact partFirst
    · exact absurd (ends last List.getLast?_concat) other
  · rintro ⟨path, counted, part, chain, inner, ends⟩
    exact ⟨path, counted, part.trans (List.sublist_append_left arrivals [last]), chain, inner, ends⟩

theorem ordered_snoc_self (inner : ¬root last) :
    length ∈ Ordered edge root (arrivals ++ [last]) last ↔
      length ≤ 1 ∨ ∃ before ∈ arrivals, edge before last ∧ ∃ shorter ∈ Ordered edge root arrivals before,
        length = shorter + 1 := by
  constructor
  · rintro ⟨path, counted, part, chain, notRoots, ends⟩
    rcases List.eq_nil_or_concat path with rfl | ⟨start, final, rfl⟩
    · left
      rw [← counted, List.length_nil]
      exact Nat.zero_le 1
    rw [List.concat_eq_append] at counted part chain notRoots ends
    have same : final = last := ends final List.getLast?_concat
    subst same
    have earlier : start.Sublist arrivals := by
      obtain ⟨first, second, split, partFirst, partSecond⟩ := List.sublist_append_iff.mp part
      rcases List.sublist_singleton.mp partSecond with rfl | rfl
      · rw [List.append_nil] at split
        rw [← split] at partFirst
        exact (List.sublist_append_left start [final]).trans partFirst
      · rw [List.append_cancel_right split]
        exact partFirst
    rw [List.length_append, List.length_singleton] at counted
    rw [List.isChain_append] at chain
    cases found : start.getLast? with
    | none =>
      left
      rw [List.getLast?_eq_none_iff] at found
      rw [← counted, found, List.length_nil]
    | some before =>
      right
      refine ⟨before, earlier.subset (List.mem_of_getLast? found), chain.2.2 before found final rfl, start.length,
        ⟨start, rfl, earlier, chain.1, ?_, ?_⟩, counted.symm⟩
      · intro element member
        exact notRoots element (List.mem_append_left _ member)
      · intro other ends
        rw [found] at ends
        exact (Option.some.inj ends).symm
  · rintro (small | ⟨before, member, joined, shorter, ⟨path, counted, part, chain, notRoots, ends⟩, rfl⟩)
    · have cases : length = 0 ∨ length = 1 := by omega
      rcases cases with rfl | rfl
      · exact zero_mem_ordered
      · refine ⟨[last], rfl, List.sublist_append_right arrivals [last], .singleton last, ?_, ?_⟩
        · simpa using inner
        · simp
    · refine ⟨path ++ [last], by simp [counted], part.append_right [last], ?_, ?_, ?_⟩
      · refine chain.append (.singleton last) ?_
        intro element isLast next isNext
        rw [ends element isLast]
        cases isNext
        exact joined
      · intro element isIn
        rcases List.mem_append.mp isIn with isIn | isIn
        · exact notRoots element isIn
        · rw [List.mem_singleton.mp isIn]
          exact inner
      · intro element isLast
        rw [List.getLast?_concat] at isLast
        exact (Option.some.inj isLast).symm

def FollowedBy (kind : α → Prop) (arrivals : List α) (element : α) : Prop :=
  ∃ before follower after, arrivals = before ++ follower :: after ∧ kind follower ∧ element ∉ after

def NotFollowedBy (kind : α → Prop) (arrivals : List α) (element : α) : Prop :=
  ∃ before after, arrivals = before ++ element :: after ∧ ∀ later ∈ after, ¬kind later

variable {kind : α → Prop} {element : α}

theorem followedBy_snoc : FollowedBy kind (arrivals ++ [last]) element ↔
    kind last ∨ last ≠ element ∧ FollowedBy kind arrivals element := by
  constructor
  · rintro ⟨before, follower, after, split, isKind, absent⟩
    rcases List.eq_nil_or_concat after with rfl | ⟨rest, final, rfl⟩
    · left
      rw [(List.append_inj' split rfl).2 |> List.singleton_inj.mp]
      exact isKind
    · right
      rw [List.concat_eq_append, ← List.cons_append, ← List.append_assoc] at split
      have same : last = final := List.singleton_inj.mp (List.append_inj' split rfl).2
      rw [List.concat_eq_append, List.mem_append, not_or, List.mem_singleton] at absent
      refine ⟨fun equal => absent.2 (equal ▸ same.symm ▸ rfl), before, follower, rest, (List.append_inj' split rfl).1,
        isKind, absent.1⟩
  · rintro (isKind | ⟨other, before, follower, after, rfl, isKind, absent⟩)
    · exact ⟨arrivals, last, [], rfl, isKind, by simp⟩
    · refine ⟨before, follower, after ++ [last], by simp, isKind, ?_⟩
      rw [List.mem_append, not_or, List.mem_singleton]
      exact ⟨absent, fun same => other same.symm⟩

theorem notFollowedBy_snoc : NotFollowedBy kind (arrivals ++ [last]) element ↔
    last = element ∨ ¬kind last ∧ NotFollowedBy kind arrivals element := by
  constructor
  · rintro ⟨before, after, split, none⟩
    rcases List.eq_nil_or_concat after with rfl | ⟨rest, final, rfl⟩
    · exact .inl (List.singleton_inj.mp (List.append_inj' split rfl).2)
    · right
      rw [List.concat_eq_append, ← List.cons_append, ← List.append_assoc] at split
      have same : last = final := List.singleton_inj.mp (List.append_inj' split rfl).2
      rw [same]
      refine ⟨none final (by simp), before, rest, (List.append_inj' split rfl).1, ?_⟩
      intro later member
      exact none later (by simp [member])
  · rintro (rfl | ⟨notKind, before, after, rfl, none⟩)
    · exact ⟨arrivals, [], rfl, by simp⟩
    · refine ⟨before, after ++ [last], by simp, ?_⟩
      intro later member
      rcases List.mem_append.mp member with member | member
      · exact none later member
      · rw [List.mem_singleton.mp member]
        exact notKind

theorem notFollowedBy_iff (arrived : element ∈ arrivals) (other : ¬kind element) :
    NotFollowedBy kind arrivals element ↔ ¬FollowedBy kind arrivals element := by
  induction arrivals using List.reverseRecOn with
  | nil => simp at arrived
  | append_singleton arrivals last ih =>
    rw [followedBy_snoc, notFollowedBy_snoc]
    by_cases same : last = element
    · subst same
      simp [other]
    · have earlier : element ∈ arrivals := by
        rcases List.mem_append.mp arrived with earlier | final
        · exact earlier
        · exact absurd (List.mem_singleton.mp final).symm same
      rw [ih earlier]
      by_cases isKind : kind last
      · simp [same, isKind]
      · simp [same, isKind]

end ArrivalPaths
