import Mathlib

namespace TreeMap

variable {κ α : Type} [LinearOrder κ]

def insert (key : κ) (value : α) : List (κ × α) → List (κ × α)
  | [] => [(key, value)]
  | (first, stored) :: entries =>
    if key < first then (key, value) :: (first, stored) :: entries
    else if key = first then (key, value) :: entries
    else (first, stored) :: insert key value entries

def collect (entries : List (κ × α)) : List (κ × α) :=
  entries.foldl (fun sorted entry => insert entry.1 entry.2 sorted) []

def Ascending (entries : List (κ × α)) : Prop := entries.Pairwise fun first second => first.1 < second.1

variable {entries : List (κ × α)} {entry : κ × α}

omit [LinearOrder κ] in
theorem key_mem (member : entry ∈ entries) :
    entry.1 ∈ entries.map Prod.fst := List.mem_map.mpr ⟨entry, member, rfl⟩

theorem mem_insert {key : κ} {value : α}
    (fresh : key ∉ entries.map Prod.fst) :
    entry ∈ insert key value entries ↔ entry = (key, value) ∨ entry ∈ entries := by
  induction entries with
  | nil => simp [insert]
  | cons first entries ih =>
    rw [List.map_cons, List.mem_cons, not_or] at fresh
    unfold insert
    split
    · simp
    · rw [if_neg fresh.1, List.mem_cons, ih fresh.2, List.mem_cons]
      exact or_left_comm

theorem keys_insert {key other : κ} {value : α} :
    other ∈ (insert key value entries).map Prod.fst ↔ other = key ∨ other ∈ entries.map Prod.fst := by
  induction entries with
  | nil => simp [insert]
  | cons first entries ih =>
    unfold insert
    split
    · simp
    · split
      · next same =>
        rw [List.map_cons, List.map_cons, List.mem_cons, List.mem_cons, ← same]
        simp
      · rw [List.map_cons, List.map_cons, List.mem_cons, List.mem_cons, ih]
        exact or_left_comm

theorem ascending_insert (key : κ) (value : α) (ascending : Ascending entries) :
    Ascending (insert key value entries) := by
  induction entries with
  | nil => exact List.pairwise_singleton _ _
  | cons first entries ih =>
    have below : ∀ entry ∈ entries, first.1 < entry.1 := fun _ member => List.rel_of_pairwise_cons ascending member
    have rest := List.Pairwise.of_cons ascending
    unfold insert
    split
    · next less =>
      apply List.Pairwise.cons _ ascending
      intro entry member
      apply (List.mem_cons.mp member).elim
      · intro head
        rw [head]
        exact less
      · intro tail
        exact less.trans (below entry tail)
    · next notLess =>
      split
      · next same =>
        apply List.Pairwise.cons _ rest
        intro entry member
        have after := below entry member
        rwa [← same] at after
      · next different =>
        apply List.Pairwise.cons _ (ih rest)
        intro entry member
        apply (keys_insert.mp (key_mem member)).elim
        · intro inserted
          rw [inserted]
          exact lt_of_le_of_ne (not_lt.mp notLess) (Ne.symm different)
        · intro stored
          obtain ⟨found, present, named⟩ := List.mem_map.mp stored
          rw [← named]
          exact below found present

theorem mem_foldl (entries : List (κ × α)) (nodup : (entries.map Prod.fst).Nodup) {sorted : List (κ × α)}
    (apart : ∀ entry ∈ entries, entry.1 ∉ sorted.map Prod.fst) :
    entry ∈ entries.foldl (fun sorted entry => insert entry.1 entry.2 sorted) sorted ↔
      entry ∈ entries ∨ entry ∈ sorted := by
  induction entries generalizing sorted with
  | nil => simp
  | cons first entries ih =>
    rw [List.map_cons, List.nodup_cons] at nodup
    have fresh := apart first List.mem_cons_self
    rw [List.foldl_cons, ih nodup.2, mem_insert fresh, List.mem_cons]
    · exact or_left_comm.trans or_assoc.symm
    · intro later member stored
      apply (keys_insert.mp stored).elim
      · intro same
        apply nodup.1
        rw [← same]
        exact key_mem member
      · exact apart later (List.mem_cons_of_mem _ member)

theorem mem_collect (nodup : (entries.map Prod.fst).Nodup) :
    entry ∈ collect entries ↔ entry ∈ entries := by
  rw [collect, mem_foldl entries nodup (by simp)]
  simp

theorem mem_of_mem_insert {key : κ} {value : α}
    (member : entry ∈ insert key value entries) : entry = (key, value) ∨ entry ∈ entries := by
  induction entries with
  | nil => simpa [insert] using member
  | cons first entries ih =>
    unfold insert at member
    split at member
    · simpa using member
    · split at member
      · rcases List.mem_cons.mp member with same | later
        · exact .inl same
        · exact .inr (List.mem_cons_of_mem _ later)
      · rcases List.mem_cons.mp member with same | later
        · exact .inr (same ▸ List.mem_cons_self)
        · exact (ih later).imp_right (List.mem_cons_of_mem _)

theorem mem_of_mem_collect (member : entry ∈ collect entries) :
    entry ∈ entries := by
  induction entries using List.reverseRecOn with
  | nil => cases member
  | append_singleton before last ih =>
    unfold collect at member ih
    rw [List.foldl_append] at member
    rcases mem_of_mem_insert member with same | earlier
    · simp [same]
    · exact List.mem_append_left _ (ih earlier)

theorem ascending_foldl (entries : List (κ × α)) {sorted : List (κ × α)} (ascending : Ascending sorted) :
    Ascending (entries.foldl (fun sorted entry => insert entry.1 entry.2 sorted) sorted) := by
  induction entries generalizing sorted with
  | nil => exact ascending
  | cons entry entries ih => exact ih (ascending_insert entry.1 entry.2 ascending)

theorem ascending_collect (entries : List (κ × α)) : Ascending (collect entries) :=
  ascending_foldl entries List.Pairwise.nil

theorem Ascending.nodup (ascending : Ascending entries) :
    (entries.map Prod.fst).Nodup :=
  List.pairwise_map.mpr (ascending.imp fun below => below.ne)

theorem Ascending.ext {first second : List (κ × α)} (ascending : Ascending first) (other : Ascending second)
    (same : ∀ entry, entry ∈ first ↔ entry ∈ second) : first = second := by
  have permuted : first.Perm second :=
    (List.perm_ext_iff_of_nodup ascending.nodup.of_map other.nodup.of_map).mpr same
  apply permuted.eq_of_pairwise _ ascending other
  exact fun _ _ _ _ below above => absurd below above.asymm

theorem collect_eq_iff {first second : List (κ × α)} (nodup : (first.map Prod.fst).Nodup)
    (other : (second.map Prod.fst).Nodup) :
    collect first = collect second ↔ ∀ entry, entry ∈ first ↔ entry ∈ second := by
  apply Iff.intro
  · intro equal entry
    rw [← mem_collect nodup, equal, mem_collect other]
  · intro same
    apply (ascending_collect first).ext (ascending_collect second)
    intro entry
    rw [mem_collect nodup, mem_collect other, same]

theorem collect_of_ascending (ascending : Ascending entries) : collect entries = entries :=
  (ascending_collect entries).ext ascending fun _ => mem_collect ascending.nodup

theorem collect_collect (entries : List (κ × α)) : collect (collect entries) = collect entries :=
  collect_of_ascending (ascending_collect entries)

end TreeMap
