import Mathlib

namespace HashMap

/-- A hash map as a table of entries with pairwise distinct keys. -/
abbrev Table (κ α : Type) := AList fun _ : κ => α

variable {κ α : Type} [DecidableEq κ]

theorem lookup_insert_eq (table : Table κ α) (key other : κ) (value : α) :
    (table.insert key value).lookup other = if other = key then some value else table.lookup other := by
  split
  · next same => rw [same, AList.lookup_insert]
  · next different => exact AList.lookup_insert_ne different

theorem lookup_erase_eq (table : Table κ α) (key other : κ) :
    (table.erase key).lookup other = if other = key then none else table.lookup other := by
  split
  · next same => rw [same, AList.lookup_erase]
  · next different => exact AList.lookup_erase_ne different

def pairs (table : Table κ α) : List (κ × α) := table.entries.map fun entry => (entry.1, entry.2)

variable {table : Table κ α}

theorem mem_pairs {key : κ} {value : α} :
    (key, value) ∈ pairs table ↔ table.lookup key = some value := by
  rw [← Option.mem_def, AList.mem_lookup_iff]
  simp [pairs]

omit [DecidableEq κ] in
theorem pairs_keys_nodup (table : Table κ α) : ((pairs table).map Prod.fst).Nodup := by
  have keys : (pairs table).map Prod.fst = table.entries.keys := by
    simp [pairs, List.keys, Function.comp_def]
  rw [keys]
  exact table.nodupKeys

theorem length_pairs_insert {key : κ} (absent : table.lookup key = none) (value : α) :
    (pairs (table.insert key value)).length = (pairs table).length + 1 := by
  unfold pairs
  rw [AList.entries_insert_of_notMem (AList.lookup_eq_none.mp absent), List.map_cons, List.length_cons]

theorem card_le_length_pairs {keys : Finset κ}
    (stored : ∀ key ∈ keys, ∃ value, table.lookup key = some value) : keys.card ≤ (pairs table).length := by
  have inside : keys ⊆ ((pairs table).map Prod.fst).toFinset := by
    intro key member
    obtain ⟨value, found⟩ := stored key member
    exact List.mem_toFinset.mpr (List.mem_map.mpr ⟨(key, value), mem_pairs.mpr found, rfl⟩)
  calc
    keys.card ≤ ((pairs table).map Prod.fst).toFinset.card := Finset.card_le_card inside
    _ ≤ ((pairs table).map Prod.fst).length := List.toFinset_card_le _
    _ = (pairs table).length := List.length_map _

theorem lookup_of_full {keys : Finset κ}
    (inside : ∀ key value, table.lookup key = some value → key ∈ keys) (full : keys.card ≤ (pairs table).length)
    {key : κ} (member : key ∈ keys) : ∃ value, table.lookup key = some value := by
  have subset : ((pairs table).map Prod.fst).toFinset ⊆ keys := by
    intro other listed
    obtain ⟨⟨_, value⟩, stored, rfl⟩ := List.mem_map.mp (List.mem_toFinset.mp listed)
    exact inside _ value (mem_pairs.mp stored)
  have card : ((pairs table).map Prod.fst).toFinset.card = (pairs table).length := by
    rw [List.toFinset_card_of_nodup (pairs_keys_nodup table), List.length_map]
  have same := Finset.eq_of_subset_of_card_le subset (card ▸ full)
  rw [← same] at member
  obtain ⟨⟨_, value⟩, stored, rfl⟩ := List.mem_map.mp (List.mem_toFinset.mp member)
  exact ⟨value, mem_pairs.mp stored⟩

def ofPairs (entries : List (κ × α)) : Table κ α :=
  entries.foldl (fun table entry => table.insert entry.1 entry.2) ∅

theorem lookup_foldl_insert (entries : List (κ × α)) (nodup : (entries.map Prod.fst).Nodup) (table : Table κ α)
    (key : κ) (value : α) :
    (entries.foldl (fun table entry => table.insert entry.1 entry.2) table).lookup key = some value ↔
      (key, value) ∈ entries ∨ key ∉ entries.map Prod.fst ∧ table.lookup key = some value := by
  induction entries generalizing table with
  | nil => simp
  | cons entry entries ih =>
    obtain ⟨first, stored⟩ := entry
    rw [List.map_cons, List.nodup_cons] at nodup
    rw [List.foldl_cons, ih nodup.2, lookup_insert_eq, List.map_cons, List.mem_cons, List.mem_cons]
    by_cases same : key = first
    · subst same
      have absent : (key, value) ∉ entries := fun member => nodup.1 (List.mem_map.mpr ⟨_, member, rfl⟩)
      simp only [if_pos, absent, nodup.1, not_false_eq_true, true_and, not_true, false_and, or_false, false_or,
        Prod.mk.injEq, Option.some.injEq]
      exact eq_comm
    · simp [same]

theorem lookup_ofPairs {entries : List (κ × α)} (nodup : (entries.map Prod.fst).Nodup) {key : κ} {value : α} :
    (ofPairs entries).lookup key = some value ↔ (key, value) ∈ entries := by
  rw [ofPairs, lookup_foldl_insert entries nodup]
  have empty : (∅ : Table κ α).lookup key = none := rfl
  rw [empty]
  simp

theorem getD_store [DecidableEq α] (table : Table κ α) (key : κ) (value default : α) :
    (fun other => ((if value = default then table.erase key else table.insert key value).lookup other).getD default) =
      Function.update (fun other => (table.lookup other).getD default) key value := by
  funext other
  by_cases same : other = key
  · subst same
    by_cases isDefault : value = default
    · simp [isDefault]
    · simp [isDefault]
  · by_cases isDefault : value = default
    · simp [isDefault, same]
    · simp [isDefault, same]

def retain (keep : κ → α → Bool) (table : Table κ α) : Table κ α where
  entries := table.entries.filter fun entry => keep entry.1 entry.2
  nodupKeys := table.nodupKeys.sublist (List.filter_sublist)

theorem lookup_retain_eq (keep : κ → α → Bool) (table : Table κ α) (key : κ) :
    (retain keep table).lookup key = (table.lookup key).filter (keep key) := by
  apply Option.ext
  intro value
  have member : value ∈ (retain keep table).lookup key ↔ _ := AList.mem_lookup_iff
  have stored : value ∈ table.lookup key ↔ _ := AList.mem_lookup_iff
  rw [← Option.mem_def, member, Option.filter_eq_some_iff, ← Option.mem_def, stored]
  show _ ∈ table.entries.filter _ ↔ _
  rw [List.mem_filter]

def total (weight : α → Nat) (table : Table κ α) : Nat := (table.entries.map fun entry => weight entry.2).sum

theorem total_erase (weight : α → Nat) (table : Table κ α) (key : κ) :
    total weight (table.erase key) + ((table.lookup key).map weight).getD 0 = total weight table := by
  unfold total
  show ((table.entries.kerase key).map _).sum + ((table.entries.dlookup key).map weight).getD 0 = _
  generalize table.entries = entries
  induction entries with
  | nil => rfl
  | cons entry entries ih =>
    obtain ⟨first, value⟩ := entry
    by_cases same : first = key
    · subst same
      simp [add_comm]
    · have other : key ≠ first := fun equal => same equal.symm
      rw [List.kerase_cons_ne other, List.dlookup_cons_ne entries ⟨first, value⟩ other, List.map_cons, List.map_cons,
        List.sum_cons, List.sum_cons, ← ih]
      omega

theorem total_insert (weight : α → Nat) (table : Table κ α) (key : κ) (value : α) :
    total weight (table.insert key value) + ((table.lookup key).map weight).getD 0 =
      total weight table + weight value := by
  rw [← total_erase weight table key]
  unfold total
  rw [AList.entries_insert, List.map_cons, List.sum_cons]
  show weight value + ((table.entries.kerase key).map _).sum + _ = ((table.entries.kerase key).map _).sum + _ + _
  omega

/-- The order in which a hash map yields its entries is unspecified: any rearrangement of the list of entries. -/
structure Order where
  iterate : {β : Type} → List β → List β
  perm : ∀ {β : Type} (entries : List β), (iterate entries).Perm entries

def Order.stored : Order := ⟨fun entries => entries, fun _ => .refl _⟩

def Order.reversed : Order := ⟨List.reverse, List.reverse_perm⟩

theorem Order.mem_iterate {order : Order} {β : Type} {entries : List β} {entry : β} :
    entry ∈ order.iterate entries ↔ entry ∈ entries := (order.perm entries).mem_iff

end HashMap

namespace FiniteSums

variable {ι : Type} [Fintype ι] [DecidableEq ι] {f g : ι → Nat} {i j : ι}

theorem sum_one (same : ∀ k, k ≠ i → g k = f k) : ∑ k, g k + f i = ∑ k, f k + g i := by
  have rest : ∑ k ∈ Finset.univ.erase i, g k = ∑ k ∈ Finset.univ.erase i, f k :=
    Finset.sum_congr rfl fun k member => same k (Finset.ne_of_mem_erase member)
  have first := Finset.add_sum_erase Finset.univ f (Finset.mem_univ i)
  have second := Finset.add_sum_erase Finset.univ g (Finset.mem_univ i)
  omega

theorem sum_two (different : i ≠ j) (same : ∀ k, k ≠ i → k ≠ j → g k = f k) :
    ∑ k, g k + (f i + f j) = ∑ k, f k + (g i + g j) := by
  have first : ∑ k, Function.update f i (g i) k + f i = ∑ k, f k + g i := by
    have one := @sum_one _ _ _ f (Function.update f i (g i)) i fun k other => Function.update_of_ne other _ _
    rwa [Function.update_self] at one
  have second : ∑ k, g k + f j = ∑ k, Function.update f i (g i) k + g j := by
    have one := @sum_one _ _ _ (Function.update f i (g i)) g j fun k other => by
      by_cases atFirst : k = i
      · rw [atFirst, Function.update_self]
      · rw [Function.update_of_ne atFirst, same k atFirst other]
    rwa [Function.update_of_ne different.symm] at one
  omega

theorem sum_lookup {κ α : Type} [Fintype κ] [DecidableEq κ] (weight : α → Nat) (table : HashMap.Table κ α) :
    ∑ key, ((table.lookup key).map weight).getD 0 = HashMap.total weight table := by
  unfold HashMap.total
  have entries : ∀ (entries : List (Sigma fun _ : κ => α)), entries.NodupKeys →
      ∑ key, ((entries.dlookup key).map weight).getD 0 = (entries.map fun entry => weight entry.2).sum := by
    intro entries nodup
    induction entries with
    | nil => simp
    | cons entry entries ih =>
      obtain ⟨first, value⟩ := entry
      rw [List.nodupKeys_cons] at nodup
      have absent : entries.dlookup first = none := List.dlookup_eq_none.mpr nodup.1
      have one := @sum_one _ _ _ (fun key => ((entries.dlookup key).map weight).getD 0)
        (fun key => (((⟨first, value⟩ :: entries : List (Sigma fun _ : κ => α)).dlookup key).map weight).getD 0) first
        fun key other => by rw [List.dlookup_cons_ne entries ⟨first, value⟩ other]
      simp only [absent, List.dlookup_cons_eq, Option.map_some, Option.map_none, Option.getD_some, Option.getD_none,
        ih nodup.2] at one
      rw [List.map_cons, List.sum_cons]
      show _ = weight value + _
      omega
  exact entries table.entries table.nodupKeys

end FiniteSums
