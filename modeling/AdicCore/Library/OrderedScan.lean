import AdicCore.Library.HashMap

namespace HashMap

theorem mergeSort_sorted {β κ : Type} [LinearOrder κ] (key : β → κ) (entries : List β) :
    (entries.mergeSort fun a b => key a ≤ key b).Pairwise fun a b => key a ≤ key b := by
  have sorted := @List.pairwise_mergeSort _ (fun a b : β => decide (key a ≤ key b))
    (fun a b c => by simpa using le_trans) (fun a b => by simpa using le_total (key a) (key b)) entries
  exact sorted.imp fun ordered => by simpa using ordered

section

variable {κ α : Type} [LinearOrder κ]

def scanForward (table : Table κ α) (start : κ) : List (κ × α) :=
  ((pairs table).filter fun entry => start ≤ entry.1).mergeSort fun a b => a.1 ≤ b.1

def scanReverse (table : Table κ α) (start : κ) : List (κ × α) :=
  ((pairs table).filter fun entry => entry.1 ≤ start).mergeSort fun a b => b.1 ≤ a.1

variable {table : Table κ α} {start key : κ} {value : α}

theorem mem_scanForward : (key, value) ∈ scanForward table start ↔ table.lookup key = some value ∧ start ≤ key := by
  unfold scanForward
  rw [List.mem_mergeSort, List.mem_filter, mem_pairs, decide_eq_true_eq]

theorem mem_scanReverse : (key, value) ∈ scanReverse table start ↔ table.lookup key = some value ∧ key ≤ start := by
  unfold scanReverse
  rw [List.mem_mergeSort, List.mem_filter, mem_pairs, decide_eq_true_eq]

theorem scanForward_sorted : (scanForward table start).Pairwise fun a b => a.1 ≤ b.1 :=
  mergeSort_sorted Prod.fst ((pairs table).filter fun entry => start ≤ entry.1)

theorem scanForward_nodup : (scanForward table start).Nodup := by
  unfold scanForward
  rw [(List.mergeSort_perm _ _).nodup_iff]
  exact ((List.Nodup.of_map _ (pairs_keys_nodup table))).filter _

section

variable {β : Type} {entries : List β} {inside : β → Bool} {before : β → β → Prop} (sorted : entries.Pairwise before)
  (closed : ∀ a ∈ entries, ∀ b ∈ entries, before a b → inside b = true → inside a = true)

include sorted closed

theorem takeWhile_eq_filter : entries.takeWhile inside = entries.filter inside := by
  induction entries with
  | nil => rfl
  | cons first rest ih =>
    rw [List.pairwise_cons] at sorted
    cases isInside : inside first with
    | true =>
      rw [List.takeWhile_cons_of_pos isInside, List.filter_cons_of_pos isInside, ih sorted.2]
      exact fun a mem b mem' => closed a (List.mem_cons_of_mem _ mem) b (List.mem_cons_of_mem _ mem')
    | false =>
      rw [List.takeWhile_cons_of_neg (by simp [isInside]), eq_comm, List.filter_eq_nil_iff]
      intro entry member isIn
      rcases List.mem_cons.mp member with same | later
      · rw [same, isInside] at isIn
        cases isIn
      · rw [closed first List.mem_cons_self entry member (sorted.1 entry later) isIn] at isInside
        cases isInside

theorem filter_append_filter_not : entries.filter inside ++ entries.filter (fun entry => !inside entry) = entries := by
  induction entries with
  | nil => rfl
  | cons first rest ih =>
    rw [List.pairwise_cons] at sorted
    cases isInside : inside first with
    | true =>
      have parts := ih sorted.2 fun a mem b mem' => closed a (List.mem_cons_of_mem _ mem) b (List.mem_cons_of_mem _ mem')
      rw [List.filter_cons_of_pos isInside, List.filter_cons_of_neg (by simp [isInside]), List.cons_append, parts]
    | false =>
      have outside : ∀ entry ∈ first :: rest, inside entry = false := by
        intro entry member
        rcases List.mem_cons.mp member with rfl | later
        · exact isInside
        · rw [Bool.eq_false_iff]
          intro isIn
          rw [closed first List.mem_cons_self entry member (sorted.1 entry later) isIn] at isInside
          cases isInside
      rw [List.filter_eq_nil_iff.mpr fun entry member => by simp [outside entry member], List.nil_append,
        List.filter_eq_self.mpr fun entry member => by simp [outside entry member]]

end

theorem eq_of_parts {β κ : Type} [LinearOrder κ] {key : β → κ} {first second : List β}
    (sorted : first.Pairwise fun a b => key a ≤ key b) (sorted' : second.Pairwise fun a b => key a ≤ key b)
    (parts : ∀ part, (first.filter fun item => key item = part) = second.filter fun item => key item = part) :
    first = second := by
  have mem : ∀ item, item ∈ first ↔ item ∈ second := by
    intro item
    have same := congrArg (item ∈ ·) (parts (key item))
    simpa using same
  induction first generalizing second with
  | nil =>
    cases second with
    | nil => rfl
    | cons item rest => exact absurd ((mem item).mpr List.mem_cons_self) List.not_mem_nil
  | cons item rest ih =>
    cases second with
    | nil => exact absurd ((mem item).mp List.mem_cons_self) List.not_mem_nil
    | cons item' rest' =>
      rw [List.pairwise_cons] at sorted sorted'
      have least : ∀ {item item' : β} {rest : List β}, (∀ b ∈ rest, key item' ≤ key b) →
          item ∈ item' :: rest → key item' ≤ key item := by
        intro item item' rest before member
        rcases List.mem_cons.mp member with rfl | later
        · exact le_rfl
        · exact before item later
      have equal : key item = key item' := le_antisymm
        (least sorted.1 ((mem item').mpr List.mem_cons_self)) (least sorted'.1 ((mem item).mp List.mem_cons_self))
      have here := parts (key item)
      rw [List.filter_cons_of_pos (by simp), List.filter_cons_of_pos (by simp [equal])] at here
      cases (List.cons.inj here).1
      congr 1
      have restParts : ∀ part, (rest.filter fun item => key item = part) = rest'.filter fun item => key item = part := by
        intro part
        have both := parts part
        rw [List.filter_cons, List.filter_cons] at both
        split at both
        · exact (List.cons.inj both).2
        · exact both
      refine ih sorted.2 sorted'.2 restParts ?_
      intro other
      have same := congrArg (other ∈ ·) (restParts (key other))
      simpa using same

end

section

variable {κ α : Type} [LinearOrder κ]

def sortedKeys (keys : Finset κ) : List κ := keys.sort (· ≤ ·)

def ascending (table : Table κ α) : List (κ × α) := (pairs table).mergeSort fun a b => a.1 ≤ b.1

theorem ascending_sorted (table : Table κ α) : (ascending table).Pairwise fun a b => a.1 ≤ b.1 :=
  mergeSort_sorted Prod.fst (pairs table)

theorem mem_ascending {table : Table κ α} {key : κ} {value : α} :
    (key, value) ∈ ascending table ↔ table.lookup key = some value := by
  unfold ascending
  rw [List.mem_mergeSort, mem_pairs]

theorem ascending_keys (table : Table κ α) : (ascending table).Pairwise fun a b => a.1 ≠ b.1 := by
  have keys : ((ascending table).map Prod.fst).Nodup :=
    ((List.mergeSort_perm _ _).map Prod.fst).nodup_iff.mpr (pairs_keys_nodup table)
  exact List.pairwise_map.mp keys

theorem scanForward_eq_filter (table : Table κ α) (start : κ) :
    scanForward table start = (ascending table).filter fun entry => start ≤ entry.1 := by
  refine @List.Perm.eq_of_pairwise _ (fun a b : κ × α => a.1 ≤ b.1) _ _ ?_ ?_ ?_ ?_
  · rintro ⟨key, value⟩ ⟨key', value'⟩ member other before after
    cases le_antisymm before after
    have found := (mem_scanForward.mp member).1
    rw [mem_ascending.mp (List.mem_of_mem_filter other)] at found
    cases found
    rfl
  · exact scanForward_sorted
  · exact (ascending_sorted table).filter _
  · exact (List.mergeSort_perm _ _).trans ((List.mergeSort_perm _ _).symm.filter _)

def flattened (table : Table κ (List α)) : List (κ × α) :=
  (ascending table).flatMap fun entry => entry.2.map fun value => (entry.1, value)

variable {table : Table κ (List α)}

theorem mem_flattened {key : κ} {value : α} :
    (key, value) ∈ flattened table ↔ value ∈ (table.lookup key).getD [] := by
  unfold flattened
  rw [List.mem_flatMap]
  constructor
  · rintro ⟨⟨other, values⟩, member, inside⟩
    rcases List.mem_map.mp inside with ⟨_, listed, same⟩
    cases same
    rw [mem_ascending.mp member]
    exact listed
  · intro listed
    cases found : table.lookup key with
    | none =>
      rw [found] at listed
      cases listed
    | some values =>
      rw [found] at listed
      exact ⟨(key, values), mem_ascending.mpr found, List.mem_map.mpr ⟨value, listed, rfl⟩⟩

theorem flattened_sorted : (flattened table).Pairwise fun a b => a.1 ≤ b.1 := by
  unfold flattened
  rw [List.pairwise_flatMap]
  constructor
  · intro entry _
    rw [List.pairwise_map]
    exact List.pairwise_of_forall fun _ _ => le_refl entry.1
  · refine (ascending_sorted table).imp ?_
    intro first second ordered a inFirst b inSecond
    rcases List.mem_map.mp inFirst with ⟨_, _, rfl⟩
    rcases List.mem_map.mp inSecond with ⟨_, _, rfl⟩
    exact ordered

theorem flattened_nodup (nodup : ∀ key, ((table.lookup key).getD []).Nodup) : (flattened table).Nodup := by
  unfold flattened
  rw [List.Nodup, List.pairwise_flatMap]
  constructor
  · rintro ⟨key, values⟩ member
    have listed := nodup key
    rw [mem_ascending.mp member] at listed
    exact listed.map fun _ _ same => congrArg Prod.snd same
  · refine (ascending_keys table).imp ?_
    intro first second different a inFirst b inSecond same
    rcases List.mem_map.mp inFirst with ⟨_, _, rfl⟩
    rcases List.mem_map.mp inSecond with ⟨_, _, rfl⟩
    exact different (Prod.mk.inj same).1

omit [LinearOrder κ] in
theorem filter_keys (entries : List (κ × List α)) (inside : κ → Bool) :
    ((entries.flatMap fun entry => entry.2.map fun value => (entry.1, value)).filter fun entry => inside entry.1) =
      (entries.filter fun entry => inside entry.1).flatMap fun entry => entry.2.map fun value => (entry.1, value) := by
  induction entries with
  | nil => rfl
  | cons entry entries ih =>
    rw [List.flatMap_cons, List.filter_append, ih]
    cases isInside : inside entry.1 with
    | true =>
      have all : ((entry.2.map fun value => (entry.1, value)).filter fun pair => inside pair.1) =
          entry.2.map fun value => (entry.1, value) := by
        apply List.filter_eq_self.mpr
        intro pair member
        rcases List.mem_map.mp member with ⟨_, _, rfl⟩
        exact isInside
      rw [all, List.filter_cons, if_pos isInside, List.flatMap_cons]
    | false =>
      have none : ((entry.2.map fun value => (entry.1, value)).filter fun pair => inside pair.1) = [] := by
        apply List.filter_eq_nil_iff.mpr
        intro pair member
        rcases List.mem_map.mp member with ⟨_, _, rfl⟩
        simp [isInside]
      rw [none, List.filter_cons, if_neg (by simp [isInside])]
      rfl

omit [LinearOrder κ] in
theorem map_snd_values (entries : List (κ × List α)) :
    (entries.flatMap fun entry => entry.2.map fun value => (entry.1, value)).map Prod.snd = entries.flatMap Prod.snd := by
  rw [List.map_flatMap]
  congr 1
  funext entry
  rw [List.map_map]
  exact List.map_id entry.2

theorem flattened_part (key : κ) :
    ((flattened table).filter fun entry => entry.1 = key) = ((table.lookup key).getD []).map fun value => (key, value) := by
  have nodup : ((ascending table).filter fun entry => entry.1 = key).Nodup := by
    refine List.Nodup.filter _ ?_
    exact (ascending_keys table).imp fun different same => different (congrArg Prod.fst same)
  unfold flattened
  rw [filter_keys (ascending table) fun other => decide (other = key)]
  cases found : table.lookup key with
  | none =>
    have empty : ((ascending table).filter fun entry => entry.1 = key) = [] := by
      apply List.filter_eq_nil_iff.mpr
      rintro ⟨other, value⟩ member
      rw [decide_eq_true_eq]
      rintro rfl
      rw [mem_ascending.mp member] at found
      cases found
    rw [empty]
    rfl
  | some values =>
    have only : ((ascending table).filter fun entry => entry.1 = key) = [(key, values)] := by
      apply List.perm_singleton.mp
      rw [List.perm_ext_iff_of_nodup nodup (List.nodup_singleton _)]
      rintro ⟨other, value⟩
      rw [List.mem_filter, decide_eq_true_eq, List.mem_singleton, mem_ascending]
      constructor
      · rintro ⟨stored, rfl⟩
        rw [found] at stored
        cases stored
        rfl
      · rintro same
        cases same
        exact ⟨found, rfl⟩
    rw [only]
    simp

theorem flatMap_takeWhile (start stop : κ) :
    ((scanForward table start).takeWhile fun entry => entry.1 < stop).flatMap Prod.snd =
      ((flattened table).filter fun entry => start ≤ entry.1 ∧ entry.1 < stop).map Prod.snd := by
  have closed : ∀ first ∈ scanForward table start, ∀ second ∈ scanForward table start, first.1 ≤ second.1 →
      decide (second.1 < stop) = true → decide (first.1 < stop) = true := by
    intro first _ second _ before inside
    rw [decide_eq_true_eq] at inside ⊢
    exact lt_of_le_of_lt before inside
  have both := filter_keys (ascending table) fun key => decide (start ≤ key ∧ key < stop)
  rw [takeWhile_eq_filter scanForward_sorted closed, scanForward_eq_filter, List.filter_filter]
  unfold flattened
  rw [both, map_snd_values]
  congr 1
  apply List.filter_congr
  intro entry _
  rw [Bool.decide_and, Bool.and_comm]

end

section

variable {κ : Type} [LinearOrder κ]

theorem nil_le (key : List κ) : [] ≤ key := by
  cases key with
  | nil => exact le_refl []
  | cons first rest => exact le_of_lt List.Lex.nil

theorem cons_le_cons_iff {first other : κ} {start key : List κ} :
    first :: start ≤ other :: key ↔ first < other ∨ first = other ∧ start ≤ key := by
  have reversed : other :: key < first :: start ↔ other < first ∨ other = first ∧ key < start := List.cons_lt_cons_iff
  rw [← not_lt, reversed, ← not_lt]
  rcases lt_trichotomy first other with less | same | more
  · simp [less, less.not_gt, less.ne']
  · simp [same]
  · simp [more, more.not_gt, more.ne']

theorem le_of_prefix {start key : List κ} (begins : start <+: key) : start ≤ key := by
  induction start generalizing key with
  | nil => exact nil_le key
  | cons first start ih =>
    rcases begins with ⟨rest, rfl⟩
    rw [List.cons_append, cons_le_cons_iff]
    exact .inr ⟨rfl, ih (List.prefix_append start rest)⟩

theorem prefix_of_le {start key later : List κ} (after : start ≤ key) (ordered : key ≤ later)
    (begins : start <+: later) : start <+: key := by
  induction start generalizing key later with
  | nil => exact List.nil_prefix
  | cons first start ih =>
    rcases begins with ⟨rest, rfl⟩
    cases key with
    | nil =>
      have same := le_antisymm after (nil_le _)
      cases same
    | cons other key =>
      rw [cons_le_cons_iff] at after
      rw [List.cons_append, cons_le_cons_iff] at ordered
      rcases after with less | ⟨rfl, after⟩
      · rcases ordered with more | ⟨same, _⟩
        · exact absurd less more.asymm
        · rw [same] at less
          exact absurd less (lt_irrefl _)
      · rcases ordered with more | ⟨_, ordered⟩
        · exact absurd more (lt_irrefl _)
        · rw [List.cons_prefix_cons]
          exact ⟨rfl, ih after ordered (List.prefix_append start rest)⟩

end

section

variable {κ α τ : Type} [LinearOrder κ] [LinearOrder τ] {letters : κ → List τ} {table : Table κ α} {start : κ}
  {inside : κ → Bool}

section

variable (ordered : ∀ first second, first ≤ second ↔ letters first ≤ letters second)
  (begins : ∀ key, inside key = true ↔ letters start <+: letters key)

include ordered begins

theorem takeWhile_begins : ((scanForward table start).takeWhile fun entry => inside entry.1) =
      (scanForward table start).filter fun entry => inside entry.1 := by
  refine takeWhile_eq_filter scanForward_sorted ?_
  rintro ⟨key, value⟩ member ⟨later, _⟩ _ before isInside
  rw [begins] at isInside ⊢
  have after := (mem_scanForward.mp member).2
  exact prefix_of_le ((ordered _ _).mp after) ((ordered _ _).mp before) isInside

theorem mem_takeWhile_begins {key : κ} {value : α} :
    ((key, value) ∈ (scanForward table start).takeWhile fun entry => inside entry.1) ↔
      table.lookup key = some value ∧ letters start <+: letters key := by
  rw [takeWhile_begins ordered begins, List.mem_filter, mem_scanForward, begins]
  constructor
  · intro found
    exact ⟨found.1.1, found.2⟩
  · intro found
    have after := le_of_prefix found.2
    exact ⟨⟨found.1, (ordered _ _).mpr after⟩, found.2⟩

end

end

end HashMap

namespace Greedy

section

variable {β κ : Type} [LinearOrder κ] {key : β → κ} {entries others : List β}

def ranked (key : β → κ) (entries : List β) : List β := entries.insertionSort fun a b => key b ≤ key a

theorem ranked_perm : (ranked key entries).Perm entries := List.perm_insertionSort _ entries

theorem ranked_sorted : (ranked key entries).Pairwise fun a b => key b ≤ key a := by
  have total : Std.Total fun a b : β => key b ≤ key a := ⟨fun a b => le_total (key b) (key a)⟩
  have transitive : IsTrans β fun a b => key b ≤ key a := ⟨fun _ _ _ first second => le_trans second first⟩
  exact List.pairwise_insertionSort _ entries

theorem ranked_eq_of_perm (distinct : Set.InjOn key {entry | entry ∈ entries}) (reordered : others.Perm entries) :
    ranked key others = ranked key entries := by
  refine @List.Perm.eq_of_pairwise _ (fun a b : β => key b ≤ key a) _ _ ?_ ranked_sorted ranked_sorted
    (ranked_perm.trans (reordered.trans ranked_perm.symm))
  intro a b member member' after before
  have first : a ∈ entries := reordered.subset (ranked_perm.subset member)
  have second : b ∈ entries := ranked_perm.subset member'
  exact distinct first second (le_antisymm before after)

end

section

variable {β : Type} (fits : List β → β → Prop) [∀ picked entry, Decidable (fits picked entry)]

def pick : List β → List β → List β
  | picked, [] => picked
  | picked, entry :: rest => if fits picked entry then pick (picked ++ [entry]) rest else pick picked rest

variable {fits} {picked entries : List β}

theorem pick_induction {holds : List β → Prop} (initially : holds picked)
    (step : ∀ picked entry, holds picked → fits picked entry → holds (picked ++ [entry])) :
    holds (pick fits picked entries) := by
  induction entries generalizing picked with
  | nil => exact initially
  | cons entry rest ih =>
    unfold pick
    split
    · next fit => exact ih (step picked entry initially fit)
    · exact ih initially

theorem pick_full (full : ∀ entry, ¬ fits picked entry) : pick fits picked entries = picked := by
  induction entries with
  | nil => rfl
  | cons entry rest ih =>
    unfold pick
    rw [if_neg (full entry), ih]

theorem length_pick_le : (pick fits picked entries).length ≤ picked.length + entries.length := by
  induction entries generalizing picked with
  | nil => exact Nat.le_add_right _ _
  | cons entry rest ih =>
    unfold pick
    split
    · have later := @ih (picked ++ [entry])
      rw [List.length_append, List.length_singleton] at later
      rw [List.length_cons]
      omega
    · have later := @ih picked
      rw [List.length_cons]
      omega

theorem pick_append (entries rest : List β) :
    pick fits picked (entries ++ rest) = pick fits (pick fits picked entries) rest := by
  induction entries generalizing picked with
  | nil => rfl
  | cons entry entries ih =>
    rw [List.cons_append, pick, pick]
    split
    · exact ih
    · exact ih

theorem pick_sublist (entries : List β) :
    ∃ chosen, chosen.Sublist entries ∧ pick fits picked entries = picked ++ chosen := by
  induction entries generalizing picked with
  | nil => exact ⟨[], List.Sublist.refl _, (List.append_nil _).symm⟩
  | cons entry entries ih =>
    rw [pick]
    split
    · obtain ⟨chosen, part, same⟩ := @ih (picked ++ [entry])
      exact ⟨entry :: chosen, part.cons_cons entry, by rw [same, List.append_assoc]; rfl⟩
    · obtain ⟨chosen, part, same⟩ := @ih picked
      exact ⟨chosen, part.cons entry, same⟩

end

end Greedy
