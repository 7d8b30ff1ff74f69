import AdicCore.Library.OrderedScan

namespace Paging

section

variable {α : Type*} (items : List α) (limit : Nat) (resume : Nat → Nat)

def follow : Nat → Nat → Option (List α)
  | 0, _ => none
  | steps + 1, start =>
    let page := (items.drop start).take limit
    if page.length = limit then (follow steps (resume (start + limit - 1))).map (page ++ ·) else some page

variable {items limit resume}

theorem length_page (start : Nat) : ((items.drop start).take limit).length = min limit (items.length - start) := by
  rw [List.length_take, List.length_drop]

theorem length_follow (positive : 0 < limit) (resumes : ∀ position < items.length, resume position ≤ position + 1)
    {steps start : Nat} {pages : List α} (inside : start ≤ items.length)
    (ends : follow items limit resume steps start = some pages) :
    items.length ≤ start + pages.length ∧ (start + pages.length = items.length →
      ∀ count, start + (count + 1) * limit ≤ items.length →
        resume (start + (count + 1) * limit - 1) = start + (count + 1) * limit) := by
  induction steps generalizing start pages with
  | zero => cases ends
  | succ steps ih =>
    unfold follow at ends
    dsimp only at ends
    have length := @length_page _ items limit start
    split at ends
    · next full =>
      rcases Option.map_eq_some_iff.mp ends with ⟨others, more, rfl⟩
      have room : start + limit ≤ items.length := by omega
      have next := resumes (start + limit - 1) (by omega)
      have ⟨enough, tight⟩ := ih (by omega) more
      rw [List.length_append]
      refine ⟨by omega, fun whole count within => ?_⟩
      have resumed : resume (start + limit - 1) = start + limit := by omega
      rw [resumed] at tight enough
      cases count with
      | zero => rw [Nat.zero_add, Nat.one_mul, resumed]
      | succ count =>
        have step : start + (count + 1 + 1) * limit = start + limit + (count + 1) * limit := by ring
        rw [step] at within ⊢
        exact tight (by omega) count within
    · next short =>
      cases ends
      refine ⟨by omega, fun _ count within => ?_⟩
      have more : limit ≤ (count + 1) * limit := Nat.le_mul_of_pos_left limit (Nat.succ_pos count)
      omega

theorem follow_multiple (resumed : ∀ count, (count + 1) * limit ≤ items.length →
      resume ((count + 1) * limit - 1) = (count + 1) * limit) (steps pages : Nat)
    (inside : pages * limit ≤ items.length) (enough : items.length < (pages + steps) * limit) :
    follow items limit resume steps (pages * limit) = some (items.drop (pages * limit)) := by
  induction steps generalizing pages with
  | zero => exact absurd inside (not_le.mpr enough)
  | succ steps ih =>
    unfold follow
    dsimp only
    have length := @length_page _ items limit (pages * limit)
    have step : (pages + 1) * limit = pages * limit + limit := by ring
    split
    · next full =>
      have room : (pages + 1) * limit ≤ items.length := by omega
      rw [← step, resumed pages room, ih (pages + 1) room (by rw [Nat.add_assoc, Nat.add_comm 1]; exact enough), step,
        Option.map_some, ← List.drop_drop, List.take_append_drop]
    · next short =>
      rw [List.take_of_length_le]
      rw [List.length_drop]
      omega

/-- Following the pages from the start ends with the whole list exactly if every full page resumes at its end. -/
theorem follow_iff (positive : 0 < limit) (resumes : ∀ position < items.length, resume position ≤ position + 1) :
    (∃ steps, follow items limit resume steps 0 = some items) ↔
      ∀ count, (count + 1) * limit ≤ items.length → resume ((count + 1) * limit - 1) = (count + 1) * limit := by
  constructor
  · rintro ⟨steps, ends⟩ count within
    have whole := (length_follow positive resumes (Nat.zero_le _) ends).2 (Nat.zero_add _) count
    simp only [Nat.zero_add] at whole
    exact whole within
  · intro resumed
    have enough : items.length < (0 + (items.length + 1)) * limit := by
      rw [Nat.zero_add]
      exact (Nat.lt_succ_self _).trans_le (Nat.le_mul_of_pos_right _ positive)
    have ends := follow_multiple resumed (items.length + 1) 0 (by omega) enough
    rw [Nat.zero_mul, List.drop_zero] at ends
    exact ⟨_, ends⟩

end

section

variable {α κ : Type} [DecidableEq α] [LinearOrder κ] (time : α → κ) (items : List α) (window limit : Nat)

def since (checkpoint : α) : List α := items.filter fun item => time checkpoint ≤ time item

def pageSince (checkpoint : α) : List α :=
  (((since time items checkpoint).take window).filter fun item => item ≠ checkpoint).take limit

/-- The pages from a checkpoint on, each from the last item of the page before, up to an empty page. -/
def walk : Nat → α → Option (List α)
  | 0, _ => none
  | steps + 1, checkpoint =>
    match (pageSince time items window limit checkpoint).getLast? with
    | none => some []
    | some last => (walk steps last).map (pageSince time items window limit checkpoint ++ ·)

def Visits (checkpoint : α) : Prop :=
  ∃ steps visited, walk time items window limit steps checkpoint = some visited ∧
    ∀ item ∈ since time items checkpoint, item ≠ checkpoint → item ∈ visited

def sharing (item : α) : List α := items.filter fun other => time other = time item

/-- No time from the checkpoint on is shared by more than a page holds, and the latest is not shared. -/
def Paced (checkpoint : α) : Prop :=
  if window < 2 then ∀ item ∈ (since time items checkpoint).drop window, item = checkpoint
  else (∀ item ∈ since time items checkpoint, (sharing time items item).length ≤ min limit (window - 1)) ∧
    ∀ item ∈ since time items checkpoint, (∀ other ∈ items, time other ≤ time item) →
      ∀ other ∈ sharing time items item, other = item

variable {time items window limit} {checkpoint : α} {item : α}

omit [DecidableEq α] in
theorem mem_since : item ∈ since time items checkpoint ↔ item ∈ items ∧ time checkpoint ≤ time item := by
  unfold since
  rw [List.mem_filter, decide_eq_true_eq]

theorem mem_pageSince (member : item ∈ pageSince time items window limit checkpoint) :
    item ∈ since time items checkpoint ∧ item ≠ checkpoint := by
  have inside := List.mem_filter.mp (List.mem_of_mem_take member)
  exact ⟨List.mem_of_mem_take inside.1, of_decide_eq_true inside.2⟩

section

variable {kind : α → Prop}
  (goesOn : ∀ checkpoint, kind checkpoint → ∃ last, (pageSince time items window limit checkpoint).getLast? = some last ∧ kind last)

include goesOn

theorem walk_endless (steps : Nat) (checkpoint : α) (isKind : kind checkpoint) :
    walk time items window limit steps checkpoint = none := by
  induction steps generalizing checkpoint with
  | zero => rfl
  | succ steps ih =>
    rcases goesOn checkpoint isKind with ⟨last, found, isLast⟩
    unfold walk
    rw [found]
    dsimp only
    rw [ih last isLast, Option.map_none]

theorem not_visits (isKind : kind checkpoint) : ¬ Visits time items window limit checkpoint := by
  rintro ⟨steps, visited, ends, _⟩
  rw [walk_endless goesOn steps checkpoint isKind] at ends
  cases ends

end

theorem visits_of_two {found : Option α} (first : (pageSince time items window limit checkpoint).getLast? = found)
    (second : ∀ last, found = some last → pageSince time items window limit last = []) :
    Visits time items window limit checkpoint ↔
      ∀ item ∈ since time items checkpoint, item ≠ checkpoint → item ∈ pageSince time items window limit checkpoint := by
  have two : ∀ steps, walk time items window limit (steps + 2) checkpoint =
      some (pageSince time items window limit checkpoint) := by
    intro steps
    unfold walk
    cases found with
    | none =>
      rw [first]
      rw [List.getLast?_eq_none_iff] at first
      rw [first]
    | some last =>
      rw [first]
      dsimp only
      unfold walk
      rw [second last rfl]
      simp
  constructor
  · rintro ⟨steps, visited, ends, all⟩ item member different
    have inside := all item member different
    match steps with
    | 0 => cases ends
    | 1 =>
      unfold walk at ends
      rw [first] at ends
      cases found with
      | none =>
        cases ends
        cases inside
      | some last => cases ends
    | steps + 2 =>
      rw [two] at ends
      cases ends
      exact inside
  · intro all
    exact ⟨2, _, two 0, all⟩

theorem visits_short (short : window < 2) (positive : 0 < limit) (sorted : items.Pairwise fun a b => time a ≤ time b)
    (nodup : items.Nodup) (member : checkpoint ∈ items) :
    Visits time items window limit checkpoint ↔ ∀ item ∈ (since time items checkpoint).drop window, item = checkpoint := by
  have cases : window = 0 ∨ window = 1 := by omega
  rcases cases with rfl | rfl
  · have page : pageSince time items 0 limit checkpoint = [] := by simp [pageSince]
    have last : (pageSince time items 0 limit checkpoint).getLast? = none := by rw [page, List.getLast?_nil]
    rw [visits_of_two last (by simp), page]
    simp only [List.drop_zero, List.not_mem_nil, imp_false, not_not]
  · have inside : checkpoint ∈ since time items checkpoint := mem_since.mpr ⟨member, le_rfl⟩
    have listSorted : (since time items checkpoint).Pairwise fun a b => time a ≤ time b := sorted.filter _
    have listNodup : (since time items checkpoint).Nodup := nodup.filter _
    cases list : since time items checkpoint with
    | nil =>
      rw [list] at inside
      cases inside
    | cons head rest =>
      rw [list] at inside listSorted listNodup
      have page : ∀ other, since time items other = head :: rest →
          pageSince time items 1 limit other = if head = other then [] else [head] := by
        intro other same
        unfold pageSince
        rw [same]
        by_cases equal : head = other
        · simp [equal]
        · rw [if_neg equal, List.take_succ_cons, List.take_zero, List.filter_singleton]
          simp only [ne_eq, equal, not_false_eq_true, decide_true]
          exact List.take_of_length_le positive
      have early : time head ≤ time checkpoint := by
        rcases List.mem_cons.mp inside with same | later
        · rw [same]
        · exact (List.pairwise_cons.mp listSorted).1 checkpoint later
      have late : time checkpoint ≤ time head := by
        have stored : head ∈ since time items checkpoint := list ▸ List.mem_cons_self
        exact (mem_since.mp stored).2
      have sameSince : since time items head = head :: rest := by
        rw [← list]
        unfold since
        rw [le_antisymm early late]
      rw [visits_of_two rfl, page checkpoint list, list]
      · rw [List.drop_succ_cons, List.drop_zero]
        constructor
        · intro all item later
          by_contra different
          have onPage := all item (List.mem_cons_of_mem _ later) different
          split at onPage
          · cases onPage
          · rw [List.mem_singleton] at onPage
            exact (List.nodup_cons.mp listNodup).1 (onPage ▸ later)
        · intro only item listed different
          rcases List.mem_cons.mp listed with rfl | later
          · rw [if_neg different]
            exact List.mem_singleton_self item
          · exact absurd (only item later) different
      · intro last found
        rw [page checkpoint list] at found
        split at found
        · cases found
        · cases found
          show pageSince time items 1 limit head = []
          rw [page head sameSince, if_pos rfl]

omit [DecidableEq α] in
theorem since_eq (sorted : items.Pairwise fun a b => time a ≤ time b) (checkpoint : α) :
    since time items checkpoint =
      sharing time items checkpoint ++ items.filter fun item => time checkpoint < time item := by
  have listSorted : (since time items checkpoint).Pairwise fun a b => time a ≤ time b := sorted.filter _
  have split := @HashMap.filter_append_filter_not _ _ (fun item => decide (time item = time checkpoint)) _ listSorted ?_
  · rw [← split]
    unfold since sharing
    rw [List.filter_filter, List.filter_filter]
    congr 1
    · apply List.filter_congr
      intro item _
      rw [← Bool.decide_and, decide_eq_decide]
      exact and_iff_left_of_imp fun same => same.ge
    · apply List.filter_congr
      intro item _
      rw [← decide_not, ← Bool.decide_and, decide_eq_decide, lt_iff_le_and_ne, and_comm, ne_comm]
  · intro first isFirst second _ ordered same
    rw [decide_eq_true_eq] at same ⊢
    exact le_antisymm (same ▸ ordered) (mem_since.mp isFirst).2

theorem length_sharing (nodup : items.Nodup) (member : checkpoint ∈ items) :
    ((sharing time items checkpoint).filter fun item => item ≠ checkpoint).length + 1 =
      (sharing time items checkpoint).length := by
  have inside : checkpoint ∈ sharing time items checkpoint := by
    unfold sharing
    rw [List.mem_filter, decide_eq_true_eq]
    exact ⟨member, rfl⟩
  have erased : (sharing time items checkpoint).erase checkpoint =
      (sharing time items checkpoint).filter fun item => item ≠ checkpoint := by
    have shared : (sharing time items checkpoint).Nodup := nodup.filter _
    rw [shared.erase_eq_filter]
    apply List.filter_congr
    intro item _
    rw [Bool.eq_iff_iff]
    simp
  rw [← erased, List.length_erase_of_mem inside, Nat.sub_add_cancel (List.length_pos_of_mem inside)]

theorem pageSince_eq (wide : 2 ≤ window) (sorted : items.Pairwise fun a b => time a ≤ time b) (nodup : items.Nodup)
    (member : checkpoint ∈ items) (fits : (sharing time items checkpoint).length ≤ min limit (window - 1)) :
    pageSince time items window limit checkpoint =
      ((sharing time items checkpoint).filter fun item => item ≠ checkpoint) ++
        (items.filter fun item => time checkpoint < time item).take
          (min limit (window - 1) + 1 - (sharing time items checkpoint).length) := by
  have one := @length_sharing _ _ _ _ time items checkpoint nodup member
  have later : ∀ count, ((items.filter fun item => time checkpoint < time item).take count).filter
      (fun item => item ≠ checkpoint) = (items.filter fun item => time checkpoint < time item).take count := by
    intro count
    apply List.filter_eq_self.mpr
    intro item inside
    have after := (List.mem_filter.mp (List.mem_of_mem_take inside)).2
    rw [decide_eq_true_eq] at after ⊢
    rintro rfl
    exact lt_irrefl _ after
  have whole : (sharing time items checkpoint).take window = sharing time items checkpoint :=
    List.take_of_length_le (by omega)
  have others : ((sharing time items checkpoint).filter fun item => item ≠ checkpoint).take limit =
      (sharing time items checkpoint).filter fun item => item ≠ checkpoint := List.take_of_length_le (by omega)
  unfold pageSince
  rw [since_eq sorted, List.take_append, whole, List.filter_append, later, List.take_append, others, List.take_take]
  congr 2
  omega

theorem Paced.page (paced : Paced time items window limit checkpoint) (wide : 2 ≤ window)
    (sorted : items.Pairwise fun a b => time a ≤ time b) (nodup : items.Nodup) (member : checkpoint ∈ items)
    (more : ∃ item ∈ since time items checkpoint, item ≠ checkpoint) :
    ∃ last, (pageSince time items window limit checkpoint).getLast? = some last ∧ time checkpoint < time last ∧
      ∀ item ∈ since time items checkpoint, item ≠ checkpoint → time item < time last →
        item ∈ pageSince time items window limit checkpoint := by
  unfold Paced at paced
  rw [if_neg (not_lt.mpr wide)] at paced
  have inside : checkpoint ∈ since time items checkpoint := mem_since.mpr ⟨member, le_rfl⟩
  have fits := paced.1 checkpoint inside
  have one := @length_sharing _ _ _ _ time items checkpoint nodup member
  rw [pageSince_eq wide sorted nodup member fits]
  have laterSorted : (items.filter fun item => time checkpoint < time item).Pairwise fun a b => time a ≤ time b :=
    sorted.filter _
  have nonempty : (items.filter fun item => time checkpoint < time item) ≠ [] := by
    intro empty
    rw [List.filter_eq_nil_iff] at empty
    simp only [decide_eq_true_eq, not_lt] at empty
    rcases more with ⟨item, isSince, different⟩
    have ⟨stored, late⟩ := mem_since.mp isSince
    apply different
    apply paced.2 checkpoint inside empty
    unfold sharing
    rw [List.mem_filter, decide_eq_true_eq]
    exact ⟨stored, le_antisymm (empty item stored) late⟩
  have mem : ∀ item ∈ items.filter (fun item => time checkpoint < time item), time checkpoint < time item := by
    intro item listed
    exact of_decide_eq_true (List.mem_filter.mp listed).2
  generalize laterEq : items.filter (fun item => time checkpoint < time item) = later at nonempty laterSorted mem
  generalize counted : min limit (window - 1) + 1 - (sharing time items checkpoint).length = count
  have taken : later.take count ≠ [] := by
    rw [ne_eq, List.take_eq_nil_iff]
    push Not
    exact ⟨by omega, nonempty⟩
  refine ⟨(later.take count).getLast taken, ?_, ?_, ?_⟩
  · rw [List.getLast?_append_of_ne_nil _ taken, List.getLast?_eq_some_getLast taken]
  · exact mem _ (List.mem_of_mem_take (List.getLast_mem taken))
  · intro item isSince different early
    rw [since_eq sorted, laterEq] at isSince
    rw [List.mem_append]
    rcases List.mem_append.mp isSince with shared | listed
    · exact .inl (List.mem_filter.mpr ⟨shared, decide_eq_true different⟩)
    · rw [← List.take_append_drop count later] at listed laterSorted
      rcases List.mem_append.mp listed with onPage | behind
      · exact .inr onPage
      · have after := (List.pairwise_append.mp laterSorted).2.2 _ (List.getLast_mem taken) item behind
        exact absurd after (not_le.mpr early)

omit [DecidableEq α] in
theorem Paced.later {last : α} (paced : Paced time items window limit checkpoint) (wide : 2 ≤ window)
    (after : time checkpoint < time last) : Paced time items window limit last := by
  unfold Paced at paced ⊢
  rw [if_neg (not_lt.mpr wide)] at paced ⊢
  have inside : ∀ item ∈ since time items last, item ∈ since time items checkpoint := by
    intro item listed
    rw [mem_since] at listed ⊢
    exact ⟨listed.1, after.le.trans listed.2⟩
  exact ⟨fun item listed => paced.1 item (inside item listed), fun item listed => paced.2 item (inside item listed)⟩

/-- Paced pages reach everything. The induction is on how much is not earlier than the checkpoint. -/
theorem visits_of_paced (wide : 2 ≤ window) (sorted : items.Pairwise fun a b => time a ≤ time b) (nodup : items.Nodup)
    (size : Nat) (checkpoint : α) (bound : (since time items checkpoint).length ≤ size) (member : checkpoint ∈ items)
    (paced : Paced time items window limit checkpoint) : Visits time items window limit checkpoint := by
  have inside : ∀ checkpoint ∈ items, checkpoint ∈ since time items checkpoint :=
    fun _ member => mem_since.mpr ⟨member, le_rfl⟩
  induction size generalizing checkpoint with
  | zero =>
    have positive := List.length_pos_of_mem (inside checkpoint member)
    omega
  | succ size ih =>
    by_cases more : ∃ item ∈ since time items checkpoint, item ≠ checkpoint
    · rcases paced.page wide sorted nodup member more with ⟨last, found, after, complete⟩
      have onPage := List.mem_of_getLast? found
      have stored := (mem_since.mp (mem_pageSince onPage).1).1
      have shorter : (since time items last).length < (since time items checkpoint).length := by
        have part : since time items last = (since time items checkpoint).filter fun item => time last ≤ time item := by
          unfold since
          rw [List.filter_filter]
          apply List.filter_congr
          intro item _
          rw [← Bool.decide_and, decide_eq_decide]
          exact (and_iff_left_of_imp fun late => after.le.trans late).symm
        rw [part, List.length_filter_lt_length_iff_exists]
        refine ⟨checkpoint, inside checkpoint member, ?_⟩
        rw [decide_eq_true_eq, not_le]
        exact after
      rcases ih last (by omega) stored (paced.later wide after) with ⟨steps, visited, ends, all⟩
      refine ⟨steps + 1, pageSince time items window limit checkpoint ++ visited, ?_, ?_⟩
      · unfold walk
        rw [found]
        dsimp only
        rw [ends, Option.map_some]
      · intro item isSince different
        rw [List.mem_append]
        by_cases early : time item < time last
        · exact .inl (complete item isSince different early)
        · by_cases same : item = last
          · rw [same]
            exact .inl onPage
          · exact .inr (all item (mem_since.mpr ⟨(mem_since.mp isSince).1, not_lt.mp early⟩) same)
    · have only : ∀ item ∈ since time items checkpoint, item = checkpoint := by
        intro item listed
        by_contra different
        exact more ⟨item, listed, different⟩
      have empty : pageSince time items window limit checkpoint = [] := by
        apply List.eq_nil_iff_forall_not_mem.mpr
        intro item onPage
        have ⟨listed, different⟩ := mem_pageSince onPage
        exact different (only item listed)
      refine ⟨1, [], ?_, fun item listed different => absurd (only item listed) different⟩
      unfold walk
      rw [empty]
      rfl

theorem mem_take_of_filter {list : List α} (nodup : list.Nodup) {without item : α} {count : Nat}
    (member : item ∈ (list.filter fun other => other ≠ without).take count) : item ∈ list.take (count + 1) := by
  induction list generalizing count with
  | nil => simp at member
  | cons first rest ih =>
    rw [List.nodup_cons] at nodup
    rw [List.take_succ_cons, List.mem_cons]
    by_cases same : first = without
    · have kept : rest.filter (fun other => other ≠ without) = rest := by
        apply List.filter_eq_self.mpr
        intro other listed
        rw [decide_eq_true_eq]
        rintro rfl
        exact nodup.1 (same ▸ listed)
      rw [List.filter_cons_of_neg (by simpa using same), kept] at member
      exact .inr member
    · rw [List.filter_cons_of_pos (by simpa using same)] at member
      cases count with
      | zero => cases member
      | succ count =>
        rw [List.take_succ_cons, List.mem_cons] at member
        exact member.imp_right (ih nodup.2)

theorem pageSince_last (wide : 2 ≤ window) (positive : 0 < limit) (nodup : items.Nodup)
    (early : time checkpoint ≤ time item) (shared : 2 ≤ (sharing time items item).length) :
    ∃ last, (pageSince time items window limit checkpoint).getLast? = some last := by
  have listNodup : (since time items checkpoint).Nodup := nodup.filter _
  have two : 2 ≤ (since time items checkpoint).length := by
    refine shared.trans (List.subperm_of_subset (nodup.filter _) ?_).length_le
    intro other isShared
    have ⟨stored, same⟩ := List.mem_filter.mp isShared
    rw [decide_eq_true_eq] at same
    exact mem_since.mpr ⟨stored, early.trans same.ge⟩
  have nonempty : pageSince time items window limit checkpoint ≠ [] := by
    unfold pageSince
    generalize since time items checkpoint = list at listNodup two
    match list with
    | head :: next :: rest =>
      obtain ⟨window, rfl⟩ : ∃ more, window = more + 2 := ⟨window - 2, by omega⟩
      rw [List.take_succ_cons, List.take_succ_cons, ne_eq, List.take_eq_nil_iff, List.filter_eq_nil_iff]
      push Not
      refine ⟨by omega, ?_⟩
      by_cases same : head = checkpoint
      · refine ⟨next, by simp, ?_⟩
        rw [decide_eq_true_eq]
        rintro rfl
        exact (List.nodup_cons.mp listNodup).1 (same ▸ List.mem_cons_self)
      · exact ⟨head, by simp, decide_eq_true same⟩
  exact ⟨_, List.getLast?_eq_some_getLast nonempty⟩

theorem pageSince_within (wide : 2 ≤ window) (sorted : items.Pairwise fun a b => time a ≤ time b) (nodup : items.Nodup)
    (early : time checkpoint ≤ time item)
    (many : min limit (window - 1) < (sharing time items item).length) {listed : α}
    (onPage : listed ∈ pageSince time items window limit checkpoint) : time listed ≤ time item := by
  have listSorted : (since time items checkpoint).Pairwise fun a b => time a ≤ time b := sorted.filter _
  have closed : ∀ a ∈ since time items checkpoint, ∀ b ∈ since time items checkpoint, time a ≤ time b →
      decide (time b ≤ time item) = true → decide (time a ≤ time item) = true := by
    intro a _ b _ before within
    rw [decide_eq_true_eq] at within ⊢
    exact before.trans within
  have parts := HashMap.filter_append_filter_not listSorted closed
  have enough : (sharing time items item).length ≤
      ((since time items checkpoint).filter fun other => time other ≤ time item).length := by
    unfold sharing since
    rw [List.filter_filter]
    refine (List.monotone_filter_right items ?_).length_le
    intro other same
    rw [decide_eq_true_eq] at same
    rw [Bool.and_eq_true, decide_eq_true_eq, decide_eq_true_eq, same]
    exact ⟨le_rfl, early⟩
  have taken : listed ∈ (since time items checkpoint).take (min limit (window - 1) + 1) := by
    have within := mem_take_of_filter ((nodup.filter _).sublist (List.take_sublist window _)) onPage
    rw [List.take_take] at within
    have count : min (limit + 1) window = min limit (window - 1) + 1 := by omega
    rw [← count]
    exact within
  rw [← parts, List.take_append_of_le_length (by omega)] at taken
  exact of_decide_eq_true (List.mem_filter.mp (List.mem_of_mem_take taken)).2

theorem paced_of_visits (wide : 2 ≤ window) (positive : 0 < limit) (sorted : items.Pairwise fun a b => time a ≤ time b)
    (nodup : items.Nodup) (visits : Visits time items window limit checkpoint) :
    Paced time items window limit checkpoint := by
  unfold Paced
  rw [if_neg (not_lt.mpr wide)]
  constructor
  · intro item listed
    by_contra many
    rw [not_le] at many
    refine @not_visits _ _ _ _ time items window limit checkpoint (fun other => time other ≤ time item) ?_
      (mem_since.mp listed).2 visits
    intro other early
    rcases pageSince_last wide positive nodup early (by omega) with ⟨last, found⟩
    exact ⟨last, found, pageSince_within wide sorted nodup early many (List.mem_of_getLast? found)⟩
  · intro item listed latest other shared
    by_contra different
    have two : 2 ≤ (sharing time items item).length := by
      have pair : [item, other].Nodup := by simp [Ne.symm different]
      have self : item ∈ sharing time items item := List.mem_filter.mpr ⟨(mem_since.mp listed).1, decide_eq_true rfl⟩
      exact (List.subperm_of_subset pair (by simp [self, shared])).length_le
    refine @not_visits _ _ _ _ time items window limit checkpoint (fun other => time other ≤ time item) ?_
      (mem_since.mp listed).2 visits
    intro other early
    rcases pageSince_last wide positive nodup early two with ⟨last, found⟩
    exact ⟨last, found, latest last (mem_since.mp (mem_pageSince (List.mem_of_getLast? found)).1).1⟩

/-- The pages end and reach everything if and only if they are paced. -/
theorem visits_iff (positive : 0 < limit) (sorted : items.Pairwise fun a b => time a ≤ time b) (nodup : items.Nodup)
    (member : checkpoint ∈ items) :
    Visits time items window limit checkpoint ↔ Paced time items window limit checkpoint := by
  by_cases short : window < 2
  · unfold Paced
    rw [if_pos short]
    exact visits_short short positive sorted nodup member
  · exact ⟨paced_of_visits (not_lt.mp short) positive sorted nodup,
      visits_of_paced (not_lt.mp short) sorted nodup _ checkpoint le_rfl member⟩

end

end Paging
