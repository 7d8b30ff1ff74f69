import AdicCore.Library.Fallible
import AdicCore.Mrw.Selector

open AdicModel AdicModel.Crypto AdicModel.Mrw HashMap

namespace AdicProof.Mrw

def identity (tip : ParentCandidate) : MessageId × List QpDigits := (tip.messageId, tip.features)

def From (tips : List ParentCandidate) (candidate : ParentCandidate) : Prop :=
  ∃ tip ∈ tips, identity candidate = identity tip

variable {trace trace' : MrwTrace}

section

variable {params : SelectionParams} {chance : Chance} {features : AdicFeatures}
  {tips sources candidates : List ParentCandidate}
  {tip candidate : ParentCandidate} {round horizon axis place : Nat}

theorem drawTip_identity {msgAxis : AxisPhi} {radius : UInt32}
    (drawn : drawTip chance round axis msgAxis radius tip place = .ok (some candidate)) :
    identity candidate = identity tip := by
  unfold drawTip at drawn
  split at drawn
  · cases drawn
  · obtain ⟨proximity, _, drawn⟩ := Fallible.bind_ok drawn
    dsimp only at drawn
    split at drawn
    · cases drawn
      rfl
    · cases drawn

theorem axisCandidates_from (ran : axisCandidates params chance features round horizon tips axis = .ok candidates) :
    ∀ candidate ∈ candidates, From tips candidate := by
  unfold axisCandidates at ran
  split at ran
  · cases ran
  · split at ran
    · cases ran
    · obtain ⟨drawn, loop, ran⟩ := Fallible.bind_ok ran
      cases ran
      intro candidate member
      obtain ⟨result, listed, same⟩ := List.mem_filterMap.mp member
      obtain ⟨⟨tip, place⟩, placed, drew⟩ := Fallible.mapM_ok loop listed
      rw [show result = some candidate from same] at drew
      have inside := List.mem_of_mem_take (List.fst_mem_of_mem_zipIdx placed)
      exact ⟨tip, inside, drawTip_identity drew⟩

theorem collectAxes_from {axes : List Nat} {collected after : Table UInt32 (List ParentCandidate)}
    (each : ∀ axis candidates, axisCandidates params chance features round horizon tips axis = .ok candidates →
      ∀ candidate ∈ candidates, From sources candidate)
    (before : ∀ axis candidates, collected.lookup axis = some candidates →
      ∀ candidate ∈ candidates, From sources candidate)
    (ran : collectAxes params chance features round horizon tips axes collected trace = .ok (after, trace')) :
    ∀ axis candidates, after.lookup axis = some candidates → ∀ candidate ∈ candidates, From sources candidate := by
  induction axes generalizing collected trace with
  | nil =>
    cases ran
    exact before
  | cons axis axes ih =>
    obtain ⟨candidates, drawn, ran⟩ := Fallible.bind_ok ran
    refine ih ?_ ran
    intro other listed found
    rw [lookup_insert_eq] at found
    split at found
    · cases found
      exact each axis _ drawn
    · exact before other listed found

def Keyed (tips : List ParentCandidate) (merged : Table MessageId ParentCandidate) : Prop :=
  ∀ id candidate, merged.lookup id = some candidate → candidate.messageId = id ∧ From tips candidate

variable {merged : Table MessageId ParentCandidate}

theorem keyed_mergeCandidate {axis : UInt32} (keyed : Keyed tips merged)
    (own : From tips candidate) : Keyed tips (mergeCandidate axis merged candidate) := by
  unfold mergeCandidate
  intro id other found
  split at found
  · next stored present =>
    rw [lookup_insert_eq] at found
    split at found
    · next same =>
      cases found
      obtain ⟨named, tip, listed, same'⟩ := keyed _ stored present
      exact ⟨named.trans same.symm, tip, listed, same'⟩
    · exact keyed id other found
  · rw [lookup_insert_eq] at found
    split at found
    · next same =>
      cases found
      obtain ⟨tip, listed, same'⟩ := own
      exact ⟨same.symm, tip, listed, same'⟩
    · exact keyed id other found

theorem keyed_foldl {axis : UInt32} (own : ∀ candidate ∈ candidates, From tips candidate)
    (keyed : Keyed tips merged) :
    Keyed tips (candidates.foldl (mergeCandidate axis) merged) := by
  induction candidates generalizing merged with
  | nil => exact keyed
  | cons candidate candidates ih =>
    exact ih (fun other member => own other (List.mem_cons_of_mem candidate member))
      (keyed_mergeCandidate keyed (own candidate List.mem_cons_self))

structure Candidates (tips candidates : List ParentCandidate) : Prop where
  distinct : (candidates.map ParentCandidate.messageId).Nodup
  own : ∀ candidate ∈ candidates, From tips candidate

theorem candidates_of_keyed (keyed : Keyed tips merged) :
    Candidates tips (((chance.order.iterate (pairs merged)).map Prod.snd).insertionSort heavier) := by
  have perm : (((chance.order.iterate (pairs merged)).map Prod.snd).insertionSort heavier).Perm
      ((pairs merged).map Prod.snd) :=
    (List.perm_insertionSort heavier _).trans ((chance.order.perm (pairs merged)).map Prod.snd)
  have keys : ((pairs merged).map Prod.snd).map ParentCandidate.messageId = (pairs merged).map Prod.fst := by
    rw [List.map_map]
    refine List.map_congr_left fun entry member => ?_
    exact (keyed entry.1 entry.2 (mem_pairs.mp member)).1
  constructor
  · rw [(perm.map ParentCandidate.messageId).nodup_iff, keys]
    exact pairs_keys_nodup merged
  · intro candidate member
    obtain ⟨⟨id, _⟩, listed, rfl⟩ := List.mem_map.mp (perm.mem_iff.mp member)
    exact (keyed id _ (mem_pairs.mp listed)).2

theorem runMrwPerAxis_sources
    (each : ∀ axis candidates, axisCandidates params chance features round horizon tips axis = .ok candidates →
      ∀ candidate ∈ candidates, From sources candidate)
    (ran : runMrwPerAxis params chance features round horizon tips trace = .ok (candidates, trace')) :
    Candidates sources candidates := by
  unfold runMrwPerAxis at ran
  obtain ⟨⟨collected, _⟩, loop, ran⟩ := Fallible.bind_ok ran
  cases ran
  have own := collectAxes_from each (by
    intro axis candidates found
    cases found) loop
  refine candidates_of_keyed ?_
  have axes : ∀ axis ∈ chance.order.iterate (pairs collected), ∀ candidate ∈ axis.2, From sources candidate := by
    rintro ⟨axis, listed⟩ member
    exact own axis listed (mem_pairs.mp (Order.mem_iterate.mp member))
  generalize chance.order.iterate (pairs collected) = entries at axes
  have start : Keyed sources ∅ := by
    intro id candidate found
    cases found
  generalize (∅ : Table MessageId ParentCandidate) = merged at start
  induction entries generalizing merged with
  | nil => exact start
  | cons entry entries ih =>
    exact ih (fun axis member => axes axis (List.mem_cons_of_mem entry member))
      _ (keyed_foldl (axes entry List.mem_cons_self) start)

theorem runMrwPerAxis_candidates
    (ran : runMrwPerAxis params chance features round horizon tips trace = .ok (candidates, trace')) :
    Candidates tips candidates :=
  runMrwPerAxis_sources (fun _ _ drawn => axisCandidates_from drawn) ran

theorem pickParents_perm (remaining : Nat) (selected available : List ParentCandidate) :
    ∃ rest, (pickParents params remaining selected available ++ rest).Perm (selected ++ available) ∧
      (pickParents params remaining selected available).length ≤ selected.length + remaining := by
  induction remaining generalizing selected available with
  | zero => exact ⟨available, .refl _, le_rfl⟩
  | succ remaining ih =>
    unfold pickParents
    split
    · exact ⟨available, .refl _, Nat.le_add_right _ _⟩
    · next place _ =>
      split
      · exact ⟨available, .refl _, Nat.le_add_right _ _⟩
      · next best found =>
        obtain ⟨inside, rfl⟩ := List.getElem?_eq_some_iff.mp found
        obtain ⟨rest, perm, length⟩ := ih (selected ++ [available[place]]) (available.eraseIdx place)
        refine ⟨rest, perm.trans ?_, ?_⟩
        · rw [List.append_assoc]
          exact (List.getElem_cons_eraseIdx_perm inside).append_left selected
        · rw [List.length_append, List.length_singleton] at length
          omega

structure Picked (params : SelectionParams) (tips parents : List ParentCandidate) : Prop where
  length : parents.length = requiredParents params
  own : ∀ parent ∈ parents, From tips parent
  distinct : requiredParents params ≤ tips.length → (parents.map ParentCandidate.messageId).Nodup

theorem picked_sample {parents : List ParentCandidate} (drawn : Candidates tips candidates)
    (sampled : sampleDiverseParents params candidates = .ok parents) : Picked params tips parents := by
  unfold sampleDiverseParents at sampled
  dsimp only at sampled
  split at sampled
  · cases sampled
  · split at sampled
    · cases sampled
    · next enough =>
      cases sampled
      obtain ⟨rest, perm, atMost⟩ := @pickParents_perm params (requiredParents params) [] candidates
      rw [List.nil_append] at perm
      rw [List.length_nil, Nat.zero_add] at atMost
      refine ⟨le_antisymm atMost (not_lt.mp enough), fun parent member => ?_, fun _ => ?_⟩
      · exact drawn.own parent (perm.mem_iff.mp (List.mem_append_left rest member))
      · have nodup := (perm.map ParentCandidate.messageId).nodup_iff.mpr drawn.distinct
        rw [List.map_append] at nodup
        exact nodup.of_append_left

end

section

variable {params : SelectionParams} {chance : Chance} {features : AdicFeatures} {tips parents : List ParentCandidate}
  {required : Nat}

theorem cycle_eq_map (nonempty : tips ≠ []) : ∃ pick : Nat → ParentCandidate,
    cycle required tips = (List.range required).map pick ∧ ∀ place, tips[place % tips.length]? = some (pick place) := by
  have positive := List.length_pos_iff.mpr nonempty
  refine ⟨fun place => tips.get ⟨place % tips.length, Nat.mod_lt place positive⟩, ?_, fun place => ?_⟩
  · unfold cycle
    rw [← List.filterMap_eq_map]
    refine List.filterMap_congr fun place _ => ?_
    exact List.getElem?_eq_getElem (Nat.mod_lt place positive)
  · exact List.getElem?_eq_getElem (Nat.mod_lt place positive)

theorem length_cycle (nonempty : tips ≠ []) : (cycle required tips).length = required := by
  obtain ⟨pick, same, _⟩ := @cycle_eq_map tips required nonempty
  rw [same, List.length_map, List.length_range]

theorem mem_of_mem_cycle {parent : ParentCandidate} (member : parent ∈ cycle required tips) : parent ∈ tips := by
  obtain ⟨place, _, found⟩ := List.mem_filterMap.mp member
  exact List.mem_of_getElem? found

theorem mem_cycle (short : tips.length ≤ required) {tip : ParentCandidate} (member : tip ∈ tips) :
    tip ∈ cycle required tips := by
  obtain ⟨place, inside, rfl⟩ := List.mem_iff_getElem.mp member
  refine List.mem_filterMap.mpr ⟨place, List.mem_range.mpr (lt_of_lt_of_le inside short), ?_⟩
  rw [Nat.mod_eq_of_lt inside]
  exact List.getElem?_eq_getElem inside

theorem cycle_eq_take (enough : required ≤ tips.length) : cycle required tips = tips.take required := by
  induction required with
  | zero => rfl
  | succ required ih =>
    have inside : required < tips.length := enough
    have step : cycle (required + 1) tips = cycle required tips ++ [tips[required]] := by
      unfold cycle
      rw [List.range_succ, List.filterMap_append]
      simp [Nat.mod_eq_of_lt inside, List.getElem?_eq_getElem inside]
    rw [step, ih (Nat.le_of_lt inside), List.take_append_getElem inside]

theorem picked_of_perm {weighted order : List ParentCandidate} (nonempty : tips ≠ [])
    (distinct : (tips.map ParentCandidate.messageId).Nodup) (same : weighted.map identity = tips.map identity)
    (perm : order.Perm weighted) : Picked params tips (cycle (requiredParents params) order) := by
  have ids : weighted.map ParentCandidate.messageId = tips.map ParentCandidate.messageId := by
    have firsts := congrArg (List.map Prod.fst) same
    rw [List.map_map, List.map_map] at firsts
    exact firsts
  have lengths : order.length = tips.length := by
    rw [perm.length_eq, ← List.length_map (f := identity), same, List.length_map]
  have orderNonempty : order ≠ [] := by
    rintro rfl
    exact nonempty (List.length_eq_zero_iff.mp lengths.symm)
  refine ⟨length_cycle orderNonempty, fun parent member => ?_, fun enough => ?_⟩
  · have listed := List.mem_map_of_mem (f := identity) (perm.mem_iff.mp (mem_of_mem_cycle member))
    rw [same] at listed
    obtain ⟨tip, own, equal⟩ := List.mem_map.mp listed
    exact ⟨tip, own, equal.symm⟩
  · rw [cycle_eq_take (lengths ▸ enough)]
    have nodup : (order.map ParentCandidate.messageId).Nodup := by
      rw [(perm.map ParentCandidate.messageId).nodup_iff, ids]
      exact distinct
    exact nodup.sublist ((List.take_sublist _ _).map _)

theorem selectBestAvailable_cases (best : selectBestAvailable params chance features tips = .ok parents) :
    ∃ weighted, tips.mapM (weighTip params chance features) = .ok weighted ∧
      parents = cycle (requiredParents params) (weighted.insertionSort heavier) := by
  unfold selectBestAvailable at best
  split at best
  · cases best
  · obtain ⟨weighted, loop, best⟩ := Fallible.bind_ok best
    cases best
    exact ⟨weighted, loop, rfl⟩

theorem identity_weighted {weighted : List ParentCandidate}
    (loop : tips.mapM (weighTip params chance features) = .ok weighted) :
    weighted.map identity = tips.map identity := by
  induction tips generalizing weighted with
  | nil =>
    cases loop
    rfl
  | cons tip tips ih =>
    rw [List.mapM_cons] at loop
    obtain ⟨first, here, loop⟩ := Fallible.bind_ok loop
    obtain ⟨rest, later, loop⟩ := Fallible.bind_ok loop
    cases loop
    obtain ⟨weight, _, here⟩ := Fallible.bind_ok here
    cases here
    rw [List.map_cons, List.map_cons, ih later]
    rfl

theorem picked_searchRounds {attempts round horizon : Nat}
    (ran : searchRounds params chance features tips attempts round horizon trace = .ok (some parents, trace')) :
    Picked params tips parents := by
  induction attempts generalizing round horizon trace with
  | zero => cases ran
  | succ attempts ih =>
    obtain ⟨⟨candidates, traced⟩, drawn, ran⟩ := Fallible.bind_ok ran
    dsimp only at ran
    split at ran
    · next sampled =>
      cases ran
      exact picked_sample (runMrwPerAxis_candidates drawn) sampled
    · split at ran
      · cases ran
      · exact ih ran

theorem selectParents_picked {ids : List MessageId} {trace : MrwTrace}
    (distinct : (tips.map ParentCandidate.messageId).Nodup)
    (returned : selectParents params chance features tips = .ok (ids, trace)) :
    ∃ parents, ids = parents.map ParentCandidate.messageId ∧ Picked params tips parents ∧
      (tips.length ≤ requiredParents params → ∀ tip ∈ tips, tip ∈ parents) := by
  unfold selectParents at returned
  split at returned
  · next few =>
    obtain ⟨parents, boot, returned⟩ := Fallible.bind_ok returned
    cases returned
    unfold selectBootstrapParents at boot
    split at boot
    · cases boot
    · next nonempty =>
      cases boot
      exact ⟨_, rfl, picked_of_perm nonempty distinct rfl (.refl _), fun _ tip member => mem_cycle few member⟩
  · next many =>
    obtain ⟨⟨found, traced⟩, searched, returned⟩ := Fallible.bind_ok returned
    cases found with
    | some parents =>
      cases returned
      exact ⟨parents, rfl, picked_searchRounds searched, fun few => absurd few many⟩
    | none =>
      obtain ⟨parents, best, returned⟩ := Fallible.bind_ok returned
      cases returned
      have nonempty : tips ≠ [] := by
        rintro rfl
        exact many (Nat.zero_le _)
      obtain ⟨weighted, loop, rfl⟩ := selectBestAvailable_cases best
      exact ⟨_, rfl, picked_of_perm nonempty distinct (identity_weighted loop) (List.perm_insertionSort heavier _),
        fun few => absurd few many⟩

end

end AdicProof.Mrw
