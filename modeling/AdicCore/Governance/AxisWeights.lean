import AdicCore.Governance.AxisCatalog
import AdicCore.Library.Runs

open AdicModel AdicModel.Governance AdicModel.Governance.AxisCatalogManager

namespace AdicProof.Governance

structure RampSchedule (schedule : List (UInt64 × ℚ)) (rampEpochs : UInt64) : Prop where
  increasing : schedule.Pairwise fun first second => first.1 < second.1
  nondecreasing : schedule.Pairwise fun first second => first.2 ≤ second.2
  first : schedule.head? = some (0, 0)
  last : schedule.getLast? = some (rampEpochs, 1)

def lineThrough (first second : UInt64 × ℚ) (offset : UInt64) : ℚ :=
  first.2 + (second.2 - first.2) * ((offset - first.1).toNat / (second.1 - first.1).toNat)

structure PiecewiseLinear (points : List (UInt64 × ℚ)) (rampEpochs : UInt64) (weight : UInt64 → ℚ) : Prop where
  covered : ∀ offset ≤ rampEpochs, ∃ first second, [first, second] <:+: points ∧ first.1 ≤ offset ∧ offset ≤ second.1
  linear : ∀ first second, [first, second] <:+: points → ∀ offset, first.1 ≤ offset → offset ≤ second.1 →
    weight offset = lineThrough first second offset
  after : ∀ offset, rampEpochs ≤ offset → weight offset = 1

section

variable {schedule before rest : List (UInt64 × ℚ)} {rampEpochs offset : UInt64}
  {first second point lower upper : UInt64 × ℚ}

theorem findPoints_before (earlier : ∀ point ∈ before, point.1 < offset) (lower : UInt64 × ℚ) :
    findPoints offset (before ++ rest) lower upper = findPoints offset rest (before.getLast?.getD lower) upper := by
  induction before generalizing lower with
  | nil => rfl
  | cons point before ih =>
    have early := earlier point List.mem_cons_self
    have step : findPoints offset (point :: (before ++ rest)) lower upper =
        findPoints offset (before ++ rest) point upper := by
      rw [findPoints]
      have reached : point.1 ≤ offset := UInt64.le_of_lt early
      have notYet : ¬ offset ≤ point.1 := UInt64.not_le.mpr early
      simp [reached, notYet]
    rw [List.cons_append, step, ih fun other member => earlier other (List.mem_cons_of_mem _ member),
      List.getLast?_cons]
    rfl

section

variable (ramp : RampSchedule schedule rampEpochs)

include ramp

theorem interpolateWeight_inside (inside : offset < rampEpochs) {points : (UInt64 × ℚ) × (UInt64 × ℚ)}
    (found : findPoints offset schedule (0, 0) (rampEpochs, 1) = points) : interpolateWeight schedule offset =
      if points.2.1 = points.1.1 then points.1.2 else lineThrough points.1 points.2 offset := by
  unfold interpolateWeight
  have notBefore : ¬ offset < 0 := UInt64.not_lt.mpr (UInt64.le_iff_toNat_le.mpr (Nat.zero_le _))
  have notAfter : ¬ offset ≥ rampEpochs := UInt64.not_le.mpr inside
  rw [ramp.first, ramp.last]
  simp only [found, notBefore, notAfter, if_false]
  rfl

theorem RampSchedule.parts (split : schedule = before ++ point :: rest) :
    (∀ other ∈ before, other.1 < point.1) ∧ (∀ other ∈ rest, point.1 < other.1) := by
  have increasing := ramp.increasing
  rw [split, List.pairwise_append, List.pairwise_cons] at increasing
  exact ⟨fun other member => increasing.2.2 other member point List.mem_cons_self, increasing.2.1.1⟩

theorem RampSchedule.le_last (split : schedule = before ++ point :: rest) :
    (rest = [] ∧ point = (rampEpochs, 1)) ∨ point.1 < rampEpochs := by
  have last := ramp.last
  rw [split, List.getLast?_append, List.getLast?_cons] at last
  cases rest with
  | nil => exact .inl ⟨rfl, Option.some.inj last⟩
  | cons next rest =>
    refine .inr ?_
    have member : (rampEpochs, (1 : ℚ)) ∈ next :: rest := by
      refine List.mem_of_getLast? ?_
      rw [List.getLast?_cons] at last ⊢
      simpa using last
    exact (ramp.parts split).2 _ member

theorem interpolateWeight_at (split : schedule = before ++ point :: rest) :
    interpolateWeight schedule point.1 = point.2 := by
  rcases ramp.le_last split with ⟨-, rfl⟩ | inside
  · unfold interpolateWeight
    have notBefore : ¬ rampEpochs < 0 := UInt64.not_lt.mpr (UInt64.le_iff_toNat_le.mpr (Nat.zero_le _))
    rw [ramp.first, ramp.last]
    simp [notBefore]
  · have found : findPoints point.1 schedule (0, 0) (rampEpochs, 1) = (point, point) := by
      rw [split, findPoints_before (ramp.parts split).1, findPoints]
      simp [inside]
    rw [interpolateWeight_inside ramp inside found, if_pos rfl]

theorem interpolateWeight_between (split : schedule = before ++ first :: second :: rest) (above : first.1 < offset)
    (below : offset < second.1) : interpolateWeight schedule offset = lineThrough first second offset := by
  have split' : schedule = (before ++ [first]) ++ second :: rest := by
    rw [split, List.append_assoc, List.singleton_append]
  have earlier : ∀ point ∈ before ++ [first], point.1 < offset := by
    intro point member
    rcases List.mem_append.mp member with member | member
    · exact UInt64.lt_trans ((ramp.parts split).1 point member) above
    · rw [List.mem_singleton.mp member]
      exact above
  have reached : offset ≤ second.1 := UInt64.le_of_lt below
  have notYet : ¬ second.1 ≤ offset := UInt64.not_le.mpr below
  have start : (before ++ [first]).getLast?.getD (0, 0) = first := by simp
  have found : findPoints offset schedule (0, 0) (rampEpochs, 1) = (first, second) := by
    rw [split', findPoints_before earlier, start, findPoints]
    rcases ramp.le_last split' with ⟨none, last⟩ | inside
    · rw [none, last, findPoints]
      rw [last] at reached notYet
      simp [notYet]
    · simp [reached, notYet, inside]
  have inside : offset < rampEpochs := by
    rcases ramp.le_last split' with ⟨-, last⟩ | inside
    · rw [last] at below
      exact below
    · exact UInt64.lt_trans below inside
  have apart : second.1 ≠ first.1 := fun same => UInt64.lt_irrefl _ (same ▸ UInt64.lt_trans above below)
  rw [interpolateWeight_inside ramp inside found, if_neg apart]

end

theorem exists_segment {points : List (UInt64 × ℚ)} {first last : UInt64 × ℚ} (head : points.head? = some first)
    (final : points.getLast? = some last) (ahead : first.1 < last.1) (after : first.1 ≤ offset)
    (before : offset ≤ last.1) :
    ∃ lower upper, [lower, upper] <:+: points ∧ lower.1 ≤ offset ∧ offset ≤ upper.1 := by
  induction points generalizing first with
  | nil => cases head
  | cons start points ih =>
    cases head
    cases points with
    | nil =>
      cases final
      exact absurd ahead (UInt64.lt_irrefl _)
    | cons second rest =>
      by_cases here : offset ≤ second.1
      · exact ⟨start, second, (List.prefix_append [start, second] rest).isInfix, after, here⟩
      · have later : second.1 < offset := UInt64.not_le.mp here
        have final' : (second :: rest).getLast? = some last := by
          rw [List.getLast?_cons_cons] at final
          exact final
        obtain ⟨lower, upper, adjacent, holds⟩ := ih rfl final' (UInt64.lt_of_lt_of_le later before)
          (UInt64.le_of_lt later)
        exact ⟨lower, upper, adjacent.trans (List.suffix_cons start _).isInfix, holds⟩

theorem RampSchedule.zero_lt (ramp : RampSchedule schedule rampEpochs) : (0 : UInt64) < rampEpochs := by
  obtain ⟨rest, split⟩ : ∃ rest, schedule = [] ++ ((0, 0) : UInt64 × ℚ) :: rest :=
    ⟨schedule.tail, (List.cons_head?_tail ramp.first).symm⟩
  rcases ramp.le_last split with ⟨-, same⟩ | inside
  · exact absurd (congrArg Prod.snd same) zero_ne_one
  · exact inside

theorem interpolateWeight_linear (ramp : RampSchedule schedule rampEpochs) :
    PiecewiseLinear schedule rampEpochs (interpolateWeight schedule) := by
  constructor
  · intro offset below
    exact exists_segment ramp.first ramp.last ramp.zero_lt
      (UInt64.le_iff_toNat_le.mpr (Nat.zero_le _)) below
  · intro first second adjacent offset above below
    obtain ⟨before, rest, split⟩ := adjacent
    have split' : schedule = before ++ first :: second :: rest := by
      rw [← split, List.append_assoc, List.cons_append, List.singleton_append]
    have split'' : schedule = (before ++ [first]) ++ second :: rest := by
      rw [split', List.append_assoc, List.singleton_append]
    have ahead : first.1 < second.1 := (ramp.parts split').2 second List.mem_cons_self
    have width : ((second.1 - first.1).toNat : ℚ) ≠ 0 := by
      rw [Nat.cast_ne_zero, UInt64.toNat_sub_of_le _ _ (UInt64.le_of_lt ahead)]
      have lt := UInt64.lt_iff_toNat_lt.mp ahead
      omega
    rcases UInt64.lt_or_eq_of_le above with above | same
    · rcases UInt64.lt_or_eq_of_le below with below | same'
      · exact interpolateWeight_between ramp split' above below
      · rw [same', interpolateWeight_at ramp split'', lineThrough, div_self width]
        ring
    · rw [← same, interpolateWeight_at ramp split', lineThrough, UInt64.sub_self]
      simp
  · intro offset after
    unfold interpolateWeight
    have notBefore : ¬ offset < 0 := UInt64.not_lt.mpr (UInt64.le_iff_toNat_le.mpr (Nat.zero_le _))
    rw [ramp.first, ramp.last]
    simp [notBefore, after]

end

def progress (plan : MigrationPlan) (start epoch : UInt64) : ℚ :=
  if epoch < start then 0
  else if start + plan.rampEpochs ≤ epoch then 1
  else if plan.weightSchedule.isEmpty then min ((epoch - start).toNat / plan.rampEpochs.toNat) 1
  else interpolateWeight plan.weightSchedule (epoch - start)

def weight (manager : AxisCatalogManager) (epoch : UInt64) (axisId : UInt8) : ℚ :=
  (manager.getAxisWeight axisId epoch).toOption.getD 0

def rampStart (entry : AxisEntry) (epoch : UInt64) : UInt64 :=
  if entry.status = .deprecating then entry.deprecatedEpoch.getD epoch else entry.addedEpoch

def SameProgress (entry : AxisEntry) (plan other : MigrationPlan) (epoch : UInt64) : Prop :=
  progress other (rampStart entry epoch) epoch = progress plan (rampStart entry epoch) epoch

def BeginsAtWeight (entry : AxisEntry) (plan : MigrationPlan) (epoch : UInt64) : Prop :=
  match entry.status with
  | .proposed => progress plan epoch epoch = 1
  | .ramping => ∀ old, entry.migrationPlan = some old →
      progress old (rampStart entry epoch) epoch + progress plan epoch epoch = 1
  | .active => progress plan epoch epoch = 0
  | .deprecating => ∀ old, entry.migrationPlan = some old →
      progress plan epoch epoch = progress old (rampStart entry epoch) epoch
  | .deprecated => True

def Gentle (manager : AxisCatalogManager) (call : CatalogOperation × UInt64) : Prop :=
  match call.1 with
  | .proposeAxisChange change =>
    ∀ entry, manager.axes.lookup change.axisId = some entry →
      (change.action = .modify →
        (validateUltrametric change.encoderSpecCid change.ultrametricProofCid).isValid = true →
          entry.status = .ramping ∨ entry.status = .deprecating →
            ∀ plan, entry.migrationPlan = some plan → SameProgress entry plan change.migrationPlan call.2) ∧
      (change.action = .deprecate → BeginsAtWeight entry change.migrationPlan call.2)
  | .activateAxis axisId =>
    ∀ entry plan, manager.axes.lookup axisId = some entry → entry.status = .proposed →
      entry.migrationPlan = some plan → progress plan call.2 call.2 = 0
  | .processEpoch _ =>
    ∀ axisId entry plan, manager.axes.lookup axisId = some entry →
      entry.status = .ramping ∨ entry.status = .deprecating → entry.migrationPlan = some plan →
        rampStart entry call.2 + plan.rampEpochs ≤ call.2 → rampStart entry call.2 ≤ call.2

def Planned (manager : AxisCatalogManager) : Prop :=
  ∀ axisId entry, manager.axes.lookup axisId = some entry →
    entry.status = .proposed ∨ entry.status = .ramping ∨ entry.status = .deprecating → entry.migrationPlan.isSome = true

section

variable {manager : AxisCatalogManager} {entry changed : AxisEntry} {plan : MigrationPlan} {epoch : UInt64}
  {axisId other : UInt8}

def weightOf (entry : AxisEntry) (epoch : UInt64) : ℚ := (entryWeight epoch entry).toOption.getD 0

theorem weight_none (absent : manager.axes.lookup axisId = none) : weight manager epoch axisId = 0 := by
  unfold weight getAxisWeight
  rw [absent]
  rfl

theorem weight_some (found : manager.axes.lookup axisId = some entry) :
    weight manager epoch axisId = weightOf entry epoch := by
  unfold weight getAxisWeight
  rw [found]
  rfl

theorem weightOf_proposed (status : entry.status = .proposed) : weightOf entry epoch = 0 := by
  unfold weightOf entryWeight
  rw [status]
  rfl

theorem weightOf_active (status : entry.status = .active) : weightOf entry epoch = 1 := by
  unfold weightOf entryWeight
  rw [status]
  rfl

theorem weightOf_deprecated (status : entry.status = .deprecated) : weightOf entry epoch = 0 := by
  unfold weightOf entryWeight
  rw [status]
  rfl

theorem weightOf_ramping (status : entry.status = .ramping) (planned : entry.migrationPlan = some plan) :
    weightOf entry epoch = progress plan (rampStart entry epoch) epoch := by
  unfold weightOf entryWeight progress rampStart
  simp only [status, planned, reduceCtorEq, if_false]
  split
  · rfl
  · split
    · rfl
    · cases plan.weightSchedule.isEmpty <;> rfl

theorem weightOf_deprecating (status : entry.status = .deprecating) (planned : entry.migrationPlan = some plan) :
    weightOf entry epoch = 1 - progress plan (rampStart entry epoch) epoch := by
  unfold weightOf entryWeight progress rampStart
  simp only [status, planned, if_true]
  split
  · exact (sub_zero 1).symm
  · split
    · exact (sub_self 1).symm
    · cases plan.weightSchedule.isEmpty with
      | true =>
        show max _ _ = 1 - min _ _
        rw [← max_sub_sub_left, sub_self]
      | false => rfl

theorem weight_insertEntry (other : UInt8) :
    weight (manager.insertEntry axisId changed) epoch other =
      if other = axisId then weightOf changed epoch else weight manager epoch other := by
  have lookup : (manager.insertEntry axisId changed).axes.lookup other =
      if other = axisId then some changed else manager.axes.lookup other := HashMap.lookup_insert_eq _ _ _ _
  by_cases same : other = axisId
  · rw [if_pos same] at lookup ⊢
    exact weight_some lookup
  · rw [if_neg same] at lookup ⊢
    unfold weight getAxisWeight
    rw [lookup]

theorem insertEntry_keeps_iff : (∀ other, weight (manager.insertEntry axisId changed) epoch other =
    weight manager epoch other) ↔ weightOf changed epoch = weight manager epoch axisId := by
  constructor
  · intro keeps
    have own := keeps axisId
    rw [weight_insertEntry, if_pos rfl] at own
    exact own
  · intro own other
    rw [weight_insertEntry]
    split
    · next same => rw [same, own]
    · rfl

theorem planned_insertEntry (planned : Planned manager)
    (own : changed.status = .proposed ∨ changed.status = .ramping ∨ changed.status = .deprecating →
      changed.migrationPlan.isSome = true) : Planned (manager.insertEntry axisId changed) := by
  intro other entry found
  have lookup : (manager.insertEntry axisId changed).axes.lookup other =
      if other = axisId then some changed else manager.axes.lookup other := HashMap.lookup_insert_eq _ _ _ _
  rw [lookup] at found
  split at found
  · cases found
    exact own
  · exact planned other entry found

variable {change : AxisCatalogChange}

theorem proposeAddAxis_spec {next : AxisCatalogManager}
    (proposed : manager.proposeAddAxis change epoch = .ok next) :
    manager.axes.lookup change.axisId = none ∧ ∃ entry : AxisEntry, entry.status = .proposed ∧
      entry.migrationPlan = some change.migrationPlan ∧ next = manager.insertEntry change.axisId entry := by
  unfold proposeAddAxis at proposed
  cases found : manager.axes.lookup change.axisId with
  | some entry =>
    rw [found] at proposed
    cases proposed
  | none =>
    refine ⟨rfl, ?_⟩
    rw [found] at proposed
    cases valid : (validateUltrametric change.encoderSpecCid change.ultrametricProofCid).isValid with
    | false =>
      simp only [valid] at proposed
      cases proposed
    | true =>
      cases independent : (manager.checkIndependence change.axisId change.encoderSpecCid).isIndependent with
      | false =>
        simp only [valid, independent] at proposed
        cases proposed
      | true =>
        simp only [valid, independent] at proposed
        cases secure : validateSecurityAnalysis change.securityAnalysisCid with
        | error error =>
          simp only [secure] at proposed
          cases proposed
        | ok done =>
          simp only [secure] at proposed
          cases proposed
          exact ⟨_, rfl, rfl, rfl⟩

theorem modified_weight_iff
    (planned : entry.migrationPlan.isSome = true ∨ entry.status = .active ∨ entry.status = .deprecated)
    (status : changed.status = entry.status) (added : changed.addedEpoch = entry.addedEpoch)
    (ended : changed.deprecatedEpoch = entry.deprecatedEpoch) (migrates : changed.migrationPlan = some plan) :
    weightOf changed epoch = weightOf entry epoch ↔ (entry.status = .ramping ∨ entry.status = .deprecating →
      ∀ old, entry.migrationPlan = some old → SameProgress entry old plan epoch) := by
  have start : rampStart changed epoch = rampStart entry epoch := by
    unfold rampStart
    rw [status, added, ended]
  unfold SameProgress
  cases current : entry.status with
  | proposed =>
    rw [weightOf_proposed current, weightOf_proposed (status.trans current)]
    exact iff_of_true rfl fun ramps => by simp at ramps
  | active =>
    rw [weightOf_active current, weightOf_active (status.trans current)]
    exact iff_of_true rfl fun ramps => by simp at ramps
  | deprecated =>
    rw [weightOf_deprecated current, weightOf_deprecated (status.trans current)]
    exact iff_of_true rfl fun ramps => by simp at ramps
  | ramping =>
    obtain ⟨old, found⟩ := Option.isSome_iff_exists.mp (planned.resolve_right (by simp [current]))
    rw [weightOf_ramping current found, weightOf_ramping (status.trans current) migrates, start, found]
    simp
  | deprecating =>
    obtain ⟨old, found⟩ := Option.isSome_iff_exists.mp (planned.resolve_right (by simp [current]))
    rw [weightOf_deprecating current found, weightOf_deprecating (status.trans current) migrates, start, found,
      sub_right_inj]
    simp

theorem deprecated_weight_iff (planned : entry.migrationPlan.isSome = true ∨ entry.status = .active)
    (open' : entry.status ≠ .deprecated) (status : changed.status = .deprecating)
    (migrates : changed.migrationPlan = some plan) (ended : changed.deprecatedEpoch = some epoch) :
    weightOf changed epoch = weightOf entry epoch ↔ BeginsAtWeight entry plan epoch := by
  have start : rampStart changed epoch = epoch := by
    unfold rampStart
    rw [if_pos status, ended]
    rfl
  rw [weightOf_deprecating status migrates, start]
  unfold BeginsAtWeight
  cases current : entry.status with
  | proposed =>
    rw [weightOf_proposed current, sub_eq_zero]
    exact eq_comm
  | active =>
    rw [weightOf_active current, sub_eq_self]
  | deprecated => exact absurd current open'
  | ramping =>
    obtain ⟨old, found⟩ := Option.isSome_iff_exists.mp (planned.resolve_right (by simp [current]))
    rw [weightOf_ramping current found, found]
    simp only [Option.some.injEq, forall_eq']
    rw [eq_comm, eq_sub_iff_add_eq]
  | deprecating =>
    obtain ⟨old, found⟩ := Option.isSome_iff_exists.mp (planned.resolve_right (by simp [current]))
    rw [weightOf_deprecating current found, found, sub_right_inj]
    simp

def afterRamp (epoch : UInt64) (entry : AxisEntry) : AxisEntry :=
  match entry.migrationPlan with
  | none => entry
  | some plan =>
    if entry.status = .ramping ∧ rampStart entry epoch + plan.rampEpochs ≤ epoch then { entry with status := .active }
    else if entry.status = .deprecating ∧ rampStart entry epoch + plan.rampEpochs ≤ epoch then
      { entry with status := .deprecated }
    else entry

theorem processEntry_lookup (found : manager.axes.lookup axisId = some entry) :
    (processEntry epoch manager (axisId, entry)).axes.lookup other =
      if other = axisId then some (afterRamp epoch entry) else manager.axes.lookup other := by
  have unchanged : manager.axes.lookup other = if other = axisId then some entry else manager.axes.lookup other := by
    split
    · next same => rw [same, found]
    · rfl
  unfold processEntry afterRamp rampStart
  cases status : entry.status with
  | ramping =>
    cases planned : entry.migrationPlan with
    | none => simpa [status, planned] using unchanged
    | some plan =>
      simp only [planned, true_and, reduceCtorEq, if_false, false_and]
      split
      · exact HashMap.lookup_insert_eq _ _ _ _
      · exact unchanged
  | deprecating =>
    cases planned : entry.migrationPlan with
    | none => simpa [status, planned] using unchanged
    | some plan =>
      simp only [planned, true_and, reduceCtorEq, if_true, if_false, false_and]
      split
      · exact HashMap.lookup_insert_eq _ _ _ _
      · exact unchanged
  | proposed | active | deprecated =>
    cases planned : entry.migrationPlan <;> simpa [status, planned] using unchanged

theorem processEntries_lookup (entries : List (UInt8 × AxisEntry)) (nodup : (entries.map Prod.fst).Nodup)
    (stored : ∀ axisId entry, (axisId, entry) ∈ entries → manager.axes.lookup axisId = some entry) (other : UInt8) :
    (entries.foldl (processEntry epoch) manager).axes.lookup other =
      if other ∈ entries.map Prod.fst then (manager.axes.lookup other).map (afterRamp epoch)
      else manager.axes.lookup other := by
  induction entries generalizing manager with
  | nil => rfl
  | cons first entries ih =>
    obtain ⟨axisId, entry⟩ := first
    rw [List.map_cons, List.nodup_cons] at nodup
    have own := stored axisId entry List.mem_cons_self
    have step : ∀ id, (processEntry epoch manager (axisId, entry)).axes.lookup id = _ :=
      fun id => processEntry_lookup own
    rw [List.foldl_cons, ih nodup.2, step]
    · simp only [List.map_cons, List.mem_cons]
      by_cases same : other = axisId
      · subst same
        rw [if_neg nodup.1, if_pos rfl, if_pos (.inl rfl), own]
        rfl
      · rw [if_neg same]
        simp only [same, false_or]
    · intro id listed member
      have apart : id ≠ axisId := by
        rintro rfl
        exact nodup.1 (List.mem_map.mpr ⟨_, member, rfl⟩)
      rw [step, if_neg apart]
      exact stored id listed (List.mem_cons_of_mem _ member)

theorem processEpoch_lookup (order : HashMap.Order) (other : UInt8) :
    (manager.processEpoch order epoch).axes.lookup other = (manager.axes.lookup other).map (afterRamp epoch) := by
  have perm := (order.perm (HashMap.pairs manager.axes)).map Prod.fst
  unfold processEpoch
  rw [processEntries_lookup _ (perm.nodup_iff.mpr (HashMap.pairs_keys_nodup manager.axes))
    fun axisId entry member => HashMap.mem_pairs.mp (HashMap.Order.mem_iterate.mp member)]
  split
  · rfl
  · next absent =>
    cases found : manager.axes.lookup other with
    | none => rfl
    | some entry =>
      refine absurd (List.mem_map.mpr ⟨(other, entry), ?_, rfl⟩) absent
      exact HashMap.Order.mem_iterate.mpr (HashMap.mem_pairs.mpr found)

theorem afterRamp_weight_iff (planned : entry.status = .ramping ∨ entry.status = .deprecating →
      entry.migrationPlan.isSome = true) :
    weightOf (afterRamp epoch entry) epoch = weightOf entry epoch ↔
      (entry.status = .ramping ∨ entry.status = .deprecating → ∀ plan, entry.migrationPlan = some plan →
        rampStart entry epoch + plan.rampEpochs ≤ epoch → rampStart entry epoch ≤ epoch) := by
  by_cases ramps : entry.status = .ramping ∨ entry.status = .deprecating
  · obtain ⟨plan, found⟩ := Option.isSome_iff_exists.mp (planned ramps)
    have shares : ∀ plan' : MigrationPlan, rampStart entry epoch + plan'.rampEpochs ≤ epoch →
        (progress plan' (rampStart entry epoch) epoch = 1 ↔ rampStart entry epoch ≤ epoch) := by
      intro plan' ended
      unfold progress
      by_cases before : epoch < rampStart entry epoch
      · rw [if_pos before]
        exact iff_of_false zero_ne_one (UInt64.not_le.mpr before)
      · rw [if_neg before, if_pos ended]
        exact iff_of_true rfl (UInt64.not_lt.mp before)
    by_cases ended : rampStart entry epoch + plan.rampEpochs ≤ epoch
    · have only : (entry.status = .ramping ∨ entry.status = .deprecating → ∀ plan', entry.migrationPlan = some plan' →
          rampStart entry epoch + plan'.rampEpochs ≤ epoch → rampStart entry epoch ≤ epoch) ↔
            rampStart entry epoch ≤ epoch := by
        simp [ramps, found, ended]
      rw [only, ← shares plan ended]
      rcases ramps with status | status
      · have after : afterRamp epoch entry = { entry with status := .active } := by
          unfold afterRamp
          simp [found, status, ended]
        rw [after, weightOf_active rfl, weightOf_ramping status found]
        exact eq_comm
      · have after : afterRamp epoch entry = { entry with status := .deprecated } := by
          unfold afterRamp
          simp [found, status, ended]
        rw [after, weightOf_deprecated rfl, weightOf_deprecating status found, eq_comm, sub_eq_zero]
        exact eq_comm
    · have after : afterRamp epoch entry = entry := by
        unfold afterRamp
        simp [found, ended]
      rw [after]
      refine iff_of_true rfl fun _ plan' found' ended' => ?_
      rw [found] at found'
      cases found'
      exact absurd ended' ended
  · have after : afterRamp epoch entry = entry := by
      rw [not_or] at ramps
      unfold afterRamp
      split
      · rfl
      · simp [ramps]
    rw [after]
    exact iff_of_true rfl fun ramps' => absurd ramps' ramps

theorem Planned.of_ramps (planned : Planned manager) (found : manager.axes.lookup axisId = some entry)
    (ramps : entry.status = .ramping ∨ entry.status = .deprecating) : entry.migrationPlan.isSome = true :=
  planned axisId entry found (.inr ramps)

theorem Planned.cases (planned : Planned manager) (found : manager.axes.lookup axisId = some entry) :
    entry.migrationPlan.isSome = true ∨ entry.status = .active ∨ entry.status = .deprecated := by
  cases status : entry.status with
  | proposed => exact .inl (planned axisId entry found (.inl status))
  | ramping => exact .inl (planned axisId entry found (.inr (.inl status)))
  | deprecating => exact .inl (planned axisId entry found (.inr (.inr status)))
  | active => exact .inr (.inl rfl)
  | deprecated => exact .inr (.inr rfl)

theorem proposal_refused {error : AxisCatalogError}
    (failed : manager.proposeAxisChange change epoch = .error error) :
    manager.next (.proposeAxisChange change, epoch) = manager := by
  simp only [AxisCatalogManager.next, failed]
  rfl

theorem proposal_accepted {next : AxisCatalogManager}
    (done : manager.proposeAxisChange change epoch = .ok next) :
    manager.next (.proposeAxisChange change, epoch) = next := by
  simp only [AxisCatalogManager.next, done]
  rfl

abbrev KeepsIff (manager : AxisCatalogManager) (call : CatalogOperation × UInt64) : Prop :=
  ((∀ other, weight (manager.next call) call.2 other = weight manager call.2 other) ↔ Gentle manager call) ∧
    Planned (manager.next call)

section

variable (planned : Planned manager)

include planned

theorem add_keeps_iff (action : change.action = .add) :
    KeepsIff manager (.proposeAxisChange change, epoch) := by
  have gentle : Gentle manager (.proposeAxisChange change, epoch) := by
    intro entry _
    rw [action]
    constructor
    · intro wrong
      cases wrong
    · intro wrong
      cases wrong
  cases run : manager.proposeAxisChange change epoch with
  | error error =>
    have same := proposal_refused run
    unfold KeepsIff
    rw [same]
    exact ⟨iff_of_true (fun _ => rfl) gentle, planned⟩
  | ok next =>
    have added := run
    simp only [AxisCatalogManager.proposeAxisChange, action] at added
    obtain ⟨absent, entry, status, migrates, rfl⟩ := proposeAddAxis_spec added
    unfold KeepsIff
    rw [proposal_accepted run, insertEntry_keeps_iff, weight_none absent, weightOf_proposed status]
    refine ⟨iff_of_true rfl gentle, planned_insertEntry planned fun _ => ?_⟩
    rw [migrates]
    rfl

theorem modify_keeps_iff (action : change.action = .modify) :
    KeepsIff manager (.proposeAxisChange change, epoch) := by
  unfold KeepsIff
  simp only [Gentle, action, reduceCtorEq, false_imp_iff, and_true, true_imp_iff]
  cases found : manager.axes.lookup change.axisId with
  | none =>
    have run : manager.proposeAxisChange change epoch = .error (notFound change.axisId) := by
      simp only [AxisCatalogManager.proposeAxisChange, action, proposeModifyAxis, found]
    rw [proposal_refused run]
    refine ⟨iff_of_true (fun _ => rfl) fun _ same => ?_, planned⟩
    cases same
  | some entry =>
    cases valid : (validateUltrametric change.encoderSpecCid change.ultrametricProofCid).isValid with
    | false =>
      have run : manager.proposeAxisChange change epoch = .error (ultrametricFailure
          (validateUltrametric change.encoderSpecCid change.ultrametricProofCid)) := by
        simp only [AxisCatalogManager.proposeAxisChange, action, proposeModifyAxis, found, valid, Bool.not_false,
          if_true]
      rw [proposal_refused run]
      refine ⟨iff_of_true (fun _ => rfl) fun _ _ isValid => ?_, planned⟩
      cases isValid
    | true =>
      have run : manager.proposeAxisChange change epoch = .ok (manager.insertEntry change.axisId
          { entry with
            encoderSpecCid := change.encoderSpecCid
            ultrametricProofCid := change.ultrametricProofCid
            securityAnalysisCid := change.securityAnalysisCid
            migrationPlan := some change.migrationPlan }) := by
        simp only [AxisCatalogManager.proposeAxisChange, action, proposeModifyAxis, found, valid, Bool.not_true,
          Bool.false_eq_true, if_false]
      rw [proposal_accepted run, insertEntry_keeps_iff, weight_some found]
      refine ⟨(@modified_weight_iff entry _ change.migrationPlan epoch (planned.cases found) ?_ ?_ ?_ ?_).trans ?_,
        planned_insertEntry planned fun _ => rfl⟩
      · rfl
      · rfl
      · rfl
      · rfl
      · refine ⟨fun same other atId => ?_, fun gentle => gentle entry rfl rfl⟩
        cases atId
        exact fun _ => same

theorem deprecate_keeps_iff (action : change.action = .deprecate) :
    KeepsIff manager (.proposeAxisChange change, epoch) := by
  unfold KeepsIff
  simp only [Gentle, action, reduceCtorEq, false_imp_iff, true_and, true_imp_iff]
  cases found : manager.axes.lookup change.axisId with
  | none =>
    have run : manager.proposeAxisChange change epoch = .error (notFound change.axisId) := by
      simp only [AxisCatalogManager.proposeAxisChange, action, proposeDeprecateAxis, found]
    rw [proposal_refused run]
    refine ⟨iff_of_true (fun _ => rfl) fun _ same => ?_, planned⟩
    cases same
  | some entry =>
    by_cases ended : entry.status = .deprecated
    · have run : ∃ error, manager.proposeAxisChange change epoch = .error error := by
        simp only [AxisCatalogManager.proposeAxisChange, action, proposeDeprecateAxis, found, ended, if_true]
        exact ⟨_, rfl⟩
      obtain ⟨error, run⟩ := run
      rw [proposal_refused run]
      refine ⟨iff_of_true (fun _ => rfl) fun other atId => ?_, planned⟩
      cases atId
      unfold BeginsAtWeight
      rw [ended]
      trivial
    · have run : manager.proposeAxisChange change epoch = .ok (manager.insertEntry change.axisId
          { entry with
            status := .deprecating
            migrationPlan := some change.migrationPlan
            deprecatedEpoch := some epoch }) := by
        simp only [AxisCatalogManager.proposeAxisChange, action, proposeDeprecateAxis, found, ended, if_false]
      have plans : entry.migrationPlan.isSome = true ∨ entry.status = .active := by
        rcases planned.cases found with plan | active | deprecated
        · exact .inl plan
        · exact .inr active
        · exact absurd deprecated ended
      rw [proposal_accepted run, insertEntry_keeps_iff, weight_some found]
      refine ⟨(deprecated_weight_iff plans ended rfl rfl rfl).trans ?_, planned_insertEntry planned fun _ => rfl⟩
      refine ⟨fun same other atId => ?_, fun gentle => gentle entry rfl⟩
      cases atId
      exact same

theorem activateAxis_keeps_iff (axisId : UInt8) : KeepsIff manager (.activateAxis axisId, epoch) := by
  unfold KeepsIff
  simp only [Gentle]
  cases found : manager.axes.lookup axisId with
  | none =>
    have same : manager.next (.activateAxis axisId, epoch) = manager := by
      simp only [AxisCatalogManager.next, AxisCatalogManager.activateAxis, found]
      rfl
    rw [same]
    refine ⟨iff_of_true (fun _ => rfl) fun _ _ same => ?_, planned⟩
    cases same
  | some entry =>
    by_cases proposed : entry.status = .proposed
    · have next : manager.next (.activateAxis axisId, epoch) =
          manager.insertEntry axisId { entry with status := .ramping, addedEpoch := epoch } := by
        simp only [AxisCatalogManager.next, AxisCatalogManager.activateAxis, found, proposed, ne_eq, not_true_eq_false,
          if_false]
        rfl
      obtain ⟨plan, has⟩ := Option.isSome_iff_exists.mp (planned axisId entry found (.inl proposed))
      rw [next, insertEntry_keeps_iff, weight_some found, weightOf_proposed proposed]
      have ramping : weightOf { entry with status := .ramping, addedEpoch := epoch } epoch =
          progress plan epoch epoch := weightOf_ramping rfl has
      rw [ramping]
      refine ⟨⟨fun zero other plan' atId _ has' => ?_, fun gentle => gentle entry plan rfl proposed has⟩,
        planned_insertEntry planned fun _ => ?_⟩
      · cases atId
        rw [has] at has'
        cases has'
        exact zero
      · rw [has]
        rfl
    · have same : manager.next (.activateAxis axisId, epoch) = manager := by
        simp only [AxisCatalogManager.next, AxisCatalogManager.activateAxis, found, proposed, ne_eq, not_false_eq_true,
          if_true]
        rfl
      rw [same]
      refine ⟨iff_of_true (fun _ => rfl) fun other plan atId status => ?_, planned⟩
      cases atId
      exact absurd status proposed

theorem processEpoch_keeps_iff (order : HashMap.Order) : KeepsIff manager (.processEpoch order, epoch) := by
  have lookup : ∀ other, (manager.next (.processEpoch order, epoch)).axes.lookup other =
      (manager.axes.lookup other).map (afterRamp epoch) := processEpoch_lookup order
  unfold KeepsIff
  simp only [Gentle]
  constructor
  · have each : ∀ other, weight (manager.next (.processEpoch order, epoch)) epoch other = weight manager epoch other ↔
        ∀ entry, manager.axes.lookup other = some entry →
          weightOf (afterRamp epoch entry) epoch = weightOf entry epoch := by
      intro other
      have after := lookup other
      cases found : manager.axes.lookup other with
      | none =>
        rw [found] at after
        rw [weight_none after, weight_none found]
        refine iff_of_true rfl fun _ same => ?_
        cases same
      | some entry =>
        rw [found] at after
        rw [weight_some after, weight_some found]
        simp
    constructor
    · intro keeps other entry plan found ramps has
      have same := (each other).mp (keeps other) entry found
      exact (afterRamp_weight_iff fun ramps => planned.of_ramps found ramps).mp same ramps plan has
    · intro gentle other
      refine (each other).mpr fun entry found => ?_
      exact (afterRamp_weight_iff fun ramps => planned.of_ramps found ramps).mpr fun ramps plan has =>
        gentle other entry plan found ramps has
  · intro other entry found status
    rw [lookup] at found
    obtain ⟨old, stored, rfl⟩ := Option.map_eq_some_iff.mp found
    unfold afterRamp at status ⊢
    split at status
    · next none => exact planned other old stored status
    · next plan has =>
      have kept : ∀ status', ({ old with status := status' } : AxisEntry).migrationPlan.isSome = true := by
        intro _
        show old.migrationPlan.isSome = true
        rw [has]
        rfl
      split
      · exact kept _
      · split
        · exact kept _
        · exact kept old.status

theorem catalog_keeps_iff (call : CatalogOperation × UInt64) : KeepsIff manager call := by
  obtain ⟨operation, epoch⟩ := call
  cases operation with
  | proposeAxisChange change =>
    cases action : change.action with
    | add => exact add_keeps_iff planned action
    | modify => exact modify_keeps_iff planned action
    | _ => exact deprecate_keeps_iff planned action
  | activateAxis axisId => exact activateAxis_keeps_iff planned axisId
  | processEpoch order => exact processEpoch_keeps_iff planned order

end

end

def startCatalog (config : AxisCatalogConfig) (defaultAxes : Bool) : AxisCatalogManager :=
  if defaultAxes then (AxisCatalogManager.new config).initializeDefaultAxes else .new config

theorem planned_startCatalog (config : AxisCatalogConfig) (defaultAxes : Bool) :
    Planned (startCatalog config defaultAxes) := by
  have new : Planned (.new config) := fun axisId entry found => by cases found
  have active : ∀ (id : UInt8) (name : String), (defaultAxis id name).status = .proposed ∨
      (defaultAxis id name).status = .ramping ∨ (defaultAxis id name).status = .deprecating →
        (defaultAxis id name).migrationPlan.isSome = true := by
    intro id name status
    simp [defaultAxis] at status
  cases defaultAxes with
  | false => exact new
  | true =>
    exact planned_insertEntry (planned_insertEntry (planned_insertEntry new (active 0 "time")) (active 1 "topic"))
      (active 2 "region")

def catalogAfter (config : AxisCatalogConfig) (defaultAxes : Bool) (calls : List (CatalogOperation × UInt64)) :
    AxisCatalogManager := Runs.after AxisCatalogManager.next (startCatalog config defaultAxes) calls

def RampsWithoutJumps (config : AxisCatalogConfig) (defaultAxes : Bool) (calls : List (CatalogOperation × UInt64)) :
    Prop :=
  ∀ before call, before ++ [call] <+: calls → ∀ axisId,
    weight (catalogAfter config defaultAxes (before ++ [call])) call.2 axisId =
      weight (catalogAfter config defaultAxes before) call.2 axisId

/-- Weights do not jump, and ramps are straight lines, exactly if each operation is gentle. -/
theorem axis_weights_ramp_iff (config : AxisCatalogConfig) (defaultAxes : Bool)
    (calls : List (CatalogOperation × UInt64)) :
    (∀ schedule rampEpochs, RampSchedule schedule rampEpochs →
      PiecewiseLinear schedule rampEpochs (interpolateWeight schedule)) ∧
    (RampsWithoutJumps config defaultAxes calls ↔
      ∀ before call, before ++ [call] <+: calls → Gentle (catalogAfter config defaultAxes before) call) := by
  refine ⟨fun schedule rampEpochs ramp => interpolateWeight_linear ramp, ?_⟩
  have planned : ∀ before, Planned (catalogAfter config defaultAxes before) := fun before =>
    Runs.invariant_of_kept (planned_startCatalog config defaultAxes)
      (fun manager call planned => (catalog_keeps_iff planned call).2) before
  refine forall₃_congr fun before call _ => ?_
  have step : catalogAfter config defaultAxes (before ++ [call]) = (catalogAfter config defaultAxes before).next call :=
    Runs.after_snoc before call
  rw [step]
  exact (catalog_keeps_iff (planned before) call).1

def deprecateTwice : List (CatalogOperation × UInt64) :=
  let migrationPlan : MigrationPlan := ⟨100, [(0, 0), (50, 1 / 2), (100, 1)]⟩
  let change : AxisCatalogChange :=
    ⟨.deprecate, 2, "Qm_encoder_axis_2", "Qm_proof_axis_2", "Qm_security_axis_2", migrationPlan⟩
  [(.proposeAxisChange change, 100), (.proposeAxisChange change, 150)]

/-- A second deprecation halfway lifts the weight from a half to one. -/
theorem deprecation_jumps : ¬ RampsWithoutJumps .default true deprecateTwice := by
  intro smooth
  have same := smooth (deprecateTwice.take 1) (deprecateTwice.get ⟨1, by decide⟩) (List.prefix_refl _) 2
  revert same
  decide +kernel

end AdicProof.Governance
