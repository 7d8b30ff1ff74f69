import AdicCore.Library.Fallible
import AdicCore.Library.Runs
import AdicCore.AppCommon.ParameterStore

open AdicModel AdicModel.AppCommon AdicModel.Json

namespace AdicProof.AppCommon

abbrev Parameters := String → Option Value

def u64Of (value : Option Value) : Option UInt64 := value.bind Value.asU64

def RhoFits (rho d : Option Value) : Prop :=
  ∃ radii size, rho.bind Value.asArray = some radii ∧ u64Of d = some size ∧ radii.length = size.toNat

def ThresholdFits (tBls m : Option Value) : Prop :=
  ∃ threshold size, u64Of tBls = some threshold ∧ u64Of m = some size ∧ (size.toNat + 1) / 2 ≤ threshold.toNat ∧
    threshold.toNat ≤ size.toNat

def ReplicationFits (t r : Option Value) : Prop :=
  ∃ threshold factor, u64Of t = some threshold ∧ u64Of r = some factor ∧ threshold.toNat ≤ factor.toNat

structure Consistent (parameters : Parameters) : Prop where
  rho : RhoFits (parameters "rho") (parameters "d")
  threshold : ThresholdFits (parameters "t_bls") (parameters "m")
  replication : ReplicationFits (parameters "replication_t") (parameters "replication_r")

def parametersOf (store : ParameterStore) : Parameters := fun key => store.values.lookup key

def written (store : ParameterStore) : ParameterCall → Parameters
  | .applyGovernanceChange key newValue => fun other => if other = key then some newValue else none
  | .resetToDefault key => fun other =>
    if other = key then (store.metadata.lookup key).map ParameterMetadata.defaultValue else none
  | .loadFromFile _ file => fun key => file.bind fun values => values.lookup key

def merged (current changes : Parameters) : Parameters := fun key => (changes key).or (current key)

/-- What a change has to respect although it is not checked: dependent stored values, and the largest committee. -/
structure Compatible (current changes : Parameters) : Prop where
  d : (changes "d").isSome → RhoFits (merged current changes "rho") (merged current changes "d")
  m : (changes "m").isSome → ThresholdFits (merged current changes "t_bls") (merged current changes "m")
  replication : (changes "replication_r").isSome →
    ReplicationFits (merged current changes "replication_t") (merged current changes "replication_r")
  largest : ∀ size threshold, u64Of (current "m") = some size → size.toNat + 1 = 2 ^ 64 → changes "m" = none →
    u64Of (changes "t_bls") = some threshold → 2 ^ 63 ≤ threshold.toNat

variable {key : String}

section

variable {store next : ParameterStore} {call : ParameterCall}

theorem lookup_foldl_replace {α : Type} {entries : List (String × α)} (nodup : (entries.map Prod.fst).Nodup)
    (table : HashMap.Table String α) (known : key ∈ table) (value : α) :
    (entries.foldl (fun current entry => if entry.1 ∈ current then current.insert entry.1 entry.2 else current)
      table).lookup key = some value ↔
        (key, value) ∈ entries ∨ key ∉ entries.map Prod.fst ∧ table.lookup key = some value := by
  induction entries generalizing table with
  | nil => simp
  | cons entry entries ih =>
    obtain ⟨first, stored⟩ := entry
    rw [List.map_cons, List.nodup_cons] at nodup
    have stays : key ∈ if first ∈ table then table.insert first stored else table := by
      split
      · exact (AList.mem_insert _).mpr (.inr known)
      · exact known
    rw [List.foldl_cons, ih nodup.2 _ stays, List.map_cons, List.mem_cons, List.mem_cons]
    by_cases same : key = first
    · subst same
      have absent : (key, value) ∉ entries := fun member => nodup.1 (List.mem_map.mpr ⟨_, member, rfl⟩)
      rw [if_pos known, AList.lookup_insert]
      simp [absent, nodup.1, eq_comm]
    · have kept : (if first ∈ table then table.insert first stored else table).lookup key = table.lookup key := by
        split
        · rw [HashMap.lookup_insert_eq, if_neg same]
        · rfl
      rw [kept]
      simp [same]

theorem applyGovernanceChange_ok {newValue : Value}
    (ran : store.applyGovernanceChange key newValue = .ok next) :
    next = { store with values := store.values.insert key newValue } ∧ ∃ metadata,
      store.metadata.lookup key = some metadata ∧ store.validateValue key newValue metadata.validation = .ok () := by
  unfold ParameterStore.applyGovernanceChange at ran
  cases found : store.metadata.lookup key with
  | none =>
    rw [found] at ran
    cases ran
  | some metadata =>
    rw [found] at ran
    obtain ⟨⟨⟩, checked, changed⟩ := Fallible.bind_ok ran
    split at changed
    · cases changed
      exact ⟨rfl, metadata, rfl, checked⟩
    · cases changed

theorem loadFromFile_ok {order : HashMap.Order} {file : Option (HashMap.Table String Value)}
    (ran : store.loadFromFile order file = .ok next) : ∃ values, file = some values ∧
      next.metadata = store.metadata ∧
      (∀ key, key ∈ store.values → next.values.lookup key = (values.lookup key).or (store.values.lookup key)) ∧
      ∀ key value metadata, values.lookup key = some value → store.metadata.lookup key = some metadata →
        store.validateValue key value metadata.validation = .ok () := by
  unfold ParameterStore.loadFromFile at ran
  cases file with
  | none => cases ran
  | some values =>
    refine ⟨values, rfl, ?_⟩
    obtain ⟨⟨⟩, checked, changed⟩ := Fallible.bind_ok ran
    cases changed
    have distinct : ((order.iterate (HashMap.pairs values)).map Prod.fst).Nodup :=
      ((order.perm _).map Prod.fst).nodup_iff.mpr (HashMap.pairs_keys_nodup values)
    refine ⟨rfl, ?_, ?_⟩
    · intro key known
      apply Option.ext
      intro value
      refine (lookup_foldl_replace distinct store.values known value).trans ?_
      rw [HashMap.Order.mem_iterate, HashMap.mem_pairs, List.mem_map]
      cases found : values.lookup key with
      | none =>
        have absent : ¬∃ entry ∈ order.iterate (HashMap.pairs values), entry.1 = key := by
          rintro ⟨⟨first, stored⟩, member, rfl⟩
          rw [HashMap.Order.mem_iterate, HashMap.mem_pairs, found] at member
          cases member
        simp [absent]
      | some stored =>
        have present : ∃ entry ∈ order.iterate (HashMap.pairs values), entry.1 = key := by
          refine ⟨(key, stored), ?_, rfl⟩
          rw [HashMap.Order.mem_iterate, HashMap.mem_pairs]
          exact found
        simp [present]
    · intro key value metadata found known
      have member : (key, value) ∈ order.iterate (HashMap.pairs values) := by
        rw [HashMap.Order.mem_iterate, HashMap.mem_pairs]
        exact found
      have passed := Fallible.forM_ok checked member
      unfold ParameterStore.validateLoaded at passed
      rw [known] at passed
      exact passed

theorem run_ok (ran : call.run store = .ok next) : next.metadata = store.metadata ∧
    (∀ key, key ∈ store.values → parametersOf next key = merged (parametersOf store) (written store call) key) ∧
    ∀ key value metadata, written store call key = some value → store.metadata.lookup key = some metadata →
      store.validateValue key value metadata.validation = .ok () := by
  have change : ∀ {key newValue}, store.applyGovernanceChange key newValue = .ok next →
      (∀ other, written store call other = if other = key then some newValue else none) →
      next.metadata = store.metadata ∧
        (∀ key, key ∈ store.values → parametersOf next key = merged (parametersOf store) (written store call) key) ∧
        ∀ key value metadata, written store call key = some value → store.metadata.lookup key = some metadata →
          store.validateValue key value metadata.validation = .ok () := by
    intro key newValue applied writes
    obtain ⟨rfl, metadata, found, checked⟩ := applyGovernanceChange_ok applied
    refine ⟨rfl, ?_, ?_⟩
    · intro other _
      unfold parametersOf merged
      rw [HashMap.lookup_insert_eq, writes]
      split <;> rfl
    · intro other value known writesOther foundOther
      rw [writes] at writesOther
      split at writesOther
      · next same =>
        cases writesOther
        rw [same, found] at foundOther
        cases foundOther
        rw [same]
        exact checked
      · cases writesOther
  cases call with
  | applyGovernanceChange key newValue => exact change ran fun _ => rfl
  | resetToDefault key =>
    simp only [ParameterCall.run, ParameterStore.resetToDefault] at ran
    cases found : store.metadata.lookup key with
    | none =>
      rw [found] at ran
      cases ran
    | some metadata =>
      rw [found] at ran
      refine change ran ?_
      intro other
      simp only [written]
      rw [found]
      rfl
  | loadFromFile order file =>
    obtain ⟨values, rfl, same, lookups, checked⟩ := loadFromFile_ok ran
    exact ⟨same, lookups, checked⟩

end

structure Sound (store : ParameterStore) : Prop where
  metadata : store.metadata = ParameterStore.new.metadata
  known : ∀ key, key ∈ ParameterStore.new.values → key ∈ store.values
  consistent : Consistent (parametersOf store)

/-- A call that succeeds is compatible with the store. -/
def Respects (call : ParameterCall) (store : ParameterStore) : Prop :=
  (∃ next, call.run store = .ok next) → Compatible (parametersOf store) (written store call)

def nextStore (store : ParameterStore) (call : ParameterCall) : ParameterStore :=
  match call.run store with
  | .ok next => next
  | .error _ => store

section

variable {store next : ParameterStore} {call : ParameterCall} {current changes : Parameters}

theorem getU64_eq {value default : UInt64} (stored : u64Of (parametersOf store key) = some value) :
    store.getU64 key default = value := by
  unfold ParameterStore.getU64
  rw [show (store.values.lookup key).bind Value.asU64 = some value from stored]
  rfl

variable {value : Value}

theorem check_of_validated {rule : ValidationRule}
    (validated : store.validateValue key value rule = .ok ()) : store.check value rule = .ok () := by
  unfold ParameterStore.validateValue at validated
  cases checked : store.check value rule with
  | error reason =>
    rw [checked] at validated
    cases validated
  | ok result => rfl

theorem validateRho_ok {size : UInt64} (d : u64Of (parametersOf store "d") = some size)
    (validated : store.validateRho value = .ok ()) : ∃ radii, value.asArray = some radii ∧ radii.length = size.toNat := by
  unfold ParameterStore.validateRho at validated
  cases found : value.asArray with
  | none =>
    rw [found] at validated
    cases validated
  | some radii =>
    rw [found] at validated
    dsimp only at validated
    rw [getU64_eq d] at validated
    split at validated
    · cases validated
    · next same => exact ⟨radii, rfl, not_not.mp same⟩

theorem validateTBls_ok {size : UInt64} (m : u64Of (parametersOf store "m") = some size)
    (validated : store.validateTBls value = .ok ()) :
    ∃ threshold, value.asU64 = some threshold ∧ (size + 1) / 2 ≤ threshold ∧ threshold ≤ size := by
  unfold ParameterStore.validateTBls at validated
  cases found : value.asU64 with
  | none =>
    rw [found] at validated
    cases validated
  | some threshold =>
    rw [found] at validated
    dsimp only at validated
    rw [getU64_eq m] at validated
    split at validated
    · cases validated
    · next inside =>
      rw [not_or, UInt64.not_lt, UInt64.not_lt] at inside
      exact ⟨threshold, rfl, inside.1, inside.2⟩

theorem validateReplicationT_ok {factor : UInt64}
    (r : u64Of (parametersOf store "replication_r") = some factor)
    (validated : store.validateReplicationT value = .ok ()) :
    ∃ threshold, value.asU64 = some threshold ∧ threshold ≤ factor := by
  unfold ParameterStore.validateReplicationT at validated
  cases found : value.asU64 with
  | none =>
    rw [found] at validated
    cases validated
  | some threshold =>
    rw [found] at validated
    dsimp only at validated
    rw [getU64_eq r] at validated
    split at validated
    · cases validated
    · next inside => exact ⟨threshold, rfl, UInt64.not_lt.mp inside⟩

theorem half_toNat {size : UInt64} (notLargest : size.toNat + 1 ≠ 2 ^ 64) :
    ((size + 1) / 2).toNat = (size.toNat + 1) / 2 := by
  have bound := size.toNat_lt
  rw [UInt64.toNat_div, UInt64.toNat_add]
  have one : (1 : UInt64).toNat = 1 := rfl
  have two : (2 : UInt64).toNat = 2 := rfl
  rw [one, two]
  omega

theorem merged_none (absent : changes key = none) : merged current changes key = current key := by
  unfold merged
  rw [absent]
  rfl

theorem merged_some (present : changes key = some value) :
    merged current changes key = some value := by
  unfold merged
  rw [present]
  rfl

theorem rule_rho : ParameterStore.new.metadata.lookup "rho" =
    some ⟨"rho", .array [.ofNat 2, .ofNat 2, .ofNat 1], .custom "validate_rho"⟩ := by rfl

theorem rule_t_bls : ParameterStore.new.metadata.lookup "t_bls" =
    some ⟨"t_bls", .ofNat 43, .custom "validate_t_bls"⟩ := by rfl

theorem rule_replication_t : ParameterStore.new.metadata.lookup "replication_t" =
    some ⟨"replication_t", .ofNat 4, .custom "validate_replication_t"⟩ := by rfl

theorem sound_run (sound : Sound store) (ran : call.run store = .ok next)
    (compatible : Compatible (parametersOf store) (written store call)) : Sound next := by
  obtain ⟨same, lookups, checked⟩ := run_ok ran
  have known : ∀ key, key ∈ ParameterStore.new.values → parametersOf next key =
      merged (parametersOf store) (written store call) key := fun key isKey => lookups key (sound.known key isKey)
  have rules : ∀ {key value metadata}, written store call key = some value →
      ParameterStore.new.metadata.lookup key = some metadata → store.check value metadata.validation = .ok () := by
    intro key value metadata writes found
    rw [← sound.metadata] at found
    exact check_of_validated (checked key value metadata writes found)
  obtain ⟨rho, threshold, replication⟩ := sound.consistent
  refine ⟨same.trans sound.metadata, ?_, ⟨?_, ?_, ?_⟩⟩
  · intro key isKey
    have stored := AList.lookup_isSome.mpr (sound.known key isKey)
    have lookup := known key isKey
    rw [← AList.lookup_isSome]
    show (parametersOf next key).isSome
    rw [lookup]
    unfold merged
    rw [Option.isSome_or]
    simp [parametersOf, stored]
  · rw [known "rho" (by decide), known "d" (by decide)]
    cases changesD : written store call "d" with
    | some value => exact compatible.d (by simp [changesD])
    | none =>
      rw [merged_none changesD]
      cases changesRho : written store call "rho" with
      | none =>
        rw [merged_none changesRho]
        exact rho
      | some value =>
        obtain ⟨_, size, _, d, _⟩ := rho
        obtain ⟨radii, isArray, counted⟩ := validateRho_ok d (rules changesRho rule_rho)
        rw [merged_some changesRho]
        exact ⟨radii, size, isArray, d, counted⟩
  · rw [known "t_bls" (by decide), known "m" (by decide)]
    cases changesM : written store call "m" with
    | some value => exact compatible.m (by simp [changesM])
    | none =>
      rw [merged_none changesM]
      cases changesT : written store call "t_bls" with
      | none =>
        rw [merged_none changesT]
        exact threshold
      | some value =>
        obtain ⟨_, size, _, m, _, _⟩ := threshold
        obtain ⟨new, isNumber, low, high⟩ := validateTBls_ok m (rules changesT rule_t_bls)
        rw [merged_some changesT]
        refine ⟨new, size, isNumber, m, ?_, UInt64.le_iff_toNat_le.mp high⟩
        by_cases largest : size.toNat + 1 = 2 ^ 64
        · have half := compatible.largest size new m largest changesM (by rw [changesT]; exact isNumber)
          omega
        · rw [← half_toNat largest]
          exact UInt64.le_iff_toNat_le.mp low
  · rw [known "replication_t" (by decide), known "replication_r" (by decide)]
    cases changesR : written store call "replication_r" with
    | some value => exact compatible.replication (by simp [changesR])
    | none =>
      rw [merged_none changesR]
      cases changesT : written store call "replication_t" with
      | none =>
        rw [merged_none changesT]
        exact replication
      | some value =>
        obtain ⟨_, factor, _, r, _⟩ := replication
        obtain ⟨new, isNumber, high⟩ := validateReplicationT_ok r (rules changesT rule_replication_t)
        rw [merged_some changesT]
        exact ⟨new, factor, isNumber, r, UInt64.le_iff_toNat_le.mp high⟩

theorem compatible_of_consistent (sound : Sound store) (ran : call.run store = .ok next)
    (consistent : Consistent (parametersOf next)) : Compatible (parametersOf store) (written store call) := by
  obtain ⟨_, lookups, _⟩ := run_ok ran
  have known : ∀ key, key ∈ ParameterStore.new.values → parametersOf next key =
      merged (parametersOf store) (written store call) key := fun key isKey => lookups key (sound.known key isKey)
  obtain ⟨rho, threshold, replication⟩ := consistent
  rw [known "rho" (by decide), known "d" (by decide)] at rho
  rw [known "t_bls" (by decide), known "m" (by decide)] at threshold
  rw [known "replication_t" (by decide), known "replication_r" (by decide)] at replication
  refine ⟨fun _ => rho, fun _ => threshold, fun _ => replication, ?_⟩
  intro size new isSize largest absent isNumber
  obtain ⟨value, changesT, isValue⟩ := Option.bind_eq_some_iff.mp isNumber
  obtain ⟨stored, other, isStored, m, low, _⟩ := threshold
  rw [merged_none absent, isSize] at m
  rw [merged_some changesT] at isStored
  have same : value.asU64 = some stored := isStored
  rw [isValue] at same
  cases same
  cases m
  omega

theorem sound_new : Sound ParameterStore.new := by
  refine ⟨rfl, fun _ known => known, ⟨?_, ?_, ?_⟩⟩
  · exact ⟨[.ofNat 2, .ofNat 2, .ofNat 1], 3, by rfl, by rfl, rfl⟩
  · exact ⟨43, 64, by rfl, by rfl, by decide, by decide⟩
  · exact ⟨4, 5, by rfl, by rfl, by decide⟩

/-- All stores are consistent exactly if each call that succeeds is compatible with its store. -/
theorem consistent_iff (calls : List ParameterCall) :
    (∀ before, before <+: calls → Consistent (parametersOf (Runs.after nextStore .new before))) ↔
      ∀ before call, before ++ [call] <+: calls → Respects call (Runs.after nextStore .new before) := by
  refine @Runs.invariant_iff _ _ nextStore .new calls (fun store => Consistent (parametersOf store)) Sound Respects
    (fun _ _ => True) sound_new (fun _ sound => sound.consistent) ?_ ?_ fun _ _ _ => trivial
  · intro store call sound _ respects
    unfold nextStore
    cases ran : call.run store with
    | error error => exact sound
    | ok next => exact sound_run sound ran (respects ⟨next, ran⟩)
  · intro store call sound _ consistent
    rintro ⟨next, ran⟩
    unfold nextStore at consistent
    rw [ran] at consistent
    exact compatible_of_consistent sound ran consistent

/-- A change of the dimension leaves the radii of the old one. -/
theorem dimension_leaves_rho :
    let store := nextStore .new (.applyGovernanceChange "d" (.ofNat 4))
    u64Of (parametersOf store "d") = some 4 ∧
      (parametersOf store "rho").bind Value.asArray = some [.ofNat 2, .ofNat 2, .ofNat 1] ∧
      ¬Consistent (parametersOf store) := by
  have d : u64Of (parametersOf (nextStore .new (.applyGovernanceChange "d" (.ofNat 4))) "d") = some 4 := by
    decide +kernel
  have rho : (parametersOf (nextStore .new (.applyGovernanceChange "d" (.ofNat 4))) "rho").bind Value.asArray =
      some [.ofNat 2, .ofNat 2, .ofNat 1] := by
    decide +kernel
  refine ⟨d, rho, ?_⟩
  intro consistent
  obtain ⟨radii, size, isArray, isSize, counted⟩ := consistent.rho
  rw [rho] at isArray
  rw [d] at isSize
  cases isArray
  cases isSize
  exact absurd counted (by decide)

end

end AdicProof.AppCommon
