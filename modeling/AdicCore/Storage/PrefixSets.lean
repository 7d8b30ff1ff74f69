import AdicCore.Library.ByteKeys
import AdicCore.Storage.Backend

namespace AdicModel.Storage

/-- The database of the Rocks backend, an ordered map of byte strings. -/
abbrev RocksDb := HashMap.Table ByteKeys.Key (List UInt8)

theorem slice_length {α : Type} {items : List α} {offset size : Nat} (inside : offset + size ≤ items.length) :
    ((items.drop offset).take size).length = size := by
  rw [List.length_take, List.length_drop]
  omega

/-- The id from a position of a key on, if the key is long enough. -/
def idAt (offset : Nat) (key : ByteKeys.Key) : Option MessageId :=
  if inside : offset + 32 ≤ key.bytes.length then some ⟨⟨(key.bytes.drop offset).take 32, slice_length inside⟩⟩
  else none

def axisBytes (axis : UInt32) : List UInt8 :=
  [(axis >>> 24).toUInt8, (axis >>> 16).toUInt8, (axis >>> 8).toUInt8, axis.toUInt8]

def prefixLen : Nat := 10

namespace RocksDb

variable (blake3 : List UInt8 → Bytes32)

def hashPrefix (name : String) : List UInt8 := (blake3 name.toUTF8.toList).bytes.take prefixLen

def prefixConflict : List UInt8 := hashPrefix blake3 "conflict"

def prefixBall : List UInt8 := hashPrefix blake3 "ball"

def conflictKey (conflictId : String) (messageId : MessageId) : ByteKeys.Key :=
  ⟨prefixConflict blake3 ++ conflictId.toUTF8.toList ++ messageId.asBytes.bytes⟩

def ballIndexKey (axis : UInt32) (ballId : List UInt8) (messageId : MessageId) : ByteKeys.Key :=
  ⟨prefixBall blake3 ++ axisBytes axis ++ ballId ++ messageId.asBytes.bytes⟩

def present : List UInt8 := "1".toUTF8.toList

def addToConflict (conflictId : String) (messageId : MessageId) (db : RocksDb) : RocksDb :=
  db.insert (conflictKey blake3 conflictId messageId) present

def addToBallIndex (axis : UInt32) (ballId : List UInt8) (messageId : MessageId) (db : RocksDb) : RocksDb :=
  db.insert (ballIndexKey blake3 axis ballId messageId) present

def getConflictSet (conflictId : String) (db : RocksDb) : List MessageId :=
  let start := prefixConflict blake3 ++ conflictId.toUTF8.toList
  let msgOffset := prefixLen + conflictId.toUTF8.toList.length
  (ByteKeys.scanPrefix db start).filterMap fun entry => idAt msgOffset entry.1

def getBallMembers (axis : UInt32) (ballId : List UInt8) (db : RocksDb) : List MessageId :=
  let start := prefixBall blake3 ++ axisBytes axis ++ ballId
  let msgOffset := prefixLen + 4 + ballId.length
  (ByteKeys.scanPrefix db start).filterMap fun entry => idAt msgOffset entry.1

end RocksDb

inductive IndexCall where
  | addToConflict (conflictId : String) (messageId : MessageId)
  | addToBallIndex (axis : UInt32) (ballId : List UInt8) (messageId : MessageId)

def IndexCall.run (blake3 : List UInt8 → Bytes32) (db : RocksDb) : IndexCall → RocksDb
  | .addToConflict conflictId messageId => RocksDb.addToConflict blake3 conflictId messageId db
  | .addToBallIndex axis ballId messageId => RocksDb.addToBallIndex blake3 axis ballId messageId db

def indexed (blake3 : List UInt8 → Bytes32) (calls : List IndexCall) : RocksDb :=
  Runs.after (IndexCall.run blake3) ∅ calls

end AdicModel.Storage

open AdicModel AdicModel.Storage

namespace AdicProof.Storage

def Exactly (result : List MessageId) (added : MessageId → Prop) : Prop :=
  result.Nodup ∧ ∀ id, id ∈ result ↔ added id

section

variable {start : List UInt8} {key : ByteKeys.Key} {id : MessageId}

theorem idAt_eq_some {offset : Nat} :
    idAt offset key = some id ↔ id.asBytes.bytes = (key.bytes.drop offset).take 32 ∧ offset + 32 ≤ key.bytes.length := by
  unfold idAt
  split
  · next inside =>
    rcases id with ⟨⟨bytes, size⟩⟩
    simp only [Option.some.injEq, MessageId.mk.injEq, Bytes32.mk.injEq]
    constructor
    · intro same
      exact ⟨same.symm, inside⟩
    · intro found
      exact found.1.symm
  · next short =>
    constructor
    · intro found
      cases found
    · intro found
      exact absurd found.2 short

theorem idAt_append (start : List UInt8) (id : MessageId) :
    idAt start.length ⟨start ++ id.asBytes.bytes⟩ = some id := by
  rw [idAt_eq_some]
  have size := id.asBytes.size
  constructor
  · rw [List.drop_left, List.take_of_length_le (by omega)]
  · rw [List.length_append, size]

theorem key_of_idAt (begins : start <+: key.bytes) (short : key.bytes.length ≤ start.length + 32)
    (found : idAt start.length key = some id) : key = ⟨start ++ id.asBytes.bytes⟩ := by
  rcases key with ⟨bytes⟩
  rcases begins with ⟨rest, rfl⟩
  rw [idAt_eq_some] at found
  rw [List.length_append] at short
  have whole := found.1
  rw [List.drop_left, List.take_of_length_le (by omega)] at whole
  rw [whole]

theorem scan_exactly_iff {db : RocksDb} {added : MessageId → Prop}
    (stored : ∀ id, ⟨start ++ id.asBytes.bytes⟩ ∈ db ↔ added id) :
    Exactly ((ByteKeys.scanPrefix db start).filterMap fun entry => idAt start.length entry.1) added ↔
      ∀ key ∈ db, start <+: key.bytes → key.bytes.length ≤ start.length + 32 := by
  have scanned : ∀ key : ByteKeys.Key, key ∈ db → start <+: key.bytes →
      ∃ value, (key, value) ∈ ByteKeys.scanPrefix db start := by
    intro key member begins
    rcases Option.isSome_iff_exists.mp (AList.lookup_isSome.mpr member) with ⟨value, found⟩
    exact ⟨value, ByteKeys.mem_scanPrefix.mpr ⟨found, begins⟩⟩
  have inDb : ∀ key value, (key, value) ∈ ByteKeys.scanPrefix db start → key ∈ db ∧ start <+: key.bytes := by
    intro key value member
    have found := ByteKeys.mem_scanPrefix.mp member
    exact ⟨AList.lookup_isSome.mp (by rw [found.1]; rfl), found.2⟩
  constructor
  · rintro ⟨nodup, exact⟩ key member begins
    by_contra long
    rcases scanned key member begins with ⟨value, inScan⟩
    have inside : start.length + 32 ≤ key.bytes.length := by omega
    obtain ⟨id, found⟩ : ∃ id, idAt start.length key = some id := by
      unfold idAt
      rw [dif_pos inside]
      exact ⟨_, rfl⟩
    have here := (stored id).mpr ((exact id).mp (List.mem_filterMap.mpr ⟨(key, value), inScan, found⟩))
    rcases scanned _ here (List.prefix_append _ _) with ⟨other, otherScan⟩
    have same := (ByteKeys.nodup_filterMap_iff ByteKeys.scanPrefix_nodup).mp nodup _ inScan _ otherScan id found
      (idAt_append start id)
    cases same
    rw [List.length_append, id.asBytes.size] at long
    exact long le_rfl
  · intro short
    have whole : ∀ key value id, (key, value) ∈ ByteKeys.scanPrefix db start → idAt start.length key = some id →
        key = ⟨start ++ id.asBytes.bytes⟩ := by
      intro key value id member found
      have within := inDb key value member
      exact key_of_idAt within.2 (short key within.1 within.2) found
    constructor
    · rw [ByteKeys.nodup_filterMap_iff ByteKeys.scanPrefix_nodup]
      rintro ⟨key, value⟩ member ⟨key', value'⟩ other id found same
      apply ByteKeys.scanPrefix_keys member other
      exact (whole key value id member found).trans (whole key' value' id other same).symm
    · intro id
      rw [List.mem_filterMap, ← stored]
      constructor
      · rintro ⟨⟨key, value⟩, member, found⟩
        rw [← whole key value id member found]
        exact (inDb key value member).1
      · intro member
        rcases scanned _ member (List.prefix_append _ _) with ⟨value, inScan⟩
        exact ⟨_, inScan, idAt_append start id⟩

end

theorem axisBytes_injective : Function.Injective axisBytes := by
  intro first second same
  unfold axisBytes at same
  simp only [List.cons.injEq, and_true, ← UInt8.toNat_inj, UInt32.toNat_toUInt8, UInt32.toNat_shiftRight,
    Nat.shiftRight_eq_div_pow] at same
  apply UInt32.toNat_inj.mp
  have firstSize := first.toNat_lt
  have secondSize := second.toNat_lt
  simp at same
  omega

def column (blake3 : List UInt8 → Bytes32) : IndexCall → List UInt8
  | .addToConflict _ _ => RocksDb.prefixConflict blake3
  | .addToBallIndex _ _ _ => RocksDb.prefixBall blake3

def nameBytes : IndexCall → List UInt8
  | .addToConflict conflictId _ => conflictId.toUTF8.toList
  | .addToBallIndex axis ballId _ => axisBytes axis ++ ballId

def messageIdOf : IndexCall → MessageId
  | .addToConflict _ messageId => messageId
  | .addToBallIndex _ _ messageId => messageId

section

variable {blake3 : List UInt8 → Bytes32} {calls : List IndexCall}

theorem hashPrefix_length (name : String) : (RocksDb.hashPrefix blake3 name).length = prefixLen := by
  unfold RocksDb.hashPrefix
  rw [List.length_take, (blake3 _).size]
  rfl

theorem column_length (call : IndexCall) : (column blake3 call).length = prefixLen := by
  cases call with
  | addToConflict => exact hashPrefix_length "conflict"
  | addToBallIndex => exact hashPrefix_length "ball"

theorem run_eq_insert (db : RocksDb) (call : IndexCall) :
    call.run blake3 db =
      db.insert ⟨column blake3 call ++ nameBytes call ++ (messageIdOf call).asBytes.bytes⟩ RocksDb.present := by
  cases call with
  | addToConflict => rfl
  | addToBallIndex axis ballId messageId =>
    have key : RocksDb.ballIndexKey blake3 axis ballId messageId =
        ⟨RocksDb.prefixBall blake3 ++ (axisBytes axis ++ ballId) ++ messageId.asBytes.bytes⟩ := by
      unfold RocksDb.ballIndexKey
      rw [List.append_assoc (RocksDb.prefixBall blake3)]
    show db.insert (RocksDb.ballIndexKey blake3 axis ballId messageId) RocksDb.present = _
    rw [key]
    rfl

theorem mem_indexed {key : ByteKeys.Key} :
    key ∈ indexed blake3 calls ↔
      ∃ call ∈ calls, key = ⟨column blake3 call ++ nameBytes call ++ (messageIdOf call).asBytes.bytes⟩ := by
  unfold indexed
  induction calls using List.reverseRecOn with
  | nil => simp
  | append_singleton before call ih =>
    rw [Runs.after_snoc, run_eq_insert, AList.mem_insert, ih]
    simp only [List.mem_append, List.mem_singleton, or_and_right, exists_or, exists_eq_left]
    exact or_comm

section

variable {under name : List UInt8} (length : under.length = prefixLen)

include length

theorem begins_iff (call : IndexCall) :
    under ++ name <+: column blake3 call ++ nameBytes call ++ (messageIdOf call).asBytes.bytes ↔
      column blake3 call = under ∧ name <+: nameBytes call ++ (messageIdOf call).asBytes.bytes := by
  rw [List.append_assoc]
  constructor
  · rintro ⟨rest, same⟩
    rw [List.append_assoc] at same
    have ⟨columns, names⟩ := List.append_inj same (length.trans (column_length call).symm)
    exact ⟨columns.symm, rest, names⟩
  · rintro ⟨columns, names⟩
    rw [columns]
    exact (List.prefix_append_right_inj under).mpr names

theorem key_eq_iff (id : MessageId) (call : IndexCall) :
    under ++ name ++ id.asBytes.bytes = column blake3 call ++ nameBytes call ++ (messageIdOf call).asBytes.bytes ↔
      column blake3 call = under ∧ nameBytes call = name ∧ messageIdOf call = id := by
  constructor
  · intro same
    have ⟨start, ids⟩ := List.append_inj' same (id.asBytes.size.trans (messageIdOf call).asBytes.size.symm)
    have ⟨columns, names⟩ := List.append_inj start (length.trans (column_length call).symm)
    have equal := MessageId.key_injective (congrArg (List.map UInt8.toNat) ids)
    exact ⟨columns.symm, names.symm, equal.symm⟩
  · rintro ⟨rfl, rfl, rfl⟩
    rfl

theorem column_exactly_iff : Exactly ((ByteKeys.scanPrefix (indexed blake3 calls) (under ++ name)).filterMap
        fun entry => idAt (prefixLen + name.length) entry.1)
      (fun id => ∃ call ∈ calls, column blake3 call = under ∧ nameBytes call = name ∧ messageIdOf call = id) ↔
      ∀ call ∈ calls, column blake3 call = under → name <+: nameBytes call → nameBytes call = name := by
  have offset : prefixLen + name.length = (under ++ name).length := by rw [List.length_append, length]
  rw [offset, scan_exactly_iff]
  · constructor
    · intro short call member columns begins
      have longer := short _ (mem_indexed.mpr ⟨call, member, rfl⟩)
        ((begins_iff length call).mpr ⟨columns, begins.trans (List.prefix_append _ _)⟩)
      simp only [List.length_append, columns, (messageIdOf call).asBytes.size] at longer
      exact (begins.eq_of_length_le (by omega)).symm
    · intro only key member begins
      rcases mem_indexed.mp member with ⟨call, called, rfl⟩
      have ⟨columns, names⟩ := (begins_iff length call).mp begins
      simp only [List.length_append, columns, (messageIdOf call).asBytes.size]
      by_contra long
      have longer := List.prefix_of_prefix_length_le names (List.prefix_append _ _) (by omega)
      have same := only call called columns longer
      rw [same] at long
      exact long le_rfl
  · intro id
    rw [mem_indexed]
    simp only [ByteKeys.Key.mk.injEq, key_eq_iff length]

end

def AddedToConflict (calls : List IndexCall) (conflictId : String) (id : MessageId) : Prop :=
  .addToConflict conflictId id ∈ calls

def AddedToBall (calls : List IndexCall) (axis : UInt32) (ballId : List UInt8) (id : MessageId) : Prop :=
  .addToBallIndex axis ballId id ∈ calls

variable (distinct : RocksDb.prefixConflict blake3 ≠ RocksDb.prefixBall blake3)
include distinct

theorem getConflictSet_exactly_iff (conflictId : String) :
    Exactly (RocksDb.getConflictSet blake3 conflictId (indexed blake3 calls)) (AddedToConflict calls conflictId) ↔
      ∀ other id, AddedToConflict calls other id →
        conflictId.toUTF8.toList <+: other.toUTF8.toList → other = conflictId := by
  have exact := @column_exactly_iff blake3 calls (RocksDb.prefixConflict blake3) conflictId.toUTF8.toList
    (hashPrefix_length "conflict")
  have added : AddedToConflict calls conflictId = fun id => ∃ call ∈ calls,
      column blake3 call = RocksDb.prefixConflict blake3 ∧ nameBytes call = conflictId.toUTF8.toList ∧
        messageIdOf call = id := by
    funext id
    apply propext
    constructor
    · intro member
      exact ⟨_, member, rfl, rfl, rfl⟩
    · rintro ⟨call, member, columns, names, rfl⟩
      cases call with
      | addToConflict other id =>
        cases ByteKeys.toUTF8_toList_injective names
        exact member
      | addToBallIndex => exact absurd columns.symm distinct
  rw [added]
  refine exact.trans ?_
  constructor
  · intro only other id member begins
    exact ByteKeys.toUTF8_toList_injective (only _ member rfl begins)
  · intro only call member columns begins
    cases call with
    | addToConflict other id =>
      rw [only other id member begins]
      rfl
    | addToBallIndex => exact absurd columns.symm distinct

theorem getBallMembers_exactly_iff (axis : UInt32) (ballId : List UInt8) :
    Exactly (RocksDb.getBallMembers blake3 axis ballId (indexed blake3 calls)) (AddedToBall calls axis ballId) ↔
      ∀ other id, AddedToBall calls axis other id → ballId <+: other → other = ballId := by
  have exact := @column_exactly_iff blake3 calls (RocksDb.prefixBall blake3) (axisBytes axis ++ ballId)
    (hashPrefix_length "ball")
  have scan : RocksDb.getBallMembers blake3 axis ballId (indexed blake3 calls) =
      (ByteKeys.scanPrefix (indexed blake3 calls) (RocksDb.prefixBall blake3 ++ (axisBytes axis ++ ballId))).filterMap
        fun entry => idAt (prefixLen + (axisBytes axis ++ ballId).length) entry.1 := by
    unfold RocksDb.getBallMembers
    rw [List.append_assoc, List.length_append, ← Nat.add_assoc]
    rfl
  have added : AddedToBall calls axis ballId = fun id => ∃ call ∈ calls,
      column blake3 call = RocksDb.prefixBall blake3 ∧ nameBytes call = axisBytes axis ++ ballId ∧
        messageIdOf call = id := by
    funext id
    apply propext
    constructor
    · intro member
      exact ⟨_, member, rfl, rfl, rfl⟩
    · rintro ⟨call, member, columns, names, rfl⟩
      cases call with
      | addToConflict => exact absurd columns distinct
      | addToBallIndex other otherId id =>
        have ⟨axes, ids⟩ := List.append_inj names rfl
        cases axisBytes_injective axes
        cases ids
        exact member
  rw [scan, added]
  refine exact.trans ?_
  constructor
  · intro only other id member begins
    exact List.append_cancel_left (only _ member rfl ((List.prefix_append_right_inj _).mpr begins))
  · intro only call member columns begins
    cases call with
    | addToConflict => exact absurd columns distinct
    | addToBallIndex other otherId id =>
      rcases begins with ⟨rest, same⟩
      unfold nameBytes at same
      rw [List.append_assoc] at same
      have ⟨axes, ids⟩ := List.append_inj same rfl
      cases axisBytes_injective axes
      show axisBytes axis ++ otherId = _
      rw [only otherId id member ⟨rest, ids⟩]

end

/-- A set is exact if and only if nothing was added under a longer name that begins with its name. -/
theorem prefix_sets_exact_iff (blake3 : List UInt8 → Bytes32)
    (distinct : RocksDb.prefixConflict blake3 ≠ RocksDb.prefixBall blake3) (calls : List IndexCall) :
    (∀ conflictId,
      Exactly (RocksDb.getConflictSet blake3 conflictId (indexed blake3 calls)) (AddedToConflict calls conflictId) ↔
        ∀ other id, AddedToConflict calls other id →
          conflictId.toUTF8.toList <+: other.toUTF8.toList → other = conflictId) ∧
      ∀ axis ballId,
        Exactly (RocksDb.getBallMembers blake3 axis ballId (indexed blake3 calls)) (AddedToBall calls axis ballId) ↔
          ∀ other id, AddedToBall calls axis other id → ballId <+: other → other = ballId :=
  ⟨fun conflictId => getConflictSet_exactly_iff distinct conflictId,
    fun axis ballId => getBallMembers_exactly_iff distinct axis ballId⟩

def nameHash (name : List UInt8) : Bytes32 :=
  if name = "conflict".toUTF8.toList then
    ⟨[0xe7, 0xe7, 0x46, 0x9e, 0x4c, 0xfb, 0x46, 0x68, 0x7b, 0xaf, 0xd0, 0x3e, 0x57, 0x7c, 0xfd, 0x07, 0xa0, 0xa7, 0x60,
      0x8b, 0xf8, 0x1e, 0xe7, 0x25, 0x27, 0xd6, 0xba, 0x1c, 0x8b, 0xf1, 0xa8, 0x2f], rfl⟩
  else
    ⟨[0xad, 0x59, 0x73, 0x34, 0xb2, 0x23, 0x9a, 0xec, 0x04, 0x39, 0xcc, 0x79, 0x81, 0xba, 0xef, 0xf9, 0xdc, 0x4f, 0x24,
      0xe7, 0x77, 0x68, 0x94, 0x7f, 0x73, 0x71, 0x89, 0xb6, 0x96, 0x33, 0xea, 0x2b], rfl⟩

theorem nameHash_distinct : RocksDb.prefixConflict nameHash ≠ RocksDb.prefixBall nameHash := by decide +kernel

def listedOnce : List IndexCall :=
  [.addToConflict "ab" ⟨Bytes32.replicate 1⟩, .addToBallIndex 0 [5] ⟨Bytes32.replicate 1⟩]

theorem listed_sets_exact :
    Exactly (RocksDb.getConflictSet nameHash "ab" (indexed nameHash listedOnce)) (AddedToConflict listedOnce "ab") ∧
      Exactly (RocksDb.getBallMembers nameHash 0 [5] (indexed nameHash listedOnce)) (AddedToBall listedOnce 0 [5]) := by
  have exact := prefix_sets_exact_iff nameHash nameHash_distinct listedOnce
  constructor
  · refine (exact.1 "ab").mpr fun other id added _ => ?_
    unfold AddedToConflict listedOnce at added
    simp at added
    exact added.1
  · refine (exact.2 0 [5]).mpr fun other id added _ => ?_
    unfold AddedToBall listedOnce at added
    simp at added
    exact added.1

/-- A set lists a part of the longer name as an id. -/
theorem extended_conflict_listed : ¬ ∀ (calls : List IndexCall) (conflictId : String),
    Exactly (RocksDb.getConflictSet nameHash conflictId (indexed nameHash calls))
      (AddedToConflict calls conflictId) := by
  intro claim
  have same := (getConflictSet_exactly_iff nameHash_distinct "a").mp (claim listedOnce "a") "ab" ⟨Bytes32.replicate 1⟩
    List.mem_cons_self (by decide +kernel)
  exact absurd same (by decide)

end AdicProof.Storage
