import AdicCore.Library.OrderedScan

namespace ByteKeys

structure Key where
  bytes : List UInt8

def Key.digits (key : Key) : List Nat := key.bytes.map UInt8.toNat

theorem toNat_injective : Function.Injective UInt8.toNat := fun _ _ => UInt8.toNat_inj.mp

theorem Key.digits_injective : Function.Injective Key.digits := by
  intro first second same
  have bytes := List.map_injective_iff.mpr toNat_injective same
  cases first
  cases bytes
  rfl

instance Key.linearOrder : LinearOrder Key := LinearOrder.lift' Key.digits Key.digits_injective

theorem Key.le_iff {first second : Key} : first ≤ second ↔ first.digits ≤ second.digits := Iff.rfl

def Key.startsWith (key : Key) (start : List UInt8) : Bool := start.isPrefixOf key.bytes

theorem Key.startsWith_iff {key : Key} {start : List UInt8} : key.startsWith start = true ↔ start <+: key.bytes :=
  List.isPrefixOf_iff_prefix

/-- The entries from a prefix on, up to the first key without it. -/
def scanPrefix {α : Type} (table : HashMap.Table Key α) (start : List UInt8) : List (Key × α) :=
  (HashMap.scanForward table ⟨start⟩).takeWhile fun entry => entry.1.startsWith start

variable {α : Type} {table : HashMap.Table Key α} {start : List UInt8}

theorem mem_scanPrefix {key : Key} {value : α} :
    (key, value) ∈ scanPrefix table start ↔ table.lookup key = some value ∧ start <+: key.bytes := by
  have begins : ∀ key : Key, key.startsWith start = true ↔ Key.digits ⟨start⟩ <+: key.digits := by
    intro key
    rw [Key.startsWith_iff]
    exact (List.prefix_map_iff_of_injective toNat_injective).symm
  unfold scanPrefix
  rw [HashMap.mem_takeWhile_begins (fun _ _ => Key.le_iff) begins, ← begins, Key.startsWith_iff]

theorem scanPrefix_nodup : (scanPrefix table start).Nodup :=
  HashMap.scanForward_nodup.sublist (List.takeWhile_sublist _)

theorem scanPrefix_keys {first second : Key × α} (one : first ∈ scanPrefix table start)
    (other : second ∈ scanPrefix table start) (same : first.1 = second.1) : first = second := by
  rcases first with ⟨key, value⟩
  rcases second with ⟨key', value'⟩
  cases same
  have stored := (mem_scanPrefix.mp one).1
  rw [(mem_scanPrefix.mp other).1] at stored
  cases stored
  rfl

theorem nodup_filterMap_iff {β γ : Type} {items : List β} (nodup : items.Nodup) {read : β → Option γ} :
    (items.filterMap read).Nodup ↔
      ∀ first ∈ items, ∀ second ∈ items, ∀ value, read first = some value → read second = some value → first = second := by
  constructor
  · intro values first member second other value one same
    have : Std.Symm fun first second => ∀ a, read first = some a → ∀ b, read second = some b → a ≠ b :=
      ⟨fun _ _ differ a readA b readB equal => differ b readB a readA equal.symm⟩
    by_contra different
    exact (List.pairwise_filterMap.mp values).forall member other different value one value same rfl
  · intro injective
    apply List.pairwise_filterMap.mpr
    apply nodup.pairwise_of_forall_ne
    intro first member second other different a readA b readB equal
    subst equal
    exact different (injective first member second other a readA readB)

theorem toList_loop (bytes : ByteArray) (index : Nat) (read : List UInt8) :
    ByteArray.toList.loop bytes index read = read.reverse ++ bytes.data.toList.drop index := by
  fun_induction ByteArray.toList.loop bytes index read with
  | case1 index read inside ih =>
    have size : index < bytes.data.toList.length := inside
    have byte : bytes.get! index = bytes.data.toList[index] := by
      show bytes.data[index]! = _
      rw [getElem!_pos bytes.data index inside, Array.getElem_toList]
    rw [ih, List.reverse_cons, List.append_assoc, List.drop_eq_getElem_cons size, byte]
    rfl
  | case2 index read outside =>
    have size : bytes.data.toList.length ≤ index := not_lt.mp outside
    rw [List.drop_eq_nil_of_le size, List.append_nil]

theorem toUTF8_toList_injective {first second : String} (same : first.toUTF8.toList = second.toUTF8.toList) :
    first = second := by
  have bytes : ∀ text : String, text.toUTF8.toList = text.toUTF8.data.toList := by
    intro text
    exact toList_loop text.toUTF8 0 []
  rw [bytes, bytes] at same
  exact String.toByteArray_inj.mp (ByteArray.ext (Array.toList_inj.mp same))

section

variable {β : Type} {encode : β → List UInt8} {size : Nat}

theorem records_length (fixed : ∀ item, (encode item).length = size) (items : List β) :
    (items.flatMap encode).length = size * items.length := by
  induction items with
  | nil => simp
  | cons item items ih =>
    rw [List.flatMap_cons, List.length_append, fixed, ih, List.length_cons]
    ring

/-- Records of one size are read back from their concatenation. -/
theorem records_injective (positive : 0 < size) (fixed : ∀ item, (encode item).length = size)
    (injective : Function.Injective encode) : Function.Injective (List.flatMap encode) := by
  intro first
  induction first with
  | nil =>
    intro second same
    have lengths := congrArg List.length same
    rw [records_length fixed, records_length fixed, List.length_nil, Nat.mul_zero] at lengths
    have empty : second.length = 0 := (Nat.mul_eq_zero.mp lengths.symm).resolve_left positive.ne'
    exact (List.length_eq_zero_iff.mp empty).symm
  | cons item items ih =>
    intro second same
    cases second with
    | nil =>
      have lengths := congrArg List.length same
      rw [records_length fixed, records_length fixed, List.length_nil, List.length_cons, Nat.mul_zero] at lengths
      simp only [Nat.mul_eq_zero, Nat.succ_ne_zero, or_false] at lengths
      omega
    | cons other others =>
      rw [List.flatMap_cons, List.flatMap_cons] at same
      obtain ⟨head, tail⟩ := List.append_inj same ((fixed item).trans (fixed other).symm)
      rw [injective head, ih tail]

end

end ByteKeys
