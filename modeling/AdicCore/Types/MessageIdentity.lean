import AdicCore.Library.TreeMap
import AdicCore.Types.CompactText
import AdicCore.Types.Message

namespace AdicModel.Json

/-- `Number::from` of an `i64`. -/
def Number.ofInt (value : Int) : Number :=
  if 0 ≤ value then .posInt (UInt64.ofNat value.toNat) else .negInt value

def Value.isNull : Value → Bool
  | .null => true
  | _ => false

/-- The `Number` branch of `canonicalize_value`. -/
def canonicalizeNumber (n : Number) : Number :=
  let f := n.asF64
  if f.isInt ∧ |f| < 2 ^ 53 then Number.ofInt f.num else .float f

mutual

def canonicalizeValue : Value → Value
  | .object map =>
    let sorted := TreeMap.collect (canonicalizeFields map)
    .object (TreeMap.collect sorted)
  | .array values => .array (canonicalizeValues values)
  | .number n => .number (canonicalizeNumber n)
  | .string s => .string s
  | .bool b => .bool b
  | .null => .null

def canonicalizeValues : List Value → List Value
  | [] => []
  | value :: values => canonicalizeValue value :: canonicalizeValues values

def canonicalizeFields : List (String × Value) → List (String × Value)
  | [] => []
  | (key, value) :: fields =>
    if value.isNull then canonicalizeFields fields
    else (key, canonicalizeValue value) :: canonicalizeFields fields

end

variable (toString : Value → String) (blake3 : ByteArray → Bytes32)

def toCanonicalJson (value : Value) : String := toString (canonicalizeValue value)

def canonicalHash (value : Value) : Bytes32 := blake3 (toCanonicalJson toString value).toUTF8

/-- The object that a derived serializer makes of a struct. -/
def ofStruct (fields : List (String × Value)) : Value := .object (TreeMap.collect fields)

def ofBytes (bytes : List UInt8) : Value := .array (bytes.map fun byte => Value.ofNat byte.toNat)

def ofOption {α : Type} (ofValue : α → Value) : Option α → Value
  | none => .null
  | some value => ofValue value

end AdicModel.Json

namespace AdicModel

open Json

/-- The order in which a hash map of tags yields its entries is unspecified. -/
structure AxesOrder where
  iterate : (Finmap fun _ : String => String) → List (String × String)
  nodup : ∀ axes, ((iterate axes).map Prod.fst).Nodup
  entries : ∀ axes key value, (key, value) ∈ iterate axes ↔ axes.lookup key = some value

variable (timestampText : DateTime → String) (order : AxesOrder)

def MessageId.toValue (id : MessageId) : Value := ofBytes id.asBytes.bytes

def PublicKey.toValue (key : PublicKey) : Value := ofBytes key.asBytes.bytes

def AxisId.toValue (axis : AxisId) : Value := Value.ofNat axis.index.toNat

def QpDigits.toValue (x : QpDigits) : Value :=
  ofStruct [("digits", ofBytes x.digits), ("p", Value.ofNat x.p.toNat)]

def AxisPhi.toValue (phi : AxisPhi) : Value :=
  ofStruct [("axis", phi.axis.toValue), ("qp_digits", phi.qpDigits.toValue)]

def AdicFeatures.toValue (features : AdicFeatures) : Value :=
  ofStruct [("phi", .array (features.phi.map AxisPhi.toValue))]

def ConflictId.toValue (conflict : ConflictId) : Value := .string conflict.name

def axesValue (axes : Finmap fun _ : String => String) : Value :=
  ofStruct ((order.iterate axes).map fun entry => (entry.1, .string entry.2))

def AdicMeta.toValue (metadata : AdicMeta) : Value :=
  ofStruct [("timestamp", .string (timestampText metadata.timestamp)),
    ("axes", axesValue order metadata.axes),
    ("conflict", metadata.conflict.toValue)]

def ValueTransfer.toValue (transfer : ValueTransfer) : Value :=
  ofStruct [("from", ofBytes transfer.sender),
    ("to", ofBytes transfer.recipient),
    ("amount", .number (.posInt transfer.amount)),
    ("nonce", .number (.posInt transfer.nonce))]

namespace AdicMessage

def contentFields (message : AdicMessage) : List (String × Value) :=
  [("parents", .array (message.parents.map MessageId.toValue)),
    ("features", message.features.toValue),
    ("meta", message.metadata.toValue timestampText order),
    ("proposer_pk", message.proposerPk.toValue),
    ("transfer", ofOption ValueTransfer.toValue message.transfer),
    ("data", ofBytes message.data)]

def canonicalMessage (message : AdicMessage) : Value := ofStruct (message.contentFields timestampText order)

def signableMessage (message : AdicMessage) : Value :=
  ofStruct (("id", message.id.toValue) :: message.contentFields timestampText order)

variable (toString : Value → String) (blake3 : ByteArray → Bytes32)

def computeId (message : AdicMessage) : MessageId :=
  ⟨canonicalHash toString blake3 (message.canonicalMessage timestampText order)⟩

def verifyId (message : AdicMessage) : Bool :=
  message.id = message.computeId timestampText order toString blake3

def toBytes (message : AdicMessage) : ByteArray :=
  (toCanonicalJson toString (message.signableMessage timestampText order)).toUTF8

end AdicMessage

end AdicModel

namespace AdicProof.Json

open AdicModel AdicModel.Json

theorem nearestDouble_of_lt {value : Nat} (small : value < 2 ^ 53) : nearestDouble value = value := by
  have exponent : value.log2 - 52 = 0 := by
    by_cases zero : value = 0
    · simp [zero]
    · have bound := (Nat.log2_lt zero).mpr small
      omega
  unfold nearestDouble
  simp [exponent, Nat.mod_one]

def ofDouble (double : Nat) : Number :=
  if double < 2 ^ 53 then .posInt (UInt64.ofNat double) else .float double

theorem canonicalizeNumber_posInt (value : UInt64) :
    canonicalizeNumber (.posInt value) = ofDouble (nearestDouble value.toNat) := by
  have magnitude : |(nearestDouble value.toNat : ℚ)| < 2 ^ 53 ↔ nearestDouble value.toNat < 2 ^ 53 := by
    rw [Nat.abs_cast]
    exact_mod_cast Iff.rfl
  unfold ofDouble
  by_cases small : nearestDouble value.toNat < 2 ^ 53
  · rw [if_pos small]
    apply (if_pos ⟨rfl, magnitude.mpr small⟩).trans
    simp [Number.ofInt, Number.asF64]
  · rw [if_neg small]
    exact if_neg fun both => small (magnitude.mp both.2)

theorem toNat_word {value : Nat} (small : value < 2 ^ 64) : (UInt64.ofNat value).toNat = value :=
  UInt64.toNat_ofNat_of_lt' small

theorem ofDouble_injective : Function.Injective ofDouble := by
  intro first second equal
  unfold ofDouble at equal
  split at equal
  · next small =>
    split at equal
    · next other =>
      have words := congrArg UInt64.toNat (Number.posInt.inj equal)
      rwa [toNat_word (by omega), toNat_word (by omega)] at words
    · nomatch equal
  · split at equal
    · nomatch equal
    · exact_mod_cast Number.float.inj equal

structure Canonical (value : Value) : Prop where
  fixed : canonicalizeValue value = value
  present : value.isNull = false

theorem canonical_string (text : String) : Canonical (.string text) := ⟨rfl, rfl⟩

theorem canonical_ofNat {value : Nat} (small : value < 2 ^ 53) : Canonical (Value.ofNat value) := by
  refine ⟨?_, rfl⟩
  simp only [Value.ofNat, canonicalizeValue]
  rw [canonicalizeNumber_posInt, toNat_word (by omega), nearestDouble_of_lt small, ofDouble, if_pos small]

theorem canonicalizeValues_eq {values : List Value} (canonical : ∀ value ∈ values, Canonical value) :
    canonicalizeValues values = values := by
  induction values with
  | nil => rfl
  | cons value values ih =>
    rw [canonicalizeValues, (canonical value List.mem_cons_self).fixed,
      ih fun other member => canonical other (List.mem_cons_of_mem _ member)]

theorem canonical_array {values : List Value} (canonical : ∀ value ∈ values, Canonical value) :
    Canonical (.array values) := by
  refine ⟨?_, rfl⟩
  rw [canonicalizeValue, canonicalizeValues_eq canonical]

theorem canonical_map {α : Type} {ofValue : α → Value} (canonical : ∀ value, Canonical (ofValue value))
    (values : List α) : Canonical (.array (values.map ofValue)) := by
  apply canonical_array
  intro value member
  obtain ⟨source, _, named⟩ := List.mem_map.mp member
  rw [← named]
  exact canonical source

theorem canonical_ofBytes (bytes : List UInt8) : Canonical (ofBytes bytes) := by
  apply canonical_map fun byte : UInt8 => canonical_ofNat _
  intro byte
  have bound := byte.toNat_lt
  omega

theorem canonicalizeFields_eq {fields : List (String × Value)} (canonical : ∀ field ∈ fields, Canonical field.2) :
    canonicalizeFields fields = fields := by
  induction fields with
  | nil => rfl
  | cons field fields ih =>
    obtain ⟨key, value⟩ := field
    have head := canonical _ List.mem_cons_self
    rw [canonicalizeFields, if_neg (by simp [head.present]), head.fixed,
      ih fun other member => canonical other (List.mem_cons_of_mem _ member)]

theorem canonical_ofStruct {fields : List (String × Value)} (nodup : (fields.map Prod.fst).Nodup)
    (canonical : ∀ field ∈ fields, Canonical field.2) : Canonical (ofStruct fields) := by
  refine ⟨?_, rfl⟩
  have kept : canonicalizeFields (TreeMap.collect fields) = TreeMap.collect fields :=
    canonicalizeFields_eq fun field member => canonical field ((TreeMap.mem_collect nodup).mp member)
  simp only [ofStruct, canonicalizeValue, kept, TreeMap.collect_collect]

theorem ofNat_inj {first second : Nat} (small : first < 2 ^ 64) (other : second < 2 ^ 64)
    (equal : Value.ofNat first = Value.ofNat second) : first = second := by
  have words := congrArg UInt64.toNat (Number.posInt.inj (Value.number.inj equal))
  rwa [toNat_word small, toNat_word other] at words

theorem ofBytes_injective : Function.Injective ofBytes := by
  intro first second equal
  apply List.map_injective_iff.mpr _ (Value.array.inj equal)
  intro byte other same
  have bound := byte.toNat_lt
  have otherBound := other.toNat_lt
  exact UInt8.toNat_inj.mp (ofNat_inj (by omega) (by omega) same)

theorem map_toValue_injective {α : Type} {ofValue : α → Value} (injective : Function.Injective ofValue) :
    Function.Injective fun values : List α => Value.array (values.map ofValue) :=
  fun _ _ equal => List.map_injective_iff.mpr injective (Value.array.inj equal)

end AdicProof.Json

namespace AdicProof

open AdicModel AdicModel.Json AdicProof.Json

variable {timestampText : DateTime → String} {order otherOrder : AxesOrder}

theorem bytes32_injective : Function.Injective fun source : Bytes32 => ofBytes source.bytes := by
  intro first second equal
  have bytes := ofBytes_injective equal
  cases first
  cases second
  congr

theorem messageId_injective : Function.Injective MessageId.toValue := by
  intro first second equal
  exact congrArg MessageId.mk (bytes32_injective equal)

theorem publicKey_injective : Function.Injective PublicKey.toValue := by
  intro first second equal
  exact congrArg PublicKey.mk (bytes32_injective equal)

theorem qpDigits_injective : Function.Injective QpDigits.toValue := by
  intro first second equal
  simp only [QpDigits.toValue, ofStruct, TreeMap.collect, List.foldl, TreeMap.insert, String.reduceLT,
    String.reduceEq, if_false, Value.object.injEq, List.cons.injEq, Prod.mk.injEq, true_and, and_true] at equal
  have base := first.p.toNat_lt
  have otherBase := second.p.toNat_lt
  have digits := ofBytes_injective equal.1
  have p := UInt32.toNat_inj.mp (ofNat_inj (by omega) (by omega) equal.2)
  cases first
  cases second
  congr

theorem axisPhi_injective : Function.Injective AxisPhi.toValue := by
  intro first second equal
  simp only [AxisPhi.toValue, ofStruct, TreeMap.collect, List.foldl, TreeMap.insert, String.reduceLT,
    String.reduceEq, if_false, Value.object.injEq, List.cons.injEq, Prod.mk.injEq, true_and, and_true] at equal
  have index := first.axis.index.toNat_lt
  have otherIndex := second.axis.index.toNat_lt
  have axis := UInt32.toNat_inj.mp (ofNat_inj (by omega) (by omega) equal.1)
  have digits := qpDigits_injective equal.2
  obtain ⟨⟨_⟩, _⟩ := first
  obtain ⟨⟨_⟩, _⟩ := second
  congr

theorem features_injective : Function.Injective AdicFeatures.toValue := by
  intro first second equal
  simp only [AdicFeatures.toValue, ofStruct, TreeMap.collect, List.foldl, TreeMap.insert, Value.object.injEq,
    List.cons.injEq, Prod.mk.injEq, true_and, and_true] at equal
  exact congrArg AdicFeatures.mk (map_toValue_injective axisPhi_injective equal)

theorem axes_nodup (axes : Finmap fun _ : String => String) :
    (((order.iterate axes).map fun entry => (entry.1, Value.string entry.2)).map Prod.fst).Nodup := by
  rw [List.map_map]
  exact order.nodup axes

theorem axesValue_eq_iff {first second : Finmap fun _ : String => String} :
    axesValue order first = axesValue otherOrder second ↔ first = second := by
  have listed {order : AxesOrder} (axes : Finmap fun _ : String => String) (entry : String × Value) :
      entry ∈ (order.iterate axes).map (fun entry => (entry.1, Value.string entry.2)) ↔
        ∃ value, entry.2 = .string value ∧ axes.lookup entry.1 = some value := by
    apply List.mem_map.trans
    apply Iff.intro
    · intro mapped
      obtain ⟨⟨key, value⟩, member, named⟩ := mapped
      rw [← named]
      exact ⟨value, rfl, (order.entries axes key value).mp member⟩
    · intro stored
      obtain ⟨value, text, found⟩ := stored
      refine ⟨(entry.1, value), (order.entries axes entry.1 value).mpr found, ?_⟩
      rw [← text]
  unfold axesValue ofStruct
  rw [Value.object.injEq, TreeMap.collect_eq_iff (axes_nodup first) (axes_nodup second)]
  apply Iff.intro
  · intro same
    apply Finmap.ext_lookup
    intro key
    apply Option.ext
    intro value
    have entry := same (key, .string value)
    rw [listed, listed] at entry
    simpa using entry
  · intro same entry
    rw [listed, listed, same]

theorem meta_eq_iff (timestamps : Function.Injective timestampText) {first second : AdicMeta} :
    first.toValue timestampText order = second.toValue timestampText otherOrder ↔ first = second := by
  simp only [AdicMeta.toValue, ConflictId.toValue, ofStruct, TreeMap.collect, List.foldl, TreeMap.insert,
    String.reduceLT, String.reduceEq, if_true, if_false, Value.object.injEq, List.cons.injEq, Prod.mk.injEq, true_and,
    and_true, Value.string.injEq, axesValue_eq_iff, timestamps.eq_iff]
  obtain ⟨timestamp, axes, ⟨conflict⟩⟩ := first
  obtain ⟨otherTimestamp, otherAxes, ⟨otherConflict⟩⟩ := second
  simp only [AdicMeta.mk.injEq, ConflictId.mk.injEq]
  exact ⟨fun same => ⟨same.2.2, same.1, same.2.1⟩, fun same => ⟨same.2.1, same.2.2, same.1⟩⟩

theorem canonical_messageId (id : MessageId) : Canonical id.toValue := canonical_ofBytes _

theorem canonical_qpDigits (x : QpDigits) : Canonical x.toValue := by
  have base := x.p.toNat_lt
  apply canonical_ofStruct (by simp)
  simp only [List.forall_mem_cons, List.not_mem_nil, false_implies, implies_true, and_true]
  exact ⟨canonical_ofBytes _, canonical_ofNat (by omega)⟩

theorem canonical_axisPhi (phi : AxisPhi) : Canonical phi.toValue := by
  have index := phi.axis.index.toNat_lt
  apply canonical_ofStruct (by simp)
  simp only [List.forall_mem_cons, List.not_mem_nil, false_implies, implies_true, and_true]
  exact ⟨canonical_ofNat (by omega), canonical_qpDigits _⟩

theorem canonical_features (features : AdicFeatures) : Canonical features.toValue := by
  apply canonical_ofStruct (by simp)
  simp only [List.forall_mem_cons, List.not_mem_nil, false_implies, implies_true, and_true]
  exact canonical_map canonical_axisPhi _

theorem canonical_axes (axes : Finmap fun _ : String => String) : Canonical (axesValue order axes) := by
  apply canonical_ofStruct (axes_nodup axes)
  intro field member
  obtain ⟨_, _, named⟩ := List.mem_map.mp member
  rw [← named]
  exact canonical_string _

theorem canonical_meta (metadata : AdicMeta) : Canonical (metadata.toValue timestampText order) := by
  apply canonical_ofStruct (by simp)
  simp only [List.forall_mem_cons, List.not_mem_nil, false_implies, implies_true, and_true]
  exact ⟨canonical_string _, canonical_axes _, canonical_string _⟩

def rounded (transfer : ValueTransfer) : List UInt8 × List UInt8 × Nat × Nat :=
  (transfer.sender, transfer.recipient, nearestDouble transfer.amount.toNat, nearestDouble transfer.nonce.toNat)

def SameContent (first second : AdicMessage) : Prop :=
  first.parents = second.parents ∧ first.features = second.features ∧ first.metadata = second.metadata ∧
    first.proposerPk = second.proposerPk ∧ first.transfer = second.transfer ∧ first.data = second.data

def RoundAlike (first second : AdicMessage) : Prop :=
  first.parents = second.parents ∧ first.features = second.features ∧ first.metadata = second.metadata ∧
    first.proposerPk = second.proposerPk ∧ first.transfer.map rounded = second.transfer.map rounded ∧
    first.data = second.data

theorem canonicalize_ofStruct (fields : List (String × Value)) :
    canonicalizeValue (ofStruct fields) = .object (TreeMap.collect (canonicalizeFields (TreeMap.collect fields))) := by
  simp only [ofStruct, canonicalizeValue, TreeMap.collect_collect]

theorem isNull_number (number : Number) : (Value.number number).isNull = false := rfl

theorem isNull_null : Value.null.isNull = true := rfl

theorem isNull_transfer (transfer : ValueTransfer) : transfer.toValue.isNull = false := rfl

theorem transfer_eq_iff {first second : ValueTransfer} :
    canonicalizeValue first.toValue = canonicalizeValue second.toValue ↔ rounded first = rounded second := by
  simp only [ValueTransfer.toValue, canonicalize_ofStruct, TreeMap.collect, List.foldl, TreeMap.insert,
    String.reduceLT, String.reduceEq, if_true, if_false, canonicalizeFields, canonicalizeValue,
    canonicalizeNumber_posInt, (canonical_ofBytes _).fixed, (canonical_ofBytes _).present, isNull_number,
    Bool.false_eq_true, Value.object.injEq, List.cons.injEq, Prod.mk.injEq, true_and, and_true, Value.number.injEq,
    ofDouble_injective.eq_iff, ofBytes_injective.eq_iff, rounded]
  exact ⟨fun same => ⟨same.2.1, same.2.2.2, same.1, same.2.2.1⟩, fun same => ⟨same.2.2.1, same.1, same.2.2.2, same.2.1⟩⟩

def canonicalFields (timestampText : DateTime → String) (order : AxesOrder) (id : Option MessageId)
    (message : AdicMessage) : List (String × Value) :=
  ("data", ofBytes message.data) :: ("features", message.features.toValue) ::
    ((id.map fun id => ("id", id.toValue)).toList ++
      ("meta", message.metadata.toValue timestampText order) ::
      ("parents", .array (message.parents.map MessageId.toValue)) ::
      ("proposer_pk", message.proposerPk.toValue) ::
      (message.transfer.map fun transfer => ("transfer", canonicalizeValue transfer.toValue)).toList)

theorem canonical_form (id : Option MessageId) (message : AdicMessage) :
    canonicalizeValue (ofStruct ((id.map fun id => ("id", id.toValue)).toList ++
        message.contentFields timestampText order)) =
      .object (canonicalFields timestampText order id message) := by
  have proposer : Canonical message.proposerPk.toValue := canonical_ofBytes _
  rw [canonicalize_ofStruct]
  apply congrArg Value.object
  cases id
  all_goals cases transfer : message.transfer
  all_goals
    simp only [AdicMessage.contentFields, canonicalFields, transfer, ofOption, Option.map_none, Option.map_some,
      Option.toList_none, Option.toList_some, List.nil_append, List.cons_append, TreeMap.collect, List.foldl,
      TreeMap.insert, String.reduceLT, String.reduceEq, if_true, if_false,
      canonicalizeFields, isNull_null, isNull_transfer, Bool.false_eq_true, proposer.present, proposer.fixed,
      (canonical_ofBytes _).present, (canonical_ofBytes _).fixed, (canonical_features _).present,
      (canonical_features _).fixed, (canonical_messageId _).present, (canonical_messageId _).fixed,
      (canonical_meta _).present, (canonical_meta _).fixed, (canonical_map canonical_messageId _).present,
      (canonical_map canonical_messageId _).fixed]

theorem transfers_eq_iff {first second : Option ValueTransfer} :
    (first.map fun transfer => ("transfer", canonicalizeValue transfer.toValue)).toList =
        (second.map fun transfer => ("transfer", canonicalizeValue transfer.toValue)).toList ↔
      first.map rounded = second.map rounded := by
  cases first with
  | none =>
    cases second with
    | none => simp
    | some transfer => simp
  | some transfer =>
    cases second with
    | none => simp
    | some other => simp [transfer_eq_iff]

theorem canonicalFields_eq_iff (timestamps : Function.Injective timestampText) (id otherId : Option MessageId)
    {first second : AdicMessage} :
    canonicalFields timestampText order id first = canonicalFields timestampText otherOrder otherId second ↔
      id = otherId ∧ RoundAlike first second := by
  simp only [canonicalFields, List.cons.injEq, Prod.mk.injEq, true_and,
    ofBytes_injective.eq_iff, features_injective.eq_iff]
  cases id
  all_goals cases otherId
  all_goals
    simp only [Option.map_none, Option.map_some, Option.toList_none, Option.toList_some, List.nil_append,
      List.cons_append, List.cons.injEq, Prod.mk.injEq, true_and, String.reduceEq, false_and, and_false, RoundAlike,
      meta_eq_iff timestamps, publicKey_injective.eq_iff, messageId_injective.eq_iff,
      (map_toValue_injective messageId_injective).eq_iff, transfers_eq_iff, Option.some.injEq, reduceCtorEq]
  · tauto
  · tauto

theorem canonicalMessage_form (message : AdicMessage) :
    canonicalizeValue (message.canonicalMessage timestampText order) =
      .object (canonicalFields timestampText order none message) := canonical_form none message

theorem signableMessage_form (message : AdicMessage) :
    canonicalizeValue (message.signableMessage timestampText order) =
      .object (canonicalFields timestampText order (some message.id) message) := canonical_form (some message.id) message

/-- Different contents are hashed and signed as different texts, unless they round alike. -/
theorem message_texts_differ_iff {toString : Value → String} (timestamps : Function.Injective timestampText)
    (texts : Function.Injective toString) (first second : AdicMessage) :
    (¬ SameContent first second →
        toCanonicalJson toString (first.canonicalMessage timestampText order) ≠
            toCanonicalJson toString (second.canonicalMessage timestampText otherOrder) ∧
          first.toBytes timestampText order toString ≠ second.toBytes timestampText otherOrder toString) ↔
      (RoundAlike first second → SameContent first second) := by
  have hashed : toCanonicalJson toString (first.canonicalMessage timestampText order) =
      toCanonicalJson toString (second.canonicalMessage timestampText otherOrder) ↔ RoundAlike first second := by
    apply texts.eq_iff.trans
    rw [canonicalMessage_form, canonicalMessage_form, Value.object.injEq, canonicalFields_eq_iff timestamps]
    exact and_iff_right rfl
  have signed : first.toBytes timestampText order toString = second.toBytes timestampText otherOrder toString ↔
      first.id = second.id ∧ RoundAlike first second := by
    apply String.toByteArray_inj.trans
    apply texts.eq_iff.trans
    rw [signableMessage_form, signableMessage_form, Value.object.injEq, canonicalFields_eq_iff timestamps,
      Option.some.injEq]
  rw [Ne, hashed, Ne, signed]
  apply Iff.intro
  · intro apart alike
    by_contra differ
    exact (apart differ).1 alike
  · intro same differ
    have apart : ¬ RoundAlike first second := fun alike => differ (same alike)
    exact ⟨apart, fun both => apart both.2⟩

def byKey : AxesOrder where
  iterate axes := axes.keys.sort.map fun key => (key, (axes.lookup key).getD "")
  nodup axes := by
    rw [List.map_map]
    have keys : (Prod.fst ∘ fun key => (key, (axes.lookup key).getD "")) = id := rfl
    rw [keys, List.map_id]
    exact Finset.sort_nodup _ _
  entries axes key value := by
    rw [List.mem_map]
    apply Iff.intro
    · intro listed
      obtain ⟨found, member, pair⟩ := listed
      obtain ⟨stored, present⟩ := Finmap.mem_iff.mp (Finmap.mem_keys.mp ((Finset.mem_sort _).mp member))
      rw [present, Option.getD_some] at pair
      rw [← (Prod.mk.inj pair).1, ← (Prod.mk.inj pair).2]
      exact present
    · intro present
      have member : key ∈ axes.keys := Finmap.mem_keys.mpr (Finmap.mem_of_lookup_eq_some present)
      exact ⟨key, (Finset.mem_sort _).mpr member, by rw [present, Option.getD_some]⟩

def instantText (instant : DateTime) : String :=
  if instant = ⟨0, 0⟩ then "1970-01-01T00:00:00Z"
  else String.ofList
    (signText instant.timestamp :: (digitsText instant.timestamp.natAbs ++ '.' :: digitsText instant.nanos.toNat))

theorem instantText_injective : Function.Injective instantText := by
  intro first second equal
  have dateless (value : Int) (rest : List Char) : "1970-01-01T00:00:00Z" ≠ String.ofList (signText value :: rest) := by
    intro same
    have characters := congrArg (fun text => text.toList.head?) same
    have head : some '1' = some (signText value) := by simpa using characters
    have sign := signText_not_digit value
    rw [← Option.some.inj head] at sign
    exact absurd sign (by decide)
  have stops (rest : List Char) : ∀ c, ('.' :: rest).head? = some c → c.isDigit = false := by
    intro c found
    rw [← Option.some.inj found]
    rfl
  have ends : ∀ c, ([] : List Char).head? = some c → c.isDigit = false := fun c found => nomatch found
  unfold instantText at equal
  by_cases start : first = ⟨0, 0⟩
  · rw [if_pos start] at equal
    by_cases otherStart : second = ⟨0, 0⟩
    · rw [start, otherStart]
    · rw [if_neg otherStart] at equal
      exact (dateless _ _ equal).elim
  · rw [if_neg start] at equal
    by_cases otherStart : second = ⟨0, 0⟩
    · rw [if_pos otherStart] at equal
      exact (dateless _ _ equal.symm).elim
    · rw [if_neg otherStart] at equal
      obtain ⟨sign, seconds⟩ := List.cons.inj (String.ofList_injective equal)
      have whole := digits_splits seconds (stops _) (stops _)
      have fraction := @digits_splits _ _ [] [] (by simpa using whole.2) ends ends
      cases first
      cases second
      congr
      · exact signed_inj sign whole.1
      · exact UInt32.toNat_inj.mp fraction.1

def transferring (amount : UInt64) : AdicMessage where
  id := ⟨Bytes32.replicate 0⟩
  parents := []
  features := ⟨[]⟩
  metadata := AdicMeta.new ⟨0, 0⟩
  proposerPk := ⟨Bytes32.replicate 1⟩
  signature := Signature.empty
  transfer := some ⟨List.replicate 32 1, List.replicate 32 2, amount, 0⟩
  data := []

variable {first second : UInt64}

theorem transferring_alike :
    RoundAlike (transferring first) (transferring second) ↔
      nearestDouble first.toNat = nearestDouble second.toNat := by
  simp [RoundAlike, transferring, rounded]

theorem transferring_same :
    SameContent (transferring first) (transferring second) ↔ first = second := by
  simp [SameContent, transferring]

theorem transferring_fields
    (alike : nearestDouble first.toNat = nearestDouble second.toNat) (id : Option MessageId) :
    canonicalFields timestampText order id (transferring first) =
      canonicalFields timestampText order id (transferring second) := by
  simp [canonicalFields, transferring, transfer_eq_iff, rounded, alike]

theorem message_texts_differ_one_two :
    ¬ SameContent (transferring 1) (transferring 2) ∧
      toCanonicalJson compactText ((transferring 1).canonicalMessage instantText byKey) ≠
        toCanonicalJson compactText ((transferring 2).canonicalMessage instantText byKey) ∧
      (transferring 1).toBytes instantText byKey compactText ≠ (transferring 2).toBytes instantText byKey compactText := by
  have differ : ¬ SameContent (transferring 1) (transferring 2) := mt transferring_same.mp (by decide)
  have apart : ¬ RoundAlike (transferring 1) (transferring 2) := mt transferring_alike.mp (by decide +kernel)
  exact ⟨differ, (message_texts_differ_iff instantText_injective compactText_injective _ _).mpr
    (fun alike => (apart alike).elim) differ⟩

/-- Two transfers whose amounts differ by one base unit are hashed and signed as one text, and have one id. -/
theorem amounts_round_alike :
    ∃ first second, ¬ SameContent first second ∧
      ∀ (timestampText : DateTime → String) (order : AxesOrder) (toString : Value → String)
        (blake3 : ByteArray → Bytes32),
        toCanonicalJson toString (first.canonicalMessage timestampText order) =
            toCanonicalJson toString (second.canonicalMessage timestampText order) ∧
          first.toBytes timestampText order toString = second.toBytes timestampText order toString ∧
          first.computeId timestampText order toString blake3 = second.computeId timestampText order toString blake3 := by
  have alike : nearestDouble (9007199254740992 : UInt64).toNat = nearestDouble (9007199254740993 : UInt64).toNat := by
    decide +kernel
  refine ⟨transferring 9007199254740992, transferring 9007199254740993, mt transferring_same.mp (by decide), ?_⟩
  intro timestampText order toString blake3
  have hashed : toCanonicalJson toString
        ((transferring 9007199254740992).canonicalMessage timestampText order) =
      toCanonicalJson toString ((transferring 9007199254740993).canonicalMessage timestampText order) := by
    rw [toCanonicalJson, canonicalMessage_form, transferring_fields alike, ← canonicalMessage_form, toCanonicalJson]
  have signed : toCanonicalJson toString
        ((transferring 9007199254740992).signableMessage timestampText order) =
      toCanonicalJson toString ((transferring 9007199254740993).signableMessage timestampText order) := by
    rw [toCanonicalJson, signableMessage_form, transferring_fields alike]
    exact congrArg toString (signableMessage_form _).symm
  exact ⟨hashed, congrArg String.toUTF8 signed, congrArg (fun text : String => MessageId.mk (blake3 text.toUTF8)) hashed⟩

end AdicProof
