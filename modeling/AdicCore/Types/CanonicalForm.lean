import AdicCore.Types.MessageIdentity

namespace AdicModel.Json

inductive CanonicalJsonError where
  | serializationError (error : String)
  | invalidStructure (message : String)

variable (toString : Value → String) (fromStr : String → Except String Value) (blake3 : ByteArray → Bytes32)

def parseAndVerifyHash (json : String) (expectedHash : Bytes32) : Except CanonicalJsonError Value :=
  match fromStr json with
  | .error error => .error (.serializationError error)
  | .ok value =>
    if canonicalHash toString blake3 value ≠ expectedHash then .error (.invalidStructure "Hash mismatch")
    else .ok value

end AdicModel.Json

namespace AdicProof.Json

open AdicModel AdicModel.Json

inductive Rearranges : Value → Value → Prop
  | order {fields others : List (String × Value)} (distinct : (fields.map Prod.fst).Nodup) (same : fields.Perm others) :
      Rearranges (.object fields) (.object others)
  | null (before after : List (String × Value)) (key : String) (fresh : key ∉ (before ++ after).map Prod.fst) :
      Rearranges (.object (before ++ after)) (.object (before ++ (key, .null) :: after))
  | field (before after : List (String × Value)) (key : String) {value other : Value} (inside : Rearranges value other) :
      Rearranges (.object (before ++ (key, value) :: after)) (.object (before ++ (key, other) :: after))
  | element (before after : List Value) {value other : Value} (inside : Rearranges value other) :
      Rearranges (.array (before ++ value :: after)) (.array (before ++ other :: after))

def IsDouble (value : ℚ) : Prop :=
  ∃ mantissa scale : ℤ, |mantissa| < 2 ^ 53 ∧ -1074 ≤ scale ∧ scale ≤ 971 ∧ value = mantissa * 2 ^ scale

def LegalNumber : Number → Prop
  | .posInt _ => True
  | .negInt value => -2 ^ 63 ≤ value ∧ value < 0
  | .float value => IsDouble value

mutual

def Legal : Value → Prop
  | .object fields => TreeMap.Ascending fields ∧ LegalFields fields
  | .array values => LegalValues values
  | .number number => LegalNumber number
  | .string _ | .bool _ | .null => True

def LegalValues : List Value → Prop
  | [] => True
  | value :: values => Legal value ∧ LegalValues values

def LegalFields : List (String × Value) → Prop
  | [] => True
  | (_, value) :: fields => Legal value ∧ LegalFields fields

end

section

theorem isNull_canonicalize (value : Value) : (canonicalizeValue value).isNull = value.isNull := by
  cases value <;> rfl

theorem canonicalize_object (fields : List (String × Value)) :
    canonicalizeValue (.object fields) = .object (TreeMap.collect (canonicalizeFields fields)) := by
  simp only [canonicalizeValue, TreeMap.collect_collect]

theorem asF64_ofInt {value : ℤ} (small : |value| < 2 ^ 53) : (Number.ofInt value).asF64 = value := by
  rw [abs_lt] at small
  unfold Number.ofInt
  split
  · next positive =>
    have word : (UInt64.ofNat value.toNat).toNat = value.toNat := toNat_word (by omega)
    have exact : ((value.toNat : ℤ) : ℚ) = value := by rw [Int.toNat_of_nonneg positive]
    rw [Number.asF64, word, nearestDouble_of_lt (by omega)]
    exact_mod_cast exact
  · next negative =>
    have exact : (value.natAbs : ℤ) = -value := by omega
    have same : ((value.natAbs : ℤ) : ℚ) = ((-value : ℤ) : ℚ) := by rw [exact]
    rw [Int.cast_natCast, Int.cast_neg] at same
    rw [Number.asF64, nearestDouble_of_lt (by omega), same, neg_neg]

theorem canonicalizeNumber_cases (number : Number) :
    (∃ value : ℤ, |value| < 2 ^ 53 ∧ number.asF64 = value ∧ canonicalizeNumber number = .ofInt value) ∨
      ¬ (number.asF64.isInt ∧ |number.asF64| < 2 ^ 53) ∧ canonicalizeNumber number = .float number.asF64 := by
  unfold canonicalizeNumber
  dsimp only
  split
  · next whole =>
    left
    have exact : number.asF64 = (number.asF64.num : ℚ) := (Rat.coe_int_num_of_den_eq_one (by simpa [Rat.isInt] using whole.1)).symm
    refine ⟨number.asF64.num, ?_, exact, rfl⟩
    have bound := whole.2
    rw [exact] at bound
    exact_mod_cast bound
  · next fraction => exact .inr ⟨fraction, rfl⟩

theorem canonicalizeNumber_twice (number : Number) :
    canonicalizeNumber (canonicalizeNumber number) = canonicalizeNumber number := by
  rcases canonicalizeNumber_cases number with ⟨value, small, _, same⟩ | ⟨fraction, same⟩
  · have bound : |(value : ℚ)| < 2 ^ 53 := by
      exact_mod_cast small
    rw [same]
    unfold canonicalizeNumber
    rw [asF64_ofInt small]
    exact if_pos ⟨rfl, bound⟩
  · rw [same]
    unfold canonicalizeNumber
    exact if_neg fraction

mutual

theorem canonicalizeValue_twice : ∀ value, canonicalizeValue (canonicalizeValue value) = canonicalizeValue value
  | .object fields => by
    have kept : canonicalizeFields (TreeMap.collect (canonicalizeFields fields)) =
        TreeMap.collect (canonicalizeFields fields) := by
      apply canonicalizeFields_eq
      intro field member
      exact canonical_fields fields field (TreeMap.mem_of_mem_collect member)
    rw [canonicalize_object, canonicalize_object, kept, TreeMap.collect_collect]
  | .array values => by
    rw [canonicalizeValue, canonicalizeValue, canonicalizeValues_twice values]
  | .number number => by
    rw [canonicalizeValue, canonicalizeValue, canonicalizeNumber_twice]
  | .string _ => rfl
  | .bool _ => rfl
  | .null => rfl

theorem canonicalizeValues_twice : ∀ values, canonicalizeValues (canonicalizeValues values) = canonicalizeValues values
  | [] => rfl
  | value :: values => by
    rw [canonicalizeValues, canonicalizeValues, canonicalizeValue_twice value, canonicalizeValues_twice values]

theorem canonical_fields : ∀ fields, ∀ field ∈ canonicalizeFields fields, Canonical field.2
  | [], _, member => nomatch member
  | (key, value) :: fields, field, member => by
    unfold canonicalizeFields at member
    split at member
    · exact canonical_fields fields field member
    · next present =>
      rcases List.mem_cons.mp member with same | later
      · have notNull : value.isNull = false := by simpa using present
        rw [same]
        exact ⟨canonicalizeValue_twice value, (isNull_canonicalize value).trans notNull⟩
      · exact canonical_fields fields field later

end

theorem canonicalizeFields_append (before after : List (String × Value)) :
    canonicalizeFields (before ++ after) = canonicalizeFields before ++ canonicalizeFields after := by
  induction before with
  | nil => rfl
  | cons field before ih =>
    obtain ⟨key, value⟩ := field
    rw [List.cons_append, canonicalizeFields, canonicalizeFields]
    split
    · exact ih
    · rw [ih, List.cons_append]

theorem canonicalizeValues_append (before after : List Value) :
    canonicalizeValues (before ++ after) = canonicalizeValues before ++ canonicalizeValues after := by
  induction before with
  | nil => rfl
  | cons value before ih => rw [List.cons_append, canonicalizeValues, canonicalizeValues, ih, List.cons_append]

variable {fields : List (String × Value)}

theorem mem_canonicalizeFields {entry : String × Value} :
    entry ∈ canonicalizeFields fields ↔
      ∃ value, (entry.1, value) ∈ fields ∧ value.isNull = false ∧ entry.2 = canonicalizeValue value := by
  induction fields with
  | nil => simp [canonicalizeFields]
  | cons field fields ih =>
    obtain ⟨key, value⟩ := field
    obtain ⟨name, content⟩ := entry
    unfold canonicalizeFields
    split
    · next null =>
      rw [ih]
      constructor
      · rintro ⟨other, member, present, same⟩
        exact ⟨other, List.mem_cons_of_mem _ member, present, same⟩
      · rintro ⟨other, member, present, same⟩
        rcases List.mem_cons.mp member with here | later
        · cases here
          rw [null] at present
          cases present
        · exact ⟨other, later, present, same⟩
    · next present =>
      rw [List.mem_cons, ih]
      constructor
      · intro listed
        rcases listed with here | ⟨other, member, notNull, same⟩
        · cases here
          exact ⟨value, List.mem_cons_self, by simpa using present, rfl⟩
        · exact ⟨other, List.mem_cons_of_mem _ member, notNull, same⟩
      · rintro ⟨other, member, notNull, same⟩
        rcases List.mem_cons.mp member with here | later
        · cases here
          exact .inl (Prod.ext rfl same)
        · exact .inr ⟨other, later, notNull, same⟩

theorem nodup_canonicalizeFields (distinct : (fields.map Prod.fst).Nodup) :
    ((canonicalizeFields fields).map Prod.fst).Nodup := by
  induction fields with
  | nil => simp [canonicalizeFields]
  | cons field fields ih =>
    obtain ⟨key, value⟩ := field
    rw [List.map_cons, List.nodup_cons] at distinct
    unfold canonicalizeFields
    split
    · exact ih distinct.2
    · rw [List.map_cons, List.nodup_cons]
      refine ⟨?_, ih distinct.2⟩
      intro listed
      obtain ⟨entry, member, same⟩ := List.mem_map.mp listed
      obtain ⟨other, found, _⟩ := mem_canonicalizeFields.mp member
      rw [same] at found
      exact distinct.1 (List.mem_map.mpr ⟨_, found, rfl⟩)

theorem Rearranges.isNull {value other : Value} (step : Rearranges value other) : value.isNull = other.isNull := by
  cases step <;> rfl

theorem Rearranges.canonical_eq {value other : Value} (step : Rearranges value other) :
    canonicalizeValue value = canonicalizeValue other := by
  induction step with
  | order distinct same =>
    have distinct' := (same.map Prod.fst).nodup_iff.mp distinct
    rw [canonicalize_object, canonicalize_object, Value.object.injEq,
      TreeMap.collect_eq_iff (nodup_canonicalizeFields distinct) (nodup_canonicalizeFields distinct')]
    intro entry
    simp only [mem_canonicalizeFields, same.mem_iff]
  | null before after key fresh =>
    rw [canonicalize_object, canonicalize_object, canonicalizeFields_append, canonicalizeFields_append,
      canonicalizeFields]
    rfl
  | field before after key inside ih =>
    rw [canonicalize_object, canonicalize_object, canonicalizeFields_append, canonicalizeFields_append,
      canonicalizeFields, canonicalizeFields, inside.isNull, ih]
  | element before after inside ih =>
    rw [canonicalizeValue, canonicalizeValue, canonicalizeValues_append, canonicalizeValues_append,
      canonicalizeValues, canonicalizeValues, ih]

theorem IsDouble.neg {value : ℚ} (double : IsDouble value) : IsDouble (-value) := by
  obtain ⟨mantissa, scale, small, low, high, same⟩ := double
  refine ⟨-mantissa, scale, by rwa [abs_neg], low, high, ?_⟩
  rw [same]
  push_cast
  ring

theorem isDouble_units {count scale : Nat} (small : count ≤ 2 ^ 53) (low : scale ≤ 12) :
    IsDouble ((count * 2 ^ scale : Nat) : ℚ) := by
  by_cases last : count = 2 ^ 53
  · refine ⟨2 ^ 52, scale + 1, by norm_num, by omega, by omega, ?_⟩
    rw [last, zpow_add_one₀ (by norm_num), zpow_natCast]
    push_cast
    ring
  · refine ⟨count, scale, ?_, by omega, by omega, ?_⟩
    · rw [Nat.abs_cast]
      exact_mod_cast (show count < 2 ^ 53 by omega)
    · rw [zpow_natCast]
      push_cast
      rfl

theorem isDouble_nearestDouble {value : Nat} (small : value < 2 ^ 64) : IsDouble (nearestDouble value) := by
  have scale : value.log2 - 52 ≤ 11 := by
    by_cases zero : value = 0
    · simp [zero]
    · have bound := (Nat.log2_lt zero).mpr small
      omega
  have units : value / 2 ^ (value.log2 - 52) < 2 ^ 53 := by
    apply Nat.div_lt_of_lt_mul
    rw [← pow_add]
    apply Nat.lt_log2_self.trans_le
    apply Nat.pow_le_pow_right
    · norm_num
    · omega
  unfold nearestDouble
  dsimp only
  split
  · exact isDouble_units units.le (by omega)
  · exact isDouble_units units (by omega)

theorem isDouble_asF64 {number : Number} (legal : LegalNumber number) : IsDouble number.asF64 := by
  cases number with
  | posInt value => exact isDouble_nearestDouble value.toNat_lt
  | negInt value =>
    have bounds : -2 ^ 63 ≤ value ∧ value < 0 := legal
    exact (isDouble_nearestDouble (by omega)).neg
  | float value => exact legal

theorem legal_number {number : Number} (legal : LegalNumber number) : LegalNumber (canonicalizeNumber number) := by
  rcases canonicalizeNumber_cases number with ⟨value, small, _, same⟩ | ⟨_, same⟩
  · rw [same]
    rw [abs_lt] at small
    unfold Number.ofInt
    split
    · trivial
    · exact ⟨by omega, by omega⟩
  · rw [same]
    exact isDouble_asF64 legal

theorem legalFields_iff : LegalFields fields ↔ ∀ field ∈ fields, Legal field.2 := by
  induction fields with
  | nil => simp [LegalFields]
  | cons field fields ih => simp [LegalFields, ih]

mutual

theorem legal_canonicalize : ∀ value, Legal value → Legal (canonicalizeValue value)
  | .object fields, legal => by
    rw [canonicalize_object]
    refine ⟨TreeMap.ascending_collect _, ?_⟩
    rw [legalFields_iff]
    intro field member
    exact legal_canonicalizeFields fields legal.2 field (TreeMap.mem_of_mem_collect member)
  | .array values, legal => legal_canonicalizeValues values legal
  | .number _, legal => legal_number legal
  | .string _, _ => trivial
  | .bool _, _ => trivial
  | .null, _ => trivial

theorem legal_canonicalizeValues : ∀ values, LegalValues values → LegalValues (canonicalizeValues values)
  | [], _ => trivial
  | value :: values, legal => ⟨legal_canonicalize value legal.1, legal_canonicalizeValues values legal.2⟩

theorem legal_canonicalizeFields : ∀ fields, LegalFields fields → ∀ field ∈ canonicalizeFields fields, Legal field.2
  | [], _, _, member => nomatch member
  | (_, value) :: fields, legal, field, member => by
    unfold canonicalizeFields at member
    split at member
    · exact legal_canonicalizeFields fields legal.2 field member
    · rcases List.mem_cons.mp member with same | later
      · rw [same]
        exact legal_canonicalize value legal.1
      · exact legal_canonicalizeFields fields legal.2 field later

end

end

/-- The canonical form is a normal form up to key order and null fields, and its text passes its own check. -/
theorem canonical_normal_form (toString : Value → String) (fromStr : String → Except String Value)
    (blake3 : ByteArray → Bytes32) (parses : ∀ value, Legal value → fromStr (toString value) = .ok value) :
    (∀ value, canonicalizeValue (canonicalizeValue value) = canonicalizeValue value) ∧
      (∀ value other, Relation.EqvGen Rearranges value other → canonicalizeValue value = canonicalizeValue other) ∧
      ∀ value, Legal value → parseAndVerifyHash toString fromStr blake3 (toCanonicalJson toString value)
        (canonicalHash toString blake3 value) = .ok (canonicalizeValue value) := by
  refine ⟨canonicalizeValue_twice, ?_, ?_⟩
  · intro value other rearranged
    induction rearranged with
    | rel _ _ step => exact step.canonical_eq
    | refl _ => rfl
    | symm _ _ _ ih => exact ih.symm
    | trans _ _ _ _ _ ih ih' => exact ih.trans ih'
  · intro value legal
    have hashed : canonicalHash toString blake3 (canonicalizeValue value) = canonicalHash toString blake3 value := by
      unfold canonicalHash toCanonicalJson
      rw [canonicalizeValue_twice]
    unfold parseAndVerifyHash toCanonicalJson
    rw [parses _ (legal_canonicalize value legal)]
    dsimp only
    rw [hashed]
    exact if_neg (not_not.mpr rfl)

open Classical in
noncomputable def fromCompact (json : String) : Except String Value :=
  if printed : ∃ value, compactText value = json then .ok printed.choose else .error "expected value"

theorem fromCompact_compactText (value : Value) : fromCompact (compactText value) = .ok value := by
  have printed : ∃ other, compactText other = compactText value := ⟨value, rfl⟩
  unfold fromCompact
  rw [dif_pos printed]
  exact congrArg Except.ok (compactText_injective printed.choose_spec)

theorem canonical_normal_form_compact :
    (∀ value, Legal value → fromCompact (compactText value) = .ok value) ∧
      (∀ value, canonicalizeValue (canonicalizeValue value) = canonicalizeValue value) ∧
      (∀ value other, Relation.EqvGen Rearranges value other → canonicalizeValue value = canonicalizeValue other) ∧
      ∀ value, Legal value → parseAndVerifyHash compactText fromCompact (fun _ => .replicate 0)
        (toCanonicalJson compactText value) (canonicalHash compactText (fun _ => .replicate 0) value) =
          .ok (canonicalizeValue value) :=
  ⟨fun value _ => fromCompact_compactText value,
    canonical_normal_form compactText fromCompact (fun _ => .replicate 0) fun value _ => fromCompact_compactText value⟩

end AdicProof.Json
