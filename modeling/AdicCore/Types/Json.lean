import Mathlib

namespace AdicModel.Json

/-- An integer is never equal to a float. Floats are finite. -/
inductive Number where
  | posInt (value : UInt64)
  | negInt (value : Int)
  | float (value : ℚ)
deriving DecidableEq

inductive Value where
  | null
  | bool (value : Bool)
  | number (value : Number)
  | string (value : String)
  | array (values : List Value)
  | object (fields : List (String × Value))

mutual

def Value.decEq : (first second : Value) → Decidable (first = second)
  | .null, .null => isTrue rfl
  | .bool a, .bool b => decidable_of_iff (a = b) (by simp)
  | .number a, .number b => decidable_of_iff (a = b) (by simp)
  | .string a, .string b => decidable_of_iff (a = b) (by simp)
  | .array a, .array b => @decidable_of_iff _ (a = b) (by simp) (Value.decEqList a b)
  | .object a, .object b => @decidable_of_iff _ (a = b) (by simp) (Value.decEqFields a b)
  | .null, .bool _ | .null, .number _ | .null, .string _ | .null, .array _ | .null, .object _
  | .bool _, .null | .bool _, .number _ | .bool _, .string _ | .bool _, .array _ | .bool _, .object _
  | .number _, .null | .number _, .bool _ | .number _, .string _ | .number _, .array _ | .number _, .object _
  | .string _, .null | .string _, .bool _ | .string _, .number _ | .string _, .array _ | .string _, .object _
  | .array _, .null | .array _, .bool _ | .array _, .number _ | .array _, .string _ | .array _, .object _
  | .object _, .null | .object _, .bool _ | .object _, .number _ | .object _, .string _ | .object _, .array _ =>
    isFalse (by simp)

def Value.decEqList : (first second : List Value) → Decidable (first = second)
  | [], [] => isTrue rfl
  | a :: as, b :: bs =>
    @decidable_of_iff _ (a = b ∧ as = bs) (by simp) (@instDecidableAnd _ _ (Value.decEq a b) (Value.decEqList as bs))
  | [], _ :: _ | _ :: _, [] => isFalse (by simp)

def Value.decEqFields : (first second : List (String × Value)) → Decidable (first = second)
  | [], [] => isTrue rfl
  | (k, a) :: as, (l, b) :: bs =>
    @decidable_of_iff _ (k = l ∧ a = b ∧ as = bs) (by simp [and_assoc]) (@instDecidableAnd _ _ inferInstance
      (@instDecidableAnd _ _ (Value.decEq a b) (Value.decEqFields as bs)))
  | [], _ :: _ | _ :: _, [] => isFalse (by simp)

end

instance : DecidableEq Value := Value.decEq

/-- The double nearest to a natural number, the even one of two. -/
def nearestDouble (value : Nat) : Nat :=
  let unit := 2 ^ (Nat.log2 value - 52)
  let below := value / unit
  let rest := value % unit
  if 2 * rest < unit ∨ 2 * rest = unit ∧ below % 2 = 0 then below * unit else (below + 1) * unit

namespace Number

def asU64 : Number → Option UInt64
  | .posInt value => some value
  | .negInt _ => none
  | .float _ => none

def asF64 : Number → ℚ
  | .posInt value => nearestDouble value.toNat
  | .negInt value => -(nearestDouble value.natAbs : ℚ)
  | .float value => value

end Number

namespace Value

def asU64 : Value → Option UInt64
  | .number value => value.asU64
  | _ => none

def asF64 : Value → Option ℚ
  | .number value => some value.asF64
  | _ => none

def asArray : Value → Option (List Value)
  | .array values => some values
  | _ => none

def ofNat (value : Nat) : Value := .number (.posInt (UInt64.ofNat value))

def ofFloat (value : ℚ) : Value := .number (.float value)

end Value

end AdicModel.Json
