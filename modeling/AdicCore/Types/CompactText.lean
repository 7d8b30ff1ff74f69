import AdicCore.Types.Json

namespace AdicProof.Json

open AdicModel.Json

def digitsText (value : Nat) : List Char := Nat.toDigits 10 value

def signText (value : Int) : Char := if value < 0 then '-' else '+'

def numberText : Number → List Char
  | .posInt value => digitsText value.toNat
  | .negInt value => signText value :: digitsText value.natAbs
  | .float value => signText value.num :: (digitsText value.num.natAbs ++ '/' :: digitsText value.den)

def hexDigit (value : Nat) : Char := Nat.digitChar value

def escape (c : Char) : List Char :=
  if c = '"' then ['\\', '"']
  else if c = '\\' then ['\\', '\\']
  else if c.toNat < 32 then
    match c.toNat with
    | 8 => ['\\', 'b']
    | 9 => ['\\', 't']
    | 10 => ['\\', 'n']
    | 12 => ['\\', 'f']
    | 13 => ['\\', 'r']
    | code => ['\\', 'u', '0', '0', hexDigit (code / 16), hexDigit (code % 16)]
  else [c]

def stringText (text : String) : List Char := '"' :: (text.toList.flatMap escape ++ ['"'])

mutual

def valueText : Value → List Char
  | .null => ['n', 'u', 'l', 'l']
  | .bool true => ['t', 'r', 'u', 'e']
  | .bool false => ['f', 'a', 'l', 's', 'e']
  | .number number => numberText number
  | .string text => stringText text
  | .array values => '[' :: elementsText true values
  | .object fields => '{' :: membersText true fields

def elementsText (first : Bool) : List Value → List Char
  | [] => [']']
  | value :: values => (if first then [] else [',']) ++ valueText value ++ elementsText false values

def membersText (first : Bool) : List (String × Value) → List Char
  | [] => ['}']
  | (key, value) :: fields =>
    (if first then [] else [',']) ++ stringText key ++ ':' :: valueText value ++ membersText false fields

end

def compactText (value : Value) : String := String.ofList (valueText value)

example : compactText (.object [("a", .array [Value.ofNat 1, .null]), ("b", .string "x\ny")]) =
    "\x7b\"a\":[1,null],\"b\":\"x\\ny\"\x7d" := by decide

def Closed (rest : List Char) : Prop := ∀ c, rest.head? = some c → c.isDigit = false ∧ c ≠ '/'

theorem digits_splits {first second : Nat} {rest other : List Char}
    (equal : digitsText first ++ rest = digitsText second ++ other)
    (closed : ∀ c, rest.head? = some c → c.isDigit = false)
    (otherClosed : ∀ c, other.head? = some c → c.isDigit = false) : first = second ∧ rest = other := by
  have taken (value : Nat) {rest : List Char} (closed : ∀ c, rest.head? = some c → c.isDigit = false) :
      (digitsText value ++ rest).takeWhile Char.isDigit = digitsText value := by
    have digits : ∀ c ∈ digitsText value, c.isDigit = true :=
      fun c member => Nat.isDigit_of_mem_toDigits (by decide) (by decide) member
    rw [List.takeWhile_append_of_pos digits]
    cases rest with
    | nil => simp
    | cons c rest => simp [closed c rfl]
  have same : digitsText first = digitsText second := by
    rw [← taken first closed, equal, taken second otherClosed]
  have values : first.repr = second.repr := by
    rw [Nat.repr, Nat.repr]
    exact congrArg String.ofList same
  rw [same] at equal
  exact ⟨Nat.repr_injective values, List.append_cancel_left equal⟩

theorem signed_inj {first second : Int} (sign : signText first = signText second)
    (magnitude : first.natAbs = second.natAbs) : first = second := by
  unfold signText at sign
  split at sign
  · split at sign
    · omega
    · exact absurd sign (by decide)
  · split at sign
    · exact absurd sign (by decide)
    · omega

theorem signText_not_digit (value : Int) : (signText value).isDigit = false := by
  unfold signText
  split
  · rfl
  · rfl

theorem digitsText_head (value : Nat) : ∃ c rest, digitsText value = c :: rest ∧ c.isDigit = true := by
  cases digits : digitsText value with
  | nil => exact absurd digits Nat.toDigits_ne_nil
  | cons c rest =>
    have member : c ∈ digitsText value := by
      rw [digits]
      exact List.mem_cons_self
    exact ⟨c, rest, rfl, Nat.isDigit_of_mem_toDigits (by decide) (by decide) member⟩

theorem digits_ne_sign {first : Nat} {second : Int} {rest other : List Char}
    (equal : digitsText first ++ rest = signText second :: other) : False := by
  obtain ⟨c, tail, form, digit⟩ := digitsText_head first
  rw [form, List.cons_append] at equal
  have sign := signText_not_digit second
  rw [← (List.cons.inj equal).1, digit] at sign
  exact Bool.noConfusion sign

theorem Closed.notDigit {rest : List Char} (closed : Closed rest) : ∀ c, rest.head? = some c → c.isDigit = false :=
  fun c found => (closed c found).1

theorem slash_notDigit (rest : List Char) : ∀ c, ('/' :: rest).head? = some c → c.isDigit = false := by
  intro c found
  rw [List.head?_cons, Option.some.injEq] at found
  rw [← found]
  rfl

theorem Closed.ne_slash {rest other : List Char} (closed : Closed rest) (equal : rest = '/' :: other) : False := by
  rw [equal] at closed
  exact (closed '/' rfl).2 rfl

theorem numberText_splits {first second : Number} {rest other : List Char}
    (equal : numberText first ++ rest = numberText second ++ other) (closed : Closed rest)
    (otherClosed : Closed other) : first = second ∧ rest = other := by
  cases first with
  | posInt first =>
    cases second with
    | posInt second =>
      have digits := digits_splits equal closed.notDigit otherClosed.notDigit
      exact ⟨congrArg Number.posInt (UInt64.toNat_inj.mp digits.1), digits.2⟩
    | negInt second => exact (digits_ne_sign equal).elim
    | float second =>
      rw [numberText, numberText, List.cons_append] at equal
      exact (digits_ne_sign equal).elim
  | negInt first =>
    cases second with
    | posInt second => exact (digits_ne_sign equal.symm).elim
    | negInt second =>
      obtain ⟨sign, digits⟩ := List.cons.inj equal
      have magnitude := digits_splits digits closed.notDigit otherClosed.notDigit
      exact ⟨congrArg Number.negInt (signed_inj sign magnitude.1), magnitude.2⟩
    | float second =>
      obtain ⟨sign, digits⟩ := List.cons.inj equal
      rw [List.append_eq, List.append_eq, List.append_assoc, List.cons_append] at digits
      have magnitude := digits_splits digits closed.notDigit (slash_notDigit _)
      exact (closed.ne_slash magnitude.2).elim
  | float first =>
    cases second with
    | posInt second =>
      rw [numberText, numberText, List.cons_append] at equal
      exact (digits_ne_sign equal.symm).elim
    | negInt second =>
      obtain ⟨sign, digits⟩ := List.cons.inj equal
      rw [List.append_eq, List.append_eq, List.append_assoc, List.cons_append] at digits
      have magnitude := digits_splits digits (slash_notDigit _) otherClosed.notDigit
      exact (otherClosed.ne_slash magnitude.2.symm).elim
    | float second =>
      obtain ⟨sign, digits⟩ := List.cons.inj equal
      rw [List.append_eq, List.append_eq, List.append_assoc, List.cons_append, List.append_assoc,
        List.cons_append] at digits
      have magnitude := digits_splits digits (slash_notDigit _) (slash_notDigit _)
      have denominators := digits_splits (List.cons.inj magnitude.2).2 closed.notDigit otherClosed.notDigit
      refine ⟨congrArg Number.float ?_, denominators.2⟩
      exact Rat.ext (signed_inj sign magnitude.1) denominators.1

def unescape : List Char → Option (Char × List Char)
  | '\\' :: 'b' :: rest => some (Char.ofNat 8, rest)
  | '\\' :: 't' :: rest => some (Char.ofNat 9, rest)
  | '\\' :: 'n' :: rest => some (Char.ofNat 10, rest)
  | '\\' :: 'f' :: rest => some (Char.ofNat 12, rest)
  | '\\' :: 'r' :: rest => some (Char.ofNat 13, rest)
  | '\\' :: 'u' :: _ :: _ :: high :: low :: rest =>
    some (Char.ofNat ((if high = '0' then 0 else 16) + (if low.isDigit then low.toNat - 48 else low.toNat - 87)), rest)
  | '\\' :: c :: rest => some (c, rest)
  | c :: rest => some (c, rest)
  | [] => none

theorem unescape_escape (c : Char) (rest : List Char) : unescape (escape c ++ rest) = some (c, rest) := by
  unfold escape
  split
  · next quote => rw [quote]; rfl
  · split
    · next slash => rw [slash]; rfl
    · next slash =>
      split
      · next control =>
        have code : c = Char.ofNat c.toNat := (Char.ofNat_toNat c).symm
        generalize c.toNat = number at code control
        subst code
        interval_cases number
        all_goals rfl
      · simp [unescape, slash]

theorem escape_splits {first second : Char} {rest other : List Char}
    (equal : escape first ++ rest = escape second ++ other) : first = second ∧ rest = other := by
  have read := congrArg unescape equal
  rw [unescape_escape, unescape_escape] at read
  exact Prod.mk.inj (Option.some.inj read)

theorem escape_ne_quote {c : Char} {rest other : List Char} (equal : escape c ++ rest = '"' :: other) : False := by
  unfold escape at equal
  split at equal
  · exact absurd (List.cons.inj equal).1 (by decide)
  · next quote =>
    split at equal
    · exact absurd (List.cons.inj equal).1 (by decide)
    · split at equal
      · split at equal
        all_goals exact absurd (List.cons.inj equal).1 (by decide)
      · exact quote (List.cons.inj equal).1

theorem escaped_splits {first second rest other : List Char}
    (equal : first.flatMap escape ++ '"' :: rest = second.flatMap escape ++ '"' :: other) :
    first = second ∧ rest = other := by
  induction first generalizing second with
  | nil =>
    cases second with
    | nil => exact ⟨rfl, (List.cons.inj equal).2⟩
    | cons c second =>
      rw [List.flatMap_cons, List.append_assoc] at equal
      exact (escape_ne_quote equal.symm).elim
  | cons c first ih =>
    cases second with
    | nil =>
      rw [List.flatMap_cons, List.append_assoc] at equal
      exact (escape_ne_quote equal).elim
    | cons d second =>
      rw [List.flatMap_cons, List.flatMap_cons, List.append_assoc, List.append_assoc] at equal
      obtain ⟨same, tails⟩ := escape_splits equal
      obtain ⟨characters, rests⟩ := ih tails
      exact ⟨by rw [same, characters], rests⟩

theorem stringText_splits {first second : String} {rest other : List Char}
    (equal : stringText first ++ rest = stringText second ++ other) : first = second ∧ rest = other := by
  simp only [stringText, List.cons_append, List.append_assoc, List.nil_append] at equal
  obtain ⟨characters, rests⟩ := escaped_splits (List.cons.inj equal).2
  exact ⟨String.toList_inj.mp characters, rests⟩

inductive Kind where
  | null
  | bool (value : Bool)
  | number
  | string
  | array
  | object
  | none
deriving DecidableEq

def Kind.ofChar (c : Char) : Kind :=
  if c = 'n' then .null
  else if c = 't' then .bool true
  else if c = 'f' then .bool false
  else if c = '"' then .string
  else if c = '[' then .array
  else if c = '{' then .object
  else if c.isDigit ∨ c = '-' ∨ c = '+' then .number
  else .none

def Kind.ofValue : Value → Kind
  | .null => .null
  | .bool value => .bool value
  | .number _ => .number
  | .string _ => .string
  | .array _ => .array
  | .object _ => .object

theorem Kind.ofDigit {c : Char} (digit : c.isDigit = true) : Kind.ofChar c = .number := by
  have different (other : Char) (letter : other.isDigit = false) : c ≠ other := by
    intro same
    rw [same, letter] at digit
    exact Bool.noConfusion digit
  simp [Kind.ofChar, digit, different 'n' rfl, different 't' rfl, different 'f' rfl, different '"' rfl,
    different '[' rfl, different '{' rfl]

theorem Kind.ofSign (value : Int) : Kind.ofChar (signText value) = .number := by
  unfold signText
  split
  · rfl
  · rfl

theorem valueText_head (value : Value) : ∃ c rest, valueText value = c :: rest ∧ Kind.ofChar c = Kind.ofValue value := by
  cases value with
  | null => exact ⟨_, _, rfl, rfl⟩
  | bool value =>
    cases value with
    | true => exact ⟨_, _, rfl, rfl⟩
    | false => exact ⟨_, _, rfl, rfl⟩
  | number number =>
    cases number with
    | posInt value =>
      obtain ⟨c, rest, form, digit⟩ := digitsText_head value.toNat
      exact ⟨c, rest, form, Kind.ofDigit digit⟩
    | negInt value => exact ⟨_, _, rfl, Kind.ofSign value⟩
    | float value => exact ⟨_, _, rfl, Kind.ofSign value.num⟩
  | string text => exact ⟨_, _, rfl, rfl⟩
  | array values => exact ⟨_, _, rfl, rfl⟩
  | object fields => exact ⟨_, _, rfl, rfl⟩

theorem kind_eq {first second : Value} {rest other : List Char}
    (equal : valueText first ++ rest = valueText second ++ other) : Kind.ofValue first = Kind.ofValue second := by
  obtain ⟨c, tail, form, kind⟩ := valueText_head first
  obtain ⟨d, otherTail, otherForm, otherKind⟩ := valueText_head second
  rw [form, otherForm] at equal
  rw [← kind, ← otherKind, (List.cons.inj equal).1]

theorem valueText_ne {value : Value} {c : Char} {rest other : List Char} (closing : Kind.ofChar c = .none)
    (equal : c :: rest = valueText value ++ other) : False := by
  obtain ⟨d, tail, form, kind⟩ := valueText_head value
  rw [form] at equal
  rw [← (List.cons.inj equal).1, closing] at kind
  cases value with
  | null => nomatch kind
  | bool value => nomatch kind
  | number number => nomatch kind
  | string text => nomatch kind
  | array values => nomatch kind
  | object fields => nomatch kind

theorem closed_elements (values : List Value) (rest : List Char) : Closed (elementsText false values ++ rest) := by
  intro c found
  cases values with
  | nil =>
    rw [← Option.some.inj found]
    exact ⟨rfl, by decide⟩
  | cons value values =>
    rw [← Option.some.inj found]
    exact ⟨rfl, by decide⟩

theorem closed_members (fields : List (String × Value)) (rest : List Char) :
    Closed (membersText false fields ++ rest) := by
  intro c found
  cases fields with
  | nil =>
    rw [← Option.some.inj found]
    exact ⟨rfl, by decide⟩
  | cons field fields =>
    rw [← Option.some.inj found]
    exact ⟨rfl, by decide⟩

mutual

theorem valueText_splits (first second : Value) {rest other : List Char}
    (equal : valueText first ++ rest = valueText second ++ other) (closed : Closed rest)
    (otherClosed : Closed other) : first = second ∧ rest = other := by
  match first, second, kind_eq equal with
  | .null, .null, _ => exact ⟨rfl, List.append_cancel_left equal⟩
  | .bool value, .bool _, same =>
    obtain rfl := Kind.bool.inj same
    exact ⟨rfl, List.append_cancel_left equal⟩
  | .number first, .number second, _ =>
    obtain ⟨numbers, rests⟩ := numberText_splits equal closed otherClosed
    exact ⟨congrArg Value.number numbers, rests⟩
  | .string first, .string second, _ =>
    obtain ⟨texts, rests⟩ := stringText_splits equal
    exact ⟨congrArg Value.string texts, rests⟩
  | .array first, .array second, _ =>
    obtain ⟨elements, rests⟩ := elementsText_splits true first second (List.cons.inj equal).2
    exact ⟨congrArg Value.array elements, rests⟩
  | .object first, .object second, _ =>
    obtain ⟨members, rests⟩ := membersText_splits true first second (List.cons.inj equal).2
    exact ⟨congrArg Value.object members, rests⟩

theorem elementsText_splits (start : Bool) (first second : List Value) {rest other : List Char}
    (equal : elementsText start first ++ rest = elementsText start second ++ other) : first = second ∧ rest = other := by
  match first, second with
  | [], [] => exact ⟨rfl, (List.cons.inj equal).2⟩
  | [], value :: values =>
    cases start with
    | true =>
      rw [elementsText, elementsText, if_pos rfl, List.nil_append, List.append_assoc] at equal
      exact (@valueText_ne _ ']' _ _ (by decide) equal).elim
    | false => exact absurd (List.cons.inj equal).1 (by decide)
  | value :: values, [] =>
    cases start with
    | true =>
      rw [elementsText, elementsText, if_pos rfl, List.nil_append, List.append_assoc] at equal
      exact (@valueText_ne _ ']' _ _ (by decide) equal.symm).elim
    | false => exact absurd (List.cons.inj equal).1 (by decide)
  | head :: first, otherHead :: second =>
    simp only [elementsText, List.append_assoc, List.append_cancel_left_eq] at equal
    obtain ⟨heads, tails⟩ :=
      valueText_splits head otherHead equal (closed_elements first rest) (closed_elements second other)
    obtain ⟨elements, rests⟩ := elementsText_splits false first second tails
    exact ⟨by rw [heads, elements], rests⟩

theorem membersText_splits (start : Bool) (first second : List (String × Value)) {rest other : List Char}
    (equal : membersText start first ++ rest = membersText start second ++ other) : first = second ∧ rest = other := by
  match first, second with
  | [], [] => exact ⟨rfl, (List.cons.inj equal).2⟩
  | [], (key, value) :: fields =>
    cases start with
    | true => exact absurd (List.cons.inj equal).1 (by decide)
    | false => exact absurd (List.cons.inj equal).1 (by decide)
  | (key, value) :: fields, [] =>
    cases start with
    | true => exact absurd (List.cons.inj equal).1 (by decide)
    | false => exact absurd (List.cons.inj equal).1 (by decide)
  | (key, value) :: first, (otherKey, otherValue) :: second =>
    simp only [membersText, List.append_assoc, List.append_cancel_left_eq, List.cons_append] at equal
    obtain ⟨keys, values⟩ := stringText_splits equal
    obtain ⟨heads, tails⟩ := valueText_splits value otherValue (List.cons.inj values).2 (closed_members first rest)
      (closed_members second other)
    obtain ⟨members, rests⟩ := membersText_splits false first second tails
    exact ⟨by rw [keys, heads, members], rests⟩

end

theorem compactText_injective : Function.Injective compactText := by
  intro first second equal
  have characters := String.ofList_injective equal
  have closed : Closed [] := fun c found => nomatch found
  exact (@valueText_splits first second [] [] (by rw [characters]) closed closed).1

end AdicProof.Json
