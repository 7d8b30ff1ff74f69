import AdicCore.Math.Balls

open AdicModel AdicModel.Math PaddedLists

namespace AdicProof.Math

section

variable {p : UInt32} {first second : Int32}

/-- A power is below another one: by the exponents of a base from two on, and of the base zero by their signs. -/
def Lower (p : UInt32) (first second : ℤ) : Prop :=
  2 ≤ p.toNat ∧ first < second ∨ p = 0 ∧ second.sign < first.sign

instance (first second : ℤ) : Decidable (Lower p first second) := inferInstanceAs (Decidable (_ ∨ _))

theorem powi_zero (exponent : Int32) :
    powi 0 exponent = if exponent.toInt.sign < 0 then ⊤ else if exponent.toInt.sign = 0 then 1 else 0 := by
  have zero : (0 : Int32).toInt = 0 := rfl
  unfold powi
  simp only [true_and, Int32.lt_iff_toInt_lt, zero, Int.sign_neg_iff, Int.sign_eq_zero_iff_zero]
  split
  · rfl
  · split
    · next same => simp [same]
    · next different => simp [zero_zpow _ different]

theorem powi_of_ne_zero (positive : p ≠ 0) (exponent : Int32) :
    powi p exponent = ((p.toNat : ℚ) ^ exponent.toInt : ℚ) := by
  unfold powi
  rw [if_neg (fun infinite => positive infinite.1)]

theorem powi_nonneg (p : UInt32) (exponent : Int32) : 0 ≤ powi p exponent := by
  unfold powi
  split
  · exact le_top
  · have nonneg : (0 : ℚ) ≤ (p.toNat : ℚ) ^ exponent.toInt := zpow_nonneg (Nat.cast_nonneg _) _
    exact WithTop.coe_nonneg.mpr nonneg

theorem powi_lt_iff : powi p first < powi p second ↔ Lower p first.toInt second.toInt := by
  unfold Lower
  by_cases zero : p = 0
  · subst zero
    have notTwo : ¬ 2 ≤ (0 : UInt32).toNat := by decide
    simp only [powi_zero, notTwo, false_and, true_and, false_or]
    rcases Int.sign_trichotomy first.toInt with one | one | one <;>
      rcases Int.sign_trichotomy second.toInt with two | two | two <;> simp [one, two]
  · have positive : 1 ≤ p.toNat := by
      have different : p.toNat ≠ 0 := fun same => zero (UInt32.toNat_inj.mp same)
      omega
    rw [powi_of_ne_zero zero, powi_of_ne_zero zero, WithTop.coe_lt_coe]
    by_cases one : p.toNat = 1
    · simp [one, zero]
    · have large : (1 : ℚ) < p.toNat := by
        exact_mod_cast (show 1 < p.toNat by omega)
      have two : 2 ≤ p.toNat := by omega
      simp [zpow_lt_zpow_iff_right₀ large, zero, two]

end

section

variable {p : UInt32} {xs ys zs : List UInt8}

def exponent (xs ys : List UInt8) : ℤ := (-(agreement 0 xs ys : ℤ)).bmod (2 ^ 32)

theorem toInt_neg_ofNat (count : Nat) : (-(UInt32.ofNat count).toInt32).toInt = (-(count : ℤ)).bmod (2 ^ 32) := by
  have cast : (UInt32.ofNat count).toInt32.toInt = (count : ℤ).bmod (2 ^ 32) := by
    show (BitVec.ofNat 32 count).toInt = _
    rw [BitVec.toInt_ofNat']
  rw [Int32.toInt_neg, cast, Int.bmod_neg_bmod]

theorem padicDistance_self : padicDistance ⟨xs, p⟩ ⟨xs, p⟩ = .ok 0 := by
  simp [padicDistance]

def distance (p : UInt32) (xs ys : List UInt8) : WithTop ℚ := powi p (-(UInt32.ofNat (agreement 0 xs ys)).toInt32)

theorem padicDistance_eq (different : xs ≠ ys) : padicDistance ⟨xs, p⟩ ⟨ys, p⟩ = .ok (distance p xs ys) := by
  unfold padicDistance
  rw [if_neg (not_not.mpr rfl), if_neg different, vpDiff_mk]
  rfl

def Farther (p : UInt32) (xs ys zs : List UInt8) : Prop :=
  xs ≠ ys ∧ ys ≠ zs ∧ xs ≠ zs ∧ Lower p (exponent xs ys) (exponent xs zs) ∧ Lower p (exponent ys zs) (exponent xs zs)

theorem distance_nonneg (p : UInt32) (xs ys : List UInt8) : 0 ≤ distance p xs ys := powi_nonneg p _

theorem distance_lt_iff {vs ws : List UInt8} :
    distance p xs ys < distance p vs ws ↔ Lower p (exponent xs ys) (exponent vs ws) := by
  unfold distance exponent
  rw [powi_lt_iff, toInt_neg_ofNat, toInt_neg_ofNat]

theorem exponent_of_short (first : xs.length ≤ 2 ^ 31) (second : ys.length ≤ 2 ^ 31) :
    exponent xs ys = -(agreement 0 xs ys : ℤ) := by
  have bound : agreement 0 xs ys ≤ max xs.length ys.length := agreement_le
  unfold exponent
  rw [Int.bmod_def]
  omega

theorem farther_iff_overshoots (base : 2 ≤ p.toNat) (first : xs.length ≤ 2 ^ 31) (second : ys.length ≤ 2 ^ 31)
    (third : zs.length ≤ 2 ^ 31) : Farther p xs ys zs ↔ Overshoots 0 xs ys zs := by
  have nonzero : p ≠ 0 := by
    intro same
    rw [same] at base
    exact absurd base (by decide)
  have lower : ∀ {less more : ℤ}, Lower p less more ↔ less < more := by
    intro less more
    simp [Lower, base, nonzero]
  unfold Farther
  rw [lower, lower, exponent_of_short first second, exponent_of_short second third, exponent_of_short first third]
  constructor
  · intro ⟨_, _, different, closer, closer'⟩
    rw [← overshoots_iff different]
    omega
  · intro overshoots
    have closer := (overshoots_iff overshoots.different).mpr overshoots
    have longer := overshoots.longer
    constructor
    · intro same
      rw [same] at longer
      omega
    constructor
    · intro same
      rw [same] at longer
      omega
    exact ⟨overshoots.different, by omega, by omega⟩

end

def Ultrametric (x y z : QpDigits) : Prop :=
  ∃ far first second, padicDistance x z = .ok far ∧ padicDistance x y = .ok first ∧ padicDistance y z = .ok second ∧
    far ≤ max first second

/-- The inequality holds exactly where the cast powers are in order, which for short vectors only an overshooting one
    prevents. -/
theorem ultrametric_iff (p : UInt32) (xs ys zs : List UInt8) :
    (Ultrametric ⟨xs, p⟩ ⟨ys, p⟩ ⟨zs, p⟩ ↔ ¬ Farther p xs ys zs) ∧
      (2 ≤ p.toNat → xs.length ≤ 2 ^ 31 → ys.length ≤ 2 ^ 31 → zs.length ≤ 2 ^ 31 →
        (Ultrametric ⟨xs, p⟩ ⟨ys, p⟩ ⟨zs, p⟩ ↔ ¬ Overshoots 0 xs ys zs)) := by
  have exact : Ultrametric ⟨xs, p⟩ ⟨ys, p⟩ ⟨zs, p⟩ ↔ ¬ Farther p xs ys zs := by
    unfold Ultrametric Farther
    by_cases first : xs = ys
    · subst first
      by_cases far : xs = zs
      · subst far
        simp [padicDistance_self]
      · simp [padicDistance_self, padicDistance_eq far]
    · by_cases second : ys = zs
      · subst second
        simp [padicDistance_self, padicDistance_eq first]
      · by_cases far : xs = zs
        · subst far
          simp [padicDistance_self, padicDistance_eq first, padicDistance_eq second, distance_nonneg]
        · simp [padicDistance_eq first, padicDistance_eq second, padicDistance_eq far, first, second, far,
            ← distance_lt_iff, imp_iff_not_or]
  refine ⟨exact, ?_⟩
  intro base short short' short''
  rw [exact, farther_iff_overshoots base short short' short'']

/-- One digit, and the same digit with two zeros and with one zero after it. -/
theorem ultrametric_padded : ¬ Ultrametric ⟨[1], 3⟩ ⟨[1, 0, 0], 3⟩ ⟨[1, 0], 3⟩ := by
  have one : distance 3 [1] [1, 0, 0] < distance 3 [1] [1, 0] := distance_lt_iff.mpr (by decide)
  have two : distance 3 [1, 0, 0] [1, 0] < distance 3 [1] [1, 0] := distance_lt_iff.mpr (by decide)
  intro ⟨far, first, second, farIs, firstIs, secondIs, inequality⟩
  rw [padicDistance_eq (by decide)] at farIs firstIs secondIs
  cases farIs
  cases firstIs
  cases secondIs
  exact absurd inequality (not_le.mpr (max_lt one two))

section

variable {p value count : Nat}

theorem digits_eq_iff (p first second : Nat) :
    (∀ i < count, first / p ^ i % p = second / p ^ i % p) ↔ first % p ^ count = second % p ^ count := by
  induction count with
  | zero => simp [Nat.mod_one]
  | succ count ih =>
    rw [Nat.forall_lt_succ_right, ih, Nat.mod_pow_succ, Nat.mod_pow_succ]
    constructor
    · intro ⟨rest, last⟩
      rw [rest, last]
    · intro same
      have low : first % p ^ count = second % p ^ count := by
        simpa [Nat.add_mul_mod_self_left] using congrArg (· % p ^ count) same
      refine ⟨low, ?_⟩
      rcases Nat.eq_zero_or_pos (p ^ count) with zero | positive
      · simp [zero]
      · rw [low, Nat.add_left_cancel_iff] at same
        exact Nat.eq_of_mul_eq_mul_left positive same

theorem digitLoop_zeros (p precision value : Nat) :
    QpDigits.digitLoop p precision value ++
        List.replicate (precision - (QpDigits.digitLoop p precision value).length) 0 =
      (List.range precision).map fun i => UInt8.ofNat (value / p ^ i % p) := by
  induction precision generalizing value with
  | zero => rfl
  | succ precision ih =>
    have next : ∀ i, value / p ^ (i + 1) = value / p / p ^ i := by
      intro i
      rw [Nat.div_div_eq_div_mul, pow_succ']
    rw [List.range_succ_eq_map, List.map_cons, List.map_map]
    unfold QpDigits.digitLoop
    split
    · next last =>
      have zeros : ((fun i => UInt8.ofNat (value / p ^ i % p)) ∘ Nat.succ) = fun _ => 0 := by
        funext i
        simp [next, last]
      simp [zeros]
    · have digits : ((fun i => UInt8.ofNat (value / p ^ i % p)) ∘ Nat.succ) =
          fun i => UInt8.ofNat (value / p / p ^ i % p) := by
        funext i
        simp [next]
      rw [digits, ← ih (value / p)]
      simp

end

section

variable {p : UInt32} {a b n : Nat}

theorem new_eq (value : Nat) (p : UInt32) (precision : Nat) :
    QpDigits.new value p precision =
      ⟨(List.range precision).map fun i => UInt8.ofNat (value / p.toNat ^ i % p.toNat), p⟩ := by
  unfold QpDigits.new
  dsimp only
  rw [digitLoop_zeros]

theorem le_agreement_new (base : 0 < p.toNat) (byte : p.toNat ≤ 256) {radius : Nat} :
    radius ≤ agreement 0 (QpDigits.new a p n).digits (QpDigits.new b p n).digits ↔
      radius ≤ n ∧ a % p.toNat ^ radius = b % p.toNat ^ radius := by
  rw [le_agreement_iff, new_eq, new_eq, ← digits_eq_iff]
  simp only [List.length_map, List.length_range, max_self, and_congr_right_iff]
  intro inside
  apply forall₂_congr
  intro i before
  have first := Nat.mod_lt (a / p.toNat ^ i) base
  have second := Nat.mod_lt (b / p.toNat ^ i) base
  have one : a / p.toNat ^ i % p.toNat % 2 ^ 8 = a / p.toNat ^ i % p.toNat := Nat.mod_eq_of_lt (by omega)
  have two : b / p.toNat ^ i % p.toNat % 2 ^ 8 = b / p.toNat ^ i % p.toNat := Nat.mod_eq_of_lt (by omega)
  rw [entry_map_range _ (by omega), entry_map_range _ (by omega), ← UInt8.toNat_inj, UInt8.toNat_ofNat',
    UInt8.toNat_ofNat', one, two]

end

def closeness (p n a b : Nat) : Nat := if a = b then n else min n (padicValInt p ((a : ℤ) - b))

section

variable {p : UInt32} {a b n : Nat}

theorem le_closeness_iff (prime : p.toNat.Prime) {radius : Nat} :
    radius ≤ closeness p.toNat n a b ↔ radius ≤ n ∧ a % p.toNat ^ radius = b % p.toNat ^ radius := by
  have primeFact : Fact p.toNat.Prime := ⟨prime⟩
  have divides := padicValInt_dvd_iff (p := p.toNat) radius ((a : ℤ) - b)
  have remainders : a % p.toNat ^ radius = b % p.toNat ^ radius ↔ (p.toNat : ℤ) ^ radius ∣ (a : ℤ) - b := by
    show a ≡ b [MOD p.toNat ^ radius] ↔ _
    rw [Nat.ModEq.comm, Nat.modEq_iff_dvd]
    push_cast
    rfl
  unfold closeness
  rw [remainders, divides, sub_eq_zero, Nat.cast_inj]
  by_cases same : a = b
  · simp [same]
  · simp [same]

theorem vpDiff_new (prime : p.toNat.Prime) (byte : p.toNat ≤ 256) :
    vpDiff (.new a p n) (.new b p n) = .ok (UInt32.ofNat (closeness p.toNat n a b)) := by
  have whole : agreement 0 (QpDigits.new a p n).digits (QpDigits.new b p n).digits = closeness p.toNat n a b := by
    apply eq_of_forall_le_iff
    intro radius
    rw [le_agreement_new prime.pos byte, le_closeness_iff prime]
  have primes : (QpDigits.new a p n).p = (QpDigits.new b p n).p := rfl
  rw [vpDiff_eq primes, whole]

end

def MeasuresCloseness (p : UInt32) (n a b : Nat) : Prop :=
  ∃ valuation, vpDiff (.new a p n) (.new b p n) = .ok valuation ∧ valuation.toNat = closeness p.toNat n a b

/-- The valuation is that of the difference, up to the precision, unless both need more than a `u32`. -/
theorem measuresCloseness_iff (p : UInt32) (n a b : Nat) (prime : p.toNat.Prime) (byte : p.toNat ≤ 256) :
    MeasuresCloseness p n a b ↔ n < 2 ^ 32 ∨ a ≠ b ∧ padicValInt p.toNat ((a : ℤ) - b) < 2 ^ 32 := by
  have bound : MeasuresCloseness p n a b ↔ closeness p.toNat n a b < 2 ^ 32 := by
    unfold MeasuresCloseness
    rw [vpDiff_new prime byte]
    simp
  rw [bound]
  unfold closeness
  split
  · next same => simp [same]
  · next different => simp [different]

theorem measuresCloseness_ten : MeasuresCloseness 3 5 10 1 ↔
    5 < 2 ^ 32 ∨ 10 ≠ 1 ∧ padicValInt (3 : UInt32).toNat (((10 : Nat) : ℤ) - (1 : Nat)) < 2 ^ 32 :=
  measuresCloseness_iff 3 5 10 1 (by decide) (by decide)

/-- Zero and zero with as many digits as there are `u32`s agree in no digits. -/
theorem measuresCloseness_wraps : ¬ MeasuresCloseness 3 (2 ^ 32) 0 0 := by
  intro ⟨valuation, computed, measured⟩
  rw [vpDiff_new (by decide) (by decide)] at computed
  cases computed
  simp [closeness] at measured

end AdicProof.Math
