import AdicCore.Economics.Types

open AdicModel.Economics

namespace AdicProof.Economics

def units (amount : AdicAmount) : Nat := amount.baseUnits.toNat

variable {a b c : AdicAmount}

theorem units_lt (a : AdicAmount) : units a < 2 ^ 64 := a.baseUnits.toNat_lt

theorem units_injective : Function.Injective units := by
  intro a b same
  cases a
  cases b
  congr
  exact UInt64.toNat_inj.mp same

@[simp] theorem units_zero : units AdicAmount.zero = 0 := rfl

theorem units_maxSupply : units AdicAmount.maxSupply = 10 ^ 18 := by decide

theorem units_eq_zero : units a = 0 ↔ a = AdicAmount.zero := by
  rw [← units_zero]
  exact units_injective.eq_iff

theorem amount_le : a ≤ b ↔ units a ≤ units b := UInt64.le_iff_toNat_le

theorem amount_lt : a < b ↔ units a < units b := UInt64.lt_iff_toNat_lt

theorem checkedAdd_eq_some : a.checkedAdd b = some c ↔ units c = units a + units b := by
  unfold AdicAmount.checkedAdd
  have sum : ∀ bounded : a.baseUnits.toNat + b.baseUnits.toNat < 2 ^ 64,
      units ⟨a.baseUnits + b.baseUnits⟩ = units a + units b := by
    intro bounded
    unfold units
    rw [UInt64.toNat_add, Nat.mod_eq_of_lt bounded]
  constructor
  · intro added
    split at added
    · next bounded =>
      cases added
      exact sum bounded
    · cases added
  · intro same
    have bounded : a.baseUnits.toNat + b.baseUnits.toNat < 2 ^ 64 := by
      have := units_lt c
      unfold units at same this
      omega
    rw [if_pos bounded, Option.some.injEq]
    apply units_injective
    rw [sum bounded, same]

theorem checkedAdd_eq_none : a.checkedAdd b = none ↔ 2 ^ 64 ≤ units a + units b := by
  unfold AdicAmount.checkedAdd units
  simp

theorem checkedSub_eq_some : a.checkedSub b = some c ↔ units a = units b + units c := by
  unfold AdicAmount.checkedSub
  constructor
  · intro subtracted
    split at subtracted
    · cases subtracted
    · next enough =>
      cases subtracted
      rw [amount_lt, not_lt] at enough
      unfold units at enough ⊢
      rw [UInt64.toNat_sub_of_le _ _ (UInt64.le_iff_toNat_le.mpr enough)]
      omega
  · intro same
    have enough : ¬ a < b := by
      rw [amount_lt]
      omega
    rw [if_neg enough, Option.some.injEq]
    apply units_injective
    rw [amount_lt, not_lt] at enough
    unfold units at same enough ⊢
    rw [UInt64.toNat_sub_of_le _ _ (UInt64.le_iff_toNat_le.mpr enough)]
    omega

theorem checkedSub_eq_none : a.checkedSub b = none ↔ units a < units b := by
  unfold AdicAmount.checkedSub
  rw [← amount_lt]
  simp

@[simp] theorem units_saturatingSub : units (a.saturatingSub b) = units a - units b := by
  unfold AdicAmount.saturatingSub
  cases subtracted : a.checkedSub b with
  | none =>
    rw [checkedSub_eq_none] at subtracted
    rw [Option.getD_none, units_zero]
    omega
  | some rest =>
    rw [checkedSub_eq_some] at subtracted
    rw [Option.getD_some]
    omega

@[simp] theorem units_saturatingAdd : units (a.saturatingAdd b) = min (units a + units b) (10 ^ 18) := by
  unfold AdicAmount.saturatingAdd
  cases added : a.checkedAdd b with
  | none =>
    rw [checkedAdd_eq_none] at added
    show units AdicAmount.maxSupply = _
    rw [units_maxSupply]
    omega
  | some sum =>
    rw [checkedAdd_eq_some] at added
    rw [← added, ← units_maxSupply]
    show (min sum.baseUnits AdicAmount.maxSupply.baseUnits).toNat = _
    unfold units
    rw [UInt64.toNat_min]

theorem toLeBytes_length (value : Int) : (toLeBytes value).length = 8 := by
  unfold toLeBytes
  rw [List.length_map, List.length_range]

theorem toLeBytes_digit (value : Int) {place : Nat} (inside : place < 8) :
    (toLeBytes value)[place]? = some (UInt8.ofNat (value / 256 ^ place % 256).toNat) := by
  unfold toLeBytes
  rw [List.getElem?_map, List.getElem?_range inside, Option.map_some]

theorem toLeBytes_inj {first second : Int} :
    toLeBytes first = toLeBytes second ↔ first % 2 ^ 64 = second % 2 ^ 64 := by
  have split : ∀ value : Int, value % 2 ^ 64 = value / 256 ^ 0 % 256 + 256 * (value / 256 ^ 1 % 256) +
      256 ^ 2 * (value / 256 ^ 2 % 256) + 256 ^ 3 * (value / 256 ^ 3 % 256) + 256 ^ 4 * (value / 256 ^ 4 % 256) +
      256 ^ 5 * (value / 256 ^ 5 % 256) + 256 ^ 6 * (value / 256 ^ 6 % 256) + 256 ^ 7 * (value / 256 ^ 7 % 256) := by
    intro value
    norm_num
    omega
  constructor
  · intro same
    have digit : ∀ place < 8, first / 256 ^ place % 256 = second / 256 ^ place % 256 := by
      intro place inside
      have bytes := toLeBytes_digit first inside
      rw [same, toLeBytes_digit second inside] at bytes
      have digits := congrArg UInt8.toNat (Option.some.inj bytes)
      rw [UInt8.toNat_ofNat', UInt8.toNat_ofNat'] at digits
      omega
    rw [split first, split second, digit 0 (by decide), digit 1 (by decide), digit 2 (by decide), digit 3 (by decide),
      digit 4 (by decide), digit 5 (by decide), digit 6 (by decide), digit 7 (by decide)]
  · intro same
    unfold toLeBytes
    refine List.map_congr_left fun place member => ?_
    have inside := List.mem_range.mp member
    have digit : first / 256 ^ place % 256 = second / 256 ^ place % 256 := by
      interval_cases place <;> norm_num <;> omega
    rw [digit]

end AdicProof.Economics
