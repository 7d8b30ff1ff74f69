import AdicCore.Economics.Amounts
import AdicCore.Library.MachineWords
import AdicCore.StorageMarket.Payouts

open MachineWords (Overflow)
open AdicModel.Economics

namespace AdicModel.StorageMarket

inductive TerminationReason where
  | clientRequest
  | providerRequest
  | mutualAgreement
  | providerBreach
  | clientBreach
  | dataCorruption
deriving DecidableEq

/-- The epochs that renewals and migrations wait for are read by nothing here. -/
structure DealManagementConfig where
  earlyTerminationPenalty : ℚ

structure TerminationAmounts where
  clientRefund : AdicAmount
  providerPayment : AdicAmount
  collateralReturn : AdicAmount
  penalty : AdicAmount
deriving DecidableEq

/-- `none` if the build stops at an overflow. -/
def calculateTerminationAmounts (mode : Overflow) (scale : Scale) (config : DealManagementConfig) (deal : StorageDeal)
    (currentEpoch : UInt64) (reason : TerminationReason) : Option TerminationAmounts := do
  let startEpoch := deal.startEpoch.getD 0
  let elapsedEpochs := saturatingSub currentEpoch startEpoch
  let remainingEpochs := saturatingSub deal.dealDurationEpochs elapsedEpochs
  let totalPayment := deal.clientPaymentEscrow.baseUnits
  let unusedPayment ← mode.mul deal.pricePerEpoch.baseUnits remainingEpochs
  let collateral := deal.providerCollateral.baseUnits
  match reason with
  | .clientRequest =>
    let penalty := scale unusedPayment config.earlyTerminationPenalty
    let clientRefund ← mode.sub unusedPayment penalty
    let providerPayment ← mode.sub totalPayment clientRefund
    return ⟨⟨clientRefund⟩, ⟨providerPayment⟩, ⟨collateral⟩, ⟨penalty⟩⟩
  | .providerRequest | .providerBreach =>
    let penalty := scale collateral (1 / 5)
    let clientRefund ← mode.add unusedPayment penalty
    let providerPayment ← mode.sub totalPayment unusedPayment
    let collateralReturn ← mode.sub collateral penalty
    return ⟨⟨clientRefund⟩, ⟨providerPayment⟩, ⟨collateralReturn⟩, ⟨penalty⟩⟩
  | .mutualAgreement =>
    let providerPayment ← mode.sub totalPayment unusedPayment
    return ⟨⟨unusedPayment⟩, ⟨providerPayment⟩, ⟨collateral⟩, .zero⟩
  | .clientBreach =>
    let penalty := scale unusedPayment (1 / 10)
    return ⟨.zero, ⟨totalPayment⟩, ⟨collateral⟩, ⟨penalty⟩⟩
  | .dataCorruption => return ⟨⟨totalPayment⟩, .zero, .zero, ⟨collateral⟩⟩

end AdicModel.StorageMarket

open AdicModel AdicModel.StorageMarket

namespace AdicProof.StorageMarket

open AdicProof.Economics

section

variable {amount : UInt64} {fraction : ℚ}

theorem exactScale_le (atMost : fraction ≤ 1) : (exactScale amount fraction).toNat ≤ amount.toNat := by
  have product : (amount.toNat : ℚ) * fraction ≤ amount.toNat := mul_le_of_le_one_right (Nat.cast_nonneg _) atMost
  have floor : ⌊(amount.toNat : ℚ) * fraction⌋ ≤ (amount.toNat : ℤ) := by
    have := Int.floor_mono product
    rwa [Int.floor_natCast] at this
  unfold exactScale
  rw [UInt64.toNat_ofNat']
  apply le_trans (Nat.mod_le _ _)
  change ⌊(amount.toNat : ℚ) * fraction⌋.toNat ≤ amount.toNat
  omega

theorem exactScale_fifth : (exactScale amount (1 / 5)).toNat = amount.toNat / 5 := by
  have floor : ((amount.toNat : ℚ) * (1 / 5)).floor.toNat = amount.toNat / 5 := by
    rw [mul_one_div]
    exact Nat.floor_div_eq_div (K := ℚ) amount.toNat 5
  have bounded := amount.toNat_lt
  unfold exactScale
  rw [UInt64.toNat_ofNat', floor]
  omega

end

def Settled (deal : StorageDeal) (amounts : TerminationAmounts) : Prop :=
  let returned := units amounts.clientRefund + units amounts.providerPayment + units amounts.collateralReturn
  let deposited := units deal.clientPaymentEscrow + units deal.providerCollateral
  returned = deposited ∨ returned + units amounts.penalty = deposited

instance (deal : StorageDeal) (amounts : TerminationAmounts) : Decidable (Settled deal amounts) :=
  inferInstanceAs (Decidable (_ ∨ _))

def unusedUnits (deal : StorageDeal) (currentEpoch : UInt64) : Nat :=
  units deal.pricePerEpoch * (deal.dealDurationEpochs.toNat - (currentEpoch.toNat - (deal.startEpoch.getD 0).toNat))

def Escrowed (deal : StorageDeal) : Prop :=
  units deal.clientPaymentEscrow = units deal.pricePerEpoch * deal.dealDurationEpochs.toNat

def atProvidersExpense (reason : TerminationReason) : Prop := reason = .providerRequest ∨ reason = .providerBreach

instance (reason : TerminationReason) : Decidable (atProvidersExpense reason) :=
  inferInstanceAs (Decidable (_ ∨ _))

section

variable {deal : StorageDeal} {mode : Overflow} {config : DealManagementConfig} {currentEpoch : UInt64}
  {reason : TerminationReason}

theorem unusedUnits_le (escrowed : Escrowed deal) : unusedUnits deal currentEpoch ≤ units deal.clientPaymentEscrow := by
  rw [escrowed]
  exact Nat.mul_le_mul_left _ (Nat.sub_le _ _)

theorem unusedPayment_fits (escrowed : Escrowed deal) :
    ∃ unused, mode.mul deal.pricePerEpoch.baseUnits
        (saturatingSub deal.dealDurationEpochs (saturatingSub currentEpoch (deal.startEpoch.getD 0))) = some unused ∧
      unused.toNat = unusedUnits deal currentEpoch := by
  have left : unusedUnits deal currentEpoch = deal.pricePerEpoch.baseUnits.toNat *
      (saturatingSub deal.dealDurationEpochs (saturatingSub currentEpoch (deal.startEpoch.getD 0))).toNat := by
    rw [toNat_saturatingSub, toNat_saturatingSub]
    rfl
  rw [left]
  apply Overflow.mul_of_lt
  rw [← left]
  exact lt_of_le_of_lt (unusedUnits_le escrowed) (units_lt _)

theorem charged_settled_iff (escrowed : Escrowed deal) (charged : atProvidersExpense reason) :
    (∃ amounts, calculateTerminationAmounts mode exactScale config deal currentEpoch reason = some amounts ∧
        Settled deal amounts) ↔
      unusedUnits deal currentEpoch + units deal.providerCollateral / 5 < 2 ^ 64 := by
  have breach : calculateTerminationAmounts mode exactScale config deal currentEpoch reason =
      calculateTerminationAmounts mode exactScale config deal currentEpoch .providerBreach := by
    rcases charged with rfl | rfl <;> rfl
  obtain ⟨unused, multiplied, exact⟩ := @unusedPayment_fits deal mode currentEpoch escrowed
  have within : unused.toNat ≤ deal.clientPaymentEscrow.baseUnits.toNat := by
    rw [exact]
    exact unusedUnits_le escrowed
  have penalty := @exactScale_fifth deal.providerCollateral.baseUnits
  obtain ⟨payment, subtracted, rest⟩ := @Overflow.sub_of_le mode _ _ within
  obtain ⟨returned, deducted, left⟩ := @Overflow.sub_of_le mode deal.providerCollateral.baseUnits
    (exactScale deal.providerCollateral.baseUnits (1 / 5)) (by omega)
  rw [breach, ← exact]
  unfold calculateTerminationAmounts
  simp only [multiplied, subtracted, deducted, Option.bind_eq_bind, Option.bind_some]
  cases added : mode.add unused (exactScale deal.providerCollateral.baseUnits (1 / 5)) with
  | none =>
    have large : 2 ^ 64 ≤ unused.toNat + units deal.providerCollateral / 5 := by
      by_contra small
      obtain ⟨refund, fits, _⟩ := @Overflow.add_of_lt mode unused
        (exactScale deal.providerCollateral.baseUnits (1 / 5)) (by unfold units at small; omega)
      rw [fits] at added
      cases added
    simpa using large
  | some refund =>
    simp only [Option.bind_some, Option.pure_def, Option.some.injEq, exists_eq_left']
    unfold Settled units
    constructor
    · intro settled
      by_contra large
      have wrapped := Overflow.add_of_le (by omega) added
      have bounded := deal.providerCollateral.baseUnits.toNat_lt
      dsimp only at settled
      omega
    · intro small
      obtain ⟨sum, fits, total⟩ := @Overflow.add_of_lt mode unused
        (exactScale deal.providerCollateral.baseUnits (1 / 5)) (by omega)
      rw [fits] at added
      cases added
      dsimp only
      omega

theorem settled_iff (escrowed : Escrowed deal) (atMost : config.earlyTerminationPenalty ≤ 1) :
    (∃ amounts, calculateTerminationAmounts mode exactScale config deal currentEpoch reason = some amounts ∧
        Settled deal amounts) ↔
      (atProvidersExpense reason →
        unusedUnits deal currentEpoch + units deal.providerCollateral / 5 < 2 ^ 64) := by
  by_cases charged : atProvidersExpense reason
  · rw [charged_settled_iff escrowed charged]
    exact ⟨fun small _ => small, fun small => small charged⟩
  · obtain ⟨unused, multiplied, exact⟩ := @unusedPayment_fits deal mode currentEpoch escrowed
    have within : unused.toNat ≤ deal.clientPaymentEscrow.baseUnits.toNat := by
      rw [exact]
      exact unusedUnits_le escrowed
    simp only [charged, false_implies, iff_true]
    unfold calculateTerminationAmounts
    simp only [multiplied, Option.bind_eq_bind, Option.bind_some]
    cases reason with
    | clientRequest =>
      have penalty := @exactScale_le unused config.earlyTerminationPenalty atMost
      obtain ⟨refund, deducted, left⟩ := @Overflow.sub_of_le mode _ _ penalty
      obtain ⟨payment, subtracted, rest⟩ :=
        @Overflow.sub_of_le mode deal.clientPaymentEscrow.baseUnits refund (by omega)
      simp only [deducted, subtracted, Option.bind_some, Option.pure_def, Option.some.injEq, exists_eq_left']
      unfold Settled units
      dsimp only
      omega
    | mutualAgreement =>
      obtain ⟨payment, subtracted, rest⟩ := @Overflow.sub_of_le mode _ _ within
      simp only [subtracted, Option.bind_some, Option.pure_def, Option.some.injEq, exists_eq_left']
      unfold Settled units
      dsimp only
      omega
    | clientBreach => exact ⟨_, rfl, Or.inl (by simp)⟩
    | dataCorruption => exact ⟨_, rfl, Or.inr (by simp)⟩
    | providerRequest => exact absurd (Or.inl rfl) charged
    | providerBreach => exact absurd (Or.inr rfl) charged

end

def dealStarted (intent : StorageDealIntent) (acceptance : ProviderAcceptance)
    (dealId compiledEpoch activationGraceEpochs : UInt64) (startEpoch : Option UInt64) : StorageDeal :=
  { StorageDeal.fromIntentAndAcceptance intent acceptance dealId compiledEpoch activationGraceEpochs with
    startEpoch := startEpoch }

/-- A termination settles all funds, in either build, exactly if the refund and the penalty sum up to a word. -/
theorem terminationSettles_iff (mode : Overflow) (config : DealManagementConfig) (intent : StorageDealIntent)
    (acceptance : ProviderAcceptance) (dealId compiledEpoch activationGraceEpochs currentEpoch : UInt64)
    (startEpoch : Option UInt64) (reason : TerminationReason)
    (fits : units acceptance.offeredPricePerEpoch * intent.durationEpochs.toNat < 2 ^ 64)
    (atMost : config.earlyTerminationPenalty ≤ 1) :
    let deal := dealStarted intent acceptance dealId compiledEpoch activationGraceEpochs startEpoch
    (∃ amounts, calculateTerminationAmounts mode exactScale config deal currentEpoch reason = some amounts ∧
        Settled deal amounts) ↔
      (atProvidersExpense reason →
        unusedUnits deal currentEpoch + units deal.providerCollateral / 5 < 2 ^ 64) := by
  have escrowed : Escrowed (dealStarted intent acceptance dealId compiledEpoch activationGraceEpochs startEpoch) := by
    unfold Escrowed
    exact (UInt64.toNat_mul _ _).trans (Nat.mod_eq_of_lt fits)
  exact settled_iff escrowed atMost

section

def tenPercent : DealManagementConfig := ⟨1 / 10⟩

/-- Half of the ten epochs are left when the provider breaches the contract. -/
theorem terminationSettles_breach :
    let deal := dealStarted twoCopies (acceptanceOf bob (Bytes32.replicate 11)) 1 1 50 (some 2)
    ∃ amounts, calculateTerminationAmounts .stops exactScale tenPercent deal 7 .providerBreach = some amounts ∧
      Settled deal amounts :=
  (terminationSettles_iff .stops tenPercent twoCopies (acceptanceOf bob (Bytes32.replicate 11)) 1 1 50 7 (some 2)
    .providerBreach (by decide) (by decide +kernel)).mpr fun _ => by decide

def dearDeal : StorageDeal :=
  dealStarted { twoCopies with durationEpochs := 1 }
    { acceptanceOf bob (Bytes32.replicate 11) with
      offeredPricePerEpoch := ⟨18446744073709551615⟩
      collateralCommitment := ⟨18446744073709551615⟩ } 1 0 50 none

/-- A fifth of the collateral and the refund are no word. -/
theorem dearDeal_unsettled :
    dearDeal.pricePerEpoch.baseUnits.toNat * dearDeal.dealDurationEpochs.toNat < 2 ^ 64 ∧
      ∀ mode, ¬∃ amounts, calculateTerminationAmounts mode exactScale tenPercent dearDeal 0 .providerBreach =
          some amounts ∧ Settled dearDeal amounts := by
  refine ⟨by decide, fun mode settles => ?_⟩
  obtain ⟨amounts, calculated, settled⟩ := settles
  cases mode with
  | stops =>
    have stopped : calculateTerminationAmounts .stops exactScale tenPercent dearDeal 0 .providerBreach = none := by
      decide +kernel
    rw [stopped] at calculated
    cases calculated
  | wraps =>
    have wrapped : calculateTerminationAmounts .wraps exactScale tenPercent dearDeal 0 .providerBreach =
        some ⟨⟨3689348814741910322⟩, ⟨0⟩, ⟨14757395258967641292⟩, ⟨3689348814741910323⟩⟩ := by
      decide +kernel
    rw [wrapped] at calculated
    cases calculated
    revert settled
    decide

end

end AdicProof.StorageMarket
