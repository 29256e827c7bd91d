import Mathlib.Tactic.Linarith
import Mathlib.Tactic.Ring
import MtossBot.Domain.DecimalContext

/-!
# Values of decimals

What the operations of the context do to values, and when a result fits `NUMERIC(28,10)`.
-/

namespace MtossBot
namespace Decimal

variable {d a b : Decimal}

/-! ## Values -/

/-- The number of a decimal is its signed coefficient, shifted by its exponent. -/
theorem toRat_eq (d : Decimal) : d.toRat = d.signed * (10 : ℚ) ^ d.exponent := by
  unfold toRat signed
  dsimp only
  split
  · rename_i he
    obtain ⟨n, hn⟩ := Int.eq_ofNat_of_zero_le he
    rw [hn, Int.toNat_natCast, zpow_natCast]
    push_cast
    rfl
  · rename_i he
    obtain ⟨n, hn⟩ := Int.eq_ofNat_of_zero_le (Int.neg_nonneg.mpr (not_le.mp he).le)
    rw [← neg_neg d.exponent, hn, neg_neg, Int.toNat_natCast, zpow_neg, zpow_natCast, div_eq_mul_inv]
    push_cast
    rfl

/-- Without its sign it is the coefficient. -/
theorem natAbs_signed (d : Decimal) : d.signed.natAbs = d.coefficient := by
  unfold signed
  split <;> simp

/-- The magnitude of a decimal. -/
theorem abs_toRat (d : Decimal) : |d.toRat| = d.coefficient * (10 : ℚ) ^ d.exponent := by
  have hsigned : |(d.signed : ℚ)| = d.coefficient := by
    rw [← natAbs_signed d, Nat.cast_natAbs, Int.cast_abs]
  rw [toRat_eq, abs_mul, hsigned, abs_of_pos (zpow_pos (by norm_num) _)]

/-- The negated decimal has the negated number. -/
theorem toRat_copy_negate (d : Decimal) : d.copy_negate.toRat = -d.toRat := by
  have hsigned : d.copy_negate.signed = -d.signed := by
    cases hs : d.sign <;> simp [signed, copy_negate, hs]
  rw [toRat_eq, toRat_eq, hsigned]
  simp [copy_negate]

/-- The signed coefficient of a decimal made of one. -/
theorem signed_mk {n : Int} {sign : Bool} {exponent : Int} (h : n ≠ 0 → sign = decide (n < 0)) :
    signed ⟨sign, n.natAbs, exponent⟩ = n := by
  by_cases hn : n = 0
  · simp [signed, hn]
  · rw [h hn]
    rcases lt_or_gt_of_ne hn with hneg | hpos
    · simp only [signed, hneg, decide_true, if_true]
      omega
    · simp only [signed, hpos.not_gt, decide_false, Bool.false_eq_true, if_false]
      omega

/-- Shifted to a smaller exponent, a decimal has the same number. -/
theorem toRat_shifted {exponent : Int} (h : exponent ≤ d.exponent) :
    (d.shifted exponent : ℚ) * (10 : ℚ) ^ exponent = d.toRat := by
  rw [toRat_eq, shifted]
  push_cast
  rw [mul_assoc, ← zpow_natCast, Int.toNat_of_nonneg (Int.sub_nonneg.mpr h), ← zpow_add₀ (by norm_num),
    Int.sub_add_cancel]

/-- The exact sum has the sum of the numbers. -/
theorem toRat_exactAdd (a b : Decimal) : (exactAdd a b).toRat = a.toRat + b.toRat := by
  have hsigned : (exactAdd a b).signed = a.shifted (min a.exponent b.exponent) + b.shifted (min a.exponent b.exponent) :=
    signed_mk fun hn => by rw [if_neg hn]
  rw [toRat_eq, hsigned]
  push_cast
  rw [add_mul, exactAdd, toRat_shifted (min_le_left _ _), toRat_shifted (min_le_right _ _)]

/-- The exact product has their product. -/
theorem toRat_exactMul (a b : Decimal) : (exactMul a b).toRat = a.toRat * b.toRat := by
  have hsigned : (exactMul a b).signed = a.signed * b.signed := by
    cases ha : a.sign <;> cases hb : b.sign <;> simp [signed, exactMul, ha, hb]
  rw [toRat_eq, toRat_eq, toRat_eq, hsigned, exactMul, zpow_add₀ (by norm_num)]
  push_cast
  ring

/-! ## What fits -/

/-- What `NUMERIC(28,10)` holds exactly, as the code looks at it. -/
def Fits (d : Decimal) : Prop := -10 ≤ d.exponent ∧ |d.toRat| < 10 ^ 18

/-- Only zero has the coefficient zero. -/
theorem coefficient_pos_iff : 0 < d.coefficient ↔ d.toRat ≠ 0 := by
  rw [← abs_pos, abs_toRat, mul_pos_iff_of_pos_right (zpow_pos (by norm_num) _), Nat.cast_pos]

/-- A positive number has no sign. -/
theorem sign_of_pos (h : 0 < d.toRat) : d.sign = false := by
  by_contra hs
  have hle : d.toRat ≤ 0 := by
    rw [toRat_eq, signed, if_pos (by simpa using hs)]
    push_cast
    exact mul_nonpos_of_nonpos_of_nonneg (neg_nonpos.mpr (Nat.cast_nonneg _)) (zpow_pos (by norm_num) _).le
  exact absurd h (not_lt.mpr hle)

/-- A decimal without a sign and not zero is positive. -/
theorem toRat_pos (hs : d.sign = false) (hc : 0 < d.coefficient) : 0 < d.toRat := by
  rw [toRat_eq, signed, hs, if_neg (by simp)]
  exact mul_pos (by exact_mod_cast hc) (zpow_pos (by norm_num) _)

/-- The least positive decimal that fits. -/
theorem le_of_fits (hf : d.Fits) (hpos : 0 < d.toRat) : 1 / 10 ^ 10 ≤ d.toRat := by
  have hcoefficient : (1 : ℚ) ≤ d.coefficient := by exact_mod_cast coefficient_pos_iff.mpr hpos.ne'
  calc (1 : ℚ) / 10 ^ 10 = 1 * (10 : ℚ) ^ (-10 : Int) := by norm_num
    _ ≤ d.coefficient * (10 : ℚ) ^ d.exponent :=
      mul_le_mul hcoefficient (zpow_le_zpow_right₀ (by norm_num) hf.1) (zpow_pos (by norm_num) _).le (Nat.cast_nonneg _)
    _ = d.toRat := by rw [← abs_toRat, abs_of_pos hpos]

/-- The magnitude of a decimal, by its most significant digit. -/
theorem pow_le_abs_iff (h : d.toRat ≠ 0) (n : Int) : (10 : ℚ) ^ n ≤ |d.toRat| ↔ n ≤ d.adjusted := by
  have hc : d.coefficient ≠ 0 := (coefficient_pos_iff.mpr h).ne'
  have hlow : (10 : ℚ) ^ d.adjusted ≤ |d.toRat| := by
    rw [abs_toRat, adjusted, add_comm, zpow_add₀ (by norm_num), zpow_natCast]
    refine mul_le_mul_of_nonneg_right ?_ (zpow_pos (by norm_num) _).le
    exact_mod_cast Nat.pow_log_le_self 10 hc
  have hhigh : |d.toRat| < (10 : ℚ) ^ (d.adjusted + 1) := by
    rw [abs_toRat, adjusted, add_assoc, add_comm, zpow_add₀ (by norm_num)]
    refine mul_lt_mul_of_pos_right ?_ (zpow_pos (by norm_num) _)
    exact_mod_cast Nat.lt_pow_succ_log_self (by norm_num : 1 < 10) d.coefficient
  constructor
  · intro hn
    have hlt : (10 : ℚ) ^ n < (10 : ℚ) ^ (d.adjusted + 1) := hn.trans_lt hhigh
    have := (zpow_lt_zpow_iff_right₀ (by norm_num)).mp hlt
    omega
  · exact fun hn => (zpow_le_zpow_right₀ (by norm_num) hn).trans hlow

/-- A decimal is below a power of ten just when its most significant digit is. -/
theorem abs_lt_pow_iff (h : d.toRat ≠ 0) (n : Int) : |d.toRat| < (10 : ℚ) ^ n ↔ d.adjusted < n := by
  rw [← not_le, pow_le_abs_iff h, not_le]

/-- The validator accepts what fits. -/
theorem validate_ok_iff (d : Decimal) (field_name : String) :
    validate_order_decimal_input d field_name = .ok d ↔ d.Fits := by
  unfold validate_order_decimal_input Fits
  dsimp only
  rw [ite_eq_right_iff]
  simp only [reduceCtorEq, imp_false, gt_iff_lt, not_or, not_lt, ORDER_NUMERIC_SCALE, ORDER_NUMERIC_INTEGER_DIGITS,
    ORDER_NUMERIC_PRECISION]
  by_cases h : d.toRat = 0
  · have hlt : |d.toRat| < 10 ^ 18 := by
      rw [h, abs_zero]
      norm_num
    rw [if_pos h, and_iff_left hlt]
    omega
  · have hlt : |d.toRat| < 10 ^ 18 ↔ d.adjusted < 18 := abs_lt_pow_iff h 18
    rw [if_neg h, hlt]
    omega

/-! ## Rounding in the context -/

/-- Rounding raises the exponent by the digits it cuts off. -/
theorem exponent_fix (d : Decimal) : d.fix.exponent = d.exponent + (roundDigits prec d.coefficient).2 := rfl

/-- So it never lowers the exponent. -/
theorem exponent_le_fix (d : Decimal) : d.exponent ≤ d.fix.exponent := by
  rw [exponent_fix]
  omega

/-- A result of few digits is not rounded. -/
theorem fix_eq_self (h : d.coefficient < 10 ^ prec) : d.fix = d := by
  rw [fix, Digits.roundDigits_of_lt (by decide) h]
  simp

/-- What fits is not rounded. -/
theorem fix_of_fits (h : d.Fits) : d.fix = d := by
  refine fix_eq_self ?_
  have hvalue : (d.coefficient : ℚ) * 10 ^ (-10 : Int) < 10 ^ 18 := by
    refine lt_of_le_of_lt ?_ h.2
    rw [abs_toRat]
    exact mul_le_mul_of_nonneg_left (zpow_le_zpow_right₀ (by norm_num) h.1) (Nat.cast_nonneg _)
  have hcoefficient : (d.coefficient : ℚ) < 10 ^ prec := by
    rw [zpow_neg, ← div_eq_mul_inv, div_lt_iff₀ (by norm_num)] at hvalue
    exact hvalue.trans_eq (by norm_num [prec])
  exact_mod_cast hcoefficient

/-- The difference of two decimals that fit and are not negative fits, so it is not rounded. -/
theorem sub_of_fits (ha : a.Fits) (hb : b.Fits) (ha₀ : 0 ≤ a.toRat) (hb₀ : 0 ≤ b.toRat) :
    (a - b).toRat = a.toRat - b.toRat ∧ (a - b).Fits ∧ (a - b).exponent = min a.exponent b.exponent := by
  have hvalue : (exactAdd a b.copy_negate).toRat = a.toRat - b.toRat := by
    rw [toRat_exactAdd, toRat_copy_negate, sub_eq_add_neg]
  have hfits : (exactAdd a b.copy_negate).Fits := by
    obtain ⟨hae, hav⟩ := ha
    obtain ⟨hbe, hbv⟩ := hb
    refine ⟨le_min hae hbe, ?_⟩
    rw [abs_of_nonneg ha₀] at hav
    rw [abs_of_nonneg hb₀] at hbv
    rw [hvalue, abs_lt]
    constructor <;> linarith
  have hsub : a - b = exactAdd a b.copy_negate := fix_of_fits hfits
  rw [hsub]
  exact ⟨hvalue, hfits, rfl⟩

/-- A result of many digits keeps as many as the context has, and its most significant digit. -/
theorem fix_of_le (h : 10 ^ prec ≤ d.coefficient) :
    10 ^ (prec - 1) ≤ d.fix.coefficient ∧ d.fix.coefficient < 10 ^ prec ∧ (10 : ℚ) ^ d.adjusted ≤ |d.fix.toRat| := by
  obtain ⟨hlow, hhigh, _, hpow⟩ := Digits.roundDigits_of_le (by decide) h
  refine ⟨hlow, hhigh, ?_⟩
  have hcast : (10 : ℚ) ^ Nat.log 10 d.coefficient ≤
      d.fix.coefficient * 10 ^ (roundDigits prec d.coefficient).2 := by exact_mod_cast hpow
  rw [abs_toRat, exponent_fix, zpow_add₀ (by norm_num), zpow_natCast, adjusted, zpow_add₀ (by norm_num), zpow_natCast,
    mul_left_comm]
  exact mul_le_mul_of_nonneg_left hcast (zpow_pos (by norm_num) _).le

/-- A large result is large when rounded. -/
theorem fix_large (h : 10 ^ 18 ≤ |d.toRat|) : 10 ^ 18 ≤ |d.fix.toRat| := by
  rcases Nat.lt_or_ge d.coefficient (10 ^ prec) with hc | hc
  · rwa [fix_eq_self hc]
  · have hne : d.toRat ≠ 0 := by
      intro hzero
      rw [hzero, abs_zero] at h
      norm_num at h
    have hadjusted : (18 : Int) ≤ d.adjusted := (pow_le_abs_iff hne 18).mp h
    calc (10 : ℚ) ^ 18 = (10 : ℚ) ^ (18 : Int) := rfl
      _ ≤ (10 : ℚ) ^ d.adjusted := zpow_le_zpow_right₀ (by norm_num) hadjusted
      _ ≤ |d.fix.toRat| := (fix_of_le hc).2.2

/-- A result of the context with more than ten decimals is below `10 ^ 17`. -/
theorem abs_lt_of_small (hc : d.coefficient < 10 ^ prec) (he : d.exponent ≤ -11) : |d.toRat| < 10 ^ 17 := by
  have hcast : (d.coefficient : ℚ) < 10 ^ prec := by exact_mod_cast hc
  calc |d.toRat| = d.coefficient * (10 : ℚ) ^ d.exponent := abs_toRat d
    _ ≤ (d.coefficient : ℚ) * (10 : ℚ) ^ (-11 : Int) :=
      mul_le_mul_of_nonneg_left (zpow_le_zpow_right₀ (by norm_num) he) (Nat.cast_nonneg _)
    _ < (10 : ℚ) ^ prec * (10 : ℚ) ^ (-11 : Int) := mul_lt_mul_of_pos_right hcast (zpow_pos (by norm_num) _)
    _ = 10 ^ 17 := by norm_num [prec]

/-- A result with as many digits as the context has, ten of them decimals at most, is not below `10 ^ 17`. -/
theorem le_abs_of_large (hc : 10 ^ (prec - 1) ≤ d.coefficient) (he : -10 ≤ d.exponent) : 10 ^ 17 ≤ |d.toRat| := by
  have hcast : (10 : ℚ) ^ (prec - 1) ≤ d.coefficient := by exact_mod_cast hc
  calc (10 : ℚ) ^ 17 = (10 : ℚ) ^ (prec - 1) * (10 : ℚ) ^ (-10 : Int) := by norm_num [prec]
    _ ≤ (d.coefficient : ℚ) * (10 : ℚ) ^ (-10 : Int) := mul_le_mul_of_nonneg_right hcast (zpow_pos (by norm_num) _).le
    _ ≤ (d.coefficient : ℚ) * (10 : ℚ) ^ d.exponent :=
      mul_le_mul_of_nonneg_left (zpow_le_zpow_right₀ (by norm_num) he) (Nat.cast_nonneg _)
    _ = |d.toRat| := (abs_toRat d).symm

/-- A result has at most ten decimals when the exact one has, or when it is so large that it keeps no more. -/
theorem exponent_fix_iff (d : Decimal) : -10 ≤ d.fix.exponent ↔ -10 ≤ d.exponent ∨ 10 ^ 17 ≤ |d.fix.toRat| := by
  have hsmall : d.fix.coefficient < 10 ^ prec := by
    rcases Nat.lt_or_ge d.coefficient (10 ^ prec) with hc | hc
    · rwa [fix_eq_self hc]
    · exact (fix_of_le hc).2.1
  constructor
  · intro hexp
    rcases Nat.lt_or_ge d.coefficient (10 ^ prec) with hc | hc
    · rw [fix_eq_self hc] at hexp
      exact .inl hexp
    · exact .inr (le_abs_of_large (fix_of_le hc).1 hexp)
  · rintro (hexp | hlarge)
    · exact hexp.trans (exponent_le_fix d)
    · by_contra hexp
      exact absurd hlarge (not_le.mpr (abs_lt_of_small hsmall (by omega)))

/-- A result of ten decimals fits exactly when it is not too large. -/
theorem fix_fits_iff (h : -10 ≤ d.exponent) : d.fix.Fits ↔ |d.toRat| < 10 ^ 18 := by
  constructor
  · intro hf
    by_contra hlarge
    exact absurd hf.2 (not_lt.mpr (fix_large (not_lt.mp hlarge)))
  · intro hlt
    have hf : d.Fits := ⟨h, hlt⟩
    rwa [fix_of_fits hf]

/-- Rounding does not turn the sign. -/
theorem fix_nonneg (h : 0 < d.toRat) : 0 ≤ d.fix.toRat := by
  rw [toRat_eq, signed, fix, sign_of_pos h, if_neg (by simp)]
  exact mul_nonneg (by exact_mod_cast Nat.zero_le _) (zpow_pos (by norm_num) _).le

/-- A negative result is not positive when rounded. -/
theorem fix_nonpos (h : d.toRat < 0) : d.fix.toRat ≤ 0 := by
  have hneg : 0 < d.copy_negate.toRat := by
    rw [toRat_copy_negate]
    exact neg_pos.mpr h
  have hfix : d.copy_negate.fix = d.fix.copy_negate := rfl
  have := fix_nonneg hneg
  rw [hfix, toRat_copy_negate] at this
  exact neg_nonneg.mp this

/-- What is quantized has the exponent asked for, and few enough digits. -/
theorem quantize_ok {exponent : Int} (h : d.quantize exponent = .ok a) :
    a = ⟨d.sign, d.rescale exponent, exponent⟩ ∧ a.coefficient < 10 ^ prec := by
  unfold quantize at h
  split at h
  · cases h
  · split at h
    · cases h
    · rename_i hdigits
      cases h
      exact ⟨rfl, (Digits.lt_pow_iff (by decide)).mpr (not_lt.mp hdigits)⟩

end Decimal
end MtossBot
