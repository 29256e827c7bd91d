import Mathlib.Data.Nat.Cast.Field
import MtossBot.Lemmas.Decimals

/-!
# Products and quotients of decimals

When a result of the context reaches a power of ten, which results are out of the bounds of its exponents, and for which of them `quantize`
has too many digits. A quotient is found with one digit more than the context has, so it reaches a power exactly when the exact quotient
comes near enough.
-/

namespace MtossBot
namespace Decimal

variable {d a b : Decimal}

/-- Half a unit of the last digit of the context below a power of ten. -/
def reach (n : Int) : ℚ := 10 ^ n - 10 ^ (n - prec) / 2

/-- The reach of an exponent is positive. -/
theorem reach_pos (n : Int) : 0 < reach n := by
  have hlast : (10 : ℚ) ^ (n - prec) ≤ 10 ^ n := zpow_le_zpow_right₀ (by norm_num) (by unfold prec; omega)
  have hpos : (0 : ℚ) < 10 ^ n := zpow_pos (by norm_num) n
  unfold reach
  linarith

/-- It is no more than the power of ten. -/
theorem reach_le_pow (n : Int) : reach n ≤ 10 ^ n := by
  have hpos : (0 : ℚ) < 10 ^ (n - prec) := zpow_pos (by norm_num) _
  unfold reach
  linarith

/-- The reach of a power, in units of an exponent below it. -/
theorem reach_eq {n e : Int} (m : Nat) (h : n = m + e) : reach n = reach m * 10 ^ e := by
  have hm : n - prec = m - prec + e := by omega
  unfold reach
  rw [hm, h, zpow_add₀ (by norm_num), zpow_add₀ (by norm_num)]
  ring

/-- An integer is in reach when rounding takes it there. -/
theorem reach_le_natCast_iff (m c : Nat) : reach m ≤ c ↔ 2 * 10 ^ m ≤ 2 * c + 10 ^ (m - prec) := by
  unfold reach
  rcases Nat.lt_or_ge m prec with hm | hm
  · rw [Nat.sub_eq_zero_of_le hm.le, pow_zero]
    have hlast : (10 : ℚ) ^ ((m : Int) - prec) ≤ 1 := zpow_le_one_of_nonpos₀ (by norm_num) (by omega)
    have hpos : (0 : ℚ) < (10 : ℚ) ^ ((m : Int) - prec) := zpow_pos (by norm_num) _
    rw [zpow_natCast]
    constructor
    · intro h
      have hcast : (10 ^ m : ℚ) < (c + 1 : ℕ) := by
        push_cast
        linarith
      have hlt : 10 ^ m < c + 1 := by exact_mod_cast hcast
      omega
    · intro h
      have hle : 10 ^ m ≤ c := by omega
      have hcast : (10 ^ m : ℚ) ≤ c := by exact_mod_cast hle
      linarith
  · have hlast : (10 : ℚ) ^ ((m : Int) - prec) = ((10 ^ (m - prec) : ℕ) : ℚ) := by
      rw [← Nat.cast_sub hm, zpow_natCast, Nat.cast_pow, Nat.cast_ofNat]
    rw [hlast, zpow_natCast]
    constructor
    · intro h
      have hcast : ((2 * 10 ^ m : ℕ) : ℚ) ≤ (2 * c + 10 ^ (m - prec) : ℕ) := by
        push_cast at h ⊢
        linarith
      exact_mod_cast hcast
    · intro h
      have hcast : ((2 * 10 ^ m : ℕ) : ℚ) ≤ (2 * c + 10 ^ (m - prec) : ℕ) := by exact_mod_cast h
      push_cast at hcast ⊢
      linarith

/-- A rounded result reaches a power of ten from there on. -/
theorem pow_le_fix_iff (d : Decimal) (n : Int) : 10 ^ n ≤ |d.fix.toRat| ↔ reach n ≤ |d.toRat| := by
  rcases Nat.eq_zero_or_pos d.coefficient with hzero | hc
  · have hd : d.toRat = 0 := by rw [← abs_eq_zero, abs_toRat, hzero, Nat.cast_zero, zero_mul]
    rw [fix_eq_self (by rw [hzero]; positivity), hd, abs_zero]
    exact iff_of_false (not_le.mpr (zpow_pos (by norm_num) n)) (not_le.mpr (reach_pos n))
  · have hunit : (0 : ℚ) < 10 ^ d.exponent := zpow_pos (by norm_num) _
    have hfix : |d.fix.toRat| = ((roundDigits prec d.coefficient).1 * 10 ^ (roundDigits prec d.coefficient).2 : ℕ) * (10 : ℚ) ^ d.exponent := by
      rw [abs_toRat, exponent_fix, zpow_add₀ (by norm_num), zpow_natCast]
      push_cast
      show ((roundDigits prec d.coefficient).1 : ℚ) * _ = _
      ring
    rw [hfix, abs_toRat]
    rcases lt_or_ge n d.exponent with hn | hn
    · -- a unit of the exponent is above the power
      have hbelow : (10 : ℚ) ^ n ≤ 10 ^ d.exponent := zpow_le_zpow_right₀ (by norm_num) hn.le
      have hone : 1 ≤ (roundDigits prec d.coefficient).1 * 10 ^ (roundDigits prec d.coefficient).2 := by
        rw [← pow_zero 10, Digits.pow_le_roundDigits_iff (by decide), Nat.zero_sub, pow_zero]
        omega
      have hunits : ∀ k : Nat, 1 ≤ k → (10 : ℚ) ^ n ≤ k * 10 ^ d.exponent := fun k hk =>
        hbelow.trans (le_mul_of_one_le_left hunit.le (by exact_mod_cast hk))
      exact iff_of_true (hunits _ hone) ((reach_le_pow n).trans (hunits _ hc))
    · obtain ⟨m, hm⟩ := Int.eq_ofNat_of_zero_le (Int.sub_nonneg.mpr hn)
      have hsum : n = m + d.exponent := by omega
      rw [reach_eq m hsum, mul_le_mul_iff_left₀ hunit, reach_le_natCast_iff, ← Digits.pow_le_roundDigits_iff (by decide), hsum,
        zpow_add₀ (by norm_num), mul_le_mul_iff_left₀ hunit, zpow_natCast]
      exact_mod_cast Iff.rfl

/-- Multiplied by a power of ten a rounded result is not rounded again. -/
theorem reach_le_scaled_iff (hd : d.coefficient < 10 ^ prec) (k : Nat) (n : Int) :
    reach (n + k) ≤ |(exactMul d ⟨false, 10 ^ k, 0⟩).toRat| ↔ 10 ^ n ≤ |d.toRat| := by
  have hscaled : |(exactMul d ⟨false, 10 ^ k, 0⟩).toRat| = |d.toRat| * 10 ^ (k : Int) := by
    rw [toRat_exactMul, abs_mul, abs_toRat ⟨false, 10 ^ k, 0⟩]
    simp
  have hreach : reach (n + k) = reach n * 10 ^ (k : Int) := by
    have hsub : n + k - prec = n - prec + k := by omega
    unfold reach
    rw [hsub, zpow_add₀ (by norm_num), zpow_add₀ (by norm_num)]
    ring
  rw [hscaled, hreach, mul_le_mul_iff_left₀ (zpow_pos (by norm_num) _), ← pow_le_fix_iff, fix_eq_self hd]

/-- A rounded result has no more digits than the context. -/
theorem coefficient_fix_lt (d : Decimal) : d.fix.coefficient < 10 ^ prec := by
  rcases Nat.lt_or_ge d.coefficient (10 ^ prec) with hc | hc
  · rwa [fix_eq_self hc]
  · exact (fix_of_le hc).2.1

/-! ## The bounds of the exponent -/

/-- The next power is reached above a power only. -/
theorem pow_lt_reach (n : Int) : 10 ^ n < reach (n + 1) := by
  have hlast : (10 : ℚ) ^ (n + 1 - prec) ≤ 10 ^ n := zpow_le_zpow_right₀ (by norm_num) (by unfold prec; omega)
  have hpos : (0 : ℚ) < 10 ^ n := zpow_pos (by norm_num) n
  unfold reach
  rw [zpow_add₀ (by norm_num), zpow_one]
  linarith

/-- A result is not rounded to nothing. -/
theorem fix_ne_zero (h : d.toRat ≠ 0) : d.fix.toRat ≠ 0 := by
  rw [← abs_pos]
  have hreach : reach d.adjusted ≤ |d.toRat| := (reach_le_pow _).trans ((pow_le_abs_iff h _).mpr le_rfl)
  exact (zpow_pos (by norm_num) _).trans_le ((pow_le_fix_iff d _).mpr hreach)

/-- Above the least place a result is rounded, unless it reaches the place above the greatest one. -/
theorem finalize_normal (hne : d.toRat ≠ 0) (hlow : Emin ≤ d.adjusted) :
    d.finalize = if reach (Emax + 1) ≤ |d.toRat| then .error .overflow else .ok d.fix := by
  have hlarge : Emax < d.fix.adjusted ↔ reach (Emax + 1) ≤ |d.toRat| := by
    rw [← pow_le_fix_iff, pow_le_abs_iff (fix_ne_zero hne), Int.add_one_le_iff]
  unfold finalize
  rw [if_neg (coefficient_pos_iff.mpr hne).ne', if_neg (not_lt.mpr hlow)]
  simp only [hlarge]

/-- Below the least place a result keeps the digits that are left. -/
theorem finalize_subnormal (hlow : d.toRat = 0 ∨ d.adjusted < Emin) :
    ∃ result, d.finalize = .ok result ∧ |result.toRat| ≤ 10 ^ Emin ∧ result.coefficient < 10 ^ prec := by
  unfold finalize
  by_cases hc : d.coefficient = 0
  · rw [if_pos hc]
    refine ⟨_, rfl, ?_, by positivity⟩
    rw [abs_toRat, Nat.cast_zero, zero_mul]
    exact (zpow_pos (by norm_num) _).le
  · have hne : d.toRat ≠ 0 := coefficient_pos_iff.mp (Nat.pos_of_ne_zero hc)
    have hsmall : d.adjusted < Emin := hlow.resolve_left hne
    have hexponent : d.exponent ≤ d.adjusted := by
      unfold adjusted
      omega
    obtain ⟨m, hm⟩ := Int.eq_ofNat_of_zero_le (show 0 ≤ Emin - max d.exponent Etiny by unfold Etiny prec; omega)
    have hdigits : m < prec := by
      unfold Etiny prec at *
      omega
    have hpow : d.coefficient < 10 ^ (Emin - d.exponent).toNat := by
      refine Nat.lt_pow_of_log_lt (by norm_num) ?_
      unfold adjusted at hsmall
      omega
    have hrescale : d.rescale (max d.exponent Etiny) ≤ 10 ^ m := by
      unfold rescale
      split
      · rename_i hle
        have hkept : max d.exponent Etiny = d.exponent := le_antisymm hle (le_max_left _ _)
        rw [hkept, sub_self, Int.toNat_zero, pow_zero, mul_one]
        have hsum : (Emin - d.exponent).toNat = m := by omega
        exact hsum ▸ hpow.le
      · have hsum : (Emin - d.exponent).toNat = m + (max d.exponent Etiny - d.exponent).toNat := by omega
        refine Digits.roundHalfEven_le (by positivity) ?_
        rw [← pow_add, ← hsum]
        exact hpow.le
    have hadjusted : ¬Emax < adjusted ⟨d.sign, d.rescale (max d.exponent Etiny), max d.exponent Etiny⟩ := by
      have hlog : Nat.log 10 (d.rescale (max d.exponent Etiny)) ≤ m := (Nat.log_mono_right hrescale).trans (Nat.log_pow (by norm_num) m).le
      show ¬Emax < max d.exponent Etiny + (Nat.log 10 (d.rescale (max d.exponent Etiny)) : Int)
      unfold Emax Emin at *
      omega
    rw [if_neg hc]
    simp only [if_pos hsmall, if_neg hadjusted]
    refine ⟨_, rfl, ?_, hrescale.trans_lt (Nat.pow_lt_pow_right (by norm_num) hdigits)⟩
    rw [abs_toRat, show Emin = m + max d.exponent Etiny by omega, zpow_add₀ (by norm_num), zpow_natCast]
    exact mul_le_mul_of_nonneg_right (by exact_mod_cast hrescale) (zpow_pos (by norm_num) _).le

/-- A result exists and is below a power of ten exactly when the exact one does not reach it. -/
theorem finalize_lt_iff {n : Int} (hlow : Emin < n) (hhigh : n ≤ Emax + 1) :
    (∃ result, d.finalize = .ok result ∧ |result.toRat| < 10 ^ n) ↔ |d.toRat| < reach n := by
  by_cases hsmall : d.toRat = 0 ∨ d.adjusted < Emin
  · obtain ⟨result, hresult, hbound, _⟩ := finalize_subnormal hsmall
    have hpow : (10 : ℚ) ^ Emin < 10 ^ n := zpow_lt_zpow_right₀ (by norm_num) hlow
    refine iff_of_true ⟨result, hresult, hbound.trans_lt hpow⟩ ?_
    have hreach : (10 : ℚ) ^ Emin < reach n := by
      refine (zpow_le_zpow_right₀ (by norm_num) (show Emin ≤ n - 1 by omega)).trans_lt ?_
      simpa using pow_lt_reach (n - 1)
    refine lt_of_le_of_lt ?_ hreach
    rcases hsmall with hzero | hadjusted
    · rw [hzero, abs_zero]
      exact (zpow_pos (by norm_num) _).le
    · by_cases hzero : d.toRat = 0
      · rw [hzero, abs_zero]
        exact (zpow_pos (by norm_num) _).le
      · exact ((abs_lt_pow_iff hzero _).mpr hadjusted).le
  · rw [not_or, not_lt] at hsmall
    have hreach : |d.toRat| < reach n ↔ |d.fix.toRat| < 10 ^ n := by rw [← not_le, ← pow_le_fix_iff, not_le]
    rw [finalize_normal hsmall.1 hsmall.2, hreach]
    split
    · rename_i hlarge
      have hpow := (pow_le_fix_iff d (Emax + 1)).mpr hlarge
      exact iff_of_false (fun ⟨_, h, _⟩ => nomatch h) (not_lt.mpr ((zpow_le_zpow_right₀ (by norm_num) hhigh).trans hpow))
    · constructor
      · rintro ⟨_, h, hlt⟩
        cases h
        exact hlt
      · exact fun hlt => ⟨_, rfl, hlt⟩

/-- Within the bounds it has no more digits than the context either. -/
theorem coefficient_finalize_lt {result : Decimal} (h : d.finalize = .ok result) : result.coefficient < 10 ^ prec := by
  by_cases hsmall : d.toRat = 0 ∨ d.adjusted < Emin
  · obtain ⟨result', hresult, _, hdigits⟩ := finalize_subnormal hsmall
    cases hresult.symm.trans h
    exact hdigits
  · rw [not_or, not_lt] at hsmall
    rw [finalize_normal hsmall.1 hsmall.2] at h
    split at h
    · cases h
    · cases h
      exact coefficient_fix_lt d

/-- Numbers that fit the columns of an order are multiplied without an overflow, and to more than nothing. -/
theorem mul_of_fits (ha : a.Fits) (hb : b.Fits) (ha₀ : 0 < a.toRat) (hb₀ : 0 < b.toRat) :
    ∃ product, a.mul b = .ok product ∧ 0 < product.toRat := by
  have hvalue := toRat_exactMul a b
  have hleast : (10 : ℚ) ^ (-20 : Int) ≤ (exactMul a b).toRat := by
    rw [hvalue]
    calc (10 : ℚ) ^ (-20 : Int) = 1 / 10 ^ 10 * (1 / 10 ^ 10) := by norm_num
      _ ≤ a.toRat * b.toRat := mul_le_mul (le_of_fits ha ha₀) (le_of_fits hb hb₀) (by norm_num) ha₀.le
  have hpos : 0 < (exactMul a b).toRat := (zpow_pos (by norm_num) _).trans_le hleast
  have hmost : |(exactMul a b).toRat| < (10 : ℚ) ^ Emax := by
    calc |(exactMul a b).toRat| = |a.toRat| * |b.toRat| := by rw [hvalue, abs_mul]
      _ < 10 ^ 18 * 10 ^ 18 := mul_lt_mul'' ha.2 hb.2 (abs_nonneg _) (abs_nonneg _)
      _ = (10 : ℚ) ^ (36 : Int) := by norm_num
      _ ≤ 10 ^ Emax := zpow_le_zpow_right₀ (by norm_num) (by decide)
  have hlow : Emin ≤ (exactMul a b).adjusted := by
    refine (by decide : Emin ≤ -20).trans ((pow_le_abs_iff hpos.ne' _).mp ?_)
    rwa [abs_of_pos hpos]
  refine ⟨(exactMul a b).fix, ?_, toRat_pos (sign_of_pos hpos : _ = false) (coefficient_pos_iff.mpr (fix_ne_zero hpos.ne'))⟩
  rw [mul, finalize_normal hpos.ne' hlow, if_neg (not_le.mpr (hmost.trans (pow_lt_reach _)))]

/-! ## Quotients -/

/-- Zeros that are dropped do not change the value. -/
theorem stripZeros_value (limit coefficient : Nat) (exponent : Int) :
    ((stripZeros limit coefficient exponent).1 : ℚ) * 10 ^ (stripZeros limit coefficient exponent).2 = coefficient * 10 ^ exponent := by
  induction limit generalizing coefficient exponent with
  | zero => rfl
  | succ limit ih =>
    rw [stripZeros]
    split
    · rename_i hzero
      rw [ih]
      have hcoefficient : (coefficient : ℚ) = (coefficient / 10 : ℕ) * 10 := by
        exact_mod_cast (Nat.div_mul_cancel (Nat.dvd_of_mod_eq_zero hzero)).symm
      rw [hcoefficient, zpow_add₀ (by norm_num), zpow_one]
      ring
    · rfl

/-- The dividend is lengthened so that the quotient has a digit more than the context. -/
def lengthening (a b : Decimal) : Int := numDigits b.coefficient - numDigits a.coefficient + prec + 1

/-- So the quotient has them. -/
theorem long_quotient (ha : a.coefficient ≠ 0) :
    10 ^ prec * (b.coefficient * 10 ^ (-lengthening a b).toNat) ≤ a.coefficient * 10 ^ (lengthening a b).toNat := by
  have hlow : 10 ^ (numDigits a.coefficient - 1) ≤ a.coefficient := Nat.pow_log_le_self 10 ha
  have hhigh : b.coefficient < 10 ^ numDigits b.coefficient := (Digits.lt_pow_iff (Nat.succ_pos _)).mpr le_rfl
  have hpos : 0 < numDigits a.coefficient := Nat.succ_pos _
  calc 10 ^ prec * (b.coefficient * 10 ^ (-lengthening a b).toNat)
      ≤ 10 ^ prec * (10 ^ numDigits b.coefficient * 10 ^ (-lengthening a b).toNat) :=
        Nat.mul_le_mul_left _ (Nat.mul_le_mul_right _ hhigh.le)
    _ = 10 ^ (numDigits a.coefficient - 1) * 10 ^ (lengthening a b).toNat := by
        rw [← pow_add, ← pow_add, ← pow_add]
        congr 1
        unfold lengthening
        omega
    _ ≤ a.coefficient * 10 ^ (lengthening a b).toNat := Nat.mul_le_mul_right _ hlow

/-- The exact quotient, in units of the last digit that is found. -/
theorem abs_quotient (hb : b.coefficient ≠ 0) : |a.toRat / b.toRat| =
    ((a.coefficient * 10 ^ (lengthening a b).toNat : ℕ) : ℚ) / (b.coefficient * 10 ^ (-lengthening a b).toNat : ℕ) *
      10 ^ (a.exponent - b.exponent - lengthening a b) := by
  have hten : (10 : ℚ) ≠ 0 := by norm_num
  have hcoefficient : (b.coefficient : ℚ) ≠ 0 := by exact_mod_cast hb
  have hshift : (10 : ℚ) ^ (lengthening a b).toNat = 10 ^ lengthening a b * 10 ^ (-lengthening a b).toNat := by
    rw [← zpow_natCast, ← zpow_natCast, ← zpow_add₀ hten]
    congr 1
    omega
  rw [abs_div, abs_toRat, abs_toRat, zpow_sub₀ hten, zpow_sub₀ hten]
  push_cast
  rw [hshift]
  have hlong : (10 : ℚ) ^ lengthening a b ≠ 0 := zpow_ne_zero _ hten
  have hexponent : (10 : ℚ) ^ b.exponent ≠ 0 := zpow_ne_zero _ hten
  field_simp

/-- What is left over of a quotient with enough digits, marked in its last one, does not matter. -/
theorem reach_le_sticky_iff {n d : Nat} (hd : 0 < d) (hlong : 10 ^ prec * d ≤ n) (k e : Int) :
    reach k ≤ ((if n / d % 5 = 0 then n / d + 1 else n / d : ℕ) : ℚ) * 10 ^ e ↔ reach k ≤ (n : ℚ) / d * 10 ^ e := by
  have hunit : (0 : ℚ) < 10 ^ e := zpow_pos (by norm_num) _
  have hd' : (0 : ℚ) < d := by exact_mod_cast hd
  rcases le_or_gt (k - e) prec with hsmall | hlarge
  · -- the quotient is above the power
    have hpow : (10 : ℚ) ^ k ≤ 10 ^ prec * 10 ^ e := by
      rw [← zpow_natCast, ← zpow_add₀ (by norm_num)]
      exact zpow_le_zpow_right₀ (by norm_num) (by omega)
    have hquotient : 10 ^ prec ≤ n / d := (Nat.le_div_iff_mul_le hd).mpr hlong
    have hsticky : 10 ^ prec ≤ if n / d % 5 = 0 then n / d + 1 else n / d := by
      split
      · exact Nat.le_succ_of_le hquotient
      · exact hquotient
    have hexact : (10 : ℚ) ^ prec ≤ n / d := by
      rw [le_div_iff₀ hd']
      exact_mod_cast hlong
    refine iff_of_true ?_ ?_
    · exact ((reach_le_pow k).trans hpow).trans (mul_le_mul_of_nonneg_right (by exact_mod_cast hsticky) hunit.le)
    · exact ((reach_le_pow k).trans hpow).trans (mul_le_mul_of_nonneg_right hexact hunit.le)
  · -- what it has to reach ends in a five
    obtain ⟨m, hm⟩ := Int.eq_ofNat_of_zero_le (show 0 ≤ k - e - prec - 1 by omega)
    have hsum : k = (m + prec + 1 : ℕ) + e := by
      push_cast
      omega
    have hle : 5 * 10 ^ m ≤ 10 ^ (m + prec + 1) := by
      rw [pow_add, pow_add, mul_comm, mul_assoc]
      exact Nat.mul_le_mul_left _ (by norm_num [prec])
    have hreach : reach (m + prec + 1 : ℕ) = (10 ^ (m + prec + 1) - 5 * 10 ^ m : ℕ) := by
      have hlast : ((m + prec + 1 : ℕ) : Int) - prec = (m + 1 : ℕ) := by
        push_cast
        omega
      unfold reach
      rw [hlast, zpow_natCast, zpow_natCast, Nat.cast_sub hle]
      push_cast
      ring
    have hfive : 5 ∣ 10 ^ (m + prec + 1) - 5 * 10 ^ m := by
      refine Nat.dvd_sub ?_ (Nat.dvd_mul_right 5 _)
      exact (by norm_num : 5 ∣ 10).trans (dvd_pow_self 10 (by omega))
    rw [reach_eq _ hsum, mul_le_mul_iff_left₀ hunit, mul_le_mul_iff_left₀ hunit, hreach, Nat.cast_le, Digits.le_sticky_iff hd hfive,
      le_div_iff₀ hd']
    exact_mod_cast Iff.rfl

/-- The digits that are found of a quotient are in reach exactly when the exact quotient is. -/
theorem reach_le_quotient_iff (hb : b.coefficient ≠ 0) (n : Int) : reach n ≤ |(quotient a b).toRat| ↔ reach n ≤ |a.toRat / b.toRat| := by
  unfold quotient
  dsimp only
  split
  · rename_i ha
    have hzero : a.toRat = 0 := by rw [← abs_eq_zero, abs_toRat, ha, Nat.cast_zero, zero_mul]
    rw [abs_toRat, hzero]
    simp
  · rename_i ha
    have hlong := long_quotient (b := b) ha
    have hd : 0 < b.coefficient * 10 ^ (-lengthening a b).toNat := Nat.mul_pos (Nat.pos_of_ne_zero hb) (by positivity)
    rw [abs_quotient hb]
    split
    · rename_i hexact
      rw [abs_toRat]
      dsimp only
      rw [stripZeros_value, Nat.cast_div (Nat.dvd_of_mod_eq_zero hexact) (by exact_mod_cast hd.ne')]
      rfl
    · rw [abs_toRat]
      exact reach_le_sticky_iff hd hlong n _

/-! ## Quantizing -/

/-- `quantize` fails for the results that reach the power of ten that is one digit too long. -/
theorem quantize_ok_iff (hd : d.coefficient < 10 ^ prec) (e : Int) :
    (∃ result, d.quantize e = .ok result) ↔ |d.toRat| < 10 ^ (prec + e : Int) := by
  have hlength : ∀ n, n < 10 ^ prec → ¬prec < numDigits n := fun n hn => not_lt.mpr ((Digits.lt_pow_iff (by decide)).mp hn)
  by_cases hc : d.coefficient = 0
  · have hzero : d.toRat = 0 := by rw [← abs_eq_zero, abs_toRat, hc, Nat.cast_zero, zero_mul]
    have hrescale : d.rescale e = 0 := by
      unfold rescale
      split
      · rw [hc, Nat.zero_mul]
      · exact Nat.eq_zero_of_le_zero (Digits.roundHalfEven_le (by positivity) (by rw [hc]; exact Nat.zero_le _))
    rw [hzero, abs_zero]
    refine iff_of_true ?_ (zpow_pos (by norm_num) _)
    unfold quantize
    rw [if_neg (by simp [hc]), hrescale, if_neg (hlength 0 (by positivity))]
    exact ⟨_, rfl⟩
  · have hne : d.toRat ≠ 0 := coefficient_pos_iff.mp (Nat.pos_of_ne_zero hc)
    rw [abs_lt_pow_iff hne]
    unfold quantize
    by_cases hlarge : prec < d.adjusted - e + 1
    · rw [if_pos ⟨hc, hlarge⟩]
      exact iff_of_false (fun ⟨_, h⟩ => nomatch h) (by omega)
    · have hadjusted : d.adjusted < prec + e := by omega
      have hrescale : d.rescale e < 10 ^ prec := by
        unfold rescale
        split
        · rename_i he
          have hvalue := (abs_lt_pow_iff hne _).mpr hadjusted
          rw [abs_toRat, zpow_add₀ (by norm_num), ← sub_add_cancel d.exponent e, zpow_add₀ (by norm_num), ← mul_assoc,
            mul_lt_mul_iff_left₀ (zpow_pos (by norm_num) _)] at hvalue
          obtain ⟨k, hk⟩ := Int.eq_ofNat_of_zero_le (Int.sub_nonneg.mpr he)
          rw [hk, zpow_natCast, zpow_natCast] at hvalue
          rw [hk, Int.toNat_natCast]
          exact_mod_cast hvalue
        · rename_i he
          obtain ⟨k, hk⟩ := Int.eq_ofNat_of_zero_le (show 0 ≤ e - d.exponent - 1 by omega)
          have hdrop : (e - d.exponent).toNat = k + 1 := by omega
          have hbound : d.coefficient ≤ 10 ^ (prec - 1) * 10 ^ (e - d.exponent).toNat := by
            rw [hdrop, ← pow_add]
            exact hd.le.trans (Nat.pow_le_pow_right (by norm_num) (by unfold prec; omega))
          exact (Digits.roundHalfEven_le (by positivity) hbound).trans_lt (by norm_num [prec])
      rw [if_neg fun h => hlarge h.2, if_neg (hlength _ hrescale)]
      exact iff_of_true ⟨_, rfl⟩ hadjusted

end Decimal
end MtossBot
