import MtossBot.Lemmas.Decimals

/-!
# From floats to orders

`domain/numeric.py` on decimals: a float is converted by way of its text, and taken to ten decimals.
-/

namespace MtossBot

/-- What the conversions ask of floats. -/
class FloatText (F : Type) where
  /-- `float(d)`. -/
  ofDecimal : Decimal → F
  /-- `Decimal(str(value))` of a finite value. -/
  text : F → Option Decimal

variable {F : Type} [FloatText F]

def to_order_decimal (value : F) : Except Exc Decimal :=
  match FloatText.text value with
  | none => .error (.valueError "value must be finite")
  | some d => d.quantize (-ORDER_NUMERIC_SCALE)

instance : Boundary F Decimal := ⟨FloatText.ofDecimal, to_order_decimal⟩

/-- What is known of floats: the text of a float reads back as that float, and prices do not convert to the same float as anything
below half of them. -/
structure FloatLaws (F : Type) [FloatText F] : Prop where
  read_back : ∀ (value : F) d, FloatText.text value = some d → FloatText.ofDecimal d = value
  apart : ∀ a b : Decimal, 2 * a.toRat ≤ b.toRat → 1 / 10 ^ 10 ≤ b.toRat → b.toRat < 10 ^ 18 →
    (FloatText.ofDecimal a : F) ≠ FloatText.ofDecimal b

/-- The decimal of `n` in units of the tenth decimal. -/
def Decimal.ofUnits (n : Int) : Decimal := ⟨n < 0, n.natAbs, -10⟩

/-- Exact numbers in the place of floats, with the text of those that have ten decimals. -/
@[reducible] def FloatText.exact : FloatText ℚ where
  ofDecimal := Decimal.toRat
  text q := if (q * 10 ^ 10).den = 1 then some (.ofUnits (q * 10 ^ 10).num) else none

theorem Decimal.toRat_ofUnits (n : Int) : (ofUnits n).toRat = n / 10 ^ 10 := by
  have hsigned : (ofUnits n).signed = n := signed_mk fun _ => rfl
  have hexp : (ofUnits n).exponent = -10 := rfl
  rw [toRat_eq, hsigned, hexp, zpow_neg, div_eq_mul_inv]
  norm_num

theorem FloatLaws.exact : @FloatLaws ℚ .exact := by
  refine @FloatLaws.mk ℚ .exact ?_ ?_
  · intro q d h
    obtain ⟨hden, hd⟩ := Option.ite_none_right_eq_some.mp h
    have hvalue : ((q * 10 ^ 10).num : ℚ) = q * 10 ^ 10 := Rat.coe_int_num_of_den_eq_one hden
    have hq : (Decimal.ofUnits (q * 10 ^ 10).num).toRat = q := by
      rw [Decimal.toRat_ofUnits, hvalue, mul_div_cancel_right₀ _ (by norm_num)]
    exact Option.some.inj hd ▸ hq
  · intro a b hab hb _ heq
    have hvalues : a.toRat = b.toRat := heq
    have hpos : (0 : ℚ) < 1 / 10 ^ 10 := by norm_num
    linarith

namespace Decimal

variable {d s : Decimal}

/-- A value over half a unit is not rescaled to nothing. -/
theorem rescale_pos {exponent : Int} (hd : 10 ^ exponent < 2 * d.toRat) : 0 < d.rescale exponent := by
  have hpos : 0 < d.toRat := by
    have := (zpow_pos (by norm_num : (0 : ℚ) < 10) exponent).trans hd
    linarith
  unfold rescale
  split
  · exact Nat.mul_pos (coefficient_pos_iff.mpr hpos.ne') (by positivity)
  · rename_i hexp
    refine Digits.roundHalfEven_pos (by positivity) ?_
    -- half a unit, in units of the last digit of the value
    rw [← abs_of_pos hpos, abs_toRat] at hd
    obtain ⟨n, hn⟩ := Int.eq_ofNat_of_zero_le (by omega : 0 ≤ exponent - d.exponent)
    have hsplit : (10 : ℚ) ^ exponent = 10 ^ n * 10 ^ d.exponent := by
      rw [← zpow_natCast, ← zpow_add₀ (by norm_num), ← hn, Int.sub_add_cancel]
    rw [hsplit, ← mul_assoc] at hd
    have hlt := lt_of_mul_lt_mul_right hd (zpow_pos (by norm_num) _).le
    rw [hn, Int.toNat_natCast]
    exact_mod_cast hlt

/-- A value over half a unit is quantized to a positive one. -/
theorem quantize_pos {exponent : Int} (h : d.quantize exponent = .ok s) (hd : 10 ^ exponent < 2 * d.toRat) :
    0 < s.toRat := by
  have hpos : 0 < d.toRat := by
    have := (zpow_pos (by norm_num : (0 : ℚ) < 10) exponent).trans hd
    linarith
  rw [(quantize_ok h).1]
  exact toRat_pos (sign_of_pos hpos : d.sign = false) (rescale_pos hd)

end Decimal

/-- A price that went through a float is a price of ten decimals. -/
theorem to_order_decimal_price (laws : FloatLaws F) {d s : Decimal} (hf : d.Fits) (hpos : 0 < d.toRat)
    (h : to_order_decimal (FloatText.ofDecimal d : F) = .ok s) : s.exponent = -10 ∧ s.Fits ∧ 0 < s.toRat := by
  unfold to_order_decimal at h
  split at h
  · cases h
  · rename_i t ht
    obtain ⟨hs, hdigits⟩ := Decimal.quantize_ok h
    have hexp : s.exponent = -10 := by rw [hs]; rfl
    have hhalf : 10 ^ (-ORDER_NUMERIC_SCALE) < 2 * t.toRat := by
      by_contra hle
      -- half of the least price is another float
      refine laws.apart t d ?_ (Decimal.le_of_fits hf hpos) ((abs_of_pos hpos) ▸ hf.2) (laws.read_back _ t ht)
      exact (not_lt.mp hle).trans ((Decimal.le_of_fits hf hpos).trans' (by norm_num [ORDER_NUMERIC_SCALE]))
    refine ⟨hexp, ⟨hexp.ge, ?_⟩, Decimal.quantize_pos h hhalf⟩
    have hcast : (s.coefficient : ℚ) < 10 ^ Decimal.prec := by exact_mod_cast hdigits
    calc |s.toRat| = s.coefficient * (10 : ℚ) ^ (-10 : Int) := by rw [Decimal.abs_toRat, hexp]
      _ < (10 : ℚ) ^ Decimal.prec * (10 : ℚ) ^ (-10 : Int) := mul_lt_mul_of_pos_right hcast (zpow_pos (by norm_num) _)
      _ = 10 ^ 18 := by norm_num [Decimal.prec]

end MtossBot
