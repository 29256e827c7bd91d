import MtossBot.Domain.OrderInput
import MtossBot.Lemmas.Decimals

/-!
# The order-decimal check and the column

The check is made on digits and exponents, and what the column stores is a value. They agree but for one kind of input: a value that
can be stored, written with zeros past its tenth decimal, is refused.
-/

namespace MtossBot

/-- Whether `NUMERIC(28,10)` stores a value without rounding it. -/
def DecimalValue.Storable : DecimalValue → Prop
  | finite d => ∃ k : Int, d.toRat = k / 10 ^ 10 ∧ |k| < 10 ^ 28
  | _ => False

/-- Zeros past the tenth decimal, and nothing else there, of a number small enough for the column. -/
def Decimal.ZeroPadded (d : Decimal) : Prop :=
  d.exponent < -10 ∧ 10 ^ (-10 - d.exponent).toNat ∣ d.coefficient ∧ |d.toRat| < 10 ^ 18

def DecimalValue.ZeroPadded : DecimalValue → Prop
  | finite d => d.ZeroPadded
  | _ => False

/-- The check returns the input. -/
def OrderDecimalInput.Accepted (input : OrderDecimalInput) (field_name : String) : Prop :=
  input.validate_order_decimal_input field_name = .ok input

namespace OrderNumericAux

variable {d : Decimal}

/-- Which decimals are multiples of a power of ten. -/
theorem exists_multiple_iff (e : Int) :
    (∃ k : Int, d.toRat = k * (10 : ℚ) ^ e) ↔ e ≤ d.exponent ∨ 10 ^ (e - d.exponent).toNat ∣ d.coefficient := by
  have hpow : ∀ n : Int, (10 : ℚ) ^ n ≠ 0 := fun n => (zpow_pos (by norm_num) n).ne'
  rcases le_or_gt e d.exponent with he | he
  · exact iff_of_true ⟨d.shifted e, (Decimal.toRat_shifted he).symm⟩ (Or.inl he)
  · obtain ⟨n, hn⟩ := Int.eq_ofNat_of_zero_le (Int.sub_nonneg.mpr he.le)
    have hscale : (10 : ℚ) ^ e = (10 : ℚ) ^ d.exponent * ((10 ^ n : Int) : ℚ) := by
      push_cast
      rw [← zpow_natCast, ← zpow_add₀ (by norm_num)]
      congr 1
      omega
    rw [or_iff_right (not_le.mpr he), hn, Int.toNat_natCast, ← Decimal.natAbs_signed, ← Int.natCast_dvd]
    constructor
    · rintro ⟨k, hk⟩
      refine ⟨k, ?_⟩
      rw [Decimal.toRat_eq, hscale, mul_comm, mul_left_comm] at hk
      have hsigned := mul_left_cancel₀ (hpow d.exponent) hk
      rw [mul_comm] at hsigned
      exact_mod_cast hsigned
    · rintro ⟨k, hk⟩
      refine ⟨k, ?_⟩
      rw [Decimal.toRat_eq, hscale, hk]
      push_cast
      ring

theorem abs_lt_iff {k : Int} (h : d.toRat = k / 10 ^ 10) : |k| < 10 ^ 28 ↔ |d.toRat| < 10 ^ 18 := by
  rw [h, abs_div, abs_of_pos (by norm_num : (0 : ℚ) < 10 ^ 10), div_lt_iff₀ (by norm_num), ← Int.cast_abs,
    show (10 : ℚ) ^ 18 * 10 ^ 10 = ((10 ^ 28 : Int) : ℚ) by norm_num, Int.cast_lt]

/-- What can be stored, by digits and exponent. -/
theorem storable_iff :
    (DecimalValue.finite d).Storable ↔
      (-10 ≤ d.exponent ∨ 10 ^ (-10 - d.exponent).toNat ∣ d.coefficient) ∧ |d.toRat| < 10 ^ 18 := by
  have hunit : ∀ k : Int, (k : ℚ) / 10 ^ 10 = k * (10 : ℚ) ^ (-10 : Int) := by
    intro k
    rw [zpow_neg, div_eq_mul_inv]
    norm_num
  rw [← exists_multiple_iff]
  constructor
  · rintro ⟨k, hk, hlt⟩
    exact ⟨⟨k, hk.trans (hunit k)⟩, (abs_lt_iff hk).mp hlt⟩
  · rintro ⟨⟨k, hk⟩, hlt⟩
    have hk := hk.trans (hunit k).symm
    exact ⟨k, hk, (abs_lt_iff hk).mpr hlt⟩

/-- The check of any input is the check of what it stands for. -/
theorem accepted_iff {input : OrderDecimalInput} {v : DecimalValue} (hv : input.candidate = some v) (field_name : String) :
    input.Accepted field_name ↔ ∃ d, v = .finite d ∧ d.Fits := by
  have hfloat : input ≠ .float := by
    intro h
    rw [h] at hv
    cases hv
  unfold OrderDecimalInput.Accepted OrderDecimalInput.validate_order_decimal_input
  rw [if_neg hfloat, hv]
  cases v with
  | finite d =>
    have hfits : (∃ d', DecimalValue.finite d = .finite d' ∧ d'.Fits) ↔ validate_order_decimal_input d field_name = .ok d := by
      simp [Decimal.validate_ok_iff]
    rw [hfits]
    dsimp only
    cases hcheck : validate_order_decimal_input d field_name with
    | error message => simp [Except.map]
    | ok d' => simp [Except.map, validate_order_decimal_input_eq hcheck]
  | infinity sign => simp
  | nan signaling => simp

/-- Accepted is storable, without the padding. -/
theorem accepted_iff_storable {input : OrderDecimalInput} {v : DecimalValue} (hv : input.candidate = some v)
    (field_name : String) : input.Accepted field_name ↔ v.Storable ∧ ¬v.ZeroPadded := by
  rw [accepted_iff hv]
  cases v with
  | finite d =>
    have hfinite : (∃ d', DecimalValue.finite d = .finite d' ∧ d'.Fits) ↔ d.Fits := by simp
    rw [hfinite, storable_iff, DecimalValue.ZeroPadded, Decimal.ZeroPadded, Decimal.Fits]
    constructor
    · rintro ⟨hexp, hlt⟩
      exact ⟨⟨Or.inl hexp, hlt⟩, fun hpadded => absurd hexp (not_le.mpr hpadded.1)⟩
    · rintro ⟨⟨hexp | hdvd, hlt⟩, hpadded⟩
      · exact ⟨hexp, hlt⟩
      · exact ⟨not_lt.mp fun hexp => hpadded ⟨hexp, hdvd, hlt⟩, hlt⟩
  | infinity sign => simp [DecimalValue.Storable]
  | nan signaling => simp [DecimalValue.Storable]

theorem storable_of_zeroPadded {v : DecimalValue} (h : v.ZeroPadded) : v.Storable := by
  cases v with
  | finite d => exact storable_iff.mpr ⟨Or.inr h.2.1, h.2.2⟩
  | infinity sign => exact h
  | nan signaling => exact h

/-- What can be stored depends on the value only. -/
theorem storable_congr {v v' : DecimalValue} (h : v.toRat? = v'.toRat?) : v.Storable ↔ v'.Storable := by
  have hstorable : ∀ v : DecimalValue, v.Storable ↔ ∃ q, v.toRat? = some q ∧ ∃ k : Int, q = k / 10 ^ 10 ∧ |k| < 10 ^ 28 := by
    intro v
    cases v <;> simp [DecimalValue.Storable, DecimalValue.toRat?]
  rw [hstorable, hstorable, h]

end OrderNumericAux

open OrderNumericAux in
/-- For a decimal, an integer or a text that spells a decimal, being accepted is being storable exactly when no zeros are written past
the tenth decimal; and two inputs of one value are accepted together exactly when both or neither have such zeros. -/
theorem order_decimal_check (input : OrderDecimalInput) (field_name : String) (v : DecimalValue) (hv : input.candidate = some v) :
    ((input.Accepted field_name ↔ v.Storable) ↔ ¬v.ZeroPadded) ∧
      ∀ input' v', OrderDecimalInput.candidate input' = some v' → v.toRat? = v'.toRat? →
        ((input.Accepted field_name ↔ input'.Accepted field_name) ↔ (v.ZeroPadded ↔ v'.ZeroPadded)) := by
  have haccepted := accepted_iff_storable hv field_name
  have hpadded : v.ZeroPadded → v.Storable := storable_of_zeroPadded
  constructor
  · rw [haccepted]
    tauto
  · intro input' v' hv' hvalue
    have hpadded' : v'.ZeroPadded → v.Storable := fun h => (storable_congr hvalue).mpr (storable_of_zeroPadded h)
    rw [haccepted, accepted_iff_storable hv' field_name, ← storable_congr hvalue]
    tauto

/-- A price written with two decimals, beside the same price as a decimal. -/
theorem order_decimal_check_cents :
    (((OrderDecimalInput.str "72000.50").Accepted "limit_price" ↔ (DecimalValue.finite ⟨false, 7200050, -2⟩).Storable) ↔
        ¬(DecimalValue.finite ⟨false, 7200050, -2⟩).ZeroPadded) ∧
      (((OrderDecimalInput.str "72000.50").Accepted "limit_price" ↔
          (OrderDecimalInput.decimal (.finite ⟨false, 720005, -1⟩)).Accepted "limit_price") ↔
        ((DecimalValue.finite ⟨false, 7200050, -2⟩).ZeroPadded ↔ (DecimalValue.finite ⟨false, 720005, -1⟩).ZeroPadded)) := by
  have h := order_decimal_check (.str "72000.50") "limit_price" (.finite ⟨false, 7200050, -2⟩) (by decide)
  exact ⟨h.1, h.2 (.decimal (.finite ⟨false, 720005, -1⟩)) _ rfl (by decide +kernel)⟩

/-- One, written with eleven decimals: it can be stored and is equal to an accepted number, and is refused for not fitting. -/
theorem padded_one_refused :
    (OrderDecimalInput.str "1.00000000000").candidate = some (.finite ⟨false, 10 ^ 11, -11⟩) ∧
      (DecimalValue.finite ⟨false, 10 ^ 11, -11⟩).Storable ∧
      (OrderDecimalInput.str "1.00000000000").validate_order_decimal_input "quantity" =
        .error "quantity must fit PostgreSQL NUMERIC(28,10) exactly" ∧
      (OrderDecimalInput.str "1").candidate = some (.finite ⟨false, 1, 0⟩) ∧
      (DecimalValue.finite ⟨false, 10 ^ 11, -11⟩).toRat? = (DecimalValue.finite ⟨false, 1, 0⟩).toRat? ∧
      (OrderDecimalInput.str "1").Accepted "quantity" := by
  have hstorable : (DecimalValue.finite ⟨false, 10 ^ 11, -11⟩).Storable := ⟨10 ^ 10, by decide +kernel, by norm_num⟩
  have haccepted : (OrderDecimalInput.str "1").Accepted "quantity" := by
    unfold OrderDecimalInput.Accepted
    decide
  exact ⟨by decide +kernel, hstorable, by decide +kernel, by decide +kernel, by decide +kernel, haccepted⟩

end MtossBot
