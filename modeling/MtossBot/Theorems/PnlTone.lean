import MtossBot.Theorems.MoneyFormat

/-!
# The colour of a profit

The console decides from the text of an amount whether it is a profit, a loss or neither, and how it is written with its sign. The
decision is that of the number, however many zeros the text has and whatever sign a zero is written with.
-/

namespace MtossBot
namespace Format

open Numerals MoneyAux

namespace ToneAux

variable {v : Numeral}

theorem value_eq_zero_iff (v : Numeral) : v.value = 0 ↔ (∀ c ∈ v.whole, c = '0') ∧ ∀ c ∈ v.fraction.getD [], c = '0' := by
  rw [← decimalValue_eq_zero_iff v.digits, ← Numeral.magnitude, Numeral.value]
  cases v.isNegative <;> simp

theorem magnitude_nonneg (v : Numeral) : 0 ≤ v.magnitude := decimalValue_nonneg _ _

theorem isZero_iff (v : Numeral) : isZero v.text = true ↔ v.value = 0 := by
  rw [value_eq_zero_iff, isZero, splitSign_text, Numeral.unsigned, List.dropWhile_append]
  cases hz : v.whole.dropWhile (· = '0') with
  | nil =>
    have hzeros : ∀ c ∈ v.whole, c = '0' := by simpa using List.dropWhile_eq_nil_iff.mp hz
    cases hf : v.fraction with
    | none => simpa using hzeros
    | some fraction => simpa using fun _ => hzeros
  | cons c rest =>
    have hmem : c ∈ v.whole := (List.dropWhile_sublist _).subset (by rw [hz]; exact List.mem_cons_self)
    have hpoint : c ≠ '.' := by
      rintro rfl
      exact not_mem_of_allDigits (digits_whole v) rfl hmem
    have hzeros : ¬ ∀ c ∈ v.whole, c = '0' := by
      intro h
      have hnil : v.whole.dropWhile (· = '0') = [] := List.dropWhile_eq_nil_iff.mpr (by simpa using h)
      rw [hz] at hnil
      cases hnil
    simp [hpoint, hzeros]

/-- Unless it is a zero, a numeral is negative if it is written with a minus. -/
theorem isNegative_of_ne_zero (h : v.value ≠ 0) : isNegative v.text = v.isNegative := by
  have htrim : trimTrailingZeros v.unsigned ≠ ['0'] := by
    intro htrim
    have hsplit := splitPoint_trim_unsigned v
    rw [htrim, splitPoint_whole (by simp [AllDigits])] at hsplit
    obtain ⟨hw, hf⟩ := Prod.mk.inj hsplit
    have hmagnitude : v.magnitude = 0 := by
      rw [Numeral.magnitude, ← decimalValue_trim, ← hw, ← hf]
      simp [decimalValue, Nat.ofDigitChars_cons]
    apply h
    cases hn : v.isNegative <;> simp [Numeral.value, hn, hmagnitude]
  simp [isNegative, splitSign_text, htrim]

end ToneAux

open ToneAux

/-- A profit is shown as one, a loss as one, and nothing as neither. -/
theorem pnlTone_exact (v : Numeral) :
    (pnlTone v.text = .up ↔ 0 < v.value) ∧ (pnlTone v.text = .down ↔ v.value < 0) ∧ (pnlTone v.text = .flat ↔ v.value = 0) := by
  by_cases hzero : v.value = 0
  · have htone : pnlTone v.text = .flat := by rw [pnlTone, if_pos ((isZero_iff v).mpr hzero)]
    simp [htone, hzero]
  · have hflat : ¬ isZero v.text = true := fun h => hzero ((isZero_iff v).mp h)
    have hne : v.magnitude ≠ 0 := by
      intro hm
      apply hzero
      cases hn : v.isNegative <;> simp [Numeral.value, hn, hm]
    have hpos : 0 < v.magnitude := lt_of_le_of_ne (magnitude_nonneg v) (Ne.symm hne)
    rw [pnlTone, if_neg hflat, isNegative_of_ne_zero hzero]
    cases hn : v.isNegative with
    | true => simp [Numeral.value, hn, hne, hpos, hpos.le]
    | false => simp [Numeral.value, hn, hne, hpos, hpos.le]

/-- A profit or loss is shown exactly, with its sign. -/
theorem signedMoney_formats (v : Numeral) {currency : String} (h : inheritedText currency = none) :
    Shows (currencySymbol currency) (signedMoney v.text currency) (anySign v) (truncate (currencyPlaces currency) v.value) ∧
      ShowsGroups (currencySymbol currency) (signedMoney v.text currency) (anySign v) := by
  obtain ⟨hsymbol, hplaces⟩ := tables h
  have hf := allDigits_places (digits_fraction v) (currencyPlaces currency)
  have heq : signedMoney v.text currency = ((anySign v).map Sign.char).toList ++ currencySymbol currency ++
      grouped v.whole ((v.fraction.getD [] ++ List.replicate (currencyPlaces currency) '0').take (currencyPlaces currency)) := by
    rw [signedMoney, splitSign_text, money_eq v hplaces, hsymbol, minusSign_text, anySign_text]
    cases v.isNegative <;> rfl
  have hshows := shows_grouped (anySign v) (isMark_symbol currency) (digits_whole v) hf v.whole_ne_nil
  rw [decimalValue_places (digits_whole v) (digits_fraction v), anySign_negative, truncate_signed] at hshows
  rw [heq]
  exact ⟨hshows, showsGroups_grouped _ _ (digits_whole v) hf v.whole_ne_nil⟩

/-- A percentage is shown exactly. -/
theorem percent_unit_formats (v : Numeral) (p : Nat) : Shows [] (percent v.text p) (minusSign v) (truncate p v.value) := by
  have hf := allDigits_places (digits_fraction v) p
  have hshows := shows_pointed (minusSign v) (digits_whole v) hf v.whole_ne_nil (unmarked_percent [])
  rw [decimalValue_places (digits_whole v) (digits_fraction v), minusSign_negative, truncate_signed] at hshows
  simp only [percent, splitSign_text, fixed_eq (splitPoint_unsigned v) v.whole_ne_nil, ← minusSign_text]
  exact hshows

end Format
end MtossBot
