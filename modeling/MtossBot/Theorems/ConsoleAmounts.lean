import MtossBot.Api.Console.Schemas
import MtossBot.Lemmas.DecimalText
import MtossBot.Theorems.PnlTone

/-!
# Amounts from the API to the operator

A decimal leaves the API as a text without an exponent, and the pages write that text digit by digit: what the operator sees is the number,
cut off after the places of its currency.
-/

namespace MtossBot
namespace Console

open Format Numerals

/-- The sign before an amount: a minus, or none. -/
def minusOf (d : Decimal) : Option Sign := if d.sign then some .minus else none

/-- The sign where there always is one. -/
def signOf (d : Decimal) : Option Sign := some (if d.sign then .minus else .plus)

namespace ConsoleAmountsAux

/-- The digits of the text before the point and those after it. -/
def parts (d : Decimal) : List Char × Option (List Char) :=
  let digits := Nat.toDigits 10 d.coefficient
  let places := (-d.exponent).toNat
  if 0 ≤ d.exponent then (if d.coefficient = 0 then ['0'] else digits ++ List.replicate d.exponent.toNat '0', none)
  else if digits.length ≤ places then (['0'], some (List.replicate (places - digits.length) '0' ++ digits))
  else (digits.take (digits.length - places), some (digits.drop (digits.length - places)))

/-- A number is written in digits. -/
theorem allDigits_toDigits (n : Nat) : AllDigits (Nat.toDigits 10 n) := fun _ hc => Nat.isDigit_of_mem_toDigits (by decide) (by decide) hc

/-- So are the parts of a decimal. -/
theorem allDigits_parts (d : Decimal) : AllDigits ((parts d).1 ++ (parts d).2.getD []) := by
  have hdigits := allDigits_toDigits d.coefficient
  have hzero : AllDigits ['0'] := by simp [AllDigits]
  unfold parts
  dsimp only
  split
  · rw [Option.getD_none, List.append_nil]
    split
    · exact hzero
    · exact allDigits_append.mpr ⟨hdigits, allDigits_replicate _⟩
  · split
    · exact allDigits_append.mpr ⟨hzero, allDigits_append.mpr ⟨allDigits_replicate _, hdigits⟩⟩
    · rw [Option.getD_some, List.take_append_drop]
      exact hdigits

/-- A decimal has a digit before its point. -/
theorem parts_ne_nil (d : Decimal) : (parts d).1 ≠ [] := by
  have hdigits : Nat.toDigits 10 d.coefficient ≠ [] := Nat.toDigits_ne_nil
  unfold parts
  dsimp only
  split
  · split
    · exact List.cons_ne_nil _ _
    · exact List.append_ne_nil_of_left_ne_nil hdigits _
  · split
    · exact List.cons_ne_nil _ _
    · rename_i hlong
      rw [Ne, List.take_eq_nil_iff, not_or]
      exact ⟨by omega, hdigits⟩

/-- The text of a decimal, as a numeral. -/
def plain (d : Decimal) : Numeral where
  sign := if d.sign then some .hyphen else none
  whole := (parts d).1
  fraction := (parts d).2
  whole_ne_nil := parts_ne_nil d
  digits := allDigits_parts d

/-- The text of a decimal is that of the numeral. -/
theorem text_plain (d : Decimal) : (plain d).text = (plainText d).toList := by
  unfold plainText
  rw [String.toList_ofList]
  unfold Numeral.text plain Numeral.unsigned
  dsimp only
  congr 1
  · cases d.sign <;> rfl
  · unfold parts
    dsimp only
    split
    · split <;> simp
    · split <;> simp

/-- A number is written with as many digits as it has. -/
theorem length_digits (n : Nat) : (Nat.toDigits 10 n).length = numDigits n := by
  have hiff : ∀ k, 0 < k → ((Nat.toDigits 10 n).length ≤ k ↔ numDigits n ≤ k) := fun k hk => by
    rw [Nat.length_toDigits_le_iff (by decide) hk, Digits.lt_pow_iff hk]
  exact le_antisymm ((hiff _ (Nat.succ_pos _)).mpr le_rfl) ((hiff _ Nat.length_toDigits_pos).mp le_rfl)

/-- Its length is known before it is built. -/
theorem length_plain (d : Decimal) : (plain d).text.length = plainLength d := by
  have hsign : ((plain d).sign.map Sign.char).toList.length = if d.sign then 1 else 0 := by
    unfold plain
    cases d.sign <;> rfl
  rw [Numeral.text, List.length_append, hsign]
  unfold plainLength Numeral.unsigned plain parts
  dsimp only
  rw [length_digits]
  congr 1
  split
  · split
    · simp
    · simp [length_digits]
  · split
    · simp [length_digits]
      omega
    · simp [length_digits]
      omega

/-- The plain numeral has the sign of the decimal. -/
theorem isNegative_plain (d : Decimal) : (plain d).isNegative = d.sign := by
  unfold Numeral.isNegative plain
  cases d.sign <;> rfl

/-- It has the magnitude of the decimal. -/
theorem magnitude_plain (d : Decimal) : (plain d).magnitude = |d.toRat| := by
  rw [Decimal.abs_toRat]
  show decimalValue (parts d).1 ((parts d).2.getD []) = _
  unfold parts decimalValue
  dsimp only
  split
  · rename_i hexponent
    obtain ⟨n, hn⟩ := Int.eq_ofNat_of_zero_le hexponent
    rw [Option.getD_none, List.append_nil, List.length_nil, pow_zero, div_one, hn, Int.toNat_natCast, zpow_natCast]
    split
    · rename_i hzero
      rw [hzero]
      simp [Nat.ofDigitChars_cons]
    · rw [Nat.ofDigitChars_append, Nat.ofDigitChars_ten_toDigits, Nat.ofDigitChars_replicate_zero]
      push_cast
      ring
  · rename_i hexponent
    obtain ⟨n, hn⟩ := Int.eq_ofNat_of_zero_le (show 0 ≤ -d.exponent by omega)
    have hplaces : (10 : ℚ) ^ d.exponent = (10 ^ n)⁻¹ := by rw [← neg_neg d.exponent, hn, zpow_neg, zpow_natCast]
    rw [hn, Int.toNat_natCast, hplaces, ← div_eq_mul_inv]
    split
    · rename_i hshort
      have hzeros : Nat.ofDigitChars 10 (['0'] ++ (List.replicate (n - (Nat.toDigits 10 d.coefficient).length) '0' ++
          Nat.toDigits 10 d.coefficient)) 0 = d.coefficient := by
        rw [List.singleton_append, Nat.ofDigitChars_cons, Nat.ofDigitChars_append, Nat.ofDigitChars_replicate_zero]
        simp
      rw [Option.getD_some, hzeros, List.length_append, List.length_replicate, Nat.sub_add_cancel hshort]
    · rename_i hlong
      rw [Option.getD_some, List.take_append_drop, Nat.ofDigitChars_ten_toDigits, List.length_drop]
      congr 2
      omega

/-- So it has its value. -/
theorem value_plain (d : Decimal) : (plain d).value = d.toRat := by
  unfold Numeral.value
  rw [isNegative_plain, magnitude_plain, Decimal.abs_toRat, Decimal.toRat_eq, Decimal.signed]
  cases d.sign <;> simp

/-- A text that there is memory for is read back as the number. -/
theorem ofText_plain {memory : Memory} {d : Decimal} (h : plainLength d ≤ memory.longest) :
    DecimalValue.ofText (plainText d) = some (.finite (plain d).decimal) := by
  have hsign : (plain d).sign ≠ some .minus := by
    show (if d.sign then some Sign.hyphen else none) ≠ _
    cases d.sign <;> decide
  have hlength : (plain d).unsigned.length ≤ DecimalText.MAX_PREC := by
    have hunsigned : (plain d).unsigned.length ≤ (plain d).text.length := by
      rw [Numeral.text, List.length_append]
      exact Nat.le_add_left _ _
    rw [length_plain] at hunsigned
    exact (hunsigned.trans (h.trans memory.addressable.le)).trans (by decide)
  rw [← String.ofList_toList (s := plainText d), ← text_plain]
  exact DecimalValue.ofText_text hsign (Numeral.inRange_decimal hlength)

end ConsoleAmountsAux

open ConsoleAmountsAux

/-- Whatever decimal the API sends: its text is in plain notation, with its own number, which reads back; and the pages show the text as an
amount, as a profit or loss, as a percentage, as a ratio and as a quantity with that number, cut off after the places that are shown, under
a minus if it has one and amounts and quantities in groups of thousands, and color it by its sign. -/
theorem amounts_shown {memory : Memory} {d : Decimal} {text : String} (hsent : _plain_decimal memory d = .ok text) {currency : String}
    (h : inheritedText currency = none) (p : Nat) :
    (∃ n : Numeral, n.text = text.toList ∧ n.value = d.toRat ∧ n.sign = if d.sign then some .hyphen else none) ∧
    (∃ read, DecimalValue.ofText text = some (.finite read) ∧ read.toRat = d.toRat) ∧
    (Shows (currencySymbol currency) (money text.toList currency) (minusOf d) (truncate (currencyPlaces currency) d.toRat) ∧
      ShowsGroups (currencySymbol currency) (money text.toList currency) (minusOf d)) ∧
    (Shows (currencySymbol currency) (signedMoney text.toList currency) (signOf d) (truncate (currencyPlaces currency) d.toRat) ∧
      ShowsGroups (currencySymbol currency) (signedMoney text.toList currency) (signOf d)) ∧
    Shows [] (percent text.toList p) (minusOf d) (truncate p d.toRat) ∧
    Shows [] (ratioToPercent text.toList p) (minusOf d) (truncate p (100 * d.toRat)) ∧
    Shows [] (signedPercent text.toList p) (signOf d) (truncate p (100 * d.toRat)) ∧
    (Shows [] (quantity text.toList) (minusOf d) d.toRat ∧ ShowsGroups [] (quantity text.toList) (minusOf d)) ∧
    (pnlTone text.toList = .up ↔ 0 < d.toRat) ∧ (pnlTone text.toList = .down ↔ d.toRat < 0) ∧
    (pnlTone text.toList = .flat ↔ d.toRat = 0) := by
  obtain ⟨hfits, rfl⟩ : plainLength d ≤ memory.longest ∧ text = plainText d := by
    unfold _plain_decimal at hsent
    split at hsent
    · exact ⟨‹_›, (Except.ok.inj hsent).symm⟩
    · cases hsent
  have hminus : minusSign (plain d) = minusOf d := by rw [minusSign, isNegative_plain, minusOf]
  have hsign : anySign (plain d) = signOf d := by rw [anySign, isNegative_plain, signOf]
  have hmoney := MoneyAux.money_formats (plain d) h
  have hsigned := signedMoney_formats (plain d) h
  have hpercent := percent_unit_formats (plain d) p
  have hratio := MoneyAux.percent_formats (plain d) p
  have hquantity := MoneyAux.quantity_formats (plain d)
  have htone := pnlTone_exact (plain d)
  rw [text_plain, value_plain, hminus] at hmoney hpercent hquantity
  rw [text_plain, value_plain, hsign] at hsigned
  rw [text_plain, value_plain, hminus, hsign] at hratio
  rw [text_plain, value_plain] at htone
  refine ⟨⟨plain d, text_plain d, value_plain d, rfl⟩, ⟨_, ofText_plain hfits, ?_⟩, hmoney, hsigned, hpercent, hratio.2, hratio.1,
    hquantity, htone⟩
  rw [Numeral.toRat_decimal, value_plain]

/-- A loss of a small part of a dollar, which the API knows with an exponent. -/
theorem amounts_shown_loss : Shows ['$'] (money "-0.000000125".toList "USD") (some .minus) (truncate 2 (-125 / 10 ^ 9)) := by
  have hvalue : (Decimal.toRat ⟨true, 125, -9⟩) = -125 / 10 ^ 9 := by decide +kernel
  have hsent : _plain_decimal ⟨2 ^ 32, by decide, by decide⟩ ⟨true, 125, -9⟩ = .ok "-0.000000125" := by decide
  exact hvalue ▸ (@amounts_shown _ _ _ hsent "USD" rfl 1).2.2.1.1

end Console
end MtossBot
