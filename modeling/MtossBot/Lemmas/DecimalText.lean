import MtossBot.Domain.DecimalText
import MtossBot.Lemmas.Decimals
import MtossBot.Library.Numerals

/-!
# Texts of decimals

`Decimal(text)` of a numeral in plain notation: a decimal of its value, with as many places as the numeral has.
-/

namespace MtossBot
namespace Numeral

variable {n : Numeral}

/-- The digits on both sides of the point. -/
def allDigits (n : Numeral) : List Char := n.whole ++ n.fraction.getD []

/-- The decimal that a numeral spells. -/
def decimal (n : Numeral) : Decimal := ⟨n.isNegative, Nat.ofDigitChars 10 n.allDigits 0, -(n.fraction.getD []).length⟩

/-- The decimal of a numeral has its value. -/
theorem toRat_decimal (n : Numeral) : n.decimal.toRat = n.value := by
  have hmagnitude : |n.decimal.toRat| = n.magnitude := by
    rw [Decimal.abs_toRat, decimal, zpow_neg, zpow_natCast, ← div_eq_mul_inv]
    rfl
  have hsigned : n.decimal.toRat = if n.isNegative then -|n.decimal.toRat| else |n.decimal.toRat| := by
    rw [Decimal.abs_toRat, Decimal.toRat_eq, Decimal.signed]
    show ((if n.isNegative then _ else _ : Int) : ℚ) * _ = _
    split <;> push_cast <;> ring
  rw [hsigned, hmagnitude, value]

/-- A numeral of no more characters than a coefficient may have digits is in the range of decimals. -/
theorem inRange_decimal (h : n.unsigned.length ≤ DecimalText.MAX_PREC) : DecimalText.InRange n.decimal := by
  have hlength : n.allDigits.length ≤ n.unsigned.length := by
    unfold allDigits unsigned
    cases n.fraction <;> simp
  have hpos : 0 < n.allDigits.length := by
    rw [List.length_pos_iff, allDigits]
    exact List.append_ne_nil_of_left_ne_nil n.whole_ne_nil _
  have hdigits : numDigits n.decimal.coefficient ≤ n.allDigits.length := (Digits.lt_pow_iff hpos).mp (Numerals.ofDigitChars_lt n.digits)
  have hplaces : (n.fraction.getD []).length ≤ n.allDigits.length := by
    rw [allDigits, List.length_append]
    exact Nat.le_add_left _ _
  have hadjusted : n.decimal.adjusted = -(n.fraction.getD []).length + Nat.log 10 n.decimal.coefficient := rfl
  have hexponent : n.decimal.exponent = -(n.fraction.getD []).length := rfl
  unfold DecimalText.InRange
  rw [hadjusted, hexponent]
  unfold numDigits at hdigits ⊢
  unfold DecimalText.MAX_PREC DecimalText.MIN_ETINY DecimalText.MAX_EMAX at *
  omega

end Numeral

namespace DecimalText

variable {n : Numeral} {c : Char} {text rest : List Char}

/-! ## Characters that are kept -/

/-- The characters of plain notation, as the program writes it. -/
def Plain (c : Char) : Prop := c.isDigit = true ∨ c ∈ ['-', '+', '.']

/-- None of them is white space. -/
theorem isspace_of_plain (h : Plain c) : isspace c = false := by
  rcases h with h | h
  · obtain ⟨hlow, hhigh⟩ := Numerals.digit_range h
    simp only [isspace, decide_eq_false_iff_not, List.mem_cons, List.not_mem_nil, or_false]
    omega
  · simp only [List.mem_cons, List.not_mem_nil, or_false] at h
    rcases h with rfl | rfl | rfl <;> decide

/-- All of them are ASCII. -/
theorem ascii_of_plain (h : Plain c) : ascii? c = some c := by
  have hrange : 0 < c.toNat ∧ c.toNat ≤ 127 := by
    rcases h with h | h
    · obtain ⟨hlow, hhigh⟩ := Numerals.digit_range h
      omega
    · simp only [List.mem_cons, List.not_mem_nil, or_false] at h
      rcases h with rfl | rfl | rfl <;> decide
  rw [ascii?, if_pos hrange]

/-- A plain character is no underscore. -/
theorem not_underscore_of_plain (h : Plain c) : c ≠ '_' := by
  rintro rfl
  revert h
  simp only [Plain]
  decide

/-- A plain text is read as it is. -/
theorem mapM_ascii (h : ∀ c ∈ text, Plain c) : text.mapM ascii? = some text := by
  induction text with
  | nil => rfl
  | cons c text ih =>
    rw [List.forall_mem_cons] at h
    rw [List.mapM_cons, ascii_of_plain h.1, ih h.2]
    rfl

/-- A text of such characters is read as it is. -/
theorem numeric_as_ascii_of_plain (h : ∀ c ∈ text, Plain c) : numeric_as_ascii text = some text := by
  have hleft : text.dropWhile isspace = text :=
    List.dropWhile_eq_self_iff.mpr fun hl => by simp [isspace_of_plain (h _ (List.getElem_mem hl))]
  have hright : text.rdropWhile isspace = text :=
    List.rdropWhile_eq_self_iff.mpr fun hl => by simp [isspace_of_plain (h _ (List.getLast_mem hl))]
  have hfilter : text.filter (· ≠ '_') = text :=
    List.filter_eq_self.mpr fun c hc => by simp [not_underscore_of_plain (h c hc)]
  rw [numeric_as_ascii, strip, hleft, hright, hfilter, mapM_ascii h]

/-- Without its sign a numeral consists of digits and points. -/
theorem mem_unsigned (hc : c ∈ n.unsigned) : c.isDigit = true ∨ c = '.' := by
  have hdigits : ∀ c ∈ n.whole ++ n.fraction.getD [], c.isDigit = true := n.digits
  rw [List.forall_mem_append] at hdigits
  rw [Numeral.unsigned, List.mem_append] at hc
  rcases hc with hc | hc
  · exact .inl (hdigits.1 c hc)
  · cases hfraction : n.fraction with
    | none => simp [hfraction] at hc
    | some fraction =>
      rw [hfraction] at hc hdigits
      rcases List.mem_cons.mp hc with rfl | hc
      · exact .inr rfl
      · exact .inl (hdigits.2 c hc)

/-- A numeral without a minus is plain. -/
theorem plain_text (hsign : n.sign ≠ some .minus) : ∀ c ∈ n.text, Plain c := by
  intro c hc
  rw [Numeral.text, List.mem_append] at hc
  rcases hc with hc | hc
  · cases hs : n.sign with
    | none => simp [hs] at hc
    | some sign =>
      rw [hs, Option.map_some, Option.toList_some, List.mem_singleton] at hc
      cases sign with
      | plus => exact .inr (by simp [hc, Sign.char])
      | hyphen => exact .inr (by simp [hc, Sign.char])
      | minus => exact absurd hs hsign
  · rcases mem_unsigned hc with hdigit | rfl
    · exact .inl hdigit
    · exact .inr (by simp)

/-! ## The parts of the number -/

/-- Digits are taken to the last. -/
theorem span_all (h : AllDigits text) : text.span Char.isDigit = (text, []) := by
  have htake : (text ++ []).takeWhile Char.isDigit = text ++ [].takeWhile Char.isDigit := List.takeWhile_append_of_pos h
  have hdrop : (text ++ []).dropWhile Char.isDigit = [].dropWhile Char.isDigit := List.dropWhile_append_of_pos h
  rw [List.append_nil] at htake hdrop
  rw [List.span_eq_takeWhile_dropWhile, htake, hdrop]
  simp

/-- Digits are taken up to what is none. -/
theorem span_digits (h : AllDigits text) (hc : c.isDigit = false) : (text ++ c :: rest).span Char.isDigit = (text, c :: rest) := by
  rw [List.span_eq_takeWhile_dropWhile, List.takeWhile_append_of_pos h, List.dropWhile_append_of_pos h]
  simp [hc]

/-- Digits with a point among them spell the decimal of the numeral. -/
theorem number_unsigned (hd : InRange n.decimal) : number n.isNegative n.unsigned = some n.decimal := by
  obtain ⟨hwhole, hfraction⟩ := Numerals.allDigits_append.mp n.digits
  have hnonempty : n.whole ++ n.fraction.getD [] ≠ [] := List.append_ne_nil_of_left_ne_nil n.whole_ne_nil _
  have hparts : n.unsigned.span Char.isDigit = (n.whole, (n.fraction.map ('.' :: ·)).getD []) := by
    rw [Numeral.unsigned]
    cases n.fraction with
    | none => rw [Option.map_none, Option.getD_none, List.append_nil, span_all hwhole]
    | some fraction => exact span_digits hwhole (by decide)
  have hplaces : fraction ((n.fraction.map ('.' :: ·)).getD []) = (n.fraction.getD [], []) := by
    cases hf : n.fraction with
    | none => rfl
    | some fraction =>
      rw [hf] at hfraction
      exact span_all hfraction
  have hexponent : exponent [] = some 0 := rfl
  have hdecimal : (⟨n.isNegative, Nat.ofDigitChars 10 (n.whole ++ n.fraction.getD []) 0, 0 - (n.fraction.getD []).length⟩ : Decimal) =
      n.decimal := by
    rw [Int.zero_sub]
    rfl
  unfold number
  simp only [hparts, hplaces, hexponent, if_neg hnonempty, hdecimal, if_pos hd]

/-- A digit has no case. -/
theorem toLower_of_isDigit (h : c.isDigit = true) : c.toLower = c := by
  obtain ⟨_, hhigh⟩ := Numerals.digit_range h
  refine dif_neg ?_
  intro hupper
  have hlow : 65 ≤ c.toNat := UInt32.le_iff_toNat_le.mp hupper.1
  omega

/-- A text that starts with a digit is a number. -/
theorem value_of_digit {negative : Bool} (hsign : sign text = (negative, c :: rest)) (hc : c.isDigit = true) :
    value text = (number negative ((c :: rest).map Char.toLower)).map .finite := by
  have hne : ∀ {x : Char} {l l' : List Char}, x.isDigit = false → c :: l ≠ x :: l' := by
    intro x l l' hx h
    rw [(List.cons.inj h).1, hx] at hc
    cases hc
  rw [value, hsign]
  simp only [List.map_cons, toLower_of_isDigit hc]
  split
  · exact absurd ‹_› (hne (by decide))
  · exact absurd ‹_› (hne (by decide))
  · exact absurd ‹_› (hne (by decide))
  · exact absurd ‹_› (hne (by decide))
  · rfl

/-- A numeral starts with a digit, after its sign. -/
theorem unsigned_eq_cons (n : Numeral) : ∃ c rest, n.unsigned = c :: rest ∧ c.isDigit = true := by
  obtain ⟨c, whole, hwhole⟩ := List.exists_cons_of_ne_nil n.whole_ne_nil
  refine ⟨c, whole ++ (n.fraction.map ('.' :: ·)).getD [], by rw [Numeral.unsigned, hwhole, List.cons_append], ?_⟩
  exact n.digits c (by rw [hwhole]; simp)

/-- A numeral is split into its sign and the rest. -/
theorem sign_text (hsign : n.sign ≠ some .minus) : sign n.text = (n.isNegative, n.unsigned) := by
  obtain ⟨c, rest, hunsigned, hc⟩ := unsigned_eq_cons n
  unfold Numeral.text Numeral.isNegative
  cases hs : n.sign with
  | some s =>
    cases s with
    | plus => rfl
    | hyphen => rfl
    | minus => exact absurd hs hsign
  | none =>
    rw [Option.map_none, Option.toList_none, List.nil_append, hunsigned]
    unfold sign
    split
    · rename_i h
      rw [(List.cons.inj h).1] at hc
      cases hc
    · rename_i h
      rw [(List.cons.inj h).1] at hc
      cases hc
    · rfl

/-- What plain notation spells. -/
theorem value_text (hsign : n.sign ≠ some .minus) (hd : InRange n.decimal) : value n.text = some (.finite n.decimal) := by
  obtain ⟨c, rest, hunsigned, hc⟩ := unsigned_eq_cons n
  have hlower : n.unsigned.map Char.toLower = n.unsigned := by
    refine (List.map_congr_left (g := id) fun c hc => ?_).trans (List.map_id _)
    rcases mem_unsigned hc with hdigit | rfl
    · exact toLower_of_isDigit hdigit
    · decide
  rw [value_of_digit (hunsigned ▸ sign_text hsign) hc, ← hunsigned, hlower, number_unsigned hd]
  rfl

end DecimalText

/-- The text of a numeral is read as the decimal that it spells. -/
theorem DecimalValue.ofText_text {n : Numeral} (hsign : n.sign ≠ some .minus) (hd : DecimalText.InRange n.decimal) :
    ofText (String.ofList n.text) = some (.finite n.decimal) := by
  rw [ofText, String.toList_ofList, DecimalText.numeric_as_ascii_of_plain (DecimalText.plain_text hsign), Option.bind_some,
    DecimalText.value_text hsign hd]

end MtossBot
