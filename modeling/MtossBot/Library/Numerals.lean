import Mathlib.Algebra.Order.Floor.Ring
import Mathlib.Data.List.DropRight
import Mathlib.Data.Rat.Floor
import Mathlib.Tactic.FieldSimp
import Mathlib.Tactic.Positivity
import Mathlib.Tactic.Push
import Mathlib.Tactic.Ring

/-!
# Decimal numerals

A decimal numeral is a text: a sign or none, at least one digit, and maybe a point with more digits after it. Programs change such
texts digit by digit, so for each of these changes there is a statement of what it does to the number.
-/

namespace MtossBot

/-- The number that digits before and after the point spell. -/
def decimalValue (whole fraction : List Char) : ℚ := (Nat.ofDigitChars 10 (whole ++ fraction) 0 : ℚ) / 10 ^ fraction.length

/-- A number cut off after so many places: rounded toward zero. -/
def truncate (places : Nat) (q : ℚ) : ℚ := if 0 ≤ q then ⌊q * 10 ^ places⌋ / 10 ^ places else ⌈q * 10 ^ places⌉ / 10 ^ places

/-- Digits with a point before the second part, if that is not empty. -/
def pointed (whole fraction : List Char) : List Char := whole ++ if fraction = [] then [] else '.' :: fraction

/-- The text consists of decimal digits. -/
def AllDigits (text : List Char) : Prop := ∀ c ∈ text, c.isDigit = true

/-- A part of some digits has digits only. -/
theorem AllDigits.sublist {text part : List Char} (h : AllDigits text) (hs : part.Sublist text) : AllDigits part :=
  fun c hc => h c (hs.subset hc)

/-- A sign, as it is written. -/
inductive Sign where
  | plus
  | hyphen
  | minus
deriving DecidableEq

def Sign.char : Sign → Char
  | .plus => '+'
  | .hyphen => '-'
  | .minus => '−'

def Sign.isNegative : Sign → Bool
  | .plus => false
  | .hyphen | .minus => true

structure Numeral where
  sign : Option Sign
  whole : List Char
  fraction : Option (List Char)
  whole_ne_nil : whole ≠ []
  digits : AllDigits (whole ++ fraction.getD [])

namespace Numeral

def isNegative (n : Numeral) : Bool := n.sign.any Sign.isNegative

/-- The numeral without its sign. -/
def unsigned (n : Numeral) : List Char := n.whole ++ (n.fraction.map ('.' :: ·)).getD []

def text (n : Numeral) : List Char := (n.sign.map Sign.char).toList ++ n.unsigned

def magnitude (n : Numeral) : ℚ := decimalValue n.whole (n.fraction.getD [])

def value (n : Numeral) : ℚ := if n.isNegative then -n.magnitude else n.magnitude

end Numeral

/-- Digits in groups: all but the first have three. -/
structure Grouping where
  first : List Char
  rest : List (List Char)
  first_ne_nil : first ≠ []
  first_le : first.length ≤ 3
  rest_eq : ∀ g ∈ rest, g.length = 3

/-- The groups with commas between them. -/
def Grouping.text (g : Grouping) : List Char := g.first ++ g.rest.flatMap (',' :: ·)

/-- The digits without the commas. -/
def Grouping.digits (g : Grouping) : List Char := g.first ++ g.rest.flatten

namespace Numerals

variable {whole fraction moved text : List Char}

/-! ## Digits -/

/-- The code of a digit. -/
theorem digit_range {c : Char} (h : c.isDigit = true) : 48 ≤ c.toNat ∧ c.toNat ≤ 57 := by
  simp only [Char.isDigit, Bool.and_eq_true, decide_eq_true_eq] at h
  exact h

/-- A number of so many digits is below the power of ten. -/
theorem ofDigitChars_lt (h : AllDigits text) : Nat.ofDigitChars 10 text 0 < 10 ^ text.length := by
  induction text using List.reverseRecOn with
  | nil => simp
  | append_singleton text c ih =>
    have hc := digit_range (h c (by simp))
    have ht := ih fun d hd => h d (by simp [hd])
    simp only [Nat.ofDigitChars_append, Nat.ofDigitChars_cons, Nat.ofDigitChars_nil, List.length_append, List.length_singleton, pow_succ,
      Char.reduceToNat]
    omega

/-- Digits after digits are digits. -/
theorem allDigits_append : AllDigits (whole ++ fraction) ↔ AllDigits whole ∧ AllDigits fraction := List.forall_mem_append

/-- Zeros are digits. -/
theorem allDigits_replicate (n : Nat) : AllDigits (List.replicate n '0') := by
  intro c hc
  rw [List.eq_of_mem_replicate hc]
  rfl

/-- What is no digit is not among digits. -/
theorem not_mem_of_allDigits (h : AllDigits text) {c : Char} (hc : c.isDigit = false) : c ∉ text := by
  intro hmem
  rw [h c hmem] at hc
  cases hc

/-! ## The number under changes of the digits -/

/-- Digits have a value that is not negative. -/
theorem decimalValue_nonneg (whole fraction : List Char) : 0 ≤ decimalValue whole fraction := by
  unfold decimalValue
  positivity

/-- Zeros at the end are worth nothing. -/
theorem decimalValue_append_zeros (whole fraction : List Char) (n : Nat) :
    decimalValue whole (fraction ++ List.replicate n '0') = decimalValue whole fraction := by
  unfold decimalValue
  rw [← List.append_assoc, Nat.ofDigitChars_append, Nat.ofDigitChars_replicate_zero, List.length_append, List.length_replicate, pow_add]
  push_cast
  field_simp

/-- A text is the text without the zeros at its end, and those zeros. -/
theorem exists_zeros (text : List Char) : ∃ n, text = text.rdropWhile (· = '0') ++ List.replicate n '0' := by
  refine ⟨(text.rtakeWhile (· = '0')).length, ?_⟩
  have hz : text.rtakeWhile (· = '0') = List.replicate (text.rtakeWhile (· = '0')).length '0' := by
    rw [List.eq_replicate_iff]
    exact ⟨rfl, fun c hc => by simpa using List.mem_rtakeWhile_imp hc⟩
  rw [← hz, List.rdropWhile_append_rtakeWhile]

/-- The zeros at the end of a fraction do not count. -/
theorem decimalValue_trim (whole fraction : List Char) : decimalValue whole (fraction.rdropWhile (· = '0')) = decimalValue whole fraction := by
  obtain ⟨n, hn⟩ := exists_zeros fraction
  conv_rhs => rw [hn]
  rw [decimalValue_append_zeros]

/-- And so is a zero at the beginning. -/
theorem decimalValue_zero_cons (whole fraction : List Char) : decimalValue ('0' :: whole) fraction = decimalValue whole fraction := by
  simp [decimalValue, Nat.ofDigitChars_cons]

/-- Digits are worth nothing only if all of them are zeros. -/
theorem ofDigitChars_eq_zero_iff (h : AllDigits text) : Nat.ofDigitChars 10 text 0 = 0 ↔ ∀ c ∈ text, c = '0' := by
  induction text using List.reverseRecOn with
  | nil => simp
  | append_singleton text c ih =>
    have hc := digit_range (h c (by simp))
    have hchar : c.toNat = '0'.toNat ↔ c = '0' := Char.toNat_inj
    have ht := ih fun d hd => h d (by simp [hd])
    simp only [Nat.ofDigitChars_append, Nat.ofDigitChars_cons, Nat.ofDigitChars_nil, List.forall_mem_append, List.forall_mem_singleton,
      ← ht, ← hchar, Char.reduceToNat]
    omega

/-- The value is zero just when all digits are. -/
theorem decimalValue_eq_zero_iff (h : AllDigits (whole ++ fraction)) :
    decimalValue whole fraction = 0 ↔ (∀ c ∈ whole, c = '0') ∧ ∀ c ∈ fraction, c = '0' := by
  rw [decimalValue, div_eq_zero_iff, or_iff_left (by positivity), Nat.cast_eq_zero, ofDigitChars_eq_zero_iff h, List.forall_mem_append]

/-- Moving the point to the right multiplies by a power of ten. -/
theorem decimalValue_shift (whole moved fraction : List Char) :
    decimalValue (whole ++ moved) fraction = 10 ^ moved.length * decimalValue whole (moved ++ fraction) := by
  simp only [decimalValue, List.append_assoc, List.length_append, pow_add]
  field_simp

/-- Cutting digits off truncates. -/
theorem decimalValue_take (h : AllDigits (whole ++ fraction)) {n : Nat} (hn : n ≤ fraction.length) :
    decimalValue whole (fraction.take n) = truncate n (decimalValue whole fraction) := by
  have hlt : Nat.ofDigitChars 10 (fraction.drop n) 0 < 10 ^ (fraction.drop n).length :=
    ofDigitChars_lt fun c hc => h c (List.mem_append_right _ (List.mem_of_mem_drop hc))
  have hsplit : decimalValue whole fraction * 10 ^ n =
      Nat.ofDigitChars 10 (whole ++ fraction.take n) 0 +
        Nat.ofDigitChars 10 (fraction.drop n) 0 / 10 ^ (fraction.drop n).length := by
    have hlen : fraction.length = n + (fraction.drop n).length := by
      rw [List.length_drop]
      omega
    unfold decimalValue
    conv_lhs => rw [← List.take_append_drop n fraction, ← List.append_assoc, Nat.ofDigitChars_append,
      Nat.ofDigitChars_eq_ofDigitChars_zero, List.take_append_drop, hlen]
    push_cast
    rw [pow_add]
    field_simp
  have hfloor : ⌊decimalValue whole fraction * 10 ^ n⌋ = (Nat.ofDigitChars 10 (whole ++ fraction.take n) 0 : ℤ) := by
    rw [hsplit, Int.floor_eq_iff]
    have hlt' : (Nat.ofDigitChars 10 (fraction.drop n) 0 : ℚ) < 10 ^ (fraction.drop n).length := by exact_mod_cast hlt
    constructor
    · push_cast
      have : (0 : ℚ) ≤ Nat.ofDigitChars 10 (fraction.drop n) 0 / 10 ^ (fraction.drop n).length := by positivity
      linarith
    · have : (Nat.ofDigitChars 10 (fraction.drop n) 0 : ℚ) / 10 ^ (fraction.drop n).length < 1 := (div_lt_one (by positivity)).mpr hlt'
      push_cast
      linarith
  rw [truncate, if_pos (decimalValue_nonneg whole fraction), hfloor, decimalValue, List.length_take, min_eq_left hn]
  rfl

/-- Cutting off does not look at the sign. -/
theorem truncate_neg (places : Nat) (q : ℚ) : truncate places (-q) = -truncate places q := by
  unfold truncate
  rcases lt_trichotomy q 0 with h | rfl | h
  · rw [if_pos (by linarith), if_neg (by linarith), neg_mul, Int.floor_neg]
    push_cast
    ring
  · simp
  · rw [if_neg (by linarith), if_pos h.le, neg_mul, Int.ceil_neg]
    push_cast
    ring

/-! ## Numerals and groups -/

/-- The numeral of digits before and after the point. -/
def numeral (sign : Option Sign) (whole fraction : List Char) (hne : whole ≠ []) (h : AllDigits (whole ++ fraction)) : Numeral where
  sign := sign
  whole := whole
  fraction := if fraction = [] then none else some fraction
  whole_ne_nil := hne
  digits := by
    by_cases hf : fraction = [] <;> simp only [hf, if_true, if_false, Option.getD_none, Option.getD_some]
    · rw [← hf]
      exact h
    · exact h

/-- A numeral is written as its sign and its digits with the point. -/
theorem text_numeral {sign : Option Sign} {hne : whole ≠ []} {h : AllDigits (whole ++ fraction)} :
    (numeral sign whole fraction hne h).text = (sign.map Sign.char).toList ++ pointed whole fraction := by
  by_cases hf : fraction = [] <;> simp [numeral, Numeral.text, Numeral.unsigned, pointed, hf]

/-- Its magnitude is the value of the digits. -/
theorem magnitude_numeral {sign : Option Sign} {hne : whole ≠ []} {h : AllDigits (whole ++ fraction)} :
    (numeral sign whole fraction hne h).magnitude = decimalValue whole fraction := by
  by_cases hf : fraction = [] <;> simp [numeral, Numeral.magnitude, hf]

/-- Its value has the sign. -/
theorem value_numeral {sign : Option Sign} {hne : whole ≠ []} {h : AllDigits (whole ++ fraction)} :
    (numeral sign whole fraction hne h).value =
      if sign.any Sign.isNegative then -decimalValue whole fraction else decimalValue whole fraction := by
  simp only [Numeral.value, magnitude_numeral]
  rfl

/-- The characters of numerals. -/
theorem mem_text {n : Numeral} {c : Char} (h : c ∈ n.text) : c.isDigit = true ∨ c ∈ ['.', '+', '-', '−'] := by
  simp only [Numeral.text, Numeral.unsigned, List.mem_append] at h
  rcases h with h | h | h
  · cases hs : n.sign with
    | none => simp [hs] at h
    | some sign =>
      right
      simp only [hs, Option.map_some, Option.toList_some, List.mem_singleton] at h
      rw [h]
      cases sign <;> decide
  · exact .inl (n.digits c (List.mem_append_left _ h))
  · cases hf : n.fraction with
    | none => simp [hf] at h
    | some fraction =>
      have hd := n.digits
      rw [hf] at h hd
      rcases List.mem_cons.mp h with rfl | h
      · exact .inr (by decide)
      · exact .inl (hd c (List.mem_append_right _ h))

end Numerals
end MtossBot
