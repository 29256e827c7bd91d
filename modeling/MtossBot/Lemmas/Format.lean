import MtossBot.Web.Format

/-!
# The texts of amounts

What each step of the formatting does to the digits of a numeral: where its sign and its point are found, how zeros are put in and
dropped, and where the commas go.
-/

namespace MtossBot
namespace Format

open Numerals

variable {n : Numeral} {whole fraction digits : List Char}

/-! ## The sign -/

/-- A numeral has no spaces. -/
theorem isSpace_of_mem_text {c : Char} (h : c ∈ n.text) : isSpace c = false := by
  rcases mem_text h with h | h
  · obtain ⟨hlow, hhigh⟩ := digit_range h
    simp only [isSpace, decide_eq_false_iff_not, List.mem_cons, List.not_mem_nil, or_false]
    omega
  · simp only [List.mem_cons, List.not_mem_nil, or_false] at h
    rcases h with rfl | rfl | rfl | rfl <;> decide

/-- So there is nothing to trim. -/
theorem trim_text (n : Numeral) : trim n.text = n.text := by
  have hleft : n.text.dropWhile isSpace = n.text :=
    List.dropWhile_eq_self_iff.mpr fun hl => by simp [isSpace_of_mem_text (List.getElem_mem hl)]
  have hright : n.text.rdropWhile isSpace = n.text :=
    List.rdropWhile_eq_self_iff.mpr fun hl => by simp [isSpace_of_mem_text (List.getLast_mem hl)]
  rw [trim, hleft, hright]

/-- Without its sign, a numeral begins with a digit. -/
theorem exists_unsigned_eq_cons (n : Numeral) : ∃ c rest, n.unsigned = c :: rest ∧ c.isDigit = true := by
  obtain ⟨c, rest, hw⟩ := List.exists_cons_of_ne_nil n.whole_ne_nil
  refine ⟨c, rest ++ (n.fraction.map ('.' :: ·)).getD [], ?_, n.digits c (by simp [hw])⟩
  rw [Numeral.unsigned, hw, List.cons_append]

/-- A numeral is split into its sign and the rest. -/
theorem splitSign_text (n : Numeral) : splitSign n.text = (n.isNegative, n.unsigned) := by
  rw [splitSign, trim_text]
  cases hs : n.sign with
  | none =>
    obtain ⟨c, rest, hu, hc⟩ := exists_unsigned_eq_cons n
    have hne : ∀ d : Char, d.isDigit = false → c ≠ d := by
      rintro d hd rfl
      rw [hc] at hd
      cases hd
    simp [Numeral.text, Numeral.isNegative, hs, hu, MINUS, hne '-' rfl, hne '−' rfl, hne '+' rfl]
  | some sign => cases sign <;> simp [Numeral.text, Numeral.isNegative, hs, Sign.char, Sign.isNegative, MINUS]

/-! ## The point -/

/-- What is dropped at the end comes after the last character that stays. -/
theorem rdropWhile_append_cons {p : Char → Bool} {c : Char} (h : p c = false) (l r : List Char) :
    (l ++ c :: r).rdropWhile p = l ++ c :: r.rdropWhile p := by
  induction r using List.reverseRecOn with
  | nil =>
    rw [List.rdropWhile_concat_neg p l c (by simp [h])]
    rfl
  | append_singleton r d ih =>
    rw [← List.cons_append, ← List.append_assoc]
    by_cases hd : p d = true
    · rw [List.rdropWhile_concat_pos p _ d hd, List.rdropWhile_concat_pos p _ d hd, ih]
    · rw [List.rdropWhile_concat_neg p _ d hd, List.rdropWhile_concat_neg p _ d hd, List.append_assoc, List.cons_append]

/-- Digits without a point have no fraction. -/
theorem splitPoint_whole (hw : AllDigits whole) : splitPoint whole = (whole, []) := by
  have hw' : '.' ∉ whole := not_mem_of_allDigits hw rfl
  simp [splitPoint, List.splitOn_eq_singleton hw']

/-- Digits with a point are split there. -/
theorem splitPoint_point (hw : AllDigits whole) (hf : AllDigits fraction) : splitPoint (whole ++ '.' :: fraction) = (whole, fraction) := by
  have hw' : '.' ∉ whole := not_mem_of_allDigits hw rfl
  have hf' : '.' ∉ fraction := not_mem_of_allDigits hf rfl
  simp [splitPoint, List.splitOn_append_cons_of_beq, List.splitOn_eq_singleton hw', List.splitOn_eq_singleton hf']

/-- The whole part and the fraction are found again. -/
theorem splitPoint_pointed (hw : AllDigits whole) (hf : AllDigits fraction) : splitPoint (pointed whole fraction) = (whole, fraction) := by
  by_cases h : fraction = []
  · simp [pointed, h, splitPoint_whole hw]
  · simp [pointed, h, splitPoint_point hw hf]

/-- So are those of a numeral. -/
theorem splitPoint_unsigned (n : Numeral) : splitPoint n.unsigned = (n.whole, n.fraction.getD []) := by
  obtain ⟨hw, hf⟩ := allDigits_append.mp n.digits
  cases h : n.fraction with
  | none => simp [Numeral.unsigned, h, splitPoint_whole hw]
  | some fraction =>
    rw [h, Option.getD_some] at hf
    simp [Numeral.unsigned, h, splitPoint_point hw hf]

/-- The fraction is brought to the number of places, by zeros or by cutting digits off. -/
theorem fixed_eq (hsplit : splitPoint digits = (whole, fraction)) (hne : whole ≠ []) (p : Nat) :
    fixed digits (.number p) = pointed whole ((fraction ++ List.replicate p '0').take p) := by
  by_cases hp : p = 0
  · simp [fixed, hsplit, pointed, hne, hp]
  · have hlen : (fraction ++ List.replicate p '0').take p ≠ [] := by
      simp [hp]
    simp [fixed, hsplit, pointed, hne, hp, Places.toInteger, hlen]

/-- The places that are shown are digits. -/
theorem allDigits_places (hf : AllDigits fraction) (p : Nat) : AllDigits ((fraction ++ List.replicate p '0').take p) :=
  (allDigits_append.mpr ⟨hf, allDigits_replicate p⟩).sublist (List.take_sublist _ _)

/-- They are the fraction cut off after so many places. -/
theorem decimalValue_places (hw : AllDigits whole) (hf : AllDigits fraction) (p : Nat) :
    decimalValue whole ((fraction ++ List.replicate p '0').take p) = truncate p (decimalValue whole fraction) := by
  have hall : AllDigits (whole ++ (fraction ++ List.replicate p '0')) :=
    allDigits_append.mpr ⟨hw, allDigits_append.mpr ⟨hf, allDigits_replicate p⟩⟩
  rw [decimalValue_take hall (by simp), decimalValue_append_zeros]

/-- Zeros at the end of the fraction are dropped, and the point if nothing is left after it. -/
theorem splitPoint_trimTrailingZeros (hw : AllDigits whole) (hf : AllDigits fraction) :
    splitPoint (trimTrailingZeros (whole ++ '.' :: fraction)) = (whole, fraction.rdropWhile (· = '0')) := by
  have hkept : (whole ++ '.' :: fraction).rdropWhile (· = '0') = whole ++ '.' :: fraction.rdropWhile (· = '0') :=
    rdropWhile_append_cons (by decide) whole fraction
  have htrim : AllDigits (fraction.rdropWhile (· = '0')) := hf.sublist (List.rdropWhile_prefix _ _).sublist
  simp only [trimTrailingZeros, hkept]
  rw [if_neg (by simp)]
  by_cases heq : fraction.rdropWhile (· = '0') = fraction
  · rw [if_pos (by rw [heq]), heq, splitPoint_point hw hf]
  · rw [if_neg (by simpa using heq)]
    by_cases hz : fraction.rdropWhile (· = '0') = []
    · rw [hz, if_pos (by simp), List.dropLast_concat, splitPoint_whole hw]
    · -- what is left of the fraction ends with a digit
      have hlast : (whole ++ '.' :: fraction.rdropWhile (· = '0')).getLast? ≠ some '.' := by
        intro hl
        rw [List.append_cons, List.getLast?_append_of_ne_nil _ hz] at hl
        exact not_mem_of_allDigits htrim rfl (List.mem_of_getLast? hl)
      rw [if_neg hlast, splitPoint_point hw htrim]

/-- Trimming takes the zeros at the end of the fraction. -/
theorem splitPoint_trim_unsigned (n : Numeral) :
    splitPoint (trimTrailingZeros n.unsigned) = (n.whole, (n.fraction.getD []).rdropWhile (· = '0')) := by
  obtain ⟨hw, hf⟩ := allDigits_append.mp n.digits
  cases h : n.fraction with
  | none =>
    have hpoint : '.' ∉ n.whole := not_mem_of_allDigits hw rfl
    simp [trimTrailingZeros, Numeral.unsigned, h, hpoint, splitPoint_whole hw]
  | some fraction =>
    rw [h, Option.getD_some] at hf
    simp only [Numeral.unsigned, h, Option.map_some, Option.getD_some, splitPoint_trimTrailingZeros hw hf]

/-- Zeros that a digit follows are dropped at the beginning. -/
theorem dropLeadingZeros_digits {text : List Char} (h : AllDigits text) (hne : text ≠ []) :
    AllDigits (dropLeadingZeros text) ∧ dropLeadingZeros text ≠ [] ∧
      ∀ fraction, decimalValue (dropLeadingZeros text) fraction = decimalValue text fraction := by
  induction text with
  | nil => exact absurd rfl hne
  | cons c text ih =>
    cases text with
    | nil => exact ⟨h, hne, fun _ => rfl⟩
    | cons d rest =>
      obtain ⟨ihd, ihne, ihv⟩ := ih (h.sublist (List.sublist_cons_self c _)) (by simp)
      by_cases hc : c = '0'
      · have hd : d.isDigit = true := h d (by simp)
        rw [dropLeadingZeros, if_pos ⟨hc, hd⟩]
        refine ⟨ihd, ihne, ?_⟩
        intro fraction
        rw [ihv, hc, decimalValue_zero_cons]
      · rw [dropLeadingZeros, if_neg (fun hcd => hc hcd.1)]
        exact ⟨h, hne, fun _ => rfl⟩

/-- The point is moved to the right: the number is multiplied by a power of ten. -/
theorem shiftDecimal_eq (hw : AllDigits whole) (hf : AllDigits fraction) (hne : whole ≠ []) (k : Nat) :
    ∃ whole' fraction', shiftDecimal whole fraction k = pointed whole' fraction' ∧ AllDigits whole' ∧ AllDigits fraction' ∧ whole' ≠ [] ∧
      decimalValue whole' fraction' = 10 ^ k * decimalValue whole fraction := by
  have hpadded : AllDigits (fraction ++ List.replicate k '0') := allDigits_append.mpr ⟨hf, allDigits_replicate k⟩
  have hmoved : AllDigits ((fraction ++ List.replicate k '0').take k) := hpadded.sublist (List.take_sublist _ _)
  have hdropped : AllDigits ((fraction ++ List.replicate k '0').drop k) := hpadded.sublist (List.drop_sublist _ _)
  have hlen : ((fraction ++ List.replicate k '0').take k).length = k := by simp
  obtain ⟨hd, hdne, hv⟩ := dropLeadingZeros_digits (allDigits_append.mpr ⟨hw, hmoved⟩) (by simp [hne])
  refine ⟨_, ((fraction ++ List.replicate k '0').drop k).rdropWhile (· = '0'), ?_, hd, hdropped.sublist (List.rdropWhile_prefix _ _).sublist,
    hdne, ?_⟩
  · by_cases hrest : ((fraction ++ List.replicate k '0').drop k).rdropWhile (· = '0') = []
    · simp only [shiftDecimal, pointed, hrest, if_true, List.append_nil]
    · simp only [shiftDecimal, pointed, hrest, if_false]
  · rw [hv, decimalValue_trim, decimalValue_shift, hlen, List.take_append_drop, decimalValue_append_zeros]

/-! ## The groups -/

/-- A comma comes before a digit that has a multiple of three with it and after it. -/
theorem groupAfter_of_digits {c : Char} {rest : List Char} (h : AllDigits (c :: rest)) (previous : Option Char) :
    groupAfter previous (c :: rest) =
      (if (rest.length + 1) % 3 = 0 ∧ previous.any isWord then [','] else []) ++ c :: groupAfter (some c) rest := by
  have hrun : (c :: rest).takeWhile Char.isDigit = c :: rest := List.takeWhile_eq_self_iff.mpr fun d hd => by simpa using h d hd
  rw [groupAfter, hrun, List.length_cons]
  by_cases hcomma : (rest.length + 1) % 3 = 0 ∧ previous.any isWord
  · rw [if_pos ⟨by omega, hcomma⟩, if_pos hcomma]
    rfl
  · rw [if_neg (fun h => hcomma h.2), if_neg hcomma]
    rfl

/-- A digit is a word character. -/
theorem isWord_of_isDigit {c : Char} (h : c.isDigit = true) : isWord c = true := by
  simp [isWord, Char.isAlphanum, h]

/-- After a digit, what is left over by the groups of three comes first, and each group has a comma before it. -/
theorem groupAfter_digit {text : List Char} {previous : Char} (h : AllDigits text) (hp : previous.isDigit = true) :
    ∃ (first : List Char) (groups : List (List Char)), first.length = text.length % 3 ∧ (∀ g ∈ groups, g.length = 3) ∧
      first ++ groups.flatten = text ∧ groupAfter (some previous) text = first ++ groups.flatMap (',' :: ·) := by
  induction text generalizing previous with
  | nil => exact ⟨[], [], rfl, by simp, rfl, rfl⟩
  | cons c text ih =>
    obtain ⟨first, groups, hfirst, hgroups, htext, heq⟩ := ih (h.sublist (List.sublist_cons_self c text)) (h c List.mem_cons_self)
    rw [groupAfter_of_digits h, heq, Option.any_some, isWord_of_isDigit hp]
    by_cases hthree : (text.length + 1) % 3 = 0
    · -- with this digit, what was left over is a group of its own
      refine ⟨[], (c :: first) :: groups, ?_, ?_, ?_, ?_⟩
      · rw [List.length_cons, hthree]
        rfl
      · intro g hg
        rcases List.mem_cons.mp hg with rfl | hg
        · rw [List.length_cons, hfirst]
          omega
        · exact hgroups g hg
      · simp [htext]
      · simp [hthree]
    · refine ⟨c :: first, groups, ?_, hgroups, ?_, ?_⟩
      · rw [List.length_cons, List.length_cons, hfirst]
        omega
      · simp [htext]
      · simp [hthree]

/-- An integer part is split into groups of three digits from the right. -/
theorem group_eq (hw : AllDigits whole) (hne : whole ≠ []) : ∃ g : Grouping, group whole = g.text ∧ g.digits = whole := by
  obtain ⟨c, rest, rfl⟩ := List.exists_cons_of_ne_nil hne
  obtain ⟨first, groups, hfirst, hgroups, hrest, heq⟩ :=
    groupAfter_digit (hw.sublist (List.sublist_cons_self c rest)) (hw c List.mem_cons_self)
  have hlen : (c :: first).length ≤ 3 := by
    rw [List.length_cons, hfirst]
    omega
  refine ⟨⟨c :: first, groups, by simp, hlen, hgroups⟩, ?_, ?_⟩
  · rw [group, groupAfter_of_digits hw, heq]
    simp [Grouping.text]
  · rw [Grouping.digits, List.cons_append, hrest]

end Format
end MtossBot
