import MtossBot.Lemmas.Format

/-!
# What the console shows

An amount in the console, without the currency symbol, the commas and the percent sign, is a numeral, and its number is that of the text
it was made from: cut off after the places of the currency, times a hundred and cut off after the places asked for, or unchanged.

A currency that the tables do not list should have no symbol and two places. The tables are objects, though, and look a name up that
every object inherits as well: for such a name the text of a function stands where the symbol should.
-/

namespace MtossBot
namespace Format

open Numerals

/-- The symbol that a currency has. -/
def currencySymbol (currency : String) : List Char :=
  if currency = "KRW" then ['₩'] else if currency = "USD" then ['$'] else if currency = "JPY" then ['¥'] else []

/-- The places that a currency has. -/
def currencyPlaces (currency : String) : Nat := if currency = "KRW" ∨ currency = "JPY" then 0 else 2

/-- A shown amount without the symbol, the commas and the percent sign. -/
def unmarked (symbol text : List Char) : List Char := text.filter fun c => c ∉ symbol ∧ c ≠ ',' ∧ c ≠ '%'

/-- What is shown is a numeral with this sign and this value. -/
def Shows (symbol text : List Char) (sign : Option Sign) (q : ℚ) : Prop :=
  ∃ m : Numeral, unmarked symbol text = m.text ∧ m.sign = sign ∧ m.value = q

/-- After the sign and the symbol, the digits before the point are in groups of three from the right. -/
def ShowsGroups (symbol text : List Char) (sign : Option Sign) : Prop :=
  ∃ (g : Grouping) (tail : List Char), text = (sign.map Sign.char).toList ++ symbol ++ g.text ++ tail ∧ AllDigits g.digits ∧
    (tail = [] ∨ ∃ fraction, tail = '.' :: fraction ∧ AllDigits fraction)

/-- The sign that is shown for a numeral: a minus for one written with a minus. -/
def minusSign (v : Numeral) : Option Sign := if v.isNegative then some .minus else none

/-- The sign that is shown where there always is one. -/
def anySign (v : Numeral) : Option Sign := some (if v.isNegative then .minus else .plus)

/-- Amounts, percentages and quantities are shown exactly. -/
structure FormatsExactly (v : Numeral) (currency : String) (p : Nat) : Prop where
  money_shown : Shows (currencySymbol currency) (money v.text currency) (minusSign v) (truncate (currencyPlaces currency) v.value)
  money_groups : ShowsGroups (currencySymbol currency) (money v.text currency) (minusSign v)
  signedPercent_shown : Shows [] (signedPercent v.text p) (anySign v) (truncate p (100 * v.value))
  ratioToPercent_shown : Shows [] (ratioToPercent v.text p) (minusSign v) (truncate p (100 * v.value))
  quantity_shown : Shows [] (quantity v.text) (minusSign v) v.value
  quantity_groups : ShowsGroups [] (quantity v.text) (minusSign v)

namespace MoneyAux

variable {symbol whole fraction : List Char} {sign : Option Sign} {v : Numeral} {currency : String}

/-! ## Marks -/

/-- The marks are removed character by character. -/
theorem unmarked_append (symbol a b : List Char) : unmarked symbol (a ++ b) = unmarked symbol a ++ unmarked symbol b :=
  List.filter_append _ _

/-- Of the symbol nothing is left. -/
theorem unmarked_symbol (symbol : List Char) : unmarked symbol symbol = [] := by
  apply List.filter_eq_nil_iff.mpr
  intro c hc
  simp [hc]

/-- Nor of the percent sign. -/
theorem unmarked_percent (symbol : List Char) : unmarked symbol ['%'] = [] := by simp [unmarked]

/-- The characters of the symbols, and the marks that are no part of a symbol. -/
def IsMark (c : Char) : Prop := c ∈ ['₩', '$', '¥', ',', '%']

/-- The symbols of the currencies are made of marks. -/
theorem isMark_symbol (currency : String) : ∀ c ∈ currencySymbol currency, IsMark c := by
  unfold currencySymbol IsMark
  split_ifs <;> simp

/-- The characters of a numeral are no marks. -/
theorem not_isMark {c : Char} {m : Numeral} (h : c ∈ m.text) : ¬ IsMark c := by
  intro hmark
  simp only [IsMark, List.mem_cons, List.not_mem_nil, or_false] at hmark
  rcases mem_text h with hd | hd
  · rcases hmark with rfl | rfl | rfl | rfl | rfl <;> cases hd
  · rcases hmark with rfl | rfl | rfl | rfl | rfl <;> exact absurd hd (by decide)

/-- A numeral has no marks. -/
theorem unmarked_text (hs : ∀ c ∈ symbol, IsMark c) (m : Numeral) : unmarked symbol m.text = m.text := by
  apply List.filter_eq_self.mpr
  intro c hc
  have hne : ¬ IsMark c := not_isMark hc
  simp only [decide_eq_true_eq]
  refine ⟨fun h => hne (hs c h), ?_, ?_⟩
  · rintro rfl
    exact hne (by simp [IsMark])
  · rintro rfl
    exact hne (by simp [IsMark])

/-- A comma is removed. -/
theorem unmarked_comma (symbol text : List Char) : unmarked symbol (',' :: text) = unmarked symbol text := by simp [unmarked]

/-- Of groups of digits the digits are left. -/
theorem unmarked_groups (symbol : List Char) (g : Grouping) : unmarked symbol g.text = unmarked symbol g.digits := by
  have hrest : ∀ groups : List (List Char), unmarked symbol (groups.flatMap (',' :: ·)) = unmarked symbol groups.flatten := by
    intro groups
    induction groups with
    | nil => rfl
    | cons group groups ih => rw [List.flatMap_cons, List.flatten_cons, List.cons_append, unmarked_comma, unmarked_append, unmarked_append, ih]
  rw [Grouping.text, Grouping.digits, unmarked_append, unmarked_append, hrest]

/-! ## Amounts in groups -/

/-- The integer part is put in groups and nothing else is changed. -/
theorem grouped_eq (hw : AllDigits whole) (hne : whole ≠ []) (fraction : List Char) :
    ∃ g : Grouping, grouped whole fraction = g.text ++ (if fraction = [] then [] else '.' :: fraction) ∧ g.digits = whole := by
  obtain ⟨g, hg, hd⟩ := group_eq hw hne
  refine ⟨g, ?_, hd⟩
  by_cases hf : fraction = [] <;> simp [grouped, hf, hg]

/-- A sign, a symbol and a grouped number show the number with that sign. -/
theorem shows_grouped (sign : Option Sign) (hs : ∀ c ∈ symbol, IsMark c) (hw : AllDigits whole) (hf : AllDigits fraction) (hne : whole ≠ []) :
    Shows symbol ((sign.map Sign.char).toList ++ symbol ++ grouped whole fraction) sign
      (if sign.any Sign.isNegative then -decimalValue whole fraction else decimalValue whole fraction) := by
  obtain ⟨g, hg, hd⟩ := grouped_eq hw hne fraction
  refine ⟨numeral sign whole fraction hne (allDigits_append.mpr ⟨hw, hf⟩), ?_, rfl, value_numeral⟩
  rw [← unmarked_text hs, text_numeral, hg]
  simp only [unmarked_append, unmarked_symbol, unmarked_groups, hd, pointed, List.append_nil]

/-- And its digits are shown in groups. -/
theorem showsGroups_grouped (symbol : List Char) (sign : Option Sign) (hw : AllDigits whole) (hf : AllDigits fraction) (hne : whole ≠ []) :
    ShowsGroups symbol ((sign.map Sign.char).toList ++ symbol ++ grouped whole fraction) sign := by
  obtain ⟨g, hg, hd⟩ := grouped_eq hw hne fraction
  refine ⟨g, if fraction = [] then [] else '.' :: fraction, ?_, by rw [hd]; exact hw, ?_⟩
  · rw [hg]
    simp only [List.append_assoc]
  · by_cases h : fraction = []
    · exact .inl (if_pos h)
    · exact .inr ⟨fraction, if_neg h, hf⟩

/-- A sign and a number with its point show the number with that sign, also before a mark. -/
theorem shows_pointed (sign : Option Sign) (hw : AllDigits whole) (hf : AllDigits fraction) (hne : whole ≠ []) {suffix : List Char}
    (hsuffix : unmarked [] suffix = []) :
    Shows [] ((sign.map Sign.char).toList ++ pointed whole fraction ++ suffix) sign
      (if sign.any Sign.isNegative then -decimalValue whole fraction else decimalValue whole fraction) := by
  refine ⟨numeral sign whole fraction hne (allDigits_append.mpr ⟨hw, hf⟩), ?_, rfl, value_numeral⟩
  rw [← unmarked_text (List.forall_mem_nil _), text_numeral, unmarked_append, hsuffix, List.append_nil]

/-! ## Signs -/

/-- A minus is shown before a negative numeral, and nothing before the others. -/
theorem minusSign_text (v : Numeral) : ((minusSign v).map Sign.char).toList = if v.isNegative then [MINUS] else [] := by
  unfold minusSign
  cases v.isNegative <;> rfl

/-- It says that the numeral is negative. -/
theorem minusSign_negative (v : Numeral) : (minusSign v).any Sign.isNegative = v.isNegative := by
  unfold minusSign
  cases v.isNegative <;> rfl

/-- Where there always is a sign, it is a minus or a plus. -/
theorem anySign_text (v : Numeral) : ((anySign v).map Sign.char).toList = [if v.isNegative then MINUS else '+'] := by
  unfold anySign
  cases v.isNegative <;> rfl

/-- The minus says that the numeral is negative. -/
theorem anySign_negative (v : Numeral) : (anySign v).any Sign.isNegative = v.isNegative := by
  unfold anySign
  cases v.isNegative <;> rfl

/-- Truncating does not look at the sign. -/
theorem truncate_signed (p : Nat) (b : Bool) (q : ℚ) :
    (if b then -truncate p q else truncate p q) = truncate p (if b then -q else q) := by
  cases b <;> simp [truncate_neg]

/-! ## The functions -/

/-- The whole part of a numeral has digits only. -/
theorem digits_whole (v : Numeral) : AllDigits v.whole := (allDigits_append.mp v.digits).1

/-- So has its fraction. -/
theorem digits_fraction (v : Numeral) : AllDigits (v.fraction.getD []) := (allDigits_append.mp v.digits).2

/-- An amount is shown as its sign, the symbol, and the digits up to the places of the currency. -/
theorem money_eq (v : Numeral) {p : Nat} (hp : places currency = .number p) :
    money v.text currency = ((minusSign v).map Sign.char).toList ++ Format.symbol currency ++
      grouped v.whole ((v.fraction.getD [] ++ List.replicate p '0').take p) := by
  simp only [money, splitSign_text, hp, fixed_eq (splitPoint_unsigned v) v.whole_ne_nil,
    splitPoint_pointed (digits_whole v) (allDigits_places (digits_fraction v) p), minusSign_text]

/-- A quantity is shown as its sign and its digits, but for the zeros at the end. -/
theorem quantity_eq (v : Numeral) :
    quantity v.text = ((minusSign v).map Sign.char).toList ++ [] ++ grouped v.whole ((v.fraction.getD []).rdropWhile (· = '0')) := by
  simp only [quantity, splitSign_text, splitPoint_trim_unsigned, minusSign_text, List.append_nil]

/-- A ratio with its point moved by two places. -/
theorem percent_eq (v : Numeral) (p : Nat) : ∃ whole fraction, AllDigits whole ∧ AllDigits fraction ∧ whole ≠ [] ∧
    decimalValue whole fraction = truncate p (100 * v.magnitude) ∧
    signedPercent v.text p = ((anySign v).map Sign.char).toList ++ pointed whole fraction ++ ['%'] ∧
    ratioToPercent v.text p = ((minusSign v).map Sign.char).toList ++ pointed whole fraction ++ [] := by
  obtain ⟨whole, fraction, heq, hw, hf, hne, hv⟩ := shiftDecimal_eq (digits_whole v) (digits_fraction v) v.whole_ne_nil 2
  have hfixed : fixed (shiftDecimal v.whole (v.fraction.getD []) 2) (.number p) =
      pointed whole ((fraction ++ List.replicate p '0').take p) := by
    rw [heq, fixed_eq (splitPoint_pointed hw hf) hne]
  refine ⟨whole, (fraction ++ List.replicate p '0').take p, hw, allDigits_places hf p, hne, ?_, ?_, ?_⟩
  · rw [decimalValue_places hw hf, hv, Numeral.magnitude]
    norm_num
  · simp only [signedPercent, splitSign_text, splitPoint_unsigned, hfixed, anySign_text, List.cons_append, List.nil_append]
  · simp only [ratioToPercent, splitSign_text, splitPoint_unsigned, hfixed, minusSign_text, List.append_nil]

/-! ## The tables -/

/-- The tables list three currencies. -/
theorem lookup_unlisted (hk : currency ≠ "KRW") (hu : currency ≠ "USD") (hj : currency ≠ "JPY") :
    SYMBOLS.lookup currency = none ∧ PLACES.lookup currency = none := by
  have hk' : (currency == "KRW") = false := beq_eq_false_iff_ne.mpr hk
  have hu' : (currency == "USD") = false := beq_eq_false_iff_ne.mpr hu
  have hj' : (currency == "JPY") = false := beq_eq_false_iff_ne.mpr hj
  simp [SYMBOLS, PLACES, List.lookup_cons, hk', hu', hj']

/-- Unless a name is inherited, the tables give the symbol and the places of the currency. -/
theorem tables (h : inheritedText currency = none) :
    Format.symbol currency = currencySymbol currency ∧ places currency = .number (currencyPlaces currency) := by
  by_cases hk : currency = "KRW"
  · subst hk
    exact ⟨rfl, rfl⟩
  by_cases hu : currency = "USD"
  · subst hu
    exact ⟨rfl, rfl⟩
  by_cases hj : currency = "JPY"
  · subst hj
    exact ⟨rfl, rfl⟩
  · obtain ⟨hs, hp⟩ := lookup_unlisted hk hu hj
    simp [Format.symbol, places, property, hs, hp, currencySymbol, currencyPlaces, h, hk, hu, hj]

/-- An inherited name is no currency of the tables, and its text is that of a function or an object. -/
theorem symbol_inherited {text : String} (h : inheritedText currency = some text) :
    currencySymbol currency = [] ∧ 'o' ∈ Format.symbol currency := by
  have hne : currency ≠ "KRW" ∧ currency ≠ "USD" ∧ currency ≠ "JPY" := by
    refine ⟨?_, ?_, ?_⟩ <;> rintro rfl <;> cases h
  have hlookup : SYMBOLS.lookup currency = none := (lookup_unlisted hne.1 hne.2.1 hne.2.2).1
  have hsymbol : Format.symbol currency = text.toList := by simp only [Format.symbol, property, hlookup, h]
  have ho : 'o' ∈ text.toList := by
    unfold inheritedText at h
    split_ifs at h <;> cases h
    · decide
    · decide
    · simp
  exact ⟨by simp [currencySymbol, hne], by rw [hsymbol]; exact ho⟩

/-! ## What is shown -/

/-- An amount is shown with the sign of its numeral, cut off after the places of its currency, in groups of three. -/
theorem money_formats (v : Numeral) (h : inheritedText currency = none) :
    Shows (currencySymbol currency) (money v.text currency) (minusSign v) (truncate (currencyPlaces currency) v.value) ∧
      ShowsGroups (currencySymbol currency) (money v.text currency) (minusSign v) := by
  obtain ⟨hsymbol, hplaces⟩ := tables h
  have hf := allDigits_places (digits_fraction v) (currencyPlaces currency)
  have hshows := shows_grouped (minusSign v) (isMark_symbol currency) (digits_whole v) hf v.whole_ne_nil
  rw [decimalValue_places (digits_whole v) (digits_fraction v), minusSign_negative, truncate_signed] at hshows
  rw [money_eq v hplaces, hsymbol]
  exact ⟨hshows, showsGroups_grouped _ _ (digits_whole v) hf v.whole_ne_nil⟩

/-- A ratio is shown as its hundredfold, cut off after the places asked for. -/
theorem percent_formats (v : Numeral) (p : Nat) :
    Shows [] (signedPercent v.text p) (anySign v) (truncate p (100 * v.value)) ∧
      Shows [] (ratioToPercent v.text p) (minusSign v) (truncate p (100 * v.value)) := by
  obtain ⟨whole, fraction, hw, hf, hne, hv, hsigned, hratio⟩ := percent_eq v p
  have hvalue : 100 * v.value = if v.isNegative then -(100 * v.magnitude) else 100 * v.magnitude := by
    cases hn : v.isNegative <;> simp [Numeral.value, hn]
  have hplus := shows_pointed (anySign v) hw hf hne (unmarked_percent [])
  have hminus := shows_pointed (minusSign v) hw hf hne (unmarked_symbol [])
  rw [hv, anySign_negative, truncate_signed, ← hvalue, ← hsigned] at hplus
  rw [hv, minusSign_negative, truncate_signed, ← hvalue, ← hratio] at hminus
  exact ⟨hplus, hminus⟩

/-- A quantity is shown as it is, in groups of three. -/
theorem quantity_formats (v : Numeral) :
    Shows [] (quantity v.text) (minusSign v) v.value ∧ ShowsGroups [] (quantity v.text) (minusSign v) := by
  have hf : AllDigits ((v.fraction.getD []).rdropWhile (· = '0')) := (digits_fraction v).sublist (List.rdropWhile_prefix _ _).sublist
  have hshows := shows_grouped (minusSign v) (List.forall_mem_nil _) (digits_whole v) hf v.whole_ne_nil
  rw [decimalValue_trim, minusSign_negative] at hshows
  rw [quantity_eq]
  exact ⟨hshows, showsGroups_grouped _ _ (digits_whole v) hf v.whole_ne_nil⟩

/-- With the text of a function in it, what is shown is no numeral. -/
theorem not_formats_of_inherited {text : String} (h : inheritedText currency = some text) (v : Numeral) (p : Nat) :
    ¬ FormatsExactly v currency p := by
  intro hexact
  obtain ⟨hsymbol, ho⟩ := symbol_inherited h
  obtain ⟨m, hm, _, _⟩ := hexact.money_shown
  have hmem : 'o' ∈ m.text := by
    rw [← hm, hsymbol]
    refine List.mem_filter.mpr ⟨?_, by decide⟩
    simp [money, ho]
  rcases mem_text hmem with hd | hd
  · cases hd
  · exact absurd hd (by decide)

end MoneyAux

open MoneyAux

/-- Whatever the numeral, the currency and the number of places, what is shown is exact if the currency is not the name of a property
that every object inherits, and otherwise it is not. -/
theorem formats_exactly_iff (v : Numeral) (currency : String) (p : Nat) :
    FormatsExactly v currency p ↔ inheritedText currency = none := by
  constructor
  · intro h
    cases hi : inheritedText currency with
    | none => rfl
    | some text => exact absurd h (not_formats_of_inherited hi v p)
  · intro h
    obtain ⟨hmoney, hmoney_groups⟩ := money_formats v h
    obtain ⟨hsigned, hratio⟩ := percent_formats v p
    obtain ⟨hquantity, hquantity_groups⟩ := quantity_formats v
    exact ⟨hmoney, hmoney_groups, hsigned, hratio, hquantity, hquantity_groups⟩

/-- The text `1.50`. -/
def oneAndAHalf : Numeral where
  sign := none
  whole := ['1']
  fraction := some ['5', '0']
  whole_ne_nil := by simp
  digits := by simp [AllDigits]

example : money oneAndAHalf.text "USD" = "$1.50".toList := by decide

/-- A currency called `toString` passes the limit of eight characters. -/
theorem inherited_name_shown :
    money oneAndAHalf.text "toString" = "function toString() \x7b [native code] \x7d1".toList ∧
      ¬ FormatsExactly oneAndAHalf "toString" 2 :=
  ⟨by decide, not_formats_of_inherited rfl oneAndAHalf 2⟩

end Format
end MtossBot
