import Mathlib.Data.List.Sort
import Mathlib.Data.String.Basic
import MtossBot.Library.Hex

/-!
# JSON texts

The text of a value, as `json.dumps` writes it: every character that is no printable ASCII one is escaped, one above the basic plane as a
pair of surrogates. And how a text is read back. The numbers are whole ones.
-/

namespace MtossBot

inductive Json where
  | null
  | bool (value : Bool)
  | int (value : Int)
  | str (text : String)
  | arr (items : List Json)
  | obj (members : List (String × Json))

namespace Json

/-- The `separators` of a dump: what stands between items, and between a key and its value. -/
structure Separators where
  item : List Char
  key : List Char

/-- Blanks may follow the marks. -/
structure Separators.Blank (s : Separators) : Prop where
  item : ∃ n, s.item = ',' :: List.replicate n ' '
  key : ∃ n, s.key = ':' :: List.replicate n ' '

/-- The quotation mark. -/
def quote : Char := Char.ofNat 34

/-- The characters that have an escape of two characters, by the second of them. -/
def ESCAPES : List (Char × Char) :=
  [(quote, quote), ('\\', '\\'), ('n', '\n'), ('r', '\r'), ('t', '\t'), ('f', Char.ofNat 12), ('b', Char.ofNat 8)]

/-! ### Writing -/

/-- `\u` and four digits. -/
def unit (n : Nat) : List Char := '\\' :: 'u' :: hexOf 4 n

def escape (c : Char) : List Char :=
  match ESCAPES.find? (·.2 = c) with
  | some (letter, _) => ['\\', letter]
  | none =>
    if ' ' ≤ c ∧ c ≤ '~' then [c]
    else if c.toNat < 0x10000 then unit c.toNat
    else unit (0xd800 + (c.toNat - 0x10000) / 0x400) ++ unit (0xdc00 + (c.toNat - 0x10000) % 0x400)

def quoted (text : String) : List Char := quote :: text.toList.flatMap escape ++ [quote]

def digits (n : Int) : List Char := if n < 0 then '-' :: Nat.toDigits 10 n.natAbs else Nat.toDigits 10 n.natAbs

mutual
/-- The text of a value. -/
def text (s : Separators) : Json → List Char
  | .null => "null".toList
  | .bool true => "true".toList
  | .bool false => "false".toList
  | .int n => digits n
  | .str t => quoted t
  | .arr items => '[' :: textItems s items ++ [']']
  | .obj members => '\x7b' :: textMembers s members ++ ['\x7d']
termination_by structural v => v

def textItems (s : Separators) : List Json → List Char
  | [] => []
  | v :: items => text s v ++ textMoreItems s items
termination_by structural l => l

def textMoreItems (s : Separators) : List Json → List Char
  | [] => []
  | v :: items => s.item ++ text s v ++ textMoreItems s items
termination_by structural l => l

def textMember (s : Separators) : String × Json → List Char
  | (key, v) => quoted key ++ s.key ++ text s v
termination_by structural m => m

def textMembers (s : Separators) : List (String × Json) → List Char
  | [] => []
  | m :: members => textMember s m ++ textMoreMembers s members
termination_by structural l => l

def textMoreMembers (s : Separators) : List (String × Json) → List Char
  | [] => []
  | m :: members => s.item ++ textMember s m ++ textMoreMembers s members
termination_by structural l => l
end

mutual
/-- A value with the members of its objects in the order of their keys. -/
def sortKeys : Json → Json
  | .arr items => .arr (sortItems items)
  | .obj members => .obj ((sortMembers members).insertionSort fun m m' => m.1 ≤ m'.1)
  | v => v
termination_by structural v => v

def sortItems : List Json → List Json
  | [] => []
  | v :: items => sortKeys v :: sortItems items
termination_by structural l => l

def sortMember : String × Json → String × Json
  | (key, v) => (key, sortKeys v)
termination_by structural m => m

def sortMembers : List (String × Json) → List (String × Json)
  | [] => []
  | m :: members => sortMember m :: sortMembers members
termination_by structural l => l
end

/-- `json.dumps` of a value. -/
def dumps (s : Separators) (sort_keys : Bool) (v : Json) : String := String.ofList (text s (if sort_keys then v.sortKeys else v))

/-! ### Reading -/

/-- What is left after blanks. -/
def skip (cs : List Char) : List Char := cs.dropWhile (· ∈ [' ', '\n', '\r', '\t'])

/-- Four digits. -/
def readUnit : List Char → Option (Nat × List Char)
  | a :: b :: c :: d :: rest => (ofHex 0 [a, b, c, d]).map (·, rest)
  | _ => none

/-- The second half of a pair of surrogates. -/
def readLow (high : Nat) : List Char → Option (Char × List Char)
  | '\\' :: 'u' :: rest =>
    match readUnit rest with
    | some (low, rest) =>
      if 0xdc00 ≤ low ∧ low < 0xe000 then some (Char.ofNat (0x10000 + (high - 0xd800) * 0x400 + (low - 0xdc00)), rest) else none
    | none => none
  | _ => none

/-- A character after a backslash. -/
def readEscape : List Char → Option (Char × List Char)
  | [] => none
  | c :: rest =>
    if c = 'u' then
      match readUnit rest with
      | some (n, rest) =>
        if 0xd800 ≤ n ∧ n < 0xdc00 then readLow n rest
        else if 0xdc00 ≤ n ∧ n < 0xe000 then none
        else some (Char.ofNat n, rest)
      | none => none
    else (ESCAPES.lookup c).map (·, rest)

/-- The characters up to the closing quotation mark. -/
def readBody : Nat → List Char → Option (List Char × List Char)
  | 0, _ => none
  | _ + 1, [] => none
  | fuel + 1, c :: rest =>
    if c = quote then some ([], rest)
    else if c = '\\' then
      match readEscape rest with
      | some (c, rest) => (readBody fuel rest).map fun (cs, rest) => (c :: cs, rest)
      | none => none
    else if c < ' ' then none
    else (readBody fuel rest).map fun (cs, rest) => (c :: cs, rest)

def readString (fuel : Nat) : List Char → Option (String × List Char)
  | c :: rest => if c = quote then (readBody fuel rest).map fun (cs, rest) => (String.ofList cs, rest) else none
  | [] => none

/-- A number without its sign: zero, or digits that start with another. -/
def readNat : List Char → Option (Nat × List Char)
  | '0' :: rest => some (0, rest)
  | cs =>
    let ds := cs.takeWhile Char.isDigit
    if ds = [] then none else some (Nat.ofDigitChars 10 ds 0, cs.dropWhile Char.isDigit)

/-- The words that are values. -/
def WORDS : List (List Char × Json) := [("null".toList, .null), ("true".toList, .bool true), ("false".toList, .bool false)]

def readWord (cs : List Char) : Option (Json × List Char) :=
  WORDS.findSome? fun (word, v) => if word <+: cs then some (v, cs.drop word.length) else none

mutual
/-- A value at the start of a text, and what is left. -/
def readValue : Nat → List Char → Option (Json × List Char)
  | 0, _ => none
  | _ + 1, [] => none
  | fuel + 1, c :: rest =>
    if c = quote then (readBody fuel rest).map fun (cs, rest) => (.str (String.ofList cs), rest)
    else if c = '[' then
      match skip rest with
      | ']' :: rest => some (.arr [], rest)
      | rest => (readItems fuel rest).map fun (items, rest) => (.arr items, rest)
    else if c = '\x7b' then
      match skip rest with
      | '\x7d' :: rest => some (.obj [], rest)
      | rest => (readMembers fuel rest).map fun (members, rest) => (.obj members, rest)
    else if c = '-' then (readNat rest).map fun (n, rest) => (.int (-n), rest)
    else if c.isDigit then (readNat (c :: rest)).map fun (n, rest) => (.int n, rest)
    else readWord (c :: rest)
termination_by structural fuel => fuel

/-- Items up to the closing bracket. -/
def readItems : Nat → List Char → Option (List Json × List Char)
  | 0, _ => none
  | fuel + 1, cs =>
    match readValue fuel cs with
    | none => none
    | some (v, rest) =>
      match skip rest with
      | ',' :: rest => (readItems fuel (skip rest)).map fun (items, rest) => (v :: items, rest)
      | ']' :: rest => some ([v], rest)
      | _ => none
termination_by structural fuel => fuel

/-- Members up to the closing brace. -/
def readMembers : Nat → List Char → Option (List (String × Json) × List Char)
  | 0, _ => none
  | fuel + 1, cs =>
    match readString fuel cs with
    | none => none
    | some (key, rest) =>
      match skip rest with
      | ':' :: rest =>
        match readValue fuel (skip rest) with
        | none => none
        | some (v, rest) =>
          match skip rest with
          | ',' :: rest => (readMembers fuel (skip rest)).map fun (members, rest) => ((key, v) :: members, rest)
          | '\x7d' :: rest => some ([(key, v)], rest)
          | _ => none
      | _ => none
termination_by structural fuel => fuel
end

/-- The value that a whole text denotes. -/
def loads (t : String) : Option Json :=
  match readValue t.toList.length (skip t.toList) with
  | some (v, rest) => if skip rest = [] then some v else none
  | none => none

/-! ### Characters and strings -/

/-- The four digits of a unit are read back as its number. -/
theorem readUnit_hexOf {n : Nat} (h : n < 0x10000) (rest : List Char) : readUnit (hexOf 4 n ++ rest) = some (n, rest) := by
  have hread : ofHex 0 (hexOf 4 n) = some n := by
    rw [ofHex_hexOf, Nat.mod_eq_of_lt (show n < 16 ^ 4 from h)]
  match hdigits : hexOf 4 n, length_hexOf 4 n with
  | [a, b, c, d], _ =>
    rw [hdigits] at hread
    simp [readUnit, hread]

/-- The letter of an escape stands for its character only. -/
theorem lookup_escape : ∀ m ∈ ESCAPES, m.1 ≠ 'u' ∧ ESCAPES.lookup m.1 = some m.2 := by decide

/-- A letter of the table is read as the character it stands for. -/
theorem readEscape_letter {letter c : Char} (h : (letter, c) ∈ ESCAPES) (rest : List Char) :
    readEscape (letter :: rest) = some (c, rest) := by
  obtain ⟨hu, hlookup⟩ := lookup_escape _ h
  simp [readEscape, hu, hlookup]

/-- The number of a character is that of no surrogate. -/
theorem toNat_range (c : Char) : c.toNat < 0xd800 ∨ 0xdfff < c.toNat ∧ c.toNat < 0x110000 := c.valid

/-- The digits of a character of one unit are read as the character. -/
theorem readEscape_unit {c : Char} (h : c.toNat < 0x10000) (rest : List Char) :
    readEscape ('u' :: hexOf 4 c.toNat ++ rest) = some (c, rest) := by
  have hc := toNat_range c
  have hhigh : ¬(0xd800 ≤ c.toNat ∧ c.toNat < 0xdc00) := by omega
  have hlow : ¬(0xdc00 ≤ c.toNat ∧ c.toNat < 0xe000) := by omega
  simp only [List.cons_append, readEscape, if_pos, readUnit_hexOf h, if_neg hhigh, if_neg hlow, Char.ofNat_toNat]

/-- The digits of a surrogate pair are read as the one character of both. -/
theorem readEscape_pair {c : Char} (h : 0x10000 ≤ c.toNat) (rest : List Char) :
    readEscape ('u' :: hexOf 4 (0xd800 + (c.toNat - 0x10000) / 0x400) ++ (unit (0xdc00 + (c.toNat - 0x10000) % 0x400) ++ rest)) =
      some (c, rest) := by
  have hc := toNat_range c
  have hhigh : 0xd800 ≤ 0xd800 + (c.toNat - 0x10000) / 0x400 ∧ 0xd800 + (c.toNat - 0x10000) / 0x400 < 0xdc00 := by omega
  have hlow : 0xdc00 ≤ 0xdc00 + (c.toNat - 0x10000) % 0x400 ∧ 0xdc00 + (c.toNat - 0x10000) % 0x400 < 0xe000 := by omega
  have hvalue : 0x10000 + (0xd800 + (c.toNat - 0x10000) / 0x400 - 0xd800) * 0x400 + (0xdc00 + (c.toNat - 0x10000) % 0x400 - 0xdc00) =
      c.toNat := by omega
  simp only [List.cons_append, readEscape, if_pos, readUnit_hexOf (show 0xd800 + (c.toNat - 0x10000) / 0x400 < 0x10000 by omega),
    if_pos hhigh, unit, readLow, readUnit_hexOf (show 0xdc00 + (c.toNat - 0x10000) % 0x400 < 0x10000 by omega), if_pos hlow, hvalue,
    Char.ofNat_toNat]

/-- A character is read back from how it is written. -/
theorem readBody_escape (fuel : Nat) (c : Char) (rest : List Char) :
    readBody (fuel + 1) (escape c ++ rest) = (readBody fuel rest).map fun (cs, rest) => (c :: cs, rest) := by
  have hslash : '\\' ≠ quote := by decide
  unfold escape
  cases hfind : ESCAPES.find? (·.2 = c) with
  | some m =>
    obtain ⟨letter, c'⟩ := m
    obtain rfl : c' = c := by simpa using List.find?_some hfind
    simp only [List.cons_append, List.nil_append, readBody, if_neg hslash, if_pos, readEscape_letter (List.mem_of_find?_eq_some hfind)]
  | none =>
    have hnone := List.find?_eq_none.mp hfind
    have hquote : c ≠ quote := fun h => hnone (quote, quote) (by decide) (by simp [h])
    have hback : c ≠ '\\' := fun h => hnone ('\\', '\\') (by decide) (by simp [h])
    dsimp only
    split
    · rename_i hprint
      have hge : ¬c < ' ' := not_lt.mpr hprint.1
      simp only [List.cons_append, List.nil_append, readBody, if_neg hquote, if_neg hback, if_neg hge]
    · split
      · rename_i h
        rw [unit, List.cons_append, readBody, if_neg hslash, if_pos rfl, readEscape_unit h]
      · rename_i h
        rw [List.append_assoc, unit, List.cons_append, readBody, if_neg hslash, if_pos rfl, readEscape_pair (not_lt.mp h)]

/-- Every character leaves something in the text. -/
theorem escape_ne_nil (c : Char) : escape c ≠ [] := by
  unfold escape unit
  split
  · nofun
  · split
    · nofun
    · split <;> nofun

/-- So escaping makes a text no shorter. -/
theorem length_flatMap_escape (cs : List Char) : cs.length ≤ (cs.flatMap escape).length := by
  induction cs with
  | nil => exact le_refl _
  | cons c cs ih =>
    have hpos := List.length_pos_iff.mpr (escape_ne_nil c)
    rw [List.flatMap_cons, List.length_append, List.length_cons]
    omega

/-- A string is read back up to its closing mark. -/
theorem readBody_quoted {fuel : Nat} {cs : List Char} (h : cs.length < fuel) (rest : List Char) :
    readBody fuel (cs.flatMap escape ++ quote :: rest) = some (cs, rest) := by
  induction cs generalizing fuel with
  | nil =>
    obtain ⟨fuel, rfl⟩ := Nat.exists_eq_add_of_lt h
    simp [readBody]
  | cons c cs ih =>
    obtain ⟨fuel, rfl⟩ : ∃ k, fuel = k + 1 := ⟨fuel - 1, by rw [List.length_cons] at h; omega⟩
    rw [List.length_cons] at h
    rw [List.flatMap_cons, List.append_assoc, readBody_escape, ih (by omega)]
    rfl

/-- A quoted text is read back, whatever follows it. -/
theorem readString_quoted {fuel : Nat} {t : String} (h : (quoted t).length ≤ fuel) (rest : List Char) :
    readString fuel (quoted t ++ rest) = some (t, rest) := by
  have hlength := length_flatMap_escape t.toList
  simp only [quoted, List.cons_append, List.length_cons, List.length_append, List.length_nil] at h
  rw [quoted, List.cons_append, List.cons_append, readString, if_pos rfl, List.append_assoc, List.singleton_append,
    readBody_quoted (by omega)]
  simp

/-! ### Numbers -/

/-- What follows does not go on with digits. -/
def Stops (rest : List Char) : Prop := ∀ c ∈ rest.head?, c.isDigit = false

/-- The digits before something that is no digit are taken, and no more. -/
theorem takeWhile_digits {ds rest : List Char} (h : ∀ c ∈ ds, c.isDigit = true) (hrest : Stops rest) :
    (ds ++ rest).takeWhile Char.isDigit = ds ∧ (ds ++ rest).dropWhile Char.isDigit = rest := by
  have hstop : rest.takeWhile Char.isDigit = [] ∧ rest.dropWhile Char.isDigit = rest := by
    cases rest with
    | nil => exact ⟨rfl, rfl⟩
    | cons c rest =>
      have hc : c.isDigit = false := hrest c rfl
      simp [hc]
  rw [List.takeWhile_append_of_pos h, List.dropWhile_append_of_pos h, hstop.1, hstop.2, List.append_nil]
  exact ⟨rfl, rfl⟩

/-- The digits of a number do not start with zero, unless it is zero. -/
theorem toDigits_head (n : Nat) : 0 < n → (Nat.toDigits 10 n).head? ≠ some '0' := by
  induction n using Nat.strongRecOn with
  | ind n ih =>
    intro hn
    rcases lt_or_ge n 10 with hlt | hge
    · rw [Nat.toDigits_of_lt_base hlt]
      have hdigit : ∀ d < 10, 0 < d → [d.digitChar].head? ≠ some '0' := by decide
      exact hdigit n hlt hn
    · rw [Nat.toDigits_of_base_le (by decide) hge, List.head?_append]
      have hne := ih (n / 10) (by omega) (by omega)
      obtain ⟨c, ds, hds⟩ := List.exists_cons_of_ne_nil (Nat.toDigits_ne_nil (b := 10) (n := n / 10))
      rw [hds] at hne ⊢
      simpa using hne

/-- The digits of a number are read back as the number. -/
theorem readNat_digits (n : Nat) {rest : List Char} (h : Stops rest) : readNat (Nat.toDigits 10 n ++ rest) = some (n, rest) := by
  rcases n.eq_zero_or_pos with rfl | hn
  · rw [Nat.toDigits_zero]
    rfl
  · have hdigits : ∀ c ∈ Nat.toDigits 10 n, c.isDigit = true := fun c hc => Nat.isDigit_of_mem_toDigits (by decide) (by decide) hc
    obtain ⟨hfirst, hlast⟩ := takeWhile_digits hdigits h
    have hhead := toDigits_head n hn
    have hne : Nat.toDigits 10 n ≠ [] := Nat.toDigits_ne_nil
    unfold readNat
    split
    · rename_i rest' heq
      obtain ⟨c, ds, hds⟩ := List.exists_cons_of_ne_nil hne
      rw [hds, List.cons_append] at heq
      rw [hds, (List.cons.inj heq).1] at hhead
      exact absurd rfl hhead
    · dsimp only
      rw [hfirst, hlast, if_neg hne, Nat.ofDigitChars_ten_toDigits]

/-! ### Values -/

variable {s : Separators}

/-- A string is quoted. -/
theorem text_str (t : String) : text s (.str t) = quoted t := rfl

/-- The items of an array stand in brackets. -/
theorem text_arr (items : List Json) : text s (.arr items) = '[' :: textItems s items ++ [']'] := rfl

/-- The members of an object stand in braces. -/
theorem text_obj (members : List (String × Json)) : text s (.obj members) = '\x7b' :: textMembers s members ++ ['\x7d'] := rfl

/-- After the first item each one follows a separator. -/
theorem textMoreItems_cons (v : Json) (items : List Json) : textMoreItems s (v :: items) = s.item ++ textItems s (v :: items) := by
  rw [textMoreItems, textItems, List.append_assoc]

/-- And so does each member after the first. -/
theorem textMoreMembers_cons (m : String × Json) (members : List (String × Json)) :
    textMoreMembers s (m :: members) = s.item ++ textMembers s (m :: members) := by
  rw [textMoreMembers, textMembers, List.append_assoc]

/-- A character that no blank is, and that closes nothing. -/
def Opens (c : Char) : Prop := c ∉ [' ', '\n', '\r', '\t', ']', '\x7d']

/-- A digit opens a value. -/
theorem opens_digit {c : Char} (h : c.isDigit = true) : Opens c := by
  intro hc
  simp only [List.mem_cons, List.not_mem_nil, or_false] at hc
  rcases hc with rfl | rfl | rfl | rfl | rfl | rfl <;> revert h <;> decide

/-- Every value begins with a character that opens one. -/
theorem text_head (v : Json) : ∃ c rest, text s v = c :: rest ∧ Opens c := by
  cases v with
  | null => exact ⟨'n', _, rfl, by unfold Opens; decide⟩
  | bool value => cases value <;> exact ⟨_, _, rfl, by unfold Opens; decide⟩
  | int n =>
    change ∃ c rest, digits n = c :: rest ∧ Opens c
    unfold digits
    split
    · exact ⟨_, _, rfl, by unfold Opens; decide⟩
    · obtain ⟨c, ds, hds⟩ := List.exists_cons_of_ne_nil (Nat.toDigits_ne_nil (b := 10) (n := n.natAbs))
      have hc : c ∈ Nat.toDigits 10 n.natAbs := by
        rw [hds]
        exact List.mem_cons_self
      exact ⟨c, ds, hds, opens_digit (Nat.isDigit_of_mem_toDigits (by decide) (by decide) hc)⟩
  | str t => exact ⟨quote, _, rfl, by unfold Opens; decide⟩
  | arr items => exact ⟨'[', _, rfl, by unfold Opens; decide⟩
  | obj members => exact ⟨'\x7b', _, rfl, by unfold Opens; decide⟩

/-- What is no blank is not skipped. -/
theorem skip_cons {c : Char} (h : c ∉ [' ', '\n', '\r', '\t']) (rest : List Char) : skip (c :: rest) = c :: rest := by
  rw [skip, List.dropWhile_cons_of_neg (by simpa using h)]

/-- Blanks are skipped. -/
theorem skip_blanks (n : Nat) (rest : List Char) : skip (List.replicate n ' ' ++ rest) = skip rest := by
  unfold skip
  rw [List.dropWhile_append_of_pos]
  intro c hc
  obtain rfl := List.eq_of_mem_replicate hc
  decide

/-- What opens a value is no blank. -/
theorem not_blank_of_opens {c : Char} (h : Opens c) : c ∉ [' ', '\n', '\r', '\t'] := fun hc => h (by simp at hc ⊢; tauto)

/-- No value starts with a blank. -/
theorem skip_text (v : Json) (rest : List Char) : skip (text s v ++ rest) = text s v ++ rest := by
  obtain ⟨c, cs, hv, hc⟩ := text_head (s := s) v
  rw [hv, List.cons_append, skip_cons (not_blank_of_opens hc)]

/-- The letters of the words. -/
theorem toList_words : "null".toList = ['n', 'u', 'l', 'l'] ∧ "true".toList = ['t', 'r', 'u', 'e'] ∧
    "false".toList = ['f', 'a', 'l', 's', 'e'] := by simp

/-- A word of its own is read as its value: no other word begins with its letter. -/
theorem readWord_text (rest : List Char) : readWord ("null".toList ++ rest) = some (.null, rest) ∧
    readWord ("true".toList ++ rest) = some (.bool true, rest) ∧ readWord ("false".toList ++ rest) = some (.bool false, rest) := by
  obtain ⟨hnull, htrue, hfalse⟩ := toList_words
  have hwords : ∀ cs, readWord cs = ([(['n', 'u', 'l', 'l'], .null), (['t', 'r', 'u', 'e'], .bool true),
      (['f', 'a', 'l', 's', 'e'], .bool false)] : List (List Char × Json)).findSome? fun (word, v) =>
        if word <+: cs then some (v, cs.drop word.length) else none := fun cs => by
    rw [readWord, WORDS, hnull, htrue, hfalse]
  simp only [hwords, hnull, htrue, hfalse]
  refine ⟨?_, ?_, ?_⟩ <;> simp

/-- No value is written as nothing. -/
theorem length_text_pos (v : Json) : 0 < (text s v).length := by
  obtain ⟨c, cs, hv, _⟩ := text_head (s := s) v
  simp [hv]

/-- A character that is no digit ends a number. -/
theorem Stops.cons {c : Char} (h : c.isDigit = false) (rest : List Char) : Stops (c :: rest) := by
  intro c' hc'
  obtain rfl := Option.some.inj hc'
  exact h

/-- A value that begins like a word is read as one. -/
theorem readValue_word {fuel : Nat} {c : Char} {cs : List Char} (hc : c ∈ ['n', 't', 'f']) :
    readValue (fuel + 1) (c :: cs) = readWord (c :: cs) := by
  have hmarks : c ≠ quote ∧ c ≠ '[' ∧ c ≠ '\x7b' ∧ c ≠ '-' ∧ c.isDigit = false := by
    simp only [List.mem_cons, List.not_mem_nil, or_false] at hc
    rcases hc with rfl | rfl | rfl <;> decide
  obtain ⟨h₁, h₂, h₃, h₄, h₅⟩ := hmarks
  rw [readValue, if_neg h₁, if_neg h₂, if_neg h₃, if_neg h₄, if_neg (by simp [h₅])]

/-- The digits of an integer are read back as the integer. -/
theorem readValue_digits {fuel : Nat} (hfuel : 0 < fuel) (n : Int) {rest : List Char} (h : Stops rest) :
    readValue fuel (digits n ++ rest) = some (.int n, rest) := by
  obtain ⟨fuel, rfl⟩ : ∃ k, fuel = k + 1 := ⟨fuel - 1, by omega⟩
  have hread := readNat_digits n.natAbs h
  unfold digits
  split
  · have hmarks : '-' ≠ quote ∧ '-' ≠ '[' ∧ '-' ≠ '\x7b' := by decide
    rw [List.cons_append, readValue, if_neg hmarks.1, if_neg hmarks.2.1, if_neg hmarks.2.2, if_pos rfl, hread, Option.map_some]
    dsimp only
    rw [show -((n.natAbs : Nat) : Int) = n by omega]
  · obtain ⟨c, ds, hds⟩ := List.exists_cons_of_ne_nil (Nat.toDigits_ne_nil (b := 10) (n := n.natAbs))
    have hc : c.isDigit = true := by
      refine Nat.isDigit_of_mem_toDigits (b := 10) (n := n.natAbs) (by decide) (by decide) ?_
      rw [hds]
      exact List.mem_cons_self
    have hmarks : c ≠ quote ∧ c ≠ '[' ∧ c ≠ '\x7b' ∧ c ≠ '-' := by
      refine ⟨?_, ?_, ?_, ?_⟩ <;> (rintro rfl; revert hc; decide)
    rw [hds, List.cons_append] at hread ⊢
    rw [readValue, if_neg hmarks.1, if_neg hmarks.2.1, if_neg hmarks.2.2.1, if_neg hmarks.2.2.2, if_pos hc, hread, Option.map_some]
    dsimp only
    rw [show ((n.natAbs : Nat) : Int) = n by omega]

/-- The text of some items begins like that of the first. -/
theorem textItems_head (v : Json) (items : List Json) : ∃ c rest, textItems s (v :: items) = c :: rest ∧ Opens c := by
  obtain ⟨c, cs, hv, hc⟩ := text_head (s := s) v
  exact ⟨c, cs ++ textMoreItems s items, by rw [textItems, hv, List.cons_append], hc⟩

/-- The text of some members begins with the quote of the first key. -/
theorem textMembers_head (m : String × Json) (members : List (String × Json)) :
    ∃ c rest, textMembers s (m :: members) = c :: rest ∧ Opens c := by
  obtain ⟨key, v⟩ := m
  exact ⟨quote, _, rfl, by unfold Opens; decide⟩

/-! ### One round of each loop -/

variable {fuel : Nat} {cs rest after : List Char} {v : Json} {key : String}

/-- A value before the closing bracket is the last item. -/
theorem readItems_last (hv : readValue fuel cs = some (v, ']' :: rest)) : readItems (fuel + 1) cs = some ([v], rest) := by
  rw [readItems, hv]
  dsimp only
  rw [skip_cons (by decide)]
  rfl

/-- A value before a comma is an item, and others follow. -/
theorem readItems_more (hv : readValue fuel cs = some (v, ',' :: rest)) :
    readItems (fuel + 1) cs = (readItems fuel (skip rest)).map fun (items, rest) => (v :: items, rest) := by
  rw [readItems, hv]
  dsimp only
  rw [skip_cons (by decide)]
  rfl

/-- A key and a value before the closing brace are the last member. -/
theorem readMembers_last (hkey : readString fuel cs = some (key, ':' :: after)) (hv : readValue fuel (skip after) = some (v, '\x7d' :: rest)) :
    readMembers (fuel + 1) cs = some ([(key, v)], rest) := by
  have hcolon : skip (':' :: after) = ':' :: after := skip_cons (by decide) _
  have hbrace : skip ('\x7d' :: rest) = '\x7d' :: rest := skip_cons (by decide) _
  simp only [readMembers, hkey, hcolon, hv, hbrace]

/-- A key and a value before a comma are a member, and others follow. -/
theorem readMembers_more (hkey : readString fuel cs = some (key, ':' :: after)) (hv : readValue fuel (skip after) = some (v, ',' :: rest)) :
    readMembers (fuel + 1) cs = (readMembers fuel (skip rest)).map fun (members, rest) => ((key, v) :: members, rest) := by
  have hcolon : skip (':' :: after) = ':' :: after := skip_cons (by decide) _
  have hcomma : skip (',' :: rest) = ',' :: rest := skip_cons (by decide) _
  simp only [readMembers, hkey, hcolon, hv, hcomma]

mutual
/-- A value is read back from its text, whatever follows. -/
theorem readValue_text (hs : s.Blank) (v : Json) (fuel : Nat) (rest : List Char) (hfuel : (text s v).length ≤ fuel) (hrest : Stops rest) :
    readValue fuel (text s v ++ rest) = some (v, rest) := by
  have hpos := length_text_pos (s := s) v
  obtain ⟨fuel, rfl⟩ : ∃ k, fuel = k + 1 := ⟨fuel - 1, by omega⟩
  match v with
  | .null => exact (readValue_word (by decide)).trans (readWord_text rest).1
  | .bool true => exact (readValue_word (by decide)).trans (readWord_text rest).2.1
  | .bool false => exact (readValue_word (by decide)).trans (readWord_text rest).2.2
  | .int n => exact readValue_digits (Nat.succ_pos _) n hrest
  | .str t =>
    have hlength := length_flatMap_escape t.toList
    simp only [text_str, quoted, List.cons_append, List.length_cons, List.length_append, List.length_nil] at hfuel
    rw [text_str, quoted, List.cons_append, List.cons_append, readValue, if_pos rfl, List.append_assoc, List.singleton_append,
      readBody_quoted (by omega)]
    simp
  | .arr [] => rfl
  | .arr (v :: items) =>
    obtain ⟨c, cs, hitems, hc⟩ := textItems_head (s := s) v items
    have hread := readItems_text hs (v :: items) (by simp) fuel rest (by
      simp only [text_arr, List.cons_append, List.length_cons, List.length_append, List.length_nil] at hfuel
      omega)
    have hbracket : '[' ≠ quote := by decide
    have hclose : c ≠ ']' := fun h => hc (by simp [h])
    rw [text_arr, List.cons_append, List.cons_append, List.append_assoc, List.singleton_append, readValue, if_neg hbracket, if_pos rfl]
    rw [hitems, List.cons_append] at hread ⊢
    rw [skip_cons (not_blank_of_opens hc)]
    split
    · rename_i heq
      exact absurd (List.cons.inj heq).1 hclose
    · rw [hread]
      rfl
  | .obj [] => rfl
  | .obj (m :: members) =>
    obtain ⟨c, cs, hmembers, hc⟩ := textMembers_head (s := s) m members
    have hread := readMembers_text hs (m :: members) (by simp) fuel rest (by
      simp only [text_obj, List.cons_append, List.length_cons, List.length_append, List.length_nil] at hfuel
      omega)
    have hbrace : '\x7b' ≠ quote ∧ '\x7b' ≠ '[' := by decide
    have hclose : c ≠ '\x7d' := fun h => hc (by simp [h])
    rw [text_obj, List.cons_append, List.cons_append, List.append_assoc, List.singleton_append, readValue, if_neg hbrace.1, if_neg hbrace.2,
      if_pos rfl]
    rw [hmembers, List.cons_append] at hread ⊢
    rw [skip_cons (not_blank_of_opens hc)]
    split
    · rename_i heq
      exact absurd (List.cons.inj heq).1 hclose
    · rw [hread]
      rfl
termination_by structural v

/-- The items of an array are read back, up to the bracket that closes it. -/
theorem readItems_text (hs : s.Blank) (items : List Json) (hne : items ≠ []) (fuel : Nat) (rest : List Char)
    (hfuel : (textItems s items).length < fuel) : readItems fuel (textItems s items ++ ']' :: rest) = some (items, rest) := by
  obtain ⟨fuel, rfl⟩ : ∃ k, fuel = k + 1 := ⟨fuel - 1, by omega⟩
  match items with
  | [] => exact absurd rfl hne
  | v :: items =>
    rw [textItems, List.length_append] at hfuel
    have hvalue := fun rest => readValue_text hs v fuel rest (by omega)
    have hmore := fun hne => readItems_text hs items hne fuel rest
    match items with
    | [] =>
      rw [textItems, textMoreItems, List.append_nil]
      exact readItems_last (hvalue _ (.cons (by decide) _))
    | w :: items =>
      obtain ⟨n, hn⟩ := hs.item
      rw [textMoreItems_cons, List.length_append, hn, List.length_cons] at hfuel
      obtain ⟨c, cs, hitems, hc⟩ := textItems_head (s := s) w items
      have hread := hmore (by simp) (by omega)
      rw [textItems, textMoreItems_cons, hn, List.append_assoc, List.append_assoc, List.cons_append,
        readItems_more (hvalue _ (.cons (by decide) _)), skip_blanks]
      rw [hitems, List.cons_append] at hread ⊢
      rw [skip_cons (not_blank_of_opens hc), hread]
      rfl
termination_by structural items

/-- A member is read back, up to what ends it. -/
theorem readMember_text (hs : s.Blank) (m : String × Json) (fuel : Nat) (rest : List Char)
    (hfuel : (textMember s m).length ≤ fuel) (hrest : Stops rest) :
    ∃ after, readString fuel (textMember s m ++ rest) = some (m.1, ':' :: after) ∧ readValue fuel (skip after) = some (m.2, rest) := by
  match m with
  | (key, v) =>
    obtain ⟨n, hn⟩ := hs.key
    rw [textMember, List.length_append, List.length_append] at hfuel
    have hvalue := readValue_text hs v fuel rest (by omega) hrest
    refine ⟨List.replicate n ' ' ++ (text s v ++ rest), ?_, ?_⟩
    · rw [textMember, hn, List.append_assoc, List.append_assoc, readString_quoted (by omega), List.cons_append]
    · rw [skip_blanks, skip_text, hvalue]
termination_by structural m

/-- The members of an object are read back, up to the brace that closes it. -/
theorem readMembers_text (hs : s.Blank) (members : List (String × Json)) (hne : members ≠ []) (fuel : Nat) (rest : List Char)
    (hfuel : (textMembers s members).length < fuel) :
    readMembers fuel (textMembers s members ++ '\x7d' :: rest) = some (members, rest) := by
  obtain ⟨fuel, rfl⟩ : ∃ k, fuel = k + 1 := ⟨fuel - 1, by omega⟩
  match members with
  | [] => exact absurd rfl hne
  | m :: members =>
    rw [textMembers, List.length_append] at hfuel
    have hmember := fun rest => readMember_text hs m fuel rest (by omega)
    have hmore := fun hne => readMembers_text hs members hne fuel rest
    match members with
    | [] =>
      obtain ⟨after, hkey, hvalue⟩ := hmember ('\x7d' :: rest) (.cons (by decide) _)
      rw [textMembers, textMoreMembers, List.append_nil]
      exact readMembers_last hkey hvalue
    | m' :: members =>
      obtain ⟨n, hn⟩ := hs.item
      rw [textMoreMembers_cons, List.length_append, hn, List.length_cons] at hfuel
      obtain ⟨after, hkey, hvalue⟩ := hmember (',' :: (List.replicate n ' ' ++ (textMembers s (m' :: members) ++ '\x7d' :: rest)))
        (.cons (by decide) _)
      obtain ⟨c, cs, hmembers, hc⟩ := textMembers_head (s := s) m' members
      have hread := hmore (by simp) (by omega)
      rw [textMembers, textMoreMembers_cons, hn, List.append_assoc, List.append_assoc, List.cons_append, readMembers_more hkey hvalue,
        skip_blanks]
      rw [hmembers, List.cons_append] at hread ⊢
      rw [skip_cons (not_blank_of_opens hc), hread]
      rfl
termination_by structural members
end

/-- A text reads back as the value it was written for. -/
theorem loads_text (hs : s.Blank) (v : Json) : loads (String.ofList (text s v)) = some v := by
  have hread := readValue_text hs v (text s v).length [] (le_refl _) nofun
  have hskip := skip_text (s := s) v []
  rw [List.append_nil] at hread hskip
  rw [loads, String.toList_ofList, hskip, hread]
  rfl

/-! ### The order of keys -/

mutual
/-- The values are equal: objects hold equal members under the same keys, in any order. -/
inductive Same : Json → Json → Prop where
  | null : Same .null .null
  | bool (value : Bool) : Same (.bool value) (.bool value)
  | int (value : Int) : Same (.int value) (.int value)
  | str (t : String) : Same (.str t) (.str t)
  | arr {items items' : List Json} : SameItems items items' → Same (.arr items) (.arr items')
  | obj {members members' : List (String × Json)} : SameMembers members members' → Same (.obj members) (.obj members')

inductive SameItems : List Json → List Json → Prop where
  | nil : SameItems [] []
  | cons {v w : Json} {items items' : List Json} : Same v w → SameItems items items' → SameItems (v :: items) (w :: items')

inductive SameMembers : List (String × Json) → List (String × Json) → Prop where
  | nil : SameMembers [] []
  | cons {key : String} {v w : Json} {members front back : List (String × Json)} :
      Same v w → SameMembers members (front ++ back) → SameMembers ((key, v) :: members) (front ++ (key, w) :: back)
end

mutual
/-- No object of the value holds two members under one key: it is that of dictionaries. -/
def Distinct : Json → Prop
  | .arr items => DistinctItems items
  | .obj members => (members.map Prod.fst).Nodup ∧ DistinctMembers members
  | _ => True
termination_by structural v => v

def DistinctItems : List Json → Prop
  | [] => True
  | v :: items => Distinct v ∧ DistinctItems items
termination_by structural l => l

def DistinctMember : String × Json → Prop
  | (_, v) => Distinct v
termination_by structural m => m

def DistinctMembers : List (String × Json) → Prop
  | [] => True
  | m :: members => DistinctMember m ∧ DistinctMembers members
termination_by structural l => l
end

/-- The values of the members are sorted one by one. -/
theorem sortMembers_eq_map (members : List (String × Json)) : sortMembers members = members.map fun m => (m.1, m.2.sortKeys) := by
  induction members with
  | nil => rfl
  | cons m members ih =>
    obtain ⟨key, v⟩ := m
    rw [sortMembers, sortMember, ih, List.map_cons]

/-- The members have distinct keys throughout when each of their values has. -/
theorem distinctMembers_iff (members : List (String × Json)) : DistinctMembers members ↔ ∀ m ∈ members, Distinct m.2 := by
  induction members with
  | nil => simp [DistinctMembers]
  | cons m members ih =>
    obtain ⟨key, v⟩ := m
    rw [DistinctMembers, DistinctMember, ih, List.forall_mem_cons]

/-- A member keeps its key. -/
theorem sortMember_fst (m : String × Json) : (sortMember m).1 = m.1 := by
  obtain ⟨key, v⟩ := m
  rfl

/-- The members in the order of their keys. -/
def byKey (members : List (String × Json)) : List (String × Json) := members.insertionSort fun m m' => m.1 ≤ m'.1

/-- Of an object, the values are sorted first, and then the members by their keys. -/
theorem sortKeys_obj (members : List (String × Json)) : sortKeys (.obj members) = .obj (byKey (sortMembers members)) := rfl

/-- Sorted members are in the order of their keys. -/
theorem pairwise_byKey (members : List (String × Json)) : (byKey members).Pairwise fun m m' => m.1 ≤ m'.1 := by
  have : Std.Total fun m m' : String × Json => m.1 ≤ m'.1 := ⟨fun m m' => le_total m.1 m'.1⟩
  have : IsTrans (String × Json) fun m m' => m.1 ≤ m'.1 := ⟨fun _ _ _ => le_trans⟩
  exact List.pairwise_insertionSort _ members

/-- Members under distinct keys are in one order, whichever they came in. -/
theorem byKey_eq_iff {members members' : List (String × Json)} (h : (members.map Prod.fst).Nodup) :
    byKey members = byKey members' ↔ members.Perm members' := by
  have hperm : ∀ l : List (String × Json), (byKey l).Perm l := fun l => List.perm_insertionSort _ l
  constructor
  · intro heq
    exact (hperm members).symm.trans (heq ▸ hperm members')
  · intro hp
    refine ((hperm members).trans (hp.trans (hperm members').symm)).eq_of_pairwise ?_ (pairwise_byKey _) (pairwise_byKey _)
    intro m m' hm hm' hle hge
    have hmem : m ∈ members := (hperm members).subset hm
    have hmem' : m' ∈ members := hp.symm.subset ((hperm members').subset hm')
    exact List.inj_on_of_nodup_map h hmem hmem' (le_antisymm hle hge)

/-- Sorting the values leaves the keys distinct. -/
theorem nodup_sortMembers {members : List (String × Json)} (h : (members.map Prod.fst).Nodup) :
    ((sortMembers members).map Prod.fst).Nodup := by
  rw [sortMembers_eq_map, List.map_map]
  exact h

mutual
/-- Equal values have one form. -/
theorem sortKeys_eq_of_same {v w : Json} (hv : Distinct v) (h : Same v w) : sortKeys v = sortKeys w := by
  match h with
  | .null => rfl
  | .bool _ => rfl
  | .int _ => rfl
  | .str _ => rfl
  | .arr hitems => rw [sortKeys, sortKeys, sortItems_eq_of_same hv hitems]
  | .obj hmembers =>
    rw [sortKeys_obj, sortKeys_obj, (byKey_eq_iff (nodup_sortMembers hv.1)).mpr (sortMembers_perm_of_same hv.2 hmembers)]

/-- Arrays whose items are equal one by one have one form. -/
theorem sortItems_eq_of_same {items items' : List Json} (hv : DistinctItems items) (h : SameItems items items') :
    sortItems items = sortItems items' := by
  match h with
  | .nil => rfl
  | .cons hvalue hitems => rw [sortItems, sortItems, sortKeys_eq_of_same hv.1 hvalue, sortItems_eq_of_same hv.2 hitems]

/-- Equal members have one form, up to their order. -/
theorem sortMembers_perm_of_same {members members' : List (String × Json)} (hv : DistinctMembers members) (h : SameMembers members members') :
    (sortMembers members).Perm (sortMembers members') := by
  match h with
  | .nil => exact .refl _
  | @SameMembers.cons key v w members front back hvalue hmembers =>
    have hmore := sortMembers_perm_of_same hv.2 hmembers
    rw [sortMembers_eq_map, sortMembers_eq_map, List.map_append] at hmore
    rw [sortMembers_eq_map, sortMembers_eq_map, List.map_cons, List.map_append, List.map_cons, sortKeys_eq_of_same hv.1 hvalue]
    exact (hmore.cons _).trans List.perm_middle.symm
end

mutual
/-- Values of one form are equal. -/
theorem same_of_sortKeys_eq (v w : Json) (h : sortKeys v = sortKeys w) : Same v w := by
  match v, w with
  | .null, w => cases w <;> cases h; exact .null
  | .bool value, w => cases w <;> cases h; exact .bool value
  | .int value, w => cases w <;> cases h; exact .int value
  | .str t, w => cases w <;> cases h; exact .str t
  | .arr items, w =>
    cases w with
    | arr items' => exact .arr (sameItems_of_eq items items' (Json.arr.inj h))
    | _ => cases h
  | .obj members, w =>
    cases w with
    | obj members' =>
      have hsorted : byKey (sortMembers members) = byKey (sortMembers members') := Json.obj.inj h
      have hperm : (sortMembers members).Perm (sortMembers members') :=
        (List.perm_insertionSort _ _).symm.trans ((List.Perm.of_eq hsorted).trans (List.perm_insertionSort _ _))
      exact .obj (sameMembers_of_perm members members' hperm)
    | _ => cases h
termination_by structural v

/-- Arrays of one form have equal items. -/
theorem sameItems_of_eq (items items' : List Json) (h : sortItems items = sortItems items') : SameItems items items' := by
  match items, items' with
  | [], [] => exact .nil
  | [], _ :: _ => cases h
  | _ :: _, [] => cases h
  | v :: items, w :: items' =>
    obtain ⟨hvalue, hitems⟩ := List.cons.inj h
    exact .cons (same_of_sortKeys_eq v w hvalue) (sameItems_of_eq items items' hitems)
termination_by structural items

/-- A member and a value of the form of its own are equal. -/
theorem same_of_member (m : String × Json) (w : Json) (h : sortMember m = (m.1, sortKeys w)) : Same m.2 w := by
  match m with
  | (key, v) => exact same_of_sortKeys_eq v w (Prod.mk.inj h).2
termination_by structural m

/-- Members of one form, up to their order, are equal. -/
theorem sameMembers_of_perm (members members' : List (String × Json)) (h : (sortMembers members).Perm (sortMembers members')) :
    SameMembers members members' := by
  match members with
  | [] =>
    have hnil : sortMembers members' = [] := h.nil_eq.symm
    rw [sortMembers_eq_map, List.map_eq_nil_iff] at hnil
    exact hnil ▸ .nil
  | m :: members =>
    have hmem : sortMember m ∈ sortMembers members' := h.subset List.mem_cons_self
    rw [sortMembers_eq_map] at hmem
    obtain ⟨⟨key, w⟩, hw, heq⟩ := List.mem_map.mp hmem
    obtain ⟨front, back, rfl⟩ := List.append_of_mem hw
    have hkey : key = m.1 := (congrArg Prod.fst heq).trans (sortMember_fst m)
    subst hkey
    have hvalue := same_of_member m w heq.symm
    have hmore : (sortMembers members).Perm (sortMembers (front ++ back)) := by
      refine List.Perm.cons_inv (h.trans ?_)
      rw [sortMembers_eq_map, sortMembers_eq_map, List.map_append, List.map_append, List.map_cons, heq]
      exact List.perm_middle
    exact .cons hvalue (sameMembers_of_perm members (front ++ back) hmore)
termination_by structural members
end

mutual
/-- What is sorted stays as it is. -/
theorem sortKeys_sortKeys (v : Json) : sortKeys (sortKeys v) = sortKeys v := by
  match v with
  | .null => rfl
  | .bool _ => rfl
  | .int _ => rfl
  | .str _ => rfl
  | .arr items => rw [sortKeys, sortKeys, sortItems_sortItems items]
  | .obj members =>
    have hmembers := sortMembers_sortMembers members
    have hfix : ∀ m ∈ sortMembers members, (m.1, m.2.sortKeys) = m := by
      rw [sortMembers_eq_map (sortMembers members)] at hmembers
      exact List.map_inj_left.mp (hmembers.trans (List.map_id _).symm)
    have hmap : sortMembers (byKey (sortMembers members)) = byKey (sortMembers members) := by
      rw [sortMembers_eq_map (byKey _)]
      refine (List.map_congr_left fun m hm => ?_).trans (List.map_id _)
      exact hfix m ((List.perm_insertionSort _ _).subset hm)
    rw [sortKeys_obj, sortKeys_obj, hmap, byKey, List.Pairwise.insertionSort_eq (pairwise_byKey _)]
termination_by structural v

/-- So do sorted items. -/
theorem sortItems_sortItems (items : List Json) : sortItems (sortItems items) = sortItems items := by
  match items with
  | [] => rfl
  | v :: items => rw [sortItems, sortItems, sortKeys_sortKeys v, sortItems_sortItems items]
termination_by structural items

/-- So does a sorted member. -/
theorem sortMember_sortMember (m : String × Json) : sortMember (sortMember m) = sortMember m := by
  match m with
  | (key, v) => rw [sortMember, sortMember, sortKeys_sortKeys v]
termination_by structural m

/-- So do sorted members. -/
theorem sortMembers_sortMembers (members : List (String × Json)) : sortMembers (sortMembers members) = sortMembers members := by
  match members with
  | [] => rfl
  | m :: members => rw [sortMembers, sortMembers, sortMember_sortMember m, sortMembers_sortMembers members]
termination_by structural members
end

/-- A dump with sorted keys reads back as an equal value, and two values have one dump exactly when they are equal. -/
theorem loads_dumps (hs : s.Blank) {v : Json} (hv : Distinct v) :
    loads (dumps s true v) = some v.sortKeys ∧ Same v v.sortKeys ∧ ∀ w, dumps s true v = dumps s true w ↔ Same v w := by
  have hread : ∀ v : Json, loads (dumps s true v) = some v.sortKeys := fun v => loads_text hs v.sortKeys
  refine ⟨hread v, ?_, fun w => ⟨fun h => ?_, fun h => ?_⟩⟩
  · exact same_of_sortKeys_eq v _ (sortKeys_sortKeys v).symm
  · refine same_of_sortKeys_eq v w (Option.some.inj ?_)
    rw [← hread v, ← hread w, h]
  · rw [dumps, dumps, if_pos rfl, if_pos rfl, sortKeys_eq_of_same hv h]

/-- The value under a key of an object. -/
def member? (key : String) : Json → Option Json
  | .obj members => (members.find? fun m => m.1 = key).map Prod.snd
  | _ => none

/-- Texts under keys are equal members exactly when they are the same ones. -/
theorem sameMembers_texts {members members' : List (String × Json)} (htexts : ∀ m ∈ members, ∃ t, m.2 = .str t) :
    SameMembers members members' ↔ members.Perm members' := by
  induction members generalizing members' with
  | nil =>
    constructor
    · rintro ⟨⟩
      exact .refl _
    · intro h
      exact h.nil_eq ▸ .nil
  | cons m members ih =>
    obtain ⟨key, v⟩ := m
    obtain ⟨t, rfl⟩ : ∃ t, v = .str t := htexts _ List.mem_cons_self
    have hmore := fun members' => @ih members' fun m hm => htexts m (List.mem_cons_of_mem _ hm)
    constructor
    · intro h
      cases h with
      | cons hvalue hmembers =>
        cases hvalue
        exact (((hmore _).mp hmembers).cons _).trans List.perm_middle.symm
    · intro h
      obtain ⟨front, back, rfl⟩ := List.append_of_mem (h.subset List.mem_cons_self)
      exact .cons (.str t) ((hmore _).mpr ((h.trans List.perm_middle).cons_inv))

end Json
end MtossBot
