import Mathlib.Data.List.Basic
import MtossBot.Library.Hex

/-!
# UUIDs and their texts

A UUID is a number of 128 bits. `UUID.str` is its canonical text, five groups of lowercase hexadecimal digits; `UUID.parse` reads
the texts the constructor accepts, among them the canonical one (`UUID.parse_str`).
-/

namespace MtossBot

instance instNeZeroUUID : NeZero (2 ^ 128) := ⟨pow_ne_zero 128 two_ne_zero⟩

/-- A universally unique identifier, by its integer value. -/
structure UUID where
  int : Fin (2 ^ 128)
deriving DecidableEq

namespace UUID

/-- The 32 digits of a UUID. -/
def hex (u : UUID) : List Char := hexOf 32 u.int.val

/-- Hyphens after 8, 12, 16 and 20 digits. -/
def hyphenate (digits : List Char) : List Char :=
  digits.take 8 ++ '-' :: ((digits.drop 8).take 4 ++ '-' :: ((digits.drop 12).take 4 ++ '-' ::
    ((digits.drop 16).take 4 ++ '-' :: digits.drop 20)))

/-- `str(uuid)`. -/
def str (u : UUID) : String := String.ofList (hyphenate u.hex)

/-- `text.replace(pattern, "")`, for a nonempty pattern. -/
def removeAll (pattern : List Char) : Nat → List Char → List Char
  | 0, text => text
  | _ + 1, [] => []
  | fuel + 1, c :: text =>
    if pattern.isPrefixOf (c :: text) then removeAll pattern fuel ((c :: text).drop pattern.length)
    else c :: removeAll pattern fuel text

/-- `text.strip(chars)`. -/
def strip (chars : List Char) (text : List Char) : List Char :=
  ((text.dropWhile fun c => c ∈ chars).reverse.dropWhile fun c => c ∈ chars).reverse

/-- Digits of `int(text, 16)`: single underscores may stand between digits; `after` says the last character was a digit. -/
def ofHexGrouped : Bool → Nat → List Char → Option Nat
  | after, acc, [] => if after then some acc else none
  | after, acc, c :: cs =>
    if c = '_' then
      if after then ofHexGrouped false acc cs else none
    else match hexValue c with
      | none => none
      | some d => ofHexGrouped true (16 * acc + d) cs

/-- Drop one leading character if it is `x`. -/
def dropLeading (x : Char) : List Char → List Char
  | [] => []
  | c :: cs => if c = x then cs else c :: cs

/-- `int(text, 16)` of a text without a minus sign, over ASCII: blanks around it, a plus sign, and the marker `0x` are allowed. -/
def intBase16 (text : List Char) : Option Nat :=
  let text := dropLeading '+' (strip [' ', '\t', '\n', '\r', '\x0b', '\x0c'] text)
  if text.take 2 = ['0', 'x'] ∨ text.take 2 = ['0', 'X'] then
    ofHexGrouped false 0 (dropLeading '_' (text.drop 2))
  else ofHexGrouped false 0 text

/-- `UUID(text)`; `none` where the constructor raises `ValueError`. -/
def parse (text : String) : Option UUID :=
  let l := text.toList
  let l := removeAll "urn:".toList l.length l
  let l := removeAll "uuid:".toList l.length l
  let l := (strip ['{', '}'] l).filter (· ≠ '-')
  if l.length = 32 then
    match intBase16 l with
    | some n => if h : n < 2 ^ 128 then some ⟨⟨n, h⟩⟩ else none
    | none => none
  else none

@[simp] theorem length_hex (u : UUID) : u.hex.length = 32 := length_hexOf 32 _

theorem mem_hex {u : UUID} : ∀ c ∈ u.hex, c ∈ lowerHex := mem_hexOf 32 _

/-- The characters of a canonical text are lowercase digits and hyphens. -/
theorem mem_hyphenate {digits : List Char} (h : ∀ c ∈ digits, c ∈ lowerHex) :
    ∀ c ∈ hyphenate digits, c ∈ lowerHex ∨ c = '-' := by
  intro c hc
  simp only [hyphenate, List.mem_append, List.mem_cons] at hc
  rcases hc with hc | rfl | hc | rfl | hc | rfl | hc | rfl | hc
  · exact Or.inl (h c (List.mem_of_mem_take hc))
  · exact Or.inr rfl
  · exact Or.inl (h c (List.mem_of_mem_drop (List.mem_of_mem_take hc)))
  · exact Or.inr rfl
  · exact Or.inl (h c (List.mem_of_mem_drop (List.mem_of_mem_take hc)))
  · exact Or.inr rfl
  · exact Or.inl (h c (List.mem_of_mem_drop (List.mem_of_mem_take hc)))
  · exact Or.inr rfl
  · exact Or.inl (h c (List.mem_of_mem_drop hc))

/-- Removing the hyphens of a canonical text leaves its digits. -/
theorem filter_hyphenate {digits : List Char} (h : ∀ c ∈ digits, c ∈ lowerHex) :
    (hyphenate digits).filter (· ≠ '-') = digits := by
  have hkeep : ∀ l : List Char, (∀ c ∈ l, c ∈ digits) → l.filter (· ≠ '-') = l := by
    intro l hl
    refine List.filter_eq_self.mpr ?_
    intro c hc
    have hc' : c ∈ lowerHex := h c (hl c hc)
    simp only [ne_eq, decide_not, Bool.not_eq_eq_eq_not, Bool.not_true, decide_eq_false_iff_not]
    rintro rfl
    exact absurd hc' (by decide)
  simp only [hyphenate, List.filter_append, List.filter_cons, ne_eq, not_true_eq_false, decide_false,
    Bool.false_eq_true, if_false]
  have h1 := hkeep (digits.take 8) fun c hc => List.mem_of_mem_take hc
  have h2 := hkeep ((digits.drop 8).take 4) fun c hc => List.mem_of_mem_drop (List.mem_of_mem_take hc)
  have h3 := hkeep ((digits.drop 12).take 4) fun c hc => List.mem_of_mem_drop (List.mem_of_mem_take hc)
  have h4 := hkeep ((digits.drop 16).take 4) fun c hc => List.mem_of_mem_drop (List.mem_of_mem_take hc)
  have h5 := hkeep (digits.drop 20) fun c hc => List.mem_of_mem_drop hc
  simp only [ne_eq] at h1 h2 h3 h4 h5
  rw [h1, h2, h3, h4, h5]
  have e4 : (digits.drop 16).take 4 ++ digits.drop 20 = digits.drop 16 := by
    have := List.take_append_drop 4 (digits.drop 16)
    rwa [List.drop_drop] at this
  have e3 : (digits.drop 12).take 4 ++ digits.drop 16 = digits.drop 12 := by
    have := List.take_append_drop 4 (digits.drop 12)
    rwa [List.drop_drop] at this
  have e2 : (digits.drop 8).take 4 ++ digits.drop 12 = digits.drop 8 := by
    have := List.take_append_drop 4 (digits.drop 8)
    rwa [List.drop_drop] at this
  rw [e4, e3, e2, List.take_append_drop]

/-- A pattern whose first character does not occur is not found. -/
theorem removeAll_of_notMem {x : Char} {xs : List Char} :
    ∀ (fuel : Nat) (text : List Char), x ∉ text → removeAll (x :: xs) fuel text = text
  | 0, _, _ => rfl
  | _ + 1, [], _ => rfl
  | fuel + 1, c :: text, h => by
    simp only [List.mem_cons, not_or] at h
    have hp : (x :: xs).isPrefixOf (c :: text) = false := by
      simp [List.isPrefixOf, h.1]
    rw [removeAll, hp, if_neg (by simp), removeAll_of_notMem fuel text h.2]

theorem dropWhile_of_forall_not {p : Char → Bool} {l : List Char} (h : ∀ c ∈ l, p c = false) : l.dropWhile p = l := by
  cases l with
  | nil => rfl
  | cons c l => rw [List.dropWhile_cons, h c (by simp), if_neg (by simp)]

/-- Stripping characters that do not occur changes nothing. -/
theorem strip_of_disjoint {chars text : List Char} (h : ∀ c ∈ text, c ∉ chars) : strip chars text = text := by
  have h1 : text.dropWhile (fun c => decide (c ∈ chars)) = text :=
    dropWhile_of_forall_not fun c hc => by simp [h c hc]
  have h2 : text.reverse.dropWhile (fun c => decide (c ∈ chars)) = text.reverse :=
    dropWhile_of_forall_not fun c hc => by simp [h c (List.mem_reverse.mp hc)]
  rw [strip, h1, h2, List.reverse_reverse]

/-- Grouped reading of digits without underscores. -/
theorem ofHexGrouped_eq : ∀ (l : List Char) (acc : Nat), (∀ c ∈ l, c ∈ lowerHex) →
    ofHexGrouped true acc l = ofHex acc l
  | [], _, _ => rfl
  | c :: l, acc, h => by
    have hc : c ∈ lowerHex := h c (by simp)
    have hne : c ≠ '_' := by rintro rfl; exact absurd hc (by decide)
    rw [ofHexGrouped, if_neg hne, ofHex]
    cases hexValue c with
    | none => rfl
    | some d => exact ofHexGrouped_eq l _ fun x hx => h x (by simp [hx])

/-- `int(text, 16)` of lowercase digits. -/
theorem intBase16_eq {l : List Char} (hne : l ≠ []) (h : ∀ c ∈ l, c ∈ lowerHex) : intBase16 l = ofHex 0 l := by
  have hs : strip [' ', '\t', '\n', '\r', '\x0b', '\x0c'] l = l := by
    refine strip_of_disjoint ?_
    intro c hc hmem
    have hl := h c hc
    revert hl
    simp only [List.mem_cons, List.not_mem_nil, or_false] at hmem
    rcases hmem with rfl | rfl | rfl | rfl | rfl | rfl <;> decide
  have hplus : dropLeading '+' l = l := by
    cases l with
    | nil => rfl
    | cons c l => rw [dropLeading, if_neg (by rintro rfl; exact absurd (h '+' (by simp)) (by decide))]
  have hbase : ∀ x, x ∉ lowerHex → l.take 2 ≠ ['0', x] := by
    intro x hx heq
    exact hx (h x (List.mem_of_mem_take (heq ▸ by simp : x ∈ l.take 2)))
  have hg : ofHexGrouped false 0 l = ofHexGrouped true 0 l := by
    obtain ⟨c, l, rfl⟩ := List.exists_cons_of_ne_nil hne
    have hc : c ≠ '_' := by rintro rfl; exact absurd (h '_' (by simp)) (by decide)
    rw [ofHexGrouped, ofHexGrouped, if_neg hc, if_neg hc]
  simp only [intBase16]
  rw [hs, hplus, if_neg (not_or.mpr ⟨hbase 'x' (by decide), hbase 'X' (by decide)⟩), hg, ofHexGrouped_eq l 0 h]

/-- The canonical text reads back. -/
theorem parse_str (u : UUID) : parse u.str = some u := by
  have hchars : ∀ c ∈ hyphenate u.hex, c ∈ lowerHex ∨ c = '-' := mem_hyphenate mem_hex
  have hno : ∀ x, x ∉ lowerHex → x ≠ '-' → x ∉ hyphenate u.hex := by
    intro x h1 h2 hmem
    rcases hchars x hmem with h | h
    · exact h1 h
    · exact h2 h
  have hu : 'u' ∉ hyphenate u.hex := hno 'u' (by decide) (by decide)
  have hstrip : strip ['{', '}'] (hyphenate u.hex) = hyphenate u.hex := by
    refine strip_of_disjoint ?_
    intro c hc hmem
    simp only [List.mem_cons, List.not_mem_nil, or_false] at hmem
    rcases hmem with rfl | rfl
    · exact hno _ (by decide) (by decide) hc
    · exact hno _ (by decide) (by decide) hc
  have hne : u.hex ≠ [] := by
    intro h
    have := length_hex u
    rw [h] at this
    simp at this
  have hpow : (16 : Nat) ^ 32 = 2 ^ 128 := by decide
  have hval : intBase16 u.hex = some u.int.val := by
    rw [intBase16_eq hne mem_hex, hex, ofHex_hexOf, hpow, Nat.mod_eq_of_lt u.int.isLt]
  have e1 : removeAll "urn:".toList (hyphenate u.hex).length (hyphenate u.hex) = hyphenate u.hex :=
    show removeAll ('u' :: ['r', 'n', ':']) _ _ = _ from removeAll_of_notMem _ _ hu
  have e2 : removeAll "uuid:".toList (hyphenate u.hex).length (hyphenate u.hex) = hyphenate u.hex :=
    show removeAll ('u' :: ['u', 'i', 'd', ':']) _ _ = _ from removeAll_of_notMem _ _ hu
  simp only [parse, str, String.toList_ofList]
  rw [e1, e2, hstrip, filter_hyphenate mem_hex, if_pos (length_hex u), hval]
  simp

/-- Distinct UUIDs have distinct texts. -/
theorem str_injective : Function.Injective str := by
  intro u v h
  have : some u = some v := by rw [← parse_str, ← parse_str, h]
  exact Option.some.inj this

/-- A canonical text holds lowercase digits and hyphens only. -/
theorem mem_str {u : UUID} : ∀ c ∈ u.str.toList, c ∈ lowerHex ∨ c = '-' := by
  rw [str, String.toList_ofList]
  exact mem_hyphenate mem_hex

/-- A canonical text has 36 characters. -/
theorem length_str (u : UUID) : u.str.length = 36 := by
  have hlength : ∀ digits : List Char, digits.length = 32 → (hyphenate digits).length = 36 := by
    intro digits hdigits
    simp only [hyphenate, List.length_append, List.length_cons, List.length_take, List.length_drop, hdigits]
    omega
  rw [str, String.length_ofList, hlength _ (length_hex u)]

-- from here on texts are known by the lemmas above only
attribute [irreducible] str parse

end UUID
end MtossBot
