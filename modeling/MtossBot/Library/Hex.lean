import Mathlib.Data.List.Induction
import Mathlib.Tactic.Ring

/-!
# Fixed-width hexadecimal

The lowercase hexadecimal digits of a number, most significant first, and how they are read back.
-/

namespace MtossBot

/-- The lowest `width` hexadecimal digits of `n`, most significant first. -/
def hexOf : Nat → Nat → List Char
  | 0, _ => []
  | width + 1, n => hexOf width (n / 16) ++ [Nat.digitChar (n % 16)]

/-- The value of a hexadecimal digit of either case. -/
def hexValue (c : Char) : Option Nat :=
  if '0' ≤ c ∧ c ≤ '9' then some (c.toNat - 48)
  else if 'a' ≤ c ∧ c ≤ 'f' then some (c.toNat - 87)
  else if 'A' ≤ c ∧ c ≤ 'F' then some (c.toNat - 55)
  else none

/-- The number a list of hexadecimal digits denotes, after the digits read so far. -/
def ofHex : Nat → List Char → Option Nat
  | acc, [] => some acc
  | acc, c :: cs =>
    match hexValue c with
    | none => none
    | some d => ofHex (16 * acc + d) cs

/-- The sixteen lowercase digits. -/
def lowerHex : List Char := "0123456789abcdef".toList

/-- A digit of `hexOf` reads back. -/
theorem hexValue_digitChar : ∀ d, d < 16 → hexValue (Nat.digitChar d) = some d := by decide

theorem digitChar_mem_lowerHex : ∀ d, d < 16 → Nat.digitChar d ∈ lowerHex := by decide

@[simp] theorem length_hexOf (width : Nat) : ∀ n, (hexOf width n).length = width := by
  induction width with
  | zero => intro n; rfl
  | succ width ih => intro n; simp [hexOf, ih]

/-- Every digit of `hexOf` is a lowercase hexadecimal digit. -/
theorem mem_hexOf (width : Nat) : ∀ n, ∀ c ∈ hexOf width n, c ∈ lowerHex := by
  induction width with
  | zero => intro n c hc; simp [hexOf] at hc
  | succ width ih =>
    intro n c hc
    rcases List.mem_append.mp hc with h | h
    · exact ih _ c h
    · rw [List.mem_singleton] at h
      exact h ▸ digitChar_mem_lowerHex _ (Nat.mod_lt _ (by decide))

/-- Reading a list of digits and then one more. -/
theorem ofHex_append (l : List Char) (c : Char) :
    ∀ acc, ofHex acc (l ++ [c]) = (ofHex acc l).bind fun m => (hexValue c).map fun d => 16 * m + d := by
  induction l with
  | nil =>
    intro acc
    cases h : hexValue c <;> simp [ofHex, h]
  | cons x l ih =>
    intro acc
    cases h : hexValue x with
    | none => simp [ofHex, h]
    | some d => simp [ofHex, h, ih]

/-- Reading the digits back gives the number, cut to their width. -/
theorem ofHex_hexOf (width : Nat) : ∀ n, ofHex 0 (hexOf width n) = some (n % 16 ^ width) := by
  induction width with
  | zero => intro n; simp [hexOf, ofHex, Nat.mod_one]
  | succ width ih =>
    intro n
    have hd : hexValue (Nat.digitChar (n % 16)) = some (n % 16) := hexValue_digitChar _ (Nat.mod_lt _ (by decide))
    rw [hexOf, ofHex_append, ih, hd]
    simp only [Option.bind_some, Option.map_some, Option.some.injEq]
    rw [pow_succ, Nat.mul_comm (16 ^ width) 16, Nat.mod_mul]
    ring

/-- A lowercase digit has a value, and is the digit of that value. -/
theorem hexValue_of_mem {c : Char} (h : c ∈ lowerHex) : ∃ d < 16, hexValue c = some d ∧ Nat.digitChar d = c := by
  have hdigits : lowerHex = (List.range 16).map Nat.digitChar := by decide
  rw [hdigits, List.mem_map] at h
  obtain ⟨d, hd, rfl⟩ := h
  exact ⟨d, List.mem_range.mp hd, hexValue_digitChar d (List.mem_range.mp hd), rfl⟩

/-- Lowercase digits denote a number that they are the digits of. -/
theorem ofHex_lowercase {l : List Char} (h : ∀ c ∈ l, c ∈ lowerHex) :
    ∃ n < 16 ^ l.length, ofHex 0 l = some n ∧ hexOf l.length n = l := by
  induction l using List.reverseRecOn with
  | nil => exact ⟨0, by simp, rfl, rfl⟩
  | append_singleton l c ih =>
    obtain ⟨n, hn, hread, hwritten⟩ := ih fun x hx => h x (List.mem_append_left _ hx)
    obtain ⟨d, hd, hvalue, hdigit⟩ := hexValue_of_mem (h c (by simp))
    have hdiv : (16 * n + d) / 16 = n := by omega
    have hmod : (16 * n + d) % 16 = d := by omega
    rw [List.length_append, List.length_singleton]
    refine ⟨16 * n + d, ?_, ?_, ?_⟩
    · rw [pow_succ]
      omega
    · rw [ofHex_append, hread, hvalue]
      rfl
    · rw [hexOf, hdiv, hmod, hwritten, hdigit]

/-- Reading digits after a number: the number moves up by their width. -/
theorem ofHex_from {l : List Char} (h : ∀ c ∈ l, c ∈ lowerHex) (acc : Nat) :
    ∃ n < 16 ^ l.length, ofHex 0 l = some n ∧ ofHex acc l = some (acc * 16 ^ l.length + n) := by
  induction l using List.reverseRecOn with
  | nil => exact ⟨0, by simp, rfl, by simp [ofHex]⟩
  | append_singleton l c ih =>
    obtain ⟨n, hn, hread, hafter⟩ := ih fun x hx => h x (List.mem_append_left _ hx)
    obtain ⟨d, hd, hvalue, _⟩ := hexValue_of_mem (h c (by simp))
    rw [List.length_append, List.length_singleton]
    refine ⟨16 * n + d, ?_, ?_, ?_⟩
    · rw [pow_succ]
      omega
    · rw [ofHex_append, hread, hvalue]
      rfl
    · rw [ofHex_append, hafter, hvalue]
      simp only [Option.bind_some, Option.map_some, Option.some.injEq]
      ring

/-- Lowercase digits of one width denote different numbers. -/
theorem ofHex_injective {l l' : List Char} (h : ∀ c ∈ l, c ∈ lowerHex) (h' : ∀ c ∈ l', c ∈ lowerHex) (hlength : l.length = l'.length)
    (heq : ofHex 0 l = ofHex 0 l') : l = l' := by
  obtain ⟨n, _, hread, hwritten⟩ := ofHex_lowercase h
  obtain ⟨n', _, hread', hwritten'⟩ := ofHex_lowercase h'
  rw [hread, hread'] at heq
  rw [← hwritten, ← hwritten', hlength, Option.some.inj heq]

end MtossBot
