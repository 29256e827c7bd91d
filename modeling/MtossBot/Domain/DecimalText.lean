import Mathlib.Data.List.DropRight
import MtossBot.Domain.DecimalValue
import MtossBot.Library.Digits

/-!
# Decimals and texts

`str(d)` and `Decimal(text)`. White space around the text is dropped and so is every underscore; each digit may be any Unicode digit. What is left is
a number with an optional exponent, an infinity or a NaN, and the number must be in the range of exponents that decimals have.
-/

namespace MtossBot
namespace DecimalText

/-- `c.isspace()`. -/
def isspace (c : Char) : Bool :=
  let n := c.toNat
  0x9 ≤ n ∧ n ≤ 0xd ∨ 0x1c ≤ n ∧ n ≤ 0x20 ∨ 0x2000 ≤ n ∧ n ≤ 0x200a ∨
    n ∈ [0x85, 0xa0, 0x1680, 0x2028, 0x2029, 0x202f, 0x205f, 0x3000]

/-- The zeros of the scripts that have decimal digits; the nine characters after a zero are the other digits. -/
def zeros : List Nat :=
  [0x30, 0x660, 0x6f0, 0x7c0, 0x966, 0x9e6, 0xa66, 0xae6, 0xb66, 0xbe6, 0xc66, 0xce6, 0xd66, 0xde6, 0xe50, 0xed0, 0xf20, 0x1040,
    0x1090, 0x17e0, 0x1810, 0x1946, 0x19d0, 0x1a80, 0x1a90, 0x1b50, 0x1bb0, 0x1c40, 0x1c50, 0xa620, 0xa8d0, 0xa900, 0xa9d0, 0xa9f0,
    0xaa50, 0xabf0, 0xff10, 0x104a0, 0x10d30, 0x11066, 0x110f0, 0x11136, 0x111d0, 0x112f0, 0x11450, 0x114d0, 0x11650, 0x116c0,
    0x11730, 0x118e0, 0x11950, 0x11c50, 0x11d50, 0x11da0, 0x11f50, 0x16a60, 0x16ac0, 0x16b50, 0x1d7ce, 0x1d7d8, 0x1d7e2, 0x1d7ec,
    0x1d7f6, 0x1e140, 0x1e2f0, 0x1e4f0, 0x1e950, 0x1fbf0]

/-- The value of a Unicode decimal digit. -/
def digit? (c : Char) : Option Nat :=
  (zeros.find? fun first => first ≤ c.toNat ∧ c.toNat < first + 10).map fun first => c.toNat - first

/-- The character that stands for another in ASCII. -/
def ascii? (c : Char) : Option Char :=
  if 0 < c.toNat ∧ c.toNat ≤ 127 then some c
  else if isspace c then some ' '
  else (digit? c).map Nat.digitChar

/-- `text.strip()`. -/
def strip (text : List Char) : List Char := (text.dropWhile isspace).rdropWhile isspace

/-- The text in ASCII, without white space around it and without underscores. -/
def numeric_as_ascii (text : List Char) : Option (List Char) := ((strip text).filter (· ≠ '_')).mapM ascii?

/-- An optional sign, and whether it is a minus. -/
def sign : List Char → Bool × List Char
  | '+' :: rest => (false, rest)
  | '-' :: rest => (true, rest)
  | rest => (false, rest)

/-- An optional exponent: a letter, an optional sign and at least one digit. -/
def exponent : List Char → Option Int
  | [] => some 0
  | 'e' :: rest =>
    let (negative, rest) := sign rest
    if rest ≠ [] ∧ rest.all Char.isDigit then
      let n : Int := Nat.ofDigitChars 10 rest 0
      some (if negative then -n else n)
    else none
  | _ => none

/-- An optional fraction: a point and any number of digits. -/
def fraction : List Char → List Char × List Char
  | '.' :: rest => rest.span Char.isDigit
  | rest => ([], rest)

def MAX_PREC : Nat := 999999999999999999
def MAX_EMAX : Int := 999999999999999999
def MIN_ETINY : Int := -1999999999999999997

/-- Whether a decimal is in range without being rounded. -/
def InRange (d : Decimal) : Prop := numDigits d.coefficient ≤ MAX_PREC ∧ MIN_ETINY ≤ d.exponent ∧ d.adjusted ≤ MAX_EMAX

instance instDecidableInRange (d : Decimal) : Decidable (InRange d) := inferInstanceAs (Decidable (_ ∧ _))

/-- A number in lower case: digits with at most one point among them, at least one digit, and an optional exponent. -/
def number (negative : Bool) (text : List Char) : Option Decimal :=
  let (whole, rest) := text.span Char.isDigit
  let (fractional, rest) := fraction rest
  if whole ++ fractional = [] then none
  else
    match exponent rest with
    | none => none
    | some e =>
      let d : Decimal := ⟨negative, Nat.ofDigitChars 10 (whole ++ fractional) 0, e - fractional.length⟩
      if InRange d then some d else none

/-- What a text in ASCII spells, in any case of the letters. -/
def value (text : List Char) : Option DecimalValue :=
  let (negative, rest) := sign text
  match rest.map Char.toLower with
  | 'n' :: 'a' :: 'n' :: payload => if payload.all Char.isDigit then some (.nan false) else none
  | 's' :: 'n' :: 'a' :: 'n' :: payload => if payload.all Char.isDigit then some (.nan true) else none
  | ['i', 'n', 'f'] | ['i', 'n', 'f', 'i', 'n', 'i', 't', 'y'] => some (.infinity negative)
  | rest => (number negative rest).map .finite

end DecimalText

/-- `str(d)`: in plain notation where the exponent is not positive and the first digit not far behind the point. -/
def Decimal.str (d : Decimal) : String :=
  let digits := Nat.toDigits 10 d.coefficient
  let leftdigits : Int := d.exponent + digits.length
  let dotplace : Int := if d.exponent ≤ 0 ∧ -6 < leftdigits then leftdigits else 1
  let shown :=
    if dotplace ≤ 0 then '0' :: '.' :: (List.replicate (-dotplace).toNat '0' ++ digits)
    else if (digits.length : Int) ≤ dotplace then digits ++ List.replicate (dotplace - digits.length).toNat '0'
    else digits.take dotplace.toNat ++ '.' :: digits.drop dotplace.toNat
  let power := leftdigits - dotplace
  let exponent := if power = 0 then [] else 'E' :: (if power < 0 then '-' else '+') :: Nat.toDigits 10 power.natAbs
  String.ofList ((if d.sign then ['-'] else []) ++ shown ++ exponent)

/-- `Decimal(text)`; `none` where it raises `InvalidOperation`. -/
def DecimalValue.ofText (text : String) : Option DecimalValue := (DecimalText.numeric_as_ascii text.toList).bind DecimalText.value

end MtossBot
