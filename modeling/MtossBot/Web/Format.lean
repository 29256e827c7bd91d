import MtossBot.Library.Numerals

/-!
# Amounts in the console

How the console writes amounts, ratios and quantities: it is given texts and never turns them into numbers of the machine. A text is
the list of its characters.
-/

namespace MtossBot
namespace Format

/-- `−`, not the hyphen. -/
def MINUS : Char := '−'

/-- White space, as `trim` takes it. -/
def isSpace (c : Char) : Bool :=
  let n := c.toNat
  0x9 ≤ n ∧ n ≤ 0xd ∨ 0x2000 ≤ n ∧ n ≤ 0x200a ∨ n ∈ [0x20, 0xa0, 0x1680, 0x2028, 0x2029, 0x202f, 0x205f, 0x3000, 0xfeff]

/-- `value.trim()`. -/
def trim (value : List Char) : List Char := (value.dropWhile isSpace).rdropWhile isSpace

/-- Whether a text begins with a minus, and what follows its sign. -/
def splitSign (value : List Char) : Bool × List Char :=
  let trimmed := trim value
  if trimmed.head? = some '-' ∨ trimmed.head? = some MINUS then (true, trimmed.drop 1)
  else if trimmed.head? = some '+' then (false, trimmed.drop 1)
  else (false, trimmed)

/-- `\w`. -/
def isWord (c : Char) : Bool := c.isAlphanum || c = '_'

/-- The commas before the characters of a text that comes after another character. One goes before a number of digits that is a
multiple of three (`(?=(\d{3})+(?!\d))`), if no word begins there (`\B`). -/
def groupAfter (previous : Option Char) : List Char → List Char
  | [] => []
  | c :: rest =>
    let digits := ((c :: rest).takeWhile Char.isDigit).length
    if 0 < digits ∧ digits % 3 = 0 ∧ previous.any isWord then ',' :: c :: groupAfter (some c) rest
    else c :: groupAfter (some c) rest

def group (integerPart : List Char) : List Char := groupAfter none integerPart

/-- `const [whole, fraction] = digits.split(".")`, a fraction that is undefined as an empty one. -/
def splitPoint (digits : List Char) : List Char × List Char :=
  let pieces := digits.splitOn '.'
  (pieces[0]?.getD [], pieces[1]?.getD [])

/-- A number of places. An object stands for no number: it is unequal to zero, and where an integer is needed it counts as zero. -/
inductive Places where
  | number (n : Nat)
  | object
deriving DecidableEq

def Places.toInteger : Places → Nat
  | .number n => n
  | .object => 0

def fixed (digits : List Char) (places : Places) : List Char :=
  let (whole, fraction) := splitPoint digits
  let whole := if whole = [] then ['0'] else whole
  if places = .number 0 then whole
  else
    let padded := (fraction ++ List.replicate places.toInteger '0').take places.toInteger
    whole ++ '.' :: padded

/-- `digits.replace(/\.?0+$/, "")`, if there is a point. -/
def trimTrailingZeros (digits : List Char) : List Char :=
  if '.' ∉ digits then digits
  else
    let kept := digits.rdropWhile (· = '0')
    if kept = digits then digits else if kept.getLast? = some '.' then kept.dropLast else kept

/-- A property of an object: its own, one that it inherits as every object does, here as a text, or none. -/
inductive Property (α : Type) where
  | own (a : α)
  | inherited (text : List Char)
  | undefined

/-- The properties of `Object.prototype`: functions, and one that is an object. -/
def inheritedText (name : String) : Option String :=
  if name = "__proto__" then some "[object Object]"
  else if name = "constructor" then some "function Object() \x7b [native code] \x7d"
  else if name ∈ ["hasOwnProperty", "isPrototypeOf", "propertyIsEnumerable", "toLocaleString", "toString", "valueOf",
      "__defineGetter__", "__defineSetter__", "__lookupGetter__", "__lookupSetter__"] then
    some ("function " ++ name ++ "() \x7b [native code] \x7d")
  else none

/-- `object[name]`, for an object literal. -/
def property {α : Type} (object : List (String × α)) (name : String) : Property α :=
  match object.lookup name, inheritedText name with
  | some a, _ => .own a
  | none, some text => .inherited text.toList
  | none, none => .undefined

def SYMBOLS : List (String × List Char) := [("KRW", ['₩']), ("USD", ['$']), ("JPY", ['¥'])]

def PLACES : List (String × Nat) := [("KRW", 0), ("USD", 2), ("JPY", 0)]

/-- `SYMBOLS[currency] ?? ""`, in a text. -/
def symbol (currency : String) : List Char :=
  match property SYMBOLS currency with
  | .own symbol => symbol
  | .inherited text => text
  | .undefined => []

/-- `PLACES[currency] ?? 2`. -/
def places (currency : String) : Places :=
  match property PLACES currency with
  | .own n => .number n
  | .inherited _ => .object
  | .undefined => .number 2

/-- An integer part in groups, with the fraction if there is one. -/
def grouped (whole fraction : List Char) : List Char := if fraction = [] then group whole else group whole ++ '.' :: fraction

def money (value : List Char) (currency : String) : List Char :=
  let (negative, digits) := splitSign value
  let shaped := fixed digits (places currency)
  let (whole, fraction) := splitPoint shaped
  (if negative then [MINUS] else []) ++ symbol currency ++ grouped whole fraction

/-- An amount of profit or loss, always with a sign. -/
def signedMoney (value : List Char) (currency : String) : List Char :=
  let (negative, _) := splitSign value
  let rendered := money value currency
  if negative then rendered else '+' :: rendered

/-- A number that is a percentage already. -/
def percent (value : List Char) (places : Nat := 1) : List Char :=
  let (negative, digits) := splitSign value
  (if negative then [MINUS] else []) ++ fixed digits (.number places) ++ ['%']

/-- Zeros at the beginning are dropped as long as a digit follows (`/^0+(?=\d)/`). -/
def dropLeadingZeros : List Char → List Char
  | c :: d :: rest => if c = '0' ∧ d.isDigit then dropLeadingZeros (d :: rest) else c :: d :: rest
  | text => text

def shiftDecimal (whole fraction : List Char) (by' : Nat) : List Char :=
  let padded := fraction ++ List.replicate by' '0'
  let moved := padded.take by'
  let rest := (padded.drop by').rdropWhile (· = '0')
  let newWhole := dropLeadingZeros (whole ++ moved)
  if rest = [] then newWhole else newWhole ++ '.' :: rest

/-- A ratio as a percentage, always with a sign. -/
def signedPercent (value : List Char) (places : Nat := 2) : List Char :=
  let (negative, digits) := splitSign value
  let (whole, fraction) := splitPoint digits
  let shifted := shiftDecimal whole fraction 2
  let body := fixed shifted (.number places)
  (if negative then MINUS else '+') :: (body ++ ['%'])

/-- A ratio as a percentage, without the percent sign. -/
def ratioToPercent (value : List Char) (places : Nat := 1) : List Char :=
  let (negative, digits) := splitSign value
  let (whole, fraction) := splitPoint digits
  (if negative then [MINUS] else []) ++ fixed (shiftDecimal whole fraction 2) (.number places)

def quantity (value : List Char) : List Char :=
  let (negative, digits) := splitSign value
  let cleaned := trimTrailingZeros digits
  let (whole, fraction) := splitPoint cleaned
  (if negative then [MINUS] else []) ++ grouped whole fraction

def isNegative (value : List Char) : Bool := (splitSign value).1 && trimTrailingZeros (splitSign value).2 ≠ ['0']

/-- The digits match `/^0*(\.0*)?$/`. -/
def isZero (value : List Char) : Bool :=
  match (splitSign value).2.dropWhile (· = '0') with
  | [] => true
  | c :: rest => c = '.' && rest.all (· = '0')

inductive PnlTone where
  | up
  | down
  | flat
deriving DecidableEq

/-- The colour of a profit or loss. -/
def pnlTone (value : List Char) : PnlTone :=
  if isZero value then .flat else if isNegative value then .down else .up

end Format
end MtossBot
