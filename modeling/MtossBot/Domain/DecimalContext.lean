import Mathlib.Algebra.Order.Field.Power
import Mathlib.Tactic.FieldSimp
import MtossBot.Domain.Numeric
import MtossBot.Domain.Orders
import MtossBot.Library.Digits

/-!
# Decimal arithmetic

The arithmetic of `decimal` in the default context: the exact result rounded to 28 digits, a half to the even digit. The bounds of
the exponent, some million digits away, are those of `finalize`; the arithmetic of the strategy leaves them out.
-/

namespace MtossBot
namespace Decimal

/-- The digits of the default context. -/
def prec : Nat := 28

/-- The coefficient with its sign. -/
def signed (d : Decimal) : Int := if d.sign then -d.coefficient else d.coefficient

/-- A result in the context: rounded to its digits. -/
def fix (d : Decimal) : Decimal :=
  let rounded := roundDigits prec d.coefficient
  ⟨d.sign, rounded.1, d.exponent + rounded.2⟩

/-- The signed coefficient at an exponent that is not above the decimal's own. -/
def shifted (d : Decimal) (exponent : Int) : Int := d.signed * 10 ^ (d.exponent - exponent).toNat

/-- The exact sum, at the lower exponent. -/
def exactAdd (a b : Decimal) : Decimal :=
  let exponent := min a.exponent b.exponent
  let n := a.shifted exponent + b.shifted exponent
  ⟨if n = 0 then a.sign && b.sign else n < 0, n.natAbs, exponent⟩

/-- The exact product: the exponents add. -/
def exactMul (a b : Decimal) : Decimal := ⟨a.sign ^^ b.sign, a.coefficient * b.coefficient, a.exponent + b.exponent⟩

/-- `d.copy_negate()`. -/
def copy_negate (d : Decimal) : Decimal := { d with sign := !d.sign }

/-- `d.copy_abs()`. -/
def copy_abs (d : Decimal) : Decimal := { d with sign := false }

/-- Zeros at the end of a coefficient are dropped, up to a number of them. -/
def stripZeros : Nat → Nat → Int → Nat × Int
  | 0, coefficient, exponent => (coefficient, exponent)
  | limit + 1, coefficient, exponent =>
    if coefficient % 10 = 0 then stripZeros limit (coefficient / 10) (exponent + 1) else (coefficient, exponent)

/-- The quotient by a divisor that is not zero, before it is rounded: one digit more than the context has, and a last digit that rounds
right. -/
def quotient (a b : Decimal) : Decimal :=
  let sign := a.sign ^^ b.sign
  let ideal := a.exponent - b.exponent
  if a.coefficient = 0 then ⟨sign, 0, ideal⟩
  else
    let shift : Int := numDigits b.coefficient - numDigits a.coefficient + prec + 1
    let n := a.coefficient * 10 ^ shift.toNat
    let d := b.coefficient * 10 ^ (-shift).toNat
    if n % d = 0 then
      let (coefficient, exponent) := stripZeros shift.toNat (n / d) (ideal - shift)
      ⟨sign, coefficient, exponent⟩
    else ⟨sign, if n / d % 5 = 0 then n / d + 1 else n / d, ideal - shift⟩

/-- The quotient in the context, where the divisor is not zero. -/
def div (a b : Decimal) : Decimal := fix (quotient a b)

/-- `to_integral_value(rounding=ROUND_FLOOR)`. -/
def floor (d : Decimal) : Decimal :=
  if 0 ≤ d.exponent then d else ⟨d.sign, (d.signed / 10 ^ (-d.exponent).toNat).natAbs, 0⟩

def normalize (d : Decimal) : Decimal :=
  let d := d.fix
  if d.coefficient = 0 then ⟨d.sign, 0, 0⟩
  else
    let (coefficient, exponent) := stripZeros (numDigits d.coefficient) d.coefficient d.exponent
    ⟨d.sign, coefficient, exponent⟩

/-- `int(d)`. -/
def toInt (d : Decimal) : Int :=
  if 0 ≤ d.exponent then d.signed * 10 ^ d.exponent.toNat else d.signed.tdiv (10 ^ (-d.exponent).toNat)

/-- `_rescale`: the coefficient at another exponent, digits that are dropped rounded. -/
def rescale (d : Decimal) (exponent : Int) : Nat :=
  if exponent ≤ d.exponent then d.coefficient * 10 ^ (d.exponent - exponent).toNat
  else roundHalfEven d.coefficient (10 ^ (exponent - d.exponent).toNat)

/-- The greatest place of the first digit in the default context. -/
def Emax : Int := 999999

/-- The least place of the first digit of a number that keeps all digits of the context. -/
def Emin : Int := -999999

/-- The least place of a last digit. -/
def Etiny : Int := Emin - (prec - 1)

/-- A result in the context with the bounds of its exponents: above them it raises, and below them it keeps the digits that are left. -/
def finalize (d : Decimal) : Except Exc Decimal :=
  if d.coefficient = 0 then .ok ⟨d.sign, 0, min (max d.exponent Etiny) Emax⟩
  else
    let rounded := if d.adjusted < Emin then ⟨d.sign, d.rescale (max d.exponent Etiny), max d.exponent Etiny⟩ else fix d
    if Emax < rounded.adjusted then .error .overflow else .ok rounded

/-- `__mul__`. -/
def mul (a b : Decimal) : Except Exc Decimal := finalize (exactMul a b)

/-- `__truediv__`, where the divisor is not zero. -/
def truediv (a b : Decimal) : Except Exc Decimal := finalize (quotient a b)

/-- `quantize`: at a given exponent, unless that takes more digits than the context has. -/
def quantize (d : Decimal) (exponent : Int) : Except Exc Decimal :=
  if d.coefficient ≠ 0 ∧ prec < d.adjusted - exponent + 1 then .error .invalidOperation
  else if prec < numDigits (d.rescale exponent) then .error .invalidOperation
  else .ok ⟨d.sign, d.rescale exponent, exponent⟩

instance : PyDecimal Decimal where
  zero := ⟨false, 0, 0⟩
  add a b := fix (exactAdd a b)
  sub a b := fix (exactAdd a b.copy_negate)
  mul a b := fix (exactMul a b)
  div := div
  le a b := a.toRat ≤ b.toRat
  lt a b := a.toRat < b.toRat
  decidableLE a b := inferInstanceAs (Decidable (a.toRat ≤ b.toRat))
  decidableLT a b := inferInstanceAs (Decidable (a.toRat < b.toRat))
  ofInt := ofInt
  abs d := fix d.copy_abs
  copy_abs := copy_abs
  floor := floor
  normalize := normalize
  toInt := toInt
  fitsOrderNumeric d := match validate_order_decimal_input d "" with
    | .ok _ => true
    | .error _ => false

end Decimal
end MtossBot
