import Mathlib.Data.Nat.Log
import Mathlib.Data.Rat.Defs
import Mathlib.Algebra.Order.Field.Rat

/-!
# Decimals and datetimes

A finite `Decimal` is a sign, a coefficient and an exponent: the order models look at the exponent, not only at the value. Its
value is a rational number, and comparisons are comparisons of values. A `datetime` is naive or aware; an aware one is an instant,
in microseconds, and the offset it is shown with.
-/

namespace MtossBot

/-- A finite `decimal.Decimal`: `(-1)^sign * coefficient * 10^exponent`. -/
structure Decimal where
  sign : Bool
  coefficient : Nat
  exponent : Int
deriving DecidableEq, Repr

namespace Decimal

/-- The decimal of an integer. -/
def ofInt (n : Int) : Decimal := ⟨n < 0, n.natAbs, 0⟩

/-- The value of a decimal. -/
def toRat (d : Decimal) : ℚ :=
  let n : Int := if d.sign then -d.coefficient else d.coefficient
  if 0 ≤ d.exponent then (n * 10 ^ d.exponent.toNat : Int) else (n : ℚ) / (10 ^ (-d.exponent).toNat : Nat)

/-- `d.adjusted()`: the exponent of the most significant digit. -/
def adjusted (d : Decimal) : Int := d.exponent + Nat.log 10 d.coefficient

end Decimal

/-- A `datetime`: naive, or aware. -/
inductive Datetime where
  | naive (local_time : Int)
  | aware (instant : Int) (utcoffset : Int)
deriving DecidableEq, Repr

namespace Datetime

/-- The instant of an aware datetime. -/
def instant? : Datetime → Option Int
  | naive _ => none
  | aware t _ => some t

/-- The check every model makes of its timestamps: aware, and shown in UTC from then on. -/
def require_timezone (message : String) : Datetime → Except String Datetime
  | naive _ => .error message
  | aware t _ => .ok (aware t 0)

end Datetime
end MtossBot
