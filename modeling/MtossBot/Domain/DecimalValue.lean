import MtossBot.Domain.DecimalContext

/-!
# Decimals that need not be finite

What a variable of type `Decimal` may hold: a finite decimal, an infinity, or a quiet or signaling NaN. Comparing with a NaN raises, and
so does taking an infinity from itself.
-/

namespace MtossBot

inductive DecimalValue where
  | finite (d : Decimal)
  | infinity (sign : Bool)
  | nan (signaling : Bool)
deriving DecidableEq, Repr

namespace DecimalValue

/-- `a > b`. -/
def gt : DecimalValue → DecimalValue → Except Exc Bool
  | nan _, _ => .error .invalidOperation
  | _, nan _ => .error .invalidOperation
  | finite a, finite b => .ok (b < a)
  | infinity sign, finite _ => .ok !sign
  | finite _, infinity sign => .ok sign
  | infinity sign, infinity sign' => .ok (!sign && sign')

/-- `a - b`. -/
def sub : DecimalValue → DecimalValue → Except Exc DecimalValue
  | nan true, _ => .error .invalidOperation
  | _, nan true => .error .invalidOperation
  | nan false, _ => .ok (nan false)
  | _, nan false => .ok (nan false)
  | finite a, finite b => .ok (finite (a - b))
  | infinity sign, finite _ => .ok (infinity sign)
  | finite _, infinity sign => .ok (infinity !sign)
  | infinity sign, infinity sign' => if sign = sign' then .error .invalidOperation else .ok (infinity sign)

/-- The numeric value, if there is one. -/
def toRat? : DecimalValue → Option ℚ
  | finite d => some d.toRat
  | _ => none

end DecimalValue
end MtossBot
