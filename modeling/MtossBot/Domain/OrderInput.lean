import MtossBot.Domain.DecimalText
import MtossBot.Domain.Orders

/-!
# What reaches the order-decimal check

`validate_order_decimal_input` runs before a model's own types do, so it is given any object. It looks at decimals, integers and
texts that spell a decimal; a float is refused, and what is none of these is left to the model.
-/

namespace MtossBot

/-- An input of a decimal field. -/
inductive OrderDecimalInput where
  | decimal (value : DecimalValue)
  | int (value : Int)
  | str (value : String)
  | float
  | other
deriving DecidableEq, Repr

namespace OrderDecimalInput

/-- The decimal an input stands for. -/
def candidate : OrderDecimalInput → Option DecimalValue
  | decimal value => some value
  | int value => some (.finite (.ofInt value))
  | str value => DecimalValue.ofText value
  | float => none
  | other => none

/-- `validate_order_decimal_input`, on any input. -/
def validate_order_decimal_input (value : OrderDecimalInput) (field_name : String) : Except String OrderDecimalInput :=
  if value = float then .error (field_name ++ " must not be a float")
  else
    match value.candidate with
    | none => .ok value
    | some (.finite candidate) => (MtossBot.validate_order_decimal_input candidate field_name).map fun _ => value
    | some _ => .error (field_name ++ " must be finite")

end OrderDecimalInput
end MtossBot
