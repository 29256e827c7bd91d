import MtossBot.Domain.DecimalContext

/-!
# Confirmations

`ConfirmationRequest` of `domain/confirmations.py`: what the owner is asked when the smallest lot is over the budget.
-/

namespace MtossBot

/-- The keyword arguments of `ConfirmationRequest`. -/
structure ConfirmationRequestFields where
  confirmation_id : UUID
  symbol : String
  side : OrderSide
  bar_close_time : Datetime
  stop_price : Decimal
  stop_distance : Decimal
  proposed_lots : Decimal
  risk_amount : Decimal
  budget : Decimal
  equity : Decimal
  deadline_at : Datetime
deriving DecidableEq

namespace ConfirmationRequestFields

def reject_float_amount (value : Decimal) : Except String Decimal := validate_order_decimal_input value "confirmation amount"

def require_timezone (value : Datetime) : Except String Datetime :=
  value.require_timezone "confirmation timestamps must be timezone-aware"

def errors (f : ConfirmationRequestFields) : List (String × String) :=
  fieldErrors "bar_close_time" (require_timezone f.bar_close_time) ++
  fieldErrors "stop_price" (reject_float_amount f.stop_price) ++
  fieldErrors "stop_distance" (reject_float_amount f.stop_distance) ++
  fieldErrors "proposed_lots" (reject_float_amount f.proposed_lots) ++
  fieldErrors "risk_amount" (reject_float_amount f.risk_amount) ++
  fieldErrors "budget" (reject_float_amount f.budget) ++
  fieldErrors "equity" (reject_float_amount f.equity) ++
  fieldErrors "deadline_at" (require_timezone f.deadline_at)

end ConfirmationRequestFields

/-- A request that the model accepts. -/
structure ConfirmationRequest extends ConfirmationRequestFields where
  accepted : toConfirmationRequestFields.errors = []
deriving DecidableEq

namespace ConfirmationRequest

def over_budget_by (request : ConfirmationRequest) : Decimal :=
  let excess := request.risk_amount - request.budget
  if excess.toRat < 0 then .ofInt 0 else excess

/-- In percent, to one decimal. -/
def risk_pct_of_equity (request : ConfirmationRequest) : Except Exc Decimal :=
  if request.equity.toRat ≤ 0 then .ok (.ofInt 0)
  else (request.risk_amount / request.equity * .ofInt 100).quantize (-1)

end ConfirmationRequest
end MtossBot
