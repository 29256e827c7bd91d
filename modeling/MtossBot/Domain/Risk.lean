import MtossBot.Domain.Decimal
import MtossBot.Exc
import MtossBot.Library.Uuid

/-!
# Risk

The models of `domain/risk.py`. The metrics and limits are read as exact rationals: no validator looks at their exponents.
-/

namespace MtossBot

inductive RiskScope where
  | SYSTEM
  | USER
  | ACCOUNT
  | SOURCE
  | SYMBOL
deriving DecidableEq, Repr

inductive RiskMetric where
  | ORDER_NOTIONAL
  | ACCOUNT_CAPITAL
  | SYMBOL_WEIGHT
  | DAILY_LOSS
  | MAX_DRAWDOWN
deriving DecidableEq, Repr

/-- `frozenset(RiskMetric)`, in the order of the definition. -/
def RiskMetric.all : List RiskMetric := [.ORDER_NOTIONAL, .ACCOUNT_CAPITAL, .SYMBOL_WEIGHT, .DAILY_LOSS, .MAX_DRAWDOWN]

structure RiskRule where
  rule_id : UUID
  scope : RiskScope
  metric : RiskMetric
  limit : ℚ
  limit_nonneg : 0 ≤ limit
deriving DecidableEq

/-- The keyword arguments of `RiskContext`. -/
structure RiskContextFields where
  account_id : UUID
  order_notional : ℚ
  account_capital : ℚ
  resulting_symbol_weight : ℚ
  daily_loss : ℚ
  drawdown : ℚ
deriving DecidableEq

namespace RiskContextFields

def require_positive_metric (field : String) (value : ℚ) : List (String × String) :=
  if value ≤ 0 then [(field, "risk metric must be positive")] else []

def require_non_negative_metric (field : String) (value : ℚ) : List (String × String) :=
  if value < 0 then [(field, "risk metric must be non-negative")] else []

def errors (f : RiskContextFields) : List (String × String) :=
  require_positive_metric "order_notional" f.order_notional ++
  require_positive_metric "account_capital" f.account_capital ++
  require_non_negative_metric "resulting_symbol_weight" f.resulting_symbol_weight ++
  require_non_negative_metric "daily_loss" f.daily_loss ++
  require_non_negative_metric "drawdown" f.drawdown

end RiskContextFields

/-- What a risk decision is about. -/
structure RiskContext extends RiskContextFields where
  accepted : toRiskContextFields.errors = []
deriving DecidableEq

/-- `RiskContext(**fields)`. -/
def RiskContext.create (f : RiskContextFields) : Except Exc RiskContext :=
  if h : f.errors = [] then .ok ⟨f, h⟩ else .error (.validationError "RiskContext" f.errors)

theorem RiskContext.create_fields (c : RiskContext) : RiskContext.create c.toRiskContextFields = .ok c := by
  rw [create, dif_pos c.accepted]

structure RiskViolation where
  code : String
  metric : Option RiskMetric
  actual : Option ℚ
  limit : Option ℚ
deriving DecidableEq

structure RiskDecision where
  decision_id : UUID
  allowed : Bool
  violations : List RiskViolation
deriving DecidableEq

end MtossBot
