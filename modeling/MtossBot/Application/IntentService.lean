import MtossBot.Application.ApprovalPolicy
import MtossBot.Application.Idempotency
import MtossBot.Application.RiskEngine
import MtossBot.Domain.DecimalContext
import MtossBot.Library.Prog

/-!
# Creating intents

`IntentService.create`, as a program over the two calls of `IntentRepository`. What `uuid4` and the clock return is drawn
beforehand (`Drawn`). The one product of the command's decimals is an argument: that of `Decimal`s, which rounds, or the exact one.
-/

namespace MtossBot

/-- A command to create an intent: its timestamp is in UTC and it has a price to size it by. -/
structure CreateIntentCommand where
  account_id : UUID
  signal_id : UUID
  target_version : Int
  market : String
  symbol : String
  side : OrderSide
  order_type : OrderType := .LIMIT
  quantity : Decimal
  limit_price : Option Decimal := none
  reference_price : Option Decimal := none
  stop_loss : Option Decimal := none
  take_profit : Option Decimal := none
  reduce_only : Bool := false
  tranche_ref : Option String := none
  currency : String
  expires_at : Datetime
  account_capital : ℚ
  resulting_symbol_weight : ℚ
  daily_loss : ℚ
  drawdown : ℚ
  risk_rules : List RiskRule
  approval_config : ApprovalPolicyConfig
  normalize_expiration : ∃ t, expires_at = .aware t 0
  require_a_pricing_anchor : limit_price ≠ none ∨ reference_price ≠ none

namespace CreateIntentCommand

/-- `limit_price` where there is one, else `reference_price`. -/
def pricing_reference (c : CreateIntentCommand) : Option Decimal :=
  match c.limit_price with
  | some price => some price
  | none => c.reference_price

/-- The key `IntentService.create` gives the order of the command. -/
def idempotency_key (upper : String → String) (c : CreateIntentCommand) : String :=
  build_intent_key upper c.account_id c.signal_id c.target_version c.symbol c.side

/-- The order of the command, under a fresh identifier. -/
def intentFields (upper : String → String) (intent_id : UUID) (c : CreateIntentCommand) : ExecutionIntentFields where
  intent_id := intent_id
  account_id := c.account_id
  signal_id := c.signal_id
  target_version := c.target_version
  market := c.market
  symbol := c.symbol
  side := c.side
  order_type := c.order_type
  quantity := c.quantity
  limit_price := c.limit_price
  reference_price := c.reference_price
  stop_loss := c.stop_loss
  take_profit := c.take_profit
  reduce_only := c.reduce_only
  tranche_ref := c.tranche_ref
  currency := c.currency
  expires_at := c.expires_at
  idempotency_key := c.idempotency_key upper

/-- The context its risk is evaluated in. -/
def contextFields (c : CreateIntentCommand) (notional : ℚ) : RiskContextFields where
  account_id := c.account_id
  order_notional := notional
  account_capital := c.account_capital
  resulting_symbol_weight := c.resulting_symbol_weight
  daily_loss := c.daily_loss
  drawdown := c.drawdown

end CreateIntentCommand

/-- The calls of `IntentRepository`. -/
inductive IntentRepositoryOp where
  | record_risk_rejection (account_id signal_id : UUID) (decision : RiskDecision)
  | create_with_outbox (intent : ExecutionIntent) (state : OrderState) (risk_decision_id approval_id : UUID)
      (risk_snapshot : RiskDecision) (approval_snapshot : ApprovalDecision)

@[reducible] def IntentRepositoryOp.Res : IntentRepositoryOp → Type
  | record_risk_rejection .. => Unit
  | create_with_outbox .. => UUID

abbrev intentRepository : Sig := ⟨IntentRepositoryOp, IntentRepositoryOp.Res⟩

/-- What `create` raises: `RiskRejected`, which carries the decision, or anything else. -/
inductive CreateError where
  | riskRejected (decision : RiskDecision)
  | raised (e : Exc)

structure IntentCreationResult where
  intent_id : UUID
  state : OrderState
  risk_decision_id : UUID
  approval_id : UUID
deriving DecidableEq

def APPROVAL_STATES : ApprovalStatus → OrderState
  | .APPROVED => .QUEUED
  | .PENDING => .PENDING_APPROVAL
  | .REJECTED => .REJECTED
  | .EXPIRED => .EXPIRED

/-- The identifiers `uuid4` draws for one call of `create`, and what its clock says. -/
structure Drawn where
  decision_id : UUID
  approval_id : UUID
  intent_id : UUID
  now : Datetime

/-- How a quantity is multiplied by a price. -/
abbrev Times : Type := Decimal → Decimal → Except Exc ℚ

/-- As `Decimal`s. -/
def Times.decimal : Times := fun quantity price => (quantity.mul price).map Decimal.toRat

/-- Exactly. -/
def Times.exact : Times := fun quantity price => .ok (quantity.toRat * price.toRat)

namespace IntentService

/-- A step that raises an ordinary exception. -/
def lift {α : Type} : Except Exc α → Prog intentRepository CreateError α
  | .ok a => pure a
  | .error e => .raise (.raised e)

/-- A closing order is let through whatever its risk; the violations stay in the decision. -/
def overridden (reduce_only : Bool) (risk : RiskDecision) : RiskDecision :=
  if reduce_only && !risk.allowed then { risk with allowed := true } else risk

/-- From the risk decision on an order that may be created. -/
def persist (upper : String → String) (drawn : Drawn) (command : CreateIntentCommand) (notional : ℚ)
    (risk : RiskDecision) : Prog intentRepository CreateError IntentCreationResult := do
  let approval ← lift (ApprovalPolicy.decide drawn.approval_id command.approval_config notional drawn.now
    command.expires_at)
  let state := APPROVAL_STATES approval.status
  let intent ← lift (ExecutionIntent.create (command.intentFields upper drawn.intent_id))
  let _ ← Prog.perform (σ := intentRepository)
    (.create_with_outbox intent state risk.decision_id approval.approval_id risk approval)
  return ⟨drawn.intent_id, state, risk.decision_id, approval.approval_id⟩

def create (times : Times) (upper : String → String) (drawn : Drawn) (command : CreateIntentCommand) :
    Prog intentRepository CreateError IntentCreationResult :=
  match command.pricing_reference with
  | none => .raise (.raised (.assertionError ""))
  | some anchor => do
    let notional ← lift (times command.quantity anchor)
    let context ← lift (RiskContext.create (command.contextFields notional))
    let risk := overridden command.reduce_only (RiskEngine.evaluate drawn.decision_id context command.risk_rules)
    if risk.allowed then
      persist upper drawn command notional risk
    else do
      let _ ← Prog.perform (σ := intentRepository)
        (.record_risk_rejection command.account_id command.signal_id risk)
      .raise (.riskRejected risk)

end IntentService
end MtossBot
