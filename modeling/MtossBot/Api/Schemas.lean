import MtossBot.Application.IntentService

/-!
# Schemas of the execution API

What a request carries once its model has accepted it, and the command made of it.
-/

namespace MtossBot

structure CreateIntentRequest where
  account_id : UUID
  signal_id : UUID
  target_version : Int
  market : String
  symbol : String
  side : OrderSide
  order_type : OrderType := .LIMIT
  quantity : Decimal
  limit_price : Option Decimal
  reference_price : Option Decimal := none
  stop_loss : Option Decimal := none
  take_profit : Option Decimal := none
  reduce_only : Bool := false
  tranche_ref : Option String := none
  currency : String
  expires_at : Datetime
  account_capital : ℚ
  resulting_symbol_weight : ℚ
  daily_loss : ℚ
  drawdown : ℚ
  risk_rules : List RiskRule
  approval_mode : ApprovalMode
  auto_notional_limit : Option ℚ := none

structure CreateIntentResponse where
  intent_id : UUID
  state : OrderState
  risk_decision_id : UUID
  approval_id : UUID
deriving DecidableEq

def CreateIntentResponse.from_result (result : IntentCreationResult) : CreateIntentResponse where
  intent_id := result.intent_id
  state := result.state
  risk_decision_id := result.risk_decision_id
  approval_id := result.approval_id

/-- `ApprovalPolicyConfig(mode=…, auto_notional_limit=…)`. -/
def ApprovalPolicyConfig.create (mode : ApprovalMode) (auto_notional_limit : Option ℚ) : Except Exc ApprovalPolicyConfig :=
  if h : mode = .CONDITIONAL → auto_notional_limit ≠ none then .ok ⟨mode, auto_notional_limit, h⟩
  else .error (.validationError "ApprovalPolicyConfig" [("", "conditional approval requires auto_notional_limit")])

/-- The command of a request whose fields have been checked: the model of the command checks its time and its price once more. -/
def CreateIntentRequest.command (payload : CreateIntentRequest) (approval_config : ApprovalPolicyConfig) :
    Except Exc CreateIntentCommand :=
  match payload.expires_at with
  | .naive _ => .error (.validationError "CreateIntentCommand" [("expires_at", "expires_at must be timezone-aware")])
  | .aware t _ =>
    if h : payload.limit_price ≠ none ∨ payload.reference_price ≠ none then
      .ok
        { account_id := payload.account_id
          signal_id := payload.signal_id
          target_version := payload.target_version
          market := payload.market
          symbol := payload.symbol
          side := payload.side
          order_type := payload.order_type
          quantity := payload.quantity
          limit_price := payload.limit_price
          reference_price := payload.reference_price
          stop_loss := payload.stop_loss
          take_profit := payload.take_profit
          reduce_only := payload.reduce_only
          tranche_ref := payload.tranche_ref
          currency := payload.currency
          expires_at := .aware t 0
          account_capital := payload.account_capital
          resulting_symbol_weight := payload.resulting_symbol_weight
          daily_loss := payload.daily_loss
          drawdown := payload.drawdown
          risk_rules := payload.risk_rules
          approval_config := approval_config
          normalize_expiration := ⟨t, rfl⟩
          require_a_pricing_anchor := h }
    else .error (.validationError "CreateIntentCommand" [("", "intent requires limit_price or reference_price")])

def to_command (payload : CreateIntentRequest) : Except Exc CreateIntentCommand := do
  if payload.order_type = .LIMIT ∧ payload.limit_price = none then
    .error (.valueError "limit orders require limit_price")
  if payload.order_type = .MARKET then do
    if payload.limit_price ≠ none then
      .error (.valueError "market orders must not carry a limit_price")
    if payload.reference_price = none then
      .error (.valueError "market orders require reference_price for risk sizing")
  let approval_config ← ApprovalPolicyConfig.create payload.approval_mode payload.auto_notional_limit
  payload.command approval_config

end MtossBot
