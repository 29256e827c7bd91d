import MtossBot.Domain.Approvals
import MtossBot.Domain.DecimalValue
import MtossBot.Domain.Enums
import MtossBot.Domain.Risk
import MtossBot.Library.Digits

/-!
# The models of the console API

Those of `console/schemas.py` that the modelled screens and actions answer with. A decimal goes out as a text, `_plain_decimal`, if there is
memory for it.
-/

namespace MtossBot
namespace Console

/-- What the process can hold: the length of its longest text. That of an amount of the fixtures is far below, and it is no more than
addresses can tell apart. -/
structure Memory where
  longest : Nat
  enough : 32 ≤ longest
  addressable : longest < 2 ^ 57

/-- A decimal without an exponent. -/
def plainText (value : Decimal) : String :=
  let digits := Nat.toDigits 10 value.coefficient
  let places := (-value.exponent).toNat
  let shown :=
    if 0 ≤ value.exponent then
      if value.coefficient = 0 then ['0'] else digits ++ List.replicate value.exponent.toNat '0'
    else if digits.length ≤ places then '0' :: '.' :: (List.replicate (places - digits.length) '0' ++ digits)
    else digits.take (digits.length - places) ++ '.' :: digits.drop (digits.length - places)
  String.ofList ((if value.sign then ['-'] else []) ++ shown)

/-- How long that text is. -/
def plainLength (value : Decimal) : Nat :=
  let digits := numDigits value.coefficient
  let places := (-value.exponent).toNat
  (if value.sign then 1 else 0) +
    if 0 ≤ value.exponent then (if value.coefficient = 0 then 1 else digits + value.exponent.toNat)
    else if digits ≤ places then 2 + places
    else digits + 1

/-- `format(value, "f")`: a text that does not fit in memory is not built. -/
def _plain_decimal (memory : Memory) (value : Decimal) : Except Exc String :=
  if plainLength value ≤ memory.longest then .ok (plainText value) else .error .memoryError

inductive HealthLevel where
  | OK
  | WARNING
  | ACTION_REQUIRED
  | STOPPED
deriving DecidableEq, Repr

inductive Tone where
  | neutral
  | ok
  | warning
  | critical
deriving DecidableEq, Repr

inductive Broker where
  | TOSS
  | MT5
deriving DecidableEq, Repr

inductive Market where
  | KR
  | US
  | FX
deriving DecidableEq, Repr

inductive Role where
  | ADMIN
  | TRADER
  | VIEWER
deriving DecidableEq, Repr

inductive AutoTrading where
  | RUNNING
  | STOPPED_BY_OFFLINE
  | PAUSED_BY_USER
  | SHADOW
deriving DecidableEq, Repr

inductive SourceType where
  | STRATEGY
  | LEADER
  | EXTERNAL
  | FORM_13F
deriving DecidableEq, Repr

structure StatusInfo where
  level : HealthLevel
  label : String
  detail : String
  as_of : String
deriving DecidableEq

structure Notice where
  notice_id : String
  tone : Tone
  title : String
  body : String
  action_label : Option String := none
  action_href : Option String := none
  dismissible : Bool := true
deriving DecidableEq

structure AccountSummary where
  account_id : String
  «alias» : String
  broker : Broker
  market : Market
  currency : String
  status : StatusInfo
  net_asset : Decimal
  daily_pnl : Decimal
  daily_pnl_rate : Decimal
  order_stopped : Bool
  confirmed_note : String
deriving DecidableEq

structure NodeHealth where
  node_id : String
  name : String
  account_alias : String
  status : StatusInfo
  heartbeat_note : String
  version : String
  last_position_sync : String
  auto_trading : AutoTrading
  pairing_code : String
deriving DecidableEq

structure ApprovalSummary where
  approval_id : String
  source_type : SourceType
  source_name : String
  account_id : String
  account_alias : String
  market : Market
  symbol : String
  symbol_name : String
  side : OrderSide
  quantity : Decimal
  notional : Decimal
  currency : String
  current_price : Decimal
  signal_price : Decimal
  expires_in_seconds : Nat
  expires_label : String
  status : ApprovalStatus
  approval_mode : ApprovalMode
  risk_passed : Bool
  risk_note : String
deriving DecidableEq

structure RecheckResult where
  approval_id : String
  changed : Bool
  message : String
  before_price : Decimal
  after_price : Decimal
  before_notional : Decimal
  after_notional : Decimal
deriving DecidableEq

structure DecisionResult where
  approval_id : String
  status : ApprovalStatus
  reason : String
  message : String
  order_id : Option String := none
deriving DecidableEq

structure ReconciliationRow where
  issue_id : String
  detected_at : String
  account_alias : String
  symbol : String
  symbol_name : String
  kind : String
  internal_value : String
  broker_value : String
  status : String
  guidance : String
deriving DecidableEq

structure RiskRuleRow where
  rule_id : String
  name : String
  metric : RiskMetric
  scope : RiskScope
  scope_label : String
  actual : Decimal
  limit : Decimal
  unit : String
  usage_percent : Decimal
  status : StatusInfo
  changed_by : String
  changed_at : String
deriving DecidableEq

inductive Direction where
  | TIGHTER
  | LOOSER
deriving DecidableEq, Repr

structure RiskChangeRow where
  change_id : String
  changed_at : String
  actor : String
  rule_name : String
  before : String
  after : String
  direction : Direction
deriving DecidableEq

structure RiskPayload where
  rules : List RiskRuleRow
  history : List RiskChangeRow
  notices : List Notice
  as_of : String
deriving DecidableEq

structure ConnectionCheck where
  key : String
  label : String
  passed : Bool
  detail : String
deriving DecidableEq

structure TossAccountRow where
  account_id : String
  «alias» : String
  market : Market
  status : StatusInfo
  last_sync : String
  secret_note : String
  checks : List ConnectionCheck
  order_stopped : Bool
deriving DecidableEq

structure ConnectionsPayload where
  toss_accounts : List TossAccountRow
  mt5_nodes : List NodeHealth
  mt5_checks : List ConnectionCheck
  notices : List Notice
  as_of : String
deriving DecidableEq

structure ConnectionTestResult where
  passed : Bool
  code : String
  title : String
  body : String
  checks : List ConnectionCheck
deriving DecidableEq

structure ControlsPayload where
  emergency_stop : Bool
  stopped_at : Option String
  cancel_progress_done : Nat
  cancel_progress_total : Nat
  liquidation_running : Bool
  liquidation_results : List ReconciliationRow
  confirm_phrase : String
  as_of : String
deriving DecidableEq

structure ActionResult where
  ok : Bool
  code : String
  message : String
deriving DecidableEq

structure SessionPayload where
  user_name : String
  user_email : String
  role : Role
  accounts : List AccountSummary
  system_status : StatusInfo
  emergency_stop : Bool
  kst_time : String
  et_time : String
  pending_approvals : Nat
  risk_actions : Nat
deriving DecidableEq

end Console
end MtossBot
