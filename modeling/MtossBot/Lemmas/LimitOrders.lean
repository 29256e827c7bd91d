import MtossBot.Lemmas.Requests

/-!
# A limit order

What a request for a limit order comes to that is approved at once: with limits for every metric, or closing a position.
-/

namespace MtossBot

/-- A command to buy one unit at 100, approved at once. -/
def limitCommand (reduce_only : Bool) (risk_rules : List RiskRule) : CreateIntentCommand where
  account_id := ⟨1⟩
  signal_id := ⟨2⟩
  target_version := 1
  market := "MT5"
  symbol := "XAUUSD"
  side := .BUY
  quantity := .ofInt 1
  limit_price := some (.ofInt 100)
  reduce_only := reduce_only
  currency := "USD"
  expires_at := .aware 10 0
  account_capital := 1000
  resulting_symbol_weight := 0
  daily_loss := 0
  drawdown := 0
  risk_rules := risk_rules
  approval_config := ⟨.AUTO, none, nofun⟩
  normalize_expiration := ⟨10, rfl⟩
  require_a_pricing_anchor := .inl nofun

def limitRequest (reduce_only : Bool) (risk_rules : List RiskRule) : Request where
  drawn := ⟨⟨11⟩, ⟨12⟩, ⟨13⟩, .aware 0 0⟩
  command := limitCommand reduce_only risk_rules
  event_id := ⟨14⟩
  created_at := 0

theorem limit_nonneg : (0 : ℚ) ≤ 1000 := by norm_num

/-- A limit for every metric that the command keeps to. -/
def limits : List RiskRule := RiskMetric.all.map fun metric => ⟨⟨20⟩, .ACCOUNT, metric, 1000, limit_nonneg⟩

def limitContext : RiskContext where
  account_id := ⟨1⟩
  order_notional := 100
  account_capital := 1000
  resulting_symbol_weight := 0
  daily_loss := 0
  drawdown := 0
  accepted := by decide

/-- The fields of the order of the command; its key is any that the model accepts. -/
def limitFields (reduce_only : Bool) (key : String) : ExecutionIntentFields where
  intent_id := ⟨13⟩
  account_id := ⟨1⟩
  signal_id := ⟨2⟩
  target_version := 1
  market := "MT5"
  symbol := "XAUUSD"
  side := .BUY
  quantity := .ofInt 1
  limit_price := some (.ofInt 100)
  reduce_only := reduce_only
  currency := "USD"
  expires_at := .aware 10 0
  idempotency_key := key

theorem limitFields_accepted (reduce_only : Bool) {key : String} (h : ExecutionIntentFields.require_sha256_key key = .ok key) :
    (limitFields reduce_only key).Accepted := by
  refine ⟨?_, rfl⟩
  have hfields : (limitFields reduce_only key).field_errors = [] := by
    have hq : ExecutionIntentFields.check_quantity (.ofInt 1) = .ok (.ofInt 1) := by decide
    have hp : ExecutionIntentFields.check_limit_price (.ofInt 100) = .ok (.ofInt 100) := by decide
    simp only [ExecutionIntentFields.field_errors, limitFields, hq, h, optionalField, hp, fieldErrors, Except.map, List.append_nil]
    rfl
  rw [ExecutionIntentFields.errors, if_pos hfields]
  rfl

def limitKey (upper : String → String) : String := build_intent_key upper ⟨1⟩ ⟨2⟩ 1 "XAUUSD" .BUY

/-- The order of the command. -/
def limitIntent (upper : String → String) (reduce_only : Bool) : ExecutionIntent :=
  ⟨limitFields reduce_only (limitKey upper), limitFields_accepted reduce_only (require_sha256_key_build _ _ _ _ _ _)⟩

/-- The decision on the risk of the command. -/
def limitRisk (reduce_only : Bool) (risk_rules : List RiskRule) : RiskDecision :=
  IntentService.overridden reduce_only (RiskEngine.evaluate ⟨11⟩ limitContext risk_rules)

def limitApproval : ApprovalDecision := ⟨⟨12⟩, .APPROVED, "auto policy"⟩

/-- The request creates a queued order if its risk is allowed. -/
theorem serve_limitRequest (upper : String → String) {reduce_only : Bool} {risk_rules : List RiskRule}
    (h : (limitRisk reduce_only risk_rules).allowed = true) :
    (limitRequest reduce_only risk_rules).serve upper =
      (.ok ((limitRequest reduce_only risk_rules).result (limitRisk reduce_only risk_rules) limitApproval),
        (limitRequest reduce_only risk_rules).created (limitIntent upper reduce_only) (limitRisk reduce_only risk_rules) limitApproval) := by
  have hworth : (limitRequest reduce_only risk_rules).command.Worth .decimal 100 :=
    ⟨.ofInt 100, rfl, show Times.decimal (.ofInt 1) (.ofInt 100) = .ok 100 by decide +kernel⟩
  have hcontext : RiskContext.create ((limitCommand reduce_only risk_rules).contextFields 100) = .ok limitContext :=
    limitContext.create_fields
  have hdecided : ∀ notional, ApprovalPolicy.decide ⟨12⟩ ⟨.AUTO, none, nofun⟩ notional (.aware 0 0) (.aware 10 0) =
      .ok limitApproval := fun _ => rfl
  have hbuilt : ExecutionIntent.create ((limitCommand reduce_only risk_rules).intentFields upper ⟨13⟩) =
      .ok (limitIntent upper reduce_only) := (limitIntent upper reduce_only).create_fields
  exact Request.serve_created hworth hcontext rfl h (hdecided _) hbuilt

theorem limitRisk_limits : (limitRisk false limits).allowed = true := by decide

theorem limitRisk_reduce_only : (limitRisk true []).allowed = true := rfl

end MtossBot
