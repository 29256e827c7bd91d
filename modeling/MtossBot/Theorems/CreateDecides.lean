import MtossBot.Lemmas.LimitOrders
import MtossBot.Lemmas.Quotients
import MtossBot.Lemmas.Rows

/-!
# What `create` decides

Which of its two calls `IntentService.create` makes of the repository, and with what; and what becomes of closing orders.
-/

namespace MtossBot

/-- Whatever the repository answers, a program makes one call of it and, once that is answered, ends with `r`. -/
def Persists {β : Type} (p : Prog intentRepository CreateError β) (op : IntentRepositoryOp) (r : Except CreateError β) : Prop :=
  ∀ (S : Type) (repository : S → (op : IntentRepositoryOp) → Except CreateError op.Res × S) (s : S),
    p.eval repository s = afterwards (repository s op) r

/-- A program raises without a call of the repository. -/
def PersistsNothing {β : Type} (p : Prog intentRepository CreateError β) : Prop :=
  ∃ e, ∀ (S : Type) (repository : S → (op : IntentRepositoryOp) → Except CreateError op.Res × S) (s : S),
    p.eval repository s = (.error (.raised e), s)

namespace CreateIntentCommand

/-- `quantity * (limit_price if present else reference_price)`. -/
def notional (c : CreateIntentCommand) : ℚ :=
  c.quantity.toRat * match c.limit_price, c.reference_price with
    | some limit, _ => limit.toRat
    | none, some reference => reference.toRat
    | none, none => 0

/-- The order of the command is one that the model accepts. -/
def ValidOrder (upper : String → String) (intent_id : UUID) (c : CreateIntentCommand) : Prop :=
  (c.intentFields upper intent_id).errors = []

end CreateIntentCommand

/-- The state of a new order, at an instant and with an expiry. -/
def stateAt (config : ApprovalPolicyConfig) (notional : ℚ) (now expires_at : Int) : OrderState :=
  if expires_at ≤ now then .EXPIRED
  else if config.mode = .AUTO ∨ config.mode = .CONDITIONAL ∧ ∃ limit, config.auto_notional_limit = some limit ∧ notional ≤ limit then
    .QUEUED
  else .PENDING_APPROVAL

namespace CreateAux

open IntentService RequestAux

variable {upper : String → String} {drawn : Drawn} {command : CreateIntentCommand} {context : RiskContext}
  {approval : ApprovalDecision} {intent : ExecutionIntent} {risk : RiskDecision}

/-- The price that the command has gives its exact notional. -/
theorem worth_exact (command : CreateIntentCommand) : command.Worth .exact command.notional := by
  have hanchor := command.require_a_pricing_anchor
  unfold CreateIntentCommand.notional
  cases hlimit : command.limit_price with
  | some limit => exact ⟨limit, by rw [CreateIntentCommand.pricing_reference, hlimit], rfl⟩
  | none =>
    cases hreference : command.reference_price with
    | some reference => exact ⟨reference, by rw [CreateIntentCommand.pricing_reference, hlimit, hreference], rfl⟩
    | none => simp [hlimit, hreference] at hanchor

/-- A step that raises nothing is passed. -/
theorem lift_ok_bind {α β : Type} (a : α) (f : α → Prog intentRepository CreateError β) : lift (.ok a) >>= f = f a := rfl

/-- `create` in a context that the model accepts, from its decision on. -/
theorem create_eq {times : Times} (upper : String → String) {notional : ℚ} (hworth : command.Worth times notional)
    (hcontext : RiskContext.create (command.contextFields notional) = .ok context)
    (hrisk : overridden command.reduce_only (RiskEngine.evaluate drawn.decision_id context command.risk_rules) = risk) :
    IntentService.create times upper drawn command =
      if risk.allowed then persist upper drawn command notional risk
      else (do
        let _ ← Prog.perform (σ := intentRepository)
          (.record_risk_rejection command.account_id command.signal_id risk)
        .raise (.riskRejected risk)) := by
  obtain ⟨anchor, hanchor, htimes⟩ := hworth
  subst hrisk
  unfold IntentService.create
  simp only [hanchor, htimes, lift_ok_bind, hcontext]

/-- An order that may be created is created. -/
theorem persists_persist (risk : RiskDecision) {notional : ℚ}
    (hdecided : ApprovalPolicy.decide drawn.approval_id command.approval_config notional drawn.now command.expires_at = .ok approval)
    (hbuilt : ExecutionIntent.create (command.intentFields upper drawn.intent_id) = .ok intent) :
    Persists (persist upper drawn command notional risk)
      (.create_with_outbox intent (APPROVAL_STATES approval.status) risk.decision_id approval.approval_id risk approval)
      (.ok ⟨drawn.intent_id, APPROVAL_STATES approval.status, risk.decision_id, approval.approval_id⟩) := by
  intro S repository s
  unfold persist
  rw [hdecided, eval_lift_ok, hbuilt, eval_lift_ok]
  exact eval_perform repository (fun _ => rfl) s

/-- A refusal is recorded. -/
theorem persists_rejection :
    Persists (β := IntentCreationResult) (do
      let _ ← Prog.perform (σ := intentRepository) (.record_risk_rejection command.account_id command.signal_id risk)
      .raise (.riskRejected risk)) (.record_risk_rejection command.account_id command.signal_id risk)
      (.error (.riskRejected risk)) :=
  fun _ repository s => eval_perform repository (fun _ => rfl) s

/-- Without `reduce_only` the decision on the risk is not overridden. -/
theorem overridden_false (risk : RiskDecision) : overridden false risk = risk := rfl

/-- The decision on a closing order allows it, and keeps the violations. -/
theorem overridden_true (risk : RiskDecision) : overridden true risk = { risk with allowed := true } := by
  rcases risk with ⟨_, _ | _, _⟩ <;> rfl

/-- The decision on the risk has the identifier that it is given. -/
theorem evaluate_decision_id (decision_id : UUID) (context : RiskContext) (rules : List RiskRule) :
    (RiskEngine.evaluate decision_id context rules).decision_id = decision_id := by
  unfold RiskEngine.evaluate
  dsimp only
  split <;> rfl

/-- The state that an order gets with its approval. -/
theorem approval_state (approval_id : UUID) (config : ApprovalPolicyConfig) (notional : ℚ) (now expiry : Int) :
    APPROVAL_STATES (ApprovalPolicy.decision approval_id config notional now expiry).status =
      stateAt config notional now expiry := by
  unfold ApprovalPolicy.decision stateAt
  by_cases hexpired : expiry ≤ now
  · simp [hexpired, APPROVAL_STATES]
  · cases hmode : config.mode with
    | AUTO => simp [hexpired, APPROVAL_STATES]
    | MANUAL => simp [hexpired, APPROVAL_STATES]
    | CONDITIONAL =>
      cases hlimit : config.auto_notional_limit with
      | none => simp [hexpired, APPROVAL_STATES]
      | some limit => by_cases hle : notional ≤ limit <;> simp [hexpired, hle, APPROVAL_STATES]

/-- What a validator of a positive field accepts fits and is positive. -/
theorem positive_fits {value value' : Decimal} {name message : String}
    (h : (do
      let value ← validate_order_decimal_input value name
      require_positive message value) = .ok value') : value.Fits ∧ 0 < value.toRat := by
  obtain ⟨hfits, hpos⟩ := check_positive_ok h
  exact ⟨(Decimal.validate_ok_iff value name).mp hfits, require_positive_pos hpos⟩

/-- A valid order is created with its fields. -/
theorem create_valid (h : command.ValidOrder upper drawn.intent_id) :
    ∃ intent, ExecutionIntent.create (command.intentFields upper drawn.intent_id) = .ok intent ∧
      intent.toExecutionIntentFields = (command.intentFields upper drawn.intent_id).normalise := by
  have hbuilt : ExecutionIntent.create (command.intentFields upper drawn.intent_id) = .ok _ := dif_pos h
  exact ⟨_, hbuilt, ExecutionIntent.create_ok hbuilt⟩

/-- Any other is refused with its errors. -/
theorem create_invalid (h : ¬command.ValidOrder upper drawn.intent_id) :
    ExecutionIntent.create (command.intentFields upper drawn.intent_id) =
      .error (.validationError "ExecutionIntent" (command.intentFields upper drawn.intent_id).errors) := dif_neg h

/-- A valid order has a quantity and a price to size it by that are positive and fit. -/
theorem exists_anchor (h : command.ValidOrder upper drawn.intent_id) : ∃ anchor, command.pricing_reference = some anchor ∧
    (command.quantity.Fits ∧ 0 < command.quantity.toRat) ∧ anchor.Fits ∧ 0 < anchor.toRat := by
  have hfields := (ExecutionIntentFields.errors_eq_nil_iff.mp h).1
  simp only [ExecutionIntentFields.field_errors, List.append_eq_nil_iff] at hfields
  obtain ⟨⟨⟨⟨⟨⟨⟨hquantity, hlimit⟩, hreference⟩, _⟩, _⟩, _⟩, _⟩, _⟩ := hfields
  obtain ⟨_, hchecked⟩ := fieldErrors_eq_nil hquantity
  have hprice : ∃ anchor, command.pricing_reference = some anchor ∧ anchor.Fits ∧ 0 < anchor.toRat := by
    obtain ⟨anchor, hanchor, _⟩ := worth_exact command
    refine ⟨anchor, hanchor, ?_⟩
    unfold CreateIntentCommand.pricing_reference at hanchor
    split at hanchor
    · rename_i price hprice
      rw [CreateIntentCommand.intentFields, hprice, Option.some.inj hanchor] at hlimit
      obtain ⟨_, hprice⟩ := optionalField_some_ok hlimit
      exact positive_fits hprice
    · rw [CreateIntentCommand.intentFields, hanchor] at hreference
      obtain ⟨_, hprice⟩ := optionalField_some_ok hreference
      exact positive_fits hprice
  obtain ⟨anchor, hanchor, hfits⟩ := hprice
  exact ⟨anchor, hanchor, positive_fits hchecked, hfits⟩

/-- A valid order is worth something, rounded to the digits of the context. -/
theorem worth_decimal (h : command.ValidOrder upper drawn.intent_id) : ∃ notional, command.Worth .decimal notional ∧ 0 < notional := by
  obtain ⟨anchor, hanchor, ⟨hquantity, hquantity₀⟩, hprice, hprice₀⟩ := exists_anchor h
  obtain ⟨product, hproduct, hpos⟩ := Decimal.mul_of_fits hquantity hprice hquantity₀ hprice₀
  exact ⟨product.toRat, ⟨anchor, hanchor, by rw [Times.decimal, hproduct]; rfl⟩, hpos⟩

/-- A metric that has to be positive is accepted when it is. -/
theorem positive_metric_iff {field : String} {value : ℚ} :
    RiskContextFields.require_positive_metric field value = [] ↔ 0 < value := by
  unfold RiskContextFields.require_positive_metric
  split
  · exact iff_of_false (List.cons_ne_nil _ _) (not_lt.mpr ‹_›)
  · exact iff_of_true rfl (not_le.mp ‹_›)

/-- A metric that may be zero is accepted when it is not negative. -/
theorem non_negative_metric_iff {field : String} {value : ℚ} :
    RiskContextFields.require_non_negative_metric field value = [] ↔ 0 ≤ value := by
  unfold RiskContextFields.require_non_negative_metric
  split
  · exact iff_of_false (List.cons_ne_nil _ _) (not_le.mpr ‹_›)
  · exact iff_of_true rfl (not_lt.mp ‹_›)

end CreateAux

open CreateAux

/-- What `create` does with a command in a context, at an instant and with an expiry. -/
structure Decides (upper : String → String) (drawn : Drawn) (command : CreateIntentCommand) (context : RiskContext)
    (now expires_at : Int) : Prop where
  /-- An order that opens a position and is denied is only recorded as rejected. -/
  denied : command.reduce_only = false → RiskEngine.Denied context command.risk_rules →
    Persists (IntentService.create .exact upper drawn command)
      (.record_risk_rejection command.account_id command.signal_id
        (RiskEngine.evaluate drawn.decision_id context command.risk_rules))
      (.error (.riskRejected (RiskEngine.evaluate drawn.decision_id context command.risk_rules)))
  /-- Any other valid order is created, once. -/
  created : ¬(command.reduce_only = false ∧ RiskEngine.Denied context command.risk_rules) →
    command.ValidOrder upper drawn.intent_id →
    ∃ intent risk approval, intent.toExecutionIntentFields = (command.intentFields upper drawn.intent_id).normalise ∧
      Persists (IntentService.create .exact upper drawn command)
        (.create_with_outbox intent (stateAt command.approval_config command.notional now expires_at) risk.decision_id
          approval.approval_id risk approval)
        (.ok ⟨drawn.intent_id, stateAt command.approval_config command.notional now expires_at, risk.decision_id,
          approval.approval_id⟩)

/-- In a valid context and with a clock that tells an instant, `create` decides as `Decides` says. An order that is not valid is not
created, whatever the context and the clock, and neither is one at a time without a zone, which cannot be compared with the expiry. -/
theorem create_decides (upper : String → String) (drawn : Drawn) (command : CreateIntentCommand) :
    (∀ context now offset expires_at offset', drawn.now = .aware now offset → command.expires_at = .aware expires_at offset' →
      context.toRiskContextFields = command.contextFields command.notional →
      Decides upper drawn command context now expires_at) ∧
    (¬command.ValidOrder upper drawn.intent_id ∨ (∃ t, drawn.now = .naive t) →
      PersistsNothing (IntentService.create .exact upper drawn command) ∨
        ∃ risk, Persists (IntentService.create .exact upper drawn command)
          (.record_risk_rejection command.account_id command.signal_id risk) (.error (.riskRejected risk))) := by
  constructor
  · intro context now offset expires_at offset' hnow hexpiry hcontext
    have hcontext : RiskContext.create (command.contextFields command.notional) = .ok context := by
      rw [← hcontext]
      exact context.create_fields
    have hdecided : ApprovalPolicy.decide drawn.approval_id command.approval_config command.notional drawn.now
        command.expires_at = .ok (ApprovalPolicy.decision drawn.approval_id command.approval_config command.notional now
          expires_at) := by
      rw [hnow, hexpiry]
      rfl
    refine ⟨?_, ?_⟩
    · intro hopens hdenied
      have hrisk := (RiskEngine.evaluate_denied_iff drawn.decision_id context command.risk_rules).mpr hdenied
      rw [create_eq upper (worth_exact command) hcontext rfl, hopens, overridden_false, if_neg (by rw [hrisk]; exact Bool.false_ne_true)]
      exact persists_rejection
    · intro hallowed hvalid
      obtain ⟨intent, hbuilt, hfields⟩ := create_valid hvalid
      generalize hrisk : IntentService.overridden command.reduce_only
        (RiskEngine.evaluate drawn.decision_id context command.risk_rules) = risk
      have hlet : risk.allowed = true := by
        rw [← hrisk]
        cases hreduce : command.reduce_only with
        | true => rw [overridden_true]
        | false =>
          rw [overridden_false, ← Bool.not_eq_false, RiskEngine.evaluate_denied_iff]
          exact fun hdenied => hallowed ⟨hreduce, hdenied⟩
      have hcreated := persists_persist risk hdecided hbuilt
      have hcreate := create_eq upper (worth_exact command) hcontext hrisk
      rw [if_pos hlet] at hcreate
      rw [approval_state, ← hcreate] at hcreated
      exact ⟨intent, risk, _, hfields, hcreated⟩
  · intro hrefused
    rcases Request.create_cases .exact upper ⟨drawn, command, drawn.intent_id, 0⟩ with ⟨e, h⟩ | ⟨risk, h⟩ | ⟨intent, risk, approval, hc, _⟩
    · exact .inl ⟨e, fun _ repository s => h repository s⟩
    · exact .inr ⟨risk, fun _ repository s => h repository s⟩
    · rcases hrefused with hinvalid | ⟨t, hnaive⟩
      · have hbuilt : ExecutionIntent.create (command.intentFields upper drawn.intent_id) = .ok intent := hc.built
        rw [create_invalid hinvalid] at hbuilt
        cases hbuilt
      · obtain ⟨_, _, hdecided⟩ := hc.decided
        rw [hnaive] at hdecided
        cases hdecided

section Witness

variable (upper : String → String) (reduce_only : Bool) (risk_rules : List RiskRule)

/-- One unit at 100 is worth 100. -/
theorem notional_limitCommand : (limitCommand reduce_only risk_rules).notional = 100 := by
  show (Decimal.ofInt 1).toRat * (Decimal.ofInt 100).toRat = 100
  decide +kernel

/-- The context of the sample command. -/
theorem contextFields_limitCommand : limitContext.toRiskContextFields =
    (limitCommand reduce_only risk_rules).contextFields (limitCommand reduce_only risk_rules).notional := by
  rw [notional_limitCommand]
  rfl

/-- Its order is valid. -/
theorem valid_limitCommand : (limitCommand reduce_only risk_rules).ValidOrder upper ⟨13⟩ :=
  (limitIntent upper reduce_only).accepted.1

end Witness

/-- An order to buy without any rule is only recorded as rejected. -/
theorem create_decides_limit : Persists (IntentService.create .exact id (limitRequest false []).drawn (limitCommand false []))
    (.record_risk_rejection ⟨1⟩ ⟨2⟩ (RiskEngine.evaluate ⟨11⟩ limitContext []))
    (.error (.riskRejected (RiskEngine.evaluate ⟨11⟩ limitContext []))) :=
  ((create_decides id (limitRequest false []).drawn (limitCommand false [])).1 limitContext 0 0 10 0 rfl rfl
    (contextFields_limitCommand _ _)).denied rfl ⟨.DAILY_LOSS, .inl fun _ h => absurd h List.not_mem_nil⟩

/-! ## Closing orders -/

/-- A closing order is created with the state of its approval, and the violations are in its risk snapshot. -/
def ClosesUnblocked (upper : String → String) (drawn : Drawn) (command : CreateIntentCommand) : Prop :=
  ∃ notional context intent approval, command.Worth .decimal notional ∧
    context.toRiskContextFields = command.contextFields notional ∧
    intent.toExecutionIntentFields = (command.intentFields upper drawn.intent_id).normalise ∧
    ApprovalPolicy.decide drawn.approval_id command.approval_config notional drawn.now command.expires_at = .ok approval ∧
    Persists (IntentService.create .decimal upper drawn command)
      (.create_with_outbox intent (APPROVAL_STATES approval.status) drawn.decision_id approval.approval_id
        ⟨drawn.decision_id, true, (RiskEngine.evaluate drawn.decision_id context command.risk_rules).violations⟩ approval)
      (.ok ⟨drawn.intent_id, APPROVAL_STATES approval.status, drawn.decision_id, approval.approval_id⟩)

/-- A valid closing order is created, with its violations, if and only if the account has capital and its weight, loss and drawdown
are not negative. -/
theorem closes_unblocked_iff (upper : String → String) (drawn : Drawn) (command : CreateIntentCommand) {now offset : Int}
    (hnow : drawn.now = .aware now offset) (hreduce : command.reduce_only = true)
    (hvalid : command.ValidOrder upper drawn.intent_id) :
    ClosesUnblocked upper drawn command ↔
      0 < command.account_capital ∧ 0 ≤ command.resulting_symbol_weight ∧ 0 ≤ command.daily_loss ∧ 0 ≤ command.drawdown := by
  obtain ⟨notional, hworth, hpos⟩ := worth_decimal hvalid
  have hcontext : (command.contextFields notional).errors = [] ↔
      0 < command.account_capital ∧ 0 ≤ command.resulting_symbol_weight ∧ 0 ≤ command.daily_loss ∧ 0 ≤ command.drawdown := by
    simp only [RiskContextFields.errors, List.append_eq_nil_iff, positive_metric_iff, non_negative_metric_iff, and_assoc]
    exact and_iff_right hpos
  rw [← hcontext]
  constructor
  · rintro ⟨_, context, _, _, hworth', hfields, _⟩
    rw [hworth.unique hworth', ← hfields]
    exact context.accepted
  · intro haccepted
    obtain ⟨expires_at, hexpiry⟩ := command.normalize_expiration
    obtain ⟨intent, hbuilt, hfields⟩ := create_valid hvalid
    have hdecided : ApprovalPolicy.decide drawn.approval_id command.approval_config notional drawn.now
        command.expires_at = .ok (ApprovalPolicy.decision drawn.approval_id command.approval_config notional now
          expires_at) := by
      rw [hnow, hexpiry]
      rfl
    refine ⟨notional, ⟨_, haccepted⟩, intent, _, hworth, rfl, hfields, hdecided, ?_⟩
    rw [create_eq upper hworth (dif_pos haccepted) rfl, hreduce, overridden_true, if_pos rfl, evaluate_decision_id]
    exact persists_persist _ hdecided hbuilt

/-- An account with capital closes a position although no metric has a rule. -/
theorem closes_unblocked_limit : ClosesUnblocked id (limitRequest true []).drawn (limitCommand true []) :=
  (closes_unblocked_iff id (limitRequest true []).drawn (limitCommand true []) rfl rfl (valid_limitCommand id true [])).mpr
    (by decide)

/-- The command of an account that has lost everything. -/
def ruinedCommand : CreateIntentCommand := { limitCommand true [] with account_capital := 0 }

/-- An account without capital cannot close a position. -/
theorem closing_blocked : ruinedCommand.reduce_only = true ∧ ruinedCommand.ValidOrder id ⟨13⟩ ∧
    ¬ClosesUnblocked id (limitRequest true []).drawn ruinedCommand := by
  refine ⟨rfl, valid_limitCommand id true [], ?_⟩
  rintro ⟨notional, context, _, _, _, hfields, _⟩
  have haccepted := context.accepted
  rw [hfields, RiskContextFields.errors] at haccepted
  simp only [List.append_eq_nil_iff, positive_metric_iff] at haccepted
  exact absurd haccepted.1.1.1.2 (lt_irrefl 0)

end MtossBot
