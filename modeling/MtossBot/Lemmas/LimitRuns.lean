import MtossBot.Lemmas.AloneRuns
import MtossBot.Lemmas.LimitOrders
import MtossBot.Lemmas.Rows

/-!
# The limit order in a run

A run in which the limit order is created and then executed at a broker that takes it.
-/

namespace MtossBot

variable {B : Type} {upper : String → String} {broker : Broker B} {dbRaises : Exc → Prop} {start : World Caller B → Prop}
  {reduce_only : Bool} {risk_rules : List RiskRule} {b c : B}

/-- The system serves every call. -/
theorem serves_system : Serves (system upper broker dbRaises start) broker dbRaises := ⟨fun h => h, fun h => h⟩

/-- The row of the limit order. -/
def limitRow (upper : String → String) (reduce_only : Bool) (risk_rules : List RiskRule) : OrderIntentRecord :=
  Request.row (limitIntent upper reduce_only) (limitRisk reduce_only risk_rules) limitApproval

/-- The tables with the limit order and nothing else. -/
def placed (upper : String → String) (reduce_only : Bool) (risk_rules : List RiskRule) (b : B) : World Caller B :=
  (World.empty b).insert
    ((limitRequest reduce_only risk_rules).created (limitIntent upper reduce_only) (limitRisk reduce_only risk_rules) limitApproval)

/-- Once placed, the order is in its row. -/
theorem rows_placed : (placed upper reduce_only risk_rules b).rows ⟨13⟩ = some (limitRow upper reduce_only risk_rules) := by
  show Function.update (fun _ => none) (⟨13⟩ : UUID) (some (limitRow upper reduce_only risk_rules)) ⟨13⟩ = _
  rw [Function.update_self]

/-- The decision on the risk has the identifier that was drawn. -/
theorem limitRisk_id : (limitRisk reduce_only risk_rules).decision_id = ⟨11⟩ := by
  have hevaluate : (RiskEngine.evaluate ⟨11⟩ limitContext risk_rules).decision_id = ⟨11⟩ := by
    unfold RiskEngine.evaluate
    dsimp only
    split <;> rfl
  unfold limitRisk IntentService.overridden
  split <;> exact hevaluate

/-- The order may be inserted. -/
theorem insertable_limit : (World.empty (T := Caller) b).Insertable
    ((limitRequest reduce_only risk_rules).created (limitIntent upper reduce_only) (limitRisk reduce_only risk_rules) limitApproval) where
  row_id _ _ := rfl
  unique_key _ _ _ _ h := by cases h
  audit_id _ _ := rfl
  distinct_audits := by
    show List.Nodup [(limitRisk reduce_only risk_rules).decision_id, ⟨12⟩]
    rw [limitRisk_id]
    decide
  event_id _ _ := rfl

/-- The order that is executed. -/
def limitRead (upper : String → String) (reduce_only : Bool) : ExecutionIntent := (limitIntent upper reduce_only).readBack rfl

/-- The order is read back from its row. -/
theorem as_domain_limitRow : (limitRow upper reduce_only risk_rules).as_domain = .ok (limitRead upper reduce_only) := as_domain_limit rfl

/-- What the broker says of the order. -/
def limitSubmitted (upper : String → String) (reduce_only : Bool) : BrokerOrderResult :=
  FakeBroker.submitted 1 (limitRead upper reduce_only)

/-- The row with what the broker says. -/
def submittedRow (upper : String → String) (reduce_only : Bool) (risk_rules : List RiskRule) : OrderIntentRecord :=
  { limitRow upper reduce_only risk_rules with
    state := .SUBMITTED
    broker_order_id := some ("fake-" ++ toString 1)
    broker_request_id := some ("fake-request-" ++ toString 1) }

/-- The row takes the result of its submission. -/
theorem withResult_limitRow :
    (limitRow upper reduce_only risk_rules).withResult (limitSubmitted upper reduce_only) =
      .ok (submittedRow upper reduce_only risk_rules) := by
  have hid : (limitSubmitted upper reduce_only).client_order_id = (limitRow upper reduce_only risk_rules).idempotency_key := rfl
  rw [OrderIntentRecord.withResult, if_neg (not_not.mpr hid)]
  rfl

/-- The order is created. -/
theorem run_placed (hstart : start (World.empty b)) (hb : broker.init b) (hrisk : (limitRisk reduce_only risk_rules).allowed = true) :
    System.Run (system upper broker dbRaises start) (fun _ _ => True) ⟨placed upper reduce_only risk_rules b, fun _ => none⟩
      [.env (limitRequest reduce_only risk_rules)] := by
  have hinit : (system upper broker dbRaises start).init (World.empty b) :=
    ⟨hstart, ⟨fun _ => rfl, fun _ => rfl, fun _ => rfl, fun _ => rfl⟩, ⟨nofun, nofun, nofun⟩, hb⟩
  have hcreate : (World.empty b).create upper (limitRequest reduce_only risk_rules) (placed upper reduce_only risk_rules b) := by
    unfold World.create
    rw [serve_limitRequest upper hrisk]
    exact .inr ⟨insertable_limit, rfl⟩
  exact System.Run.step (System.Run.init hinit) (.env hcreate) trivial

/-! ## The order is executed -/

def executor (number : Nat) : Caller := ⟨number, .execute ⟨13⟩⟩

/-- The steps of the first execution, until it returns. -/
def executedUntil (upper : String → String) (reduce_only : Bool) (risk_rules : List RiskRule) : List Event :=
  .spawn (executor 0) :: executing (executor 0) (limitRow upper reduce_only risk_rules) (submittedRow upper reduce_only risk_rules)
    (limitRead upper reduce_only)
    [.call (executor 0) (.submit (limitRead upper reduce_only)),
      .answer (executor 0) (.submit (limitRead upper reduce_only)) (.ok (limitSubmitted upper reduce_only))]

def executed (upper : String → String) (reduce_only : Bool) (risk_rules : List RiskRule) : List Event :=
  executedUntil upper reduce_only risk_rules ++ [.finish (executor 0) (.ok (.executed (limitSubmitted upper reduce_only)))]

/-- The world after it. -/
def afterExecution (upper : String → String) (reduce_only : Bool) (risk_rules : List RiskRule) (b c : B) : World Caller B :=
  ((World.store { (placed upper reduce_only risk_rules b).lock (executor 0) ⟨13⟩ with broker := c } (executor 0)
    (submittedRow upper reduce_only risk_rules)).rollback (executor 0)).rollback_outbox (executor 0)

/-- After the execution the row is submitted. -/
theorem rows_afterExecution :
    (afterExecution upper reduce_only risk_rules b c).rows ⟨13⟩ = some (submittedRow upper reduce_only risk_rules) := by
  have hrows := World.rows_store (w := { (placed upper reduce_only risk_rules b).lock (executor 0) ⟨13⟩ with broker := c })
    (t := executor 0) (submittedRow upper reduce_only risk_rules)
  exact (congrFun hrows _).trans (Function.update_self _ _ _)

/-- Its lock is free then. -/
theorem owner_afterExecution : (afterExecution upper reduce_only risk_rules b c).owner ⟨13⟩ = none := rfl

/-- And nothing is written that is not committed. -/
theorem wrote_afterExecution : (afterExecution upper reduce_only risk_rules b c).wrote (executor 1) = none := rfl

/-- The order is created and executed in one run. -/
theorem run_executed (hstart : start (World.empty b)) (hb : broker.init b) (hrisk : (limitRisk reduce_only risk_rules).allowed = true)
    (hlook : broker.looked_up b (limitRead upper reduce_only).account_id (limitRead upper reduce_only).idempotency_key (.ok none) b)
    (hsubmit : broker.submit b (limitRead upper reduce_only) b)
    (hsubmitted : broker.submitted b (limitRead upper reduce_only) (.ok (limitSubmitted upper reduce_only)) c) :
    System.Run (system upper broker dbRaises start) (fun _ _ => True) ⟨afterExecution upper reduce_only risk_rules b c, fun _ => none⟩
      (.env (limitRequest reduce_only risk_rules) :: executed upper reduce_only risk_rules) := by
  have hevidence : ¬((limitRow upper reduce_only risk_rules).risk_decision_id = none ∨
      (limitRow upper reduce_only risk_rules).approval_id = none) :=
    not_or.mpr ⟨Option.some_ne_none _, Option.some_ne_none _⟩
  have halone : System.Alone (system upper broker dbRaises start) (executor 0) (placed upper reduce_only risk_rules b)
      (ExecutionService.execute (limitRow upper reduce_only risk_rules).id) _ _ (.done (.ok (limitSubmitted upper reduce_only))) :=
    alone_execute_queued serves_system rows_placed rfl rfl hevidence rfl as_domain_limitRow withResult_limitRow hlook
      (alone_submit serves_system rfl hsubmit hsubmitted)
  exact System.Run.complete (halone.andThen _) rfl (run_placed hstart hb hrisk) rfl

end MtossBot
