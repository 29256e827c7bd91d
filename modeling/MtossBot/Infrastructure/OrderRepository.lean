import MtossBot.Application.IntentService
import MtossBot.Infrastructure.Calls

/-!
# The order repository

`OrderRepository`. What creating an order adds to its session is a value (`Session`), which the database takes at the commit; what
`uuid4` and the server's clock give for the outbox event are arguments.
-/

namespace MtossBot

/-- The objects added to a session. -/
structure Session where
  orders : List OrderIntentRecord := []
  audits : List AuditEventRecord := []
  events : List OutboxEventRecord := []

namespace OrderRepository

/-- The row of an order: the columns that are not named keep their defaults. -/
def record (intent : ExecutionIntent) (state : OrderState) (risk_decision_id approval_id : UUID) : OrderIntentRecord where
  id := intent.intent_id
  account_id := intent.account_id
  signal_id := intent.signal_id
  target_version := intent.target_version
  market := intent.market
  symbol := intent.symbol
  side := intent.side
  quantity := intent.quantity
  limit_price := intent.limit_price
  currency := intent.currency
  expires_at := intent.expires_at
  idempotency_key := intent.idempotency_key
  state := state
  risk_decision_id := some risk_decision_id
  approval_id := some approval_id

/-- The event that announces a queued order. -/
def readyEvent (event_id : UUID) (created_at : Int) (intent : ExecutionIntent) : OutboxEventRecord where
  id := event_id
  topic := "execution.intent.ready"
  message_key := intent.idempotency_key
  payload := (Dict.empty.set "intent_id" (.str intent.intent_id.str)).set "account_id" (.str intent.account_id.str)
  created_at := created_at

def create_with_outbox (event_id : UUID) (created_at : Int) (intent : ExecutionIntent) (state : OrderState)
    (risk_decision_id approval_id : UUID) (risk_snapshot : RiskDecision) (approval_snapshot : ApprovalDecision)
    (session : Session) : UUID × Session :=
  let record := record intent state risk_decision_id approval_id
  (record.id,
    { orders := session.orders ++ [record]
      audits := session.audits ++
        [⟨risk_decision_id, "RISK_DECIDED", none, intent.signal_id, .risk_snapshot risk_snapshot⟩,
          ⟨approval_id, "APPROVAL_DECIDED", none, intent.signal_id, .approval_snapshot approval_snapshot⟩]
      events := if state = .QUEUED then session.events ++ [readyEvent event_id created_at intent] else session.events })

def record_risk_rejection (account_id signal_id : UUID) (decision : RiskDecision) (session : Session) : Session :=
  { session with
    audits := session.audits ++
      [⟨decision.decision_id, "RISK_REJECTED", none, signal_id, .rejection account_id.str decision⟩] }

/-- The repository as `IntentService` calls it, on a session that raises nothing before its commit. -/
def handler (event_id : UUID) (created_at : Int) (session : Session) :
    (op : IntentRepositoryOp) → Except CreateError op.Res × Session
  | .record_risk_rejection account_id signal_id decision =>
    (.ok (), record_risk_rejection account_id signal_id decision session)
  | .create_with_outbox intent state risk_decision_id approval_id risk_snapshot approval_snapshot =>
    let (id, session) := create_with_outbox event_id created_at intent state risk_decision_id approval_id risk_snapshot
      approval_snapshot session
    (.ok id, session)

def lock_for_execution (intent_id : UUID) : Coro OrderIntentRecord := do
  let record ← await (.scalar_for_update intent_id)
  match record with
  | none => Prog.raise (.lookupError intent_id.str)
  | some record => return record

def save_broker_result (intent_id : UUID) (result : BrokerOrderResult) : Coro Unit :=
  Prog.tryExcept
    (do
      let record ← lock_for_execution intent_id
      let record ← Prog.ofExcept (record.withResult result)
      let _ ← await (.flush record)
      await .commit)
    fun e =>
      if e.isA .Exception then do
        let _ ← await .rollback
        Prog.raise e
      else Prog.raise e

def release_execution_lock : Coro Unit := await .rollback

end OrderRepository
end MtossBot
