import MtossBot.Domain.Approvals
import MtossBot.Domain.Risk
import MtossBot.Library.Dict

/-!
# Rows of `outbox_events` and `audit_events`

`OutboxEventRecord` and `AuditEventRecord`. The snapshots in the payloads of audit events are kept as the models they are dumps of.
-/

namespace MtossBot

/-- A value in the payload of an event: nothing looks into one that is no text. -/
inductive JsonValue where
  | str (text : String)
  | other
deriving DecidableEq, Repr

/-- A row of `outbox_events`; times are instants. -/
structure OutboxEventRecord where
  id : UUID
  topic : String
  message_key : String
  payload : Dict String JsonValue
  created_at : Int
  published_at : Option Int := none

/-- The payload of an audit event. -/
inductive AuditPayload where
  | risk_snapshot (decision : RiskDecision)
  | approval_snapshot (decision : ApprovalDecision)
  | rejection (account_id : String) (decision : RiskDecision)
deriving DecidableEq

/-- A row of `audit_events`. -/
structure AuditEventRecord where
  id : UUID
  event_type : String
  actor_id : Option UUID
  trace_id : UUID
  payload : AuditPayload
deriving DecidableEq

/-- What `claim` returns of an event. -/
structure ClaimedEvent where
  id : String
  topic : String
  message_key : String
  payload : Dict String JsonValue

/-- The dictionary of an event. -/
def OutboxEventRecord.claimed (e : OutboxEventRecord) : ClaimedEvent where
  id := e.id.str
  topic := e.topic
  message_key := e.message_key
  payload := e.payload

end MtossBot
