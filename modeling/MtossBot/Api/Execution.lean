import MtossBot.Api.Schemas
import MtossBot.Infrastructure.OrderRepository

/-!
# The execution API

The route `create_intent`, as a program over the calls of its database session. A refusal (`HTTPException`) is a reply; what else is
raised leaves the route.
-/

namespace MtossBot

/-- The calls of a session: objects are added to it and sent to the database, and the transaction is committed or rolled back. -/
inductive SessionOp where
  | add (objects : Session)
  | flush
  | commit
  | rollback

@[reducible] def SessionOp.Res (_ : SessionOp) : Type := Unit

abbrev sessionCalls : Sig := ⟨SessionOp, SessionOp.Res⟩

/-- A coroutine that uses a session. -/
abbrev SessionCoro (α : Type) : Type := Prog sessionCalls CreateError α

def SessionOp.perform (op : SessionOp) : SessionCoro Unit := Prog.perform (σ := sessionCalls) op

/-- The repository as `IntentService` calls it, on a session. -/
def OrderRepository.perform (event_id : UUID) (created_at : Int) : (op : IntentRepositoryOp) → SessionCoro op.Res
  | .record_risk_rejection account_id signal_id decision => do
    let _ ← SessionOp.perform (.add (record_risk_rejection account_id signal_id decision {}))
    SessionOp.perform .flush
  | .create_with_outbox intent state risk_decision_id approval_id risk_snapshot approval_snapshot => do
    let (id, objects) := create_with_outbox event_id created_at intent state risk_decision_id approval_id risk_snapshot
      approval_snapshot {}
    let _ ← SessionOp.perform (.add objects)
    let _ ← SessionOp.perform .flush
    return id

/-- `except Exception` catches the exception. -/
def CreateError.isException : CreateError → Bool
  | .riskRejected _ => true
  | .raised e => e.isA .Exception

/-- The body of an HTTP error; a text is that of an exception. -/
inductive Detail where
  | risk_rejected (decision_id : String)
  | text (e : Exc)
  | duplicate_intent
deriving DecidableEq

inductive Reply where
  | created (response : CreateIntentResponse)
  | http_exception (status_code : Nat) (detail : Detail)
deriving DecidableEq

namespace ExecutionRoute

def _DUPLICATE_SQLSTATE : String := "23505"

def _IDEMPOTENCY_CONSTRAINT : String := "uq_order_intent_idempotency"

def _is_duplicate_intent_integrity_error (error : Exc) : Bool :=
  error.causes.any (fun current => current.sqlstate = some _DUPLICATE_SQLSTATE || current.pgcode = some _DUPLICATE_SQLSTATE) &&
  error.causes.any fun current =>
    current.constraint_name = some _IDEMPOTENCY_CONSTRAINT || current.diag_constraint_name = some _IDEMPOTENCY_CONSTRAINT

/-- Roll back and raise again. -/
def rollback_and_raise {α : Type} (e : CreateError) : SessionCoro α := do
  let _ ← SessionOp.perform .rollback
  Prog.raise e

/-- Commit; an exception of it rolls back. -/
def commit : SessionCoro Unit :=
  Prog.tryExcept (SessionOp.perform .commit) fun e => if e.isException then rollback_and_raise e else Prog.raise e

/-- The `except` clauses. -/
def refuse : CreateError → SessionCoro Reply
  | .riskRejected decision => do
    let _ ← commit
    return .http_exception 422 (.risk_rejected decision.decision_id.str)
  | .raised e =>
    if e.isA .ValidationError || e.isA .ValueError then do
      let _ ← SessionOp.perform .rollback
      return .http_exception 422 (.text e)
    else if e.isA .IntegrityError then do
      let _ ← SessionOp.perform .rollback
      if _is_duplicate_intent_integrity_error e then return .http_exception 409 .duplicate_intent else Prog.raise (.raised e)
    else if e.isA .Exception then rollback_and_raise (.raised e)
    else Prog.raise (.raised e)

def create_intent (service : CreateIntentCommand → SessionCoro IntentCreationResult) (payload : CreateIntentRequest) :
    SessionCoro Reply :=
  Prog.andThen
    (match to_command payload with
      | .ok command => service command
      | .error e => Prog.raise (.raised e))
    fun
    | .error e => refuse e
    | .ok result => do
      let _ ← commit
      return .created (.from_result result)

end ExecutionRoute
end MtossBot
