import MtossBot.Infrastructure.OrderRepository

/-!
# The execution service

`ExecutionService.execute`.
-/

namespace MtossBot
namespace ExecutionService

def _validate_result_identity (intent : ExecutionIntent) (result : BrokerOrderResult) : Except Exc BrokerOrderResult :=
  if result.client_order_id ≠ intent.idempotency_key then
    .error (.valueError "broker result client order ID does not match intent idempotency key")
  else .ok result

/-- What is stored when nothing is known of a submission. -/
def ambiguous (client_order_id : String) : BrokerOrderResult where
  client_order_id := client_order_id
  broker_order_id := none
  state := .UNKNOWN
  filled_quantity := ⟨false, 0, 0⟩
  average_price := none
  broker_request_id := none
  error_code := some "AMBIGUOUS_TIMEOUT"
  accepted := BrokerOrderResultFields.errors_unfilled rfl rfl

/-- Look the order up once more, after a timeout of its submission. -/
def resolve (intent : ExecutionIntent) : Coro BrokerOrderResult := do
  let known ← await (.lookup_by_client_order_id intent.account_id intent.idempotency_key)
  match known with
  | some known => Prog.ofExcept (_validate_result_identity intent known)
  | none => return ambiguous intent.idempotency_key

/-- The body of the inner `try`, and its `except TimeoutError`. -/
def dispatch (intent : ExecutionIntent) : Coro BrokerOrderResult :=
  Prog.tryExcept
    (do
      let submitted ← await (.submit intent)
      Prog.ofExcept (_validate_result_identity intent submitted))
    fun e => if e.isA .TimeoutError then resolve intent else Prog.raise e

def _persist_result (intent_id : UUID) (result : BrokerOrderResult) : Coro BrokerOrderResult := do
  let _ ← OrderRepository.save_broker_result intent_id result
  return result

/-- The part of `execute` for a queued order. -/
def executeQueued (intent_id : UUID) (record : OrderIntentRecord) : Coro BrokerOrderResult := do
  let intent ← Prog.ofExcept record.as_domain
  let known ← await (.lookup_by_client_order_id intent.account_id intent.idempotency_key)
  let result ← match known with
    | some known => Prog.ofExcept (_validate_result_identity intent known)
    | none => dispatch intent
  _persist_result intent_id result

/-- The body of the outer `try`: what it returns, and whether it set `result_persisted`. -/
def body (intent_id : UUID) : Coro (BrokerOrderResult × Bool) := do
  let record ← OrderRepository.lock_for_execution intent_id
  if record.risk_decision_id = none ∨ record.approval_id = none then
    Prog.raise (.permissionError "risk and approval evidence are required")
  else if record.state ≠ .QUEUED then do
    let result ← Prog.ofExcept record.as_broker_result
    return (result, false)
  else do
    let result ← executeQueued intent_id record
    return (result, true)

/-- The `finally` of the outer `try`. -/
def finalizer : Except Exc (BrokerOrderResult × Bool) → Coro Unit
  | .ok (_, true) => pure ()
  | _ => OrderRepository.release_execution_lock

def execute (intent_id : UUID) : Coro BrokerOrderResult := do
  let (result, _) ← Prog.tryFinally (body intent_id) finalizer
  return result

end ExecutionService
end MtossBot
