import MtossBot.Application.ExecutionService
import MtossBot.Library.Runs

/-!
# The execution service over its ports

`ExecutionService.execute` against any repository and any broker: the calls are those of the protocols `ExecutionRepository` and
`BrokerAdapter`, and a row is known by what `ExecutionRecord` promises of it. With `OrderRepository` for the repository it is the
coroutine of `Application.ExecutionService` (`interpret_execute`).
-/

namespace MtossBot

/-- The protocol of a row: its two decoders may raise. -/
structure ExecutionRecord where
  id : UUID
  state : OrderState
  risk_decision_id : Option UUID
  approval_id : Option UUID
  as_domain : Except Exc ExecutionIntent
  as_broker_result : Except Exc BrokerOrderResult

/-- What `execute` awaits. -/
inductive ExecutionOp where
  | lock_for_execution (intent_id : UUID)
  | save_broker_result (intent_id : UUID) (result : BrokerOrderResult)
  | release_execution_lock
  | lookup_by_client_order_id (account_id : UUID) (client_order_id : String)
  | submit (intent : ExecutionIntent)

@[reducible] def ExecutionOp.Res : ExecutionOp → Type
  | lock_for_execution _ => ExecutionRecord
  | lookup_by_client_order_id _ _ => Option BrokerOrderResult
  | submit _ => BrokerOrderResult
  | _ => Unit

abbrev executionPorts : Sig := ⟨ExecutionOp, ExecutionOp.Res⟩

namespace ExecutionPort

open ExecutionService (_validate_result_identity ambiguous)

/-- A coroutine over the two ports. -/
abbrev Port (α : Type) : Type := Prog executionPorts Exc α

def ask (op : ExecutionOp) : Port op.Res := Prog.perform (σ := executionPorts) op

/-- Look the order up once more, after a timeout of its submission. -/
def resolve (intent : ExecutionIntent) : Port BrokerOrderResult := do
  let known ← ask (.lookup_by_client_order_id intent.account_id intent.idempotency_key)
  match known with
  | some known => Prog.ofExcept (_validate_result_identity intent known)
  | none => return ambiguous intent.idempotency_key

/-- The body of the inner `try`, and its `except TimeoutError`. -/
def dispatch (intent : ExecutionIntent) : Port BrokerOrderResult :=
  Prog.tryExcept
    (do
      let submitted ← ask (.submit intent)
      Prog.ofExcept (_validate_result_identity intent submitted))
    fun e => if e.isA .TimeoutError then resolve intent else Prog.raise e

/-- What is known of the order, or what comes of its submission. -/
def find (intent : ExecutionIntent) : Port BrokerOrderResult := do
  let known ← ask (.lookup_by_client_order_id intent.account_id intent.idempotency_key)
  match known with
  | some known => Prog.ofExcept (_validate_result_identity intent known)
  | none => dispatch intent

def _persist_result (intent_id : UUID) (result : BrokerOrderResult) : Port BrokerOrderResult := do
  let _ ← ask (.save_broker_result intent_id result)
  return result

/-- The part of `execute` for a queued order. -/
def executeQueued (intent_id : UUID) (record : ExecutionRecord) : Port BrokerOrderResult := do
  let intent ← Prog.ofExcept record.as_domain
  let result ← find intent
  _persist_result intent_id result

/-- The body of the outer `try`: what it returns, and whether it set `result_persisted`. -/
def body (intent_id : UUID) : Port (BrokerOrderResult × Bool) := do
  let record ← ask (.lock_for_execution intent_id)
  if record.risk_decision_id = none ∨ record.approval_id = none then
    Prog.raise (.permissionError "risk and approval evidence are required")
  else if record.state ≠ .QUEUED then do
    let result ← Prog.ofExcept record.as_broker_result
    return (result, false)
  else do
    let result ← executeQueued intent_id record
    return (result, true)

/-- The `finally` of the outer `try`. -/
def finalizer : Except Exc (BrokerOrderResult × Bool) → Port Unit
  | .ok (_, true) => pure ()
  | _ => ask .release_execution_lock

def execute (intent_id : UUID) : Port BrokerOrderResult := do
  let (result, _) ← Prog.tryFinally (body intent_id) finalizer
  return result

end ExecutionPort

/-- A row of `order_intents` keeps the protocol. -/
def OrderIntentRecord.toExecutionRecord (r : OrderIntentRecord) : ExecutionRecord where
  id := r.id
  state := r.state
  risk_decision_id := r.risk_decision_id
  approval_id := r.approval_id
  as_domain := r.as_domain
  as_broker_result := r.as_broker_result

/-- `OrderRepository` and a broker at the two ports. -/
def OrderRepository.port : (op : ExecutionOp) → Coro op.Res
  | .lock_for_execution intent_id => do
    let record ← OrderRepository.lock_for_execution intent_id
    return record.toExecutionRecord
  | .save_broker_result intent_id result => OrderRepository.save_broker_result intent_id result
  | .release_execution_lock => OrderRepository.release_execution_lock
  | .lookup_by_client_order_id account_id client_order_id => await (.lookup_by_client_order_id account_id client_order_id)
  | .submit intent => await (.submit intent)

namespace ExecutionPort

open Prog

/-- A sequence is interpreted part by part. -/
theorem interpret_bind {α β : Type} (p : Port α) (f : α → Port β) :
    (p >>= f).interpret OrderRepository.port = p.interpret OrderRepository.port >>= fun a => (f a).interpret OrderRepository.port := by
  rw [bind_eq, Prog.bind, interpret_andThen]
  rw [bind_eq, Prog.bind]
  congr 1
  funext r
  cases r <;> rfl

/-- An operation is interpreted as the port makes it. -/
theorem interpret_ask (op : ExecutionOp) : (ask op).interpret OrderRepository.port = OrderRepository.port op :=
  interpret_perform (τ := executionPorts) (f := OrderRepository.port) op

/-- Over the repository this is the service's lookup after a timeout. -/
theorem interpret_resolve (intent : ExecutionIntent) :
    (resolve intent).interpret OrderRepository.port = ExecutionService.resolve intent := by
  unfold resolve ExecutionService.resolve
  rw [interpret_bind]
  congr 1
  funext known
  cases known <;> rfl

/-- It is the service's submission. -/
theorem interpret_dispatch (intent : ExecutionIntent) :
    (dispatch intent).interpret OrderRepository.port = ExecutionService.dispatch intent := by
  unfold dispatch ExecutionService.dispatch tryExcept
  rw [interpret_andThen, interpret_bind, interpret_ask]
  congr 1
  funext r
  cases r with
  | ok result => rfl
  | error e =>
    by_cases htimeout : e.isA .TimeoutError = true
    · simp only [htimeout, if_true, interpret_resolve]
    · simp only [htimeout]
      rfl

/-- It is the service's way to a result: a lookup first, and a submission if it knows nothing. -/
theorem interpret_find (intent : ExecutionIntent) :
    (find intent).interpret OrderRepository.port =
      await (.lookup_by_client_order_id intent.account_id intent.idempotency_key) >>= fun known =>
        match known with
        | some known => Prog.ofExcept (ExecutionService._validate_result_identity intent known)
        | none => ExecutionService.dispatch intent := by
  unfold find
  rw [interpret_bind]
  congr 1
  funext known
  cases known with
  | some known => rfl
  | none => exact interpret_dispatch intent

/-- It is the service's execution of a queued row. -/
theorem interpret_executeQueued (intent_id : UUID) (record : OrderIntentRecord) :
    (executeQueued intent_id record.toExecutionRecord).interpret OrderRepository.port =
      ExecutionService.executeQueued intent_id record := by
  unfold executeQueued ExecutionService.executeQueued
  rw [interpret_bind]
  congr 1
  funext intent
  rw [interpret_bind, interpret_find, Prog.bind_assoc]
  congr 1
  funext known
  have hpersist : ∀ result, (_persist_result intent_id result).interpret OrderRepository.port =
      ExecutionService._persist_result intent_id result := by
    intro result
    unfold _persist_result ExecutionService._persist_result
    rw [interpret_bind, interpret_ask]
    rfl
  simp only [hpersist]
  cases known <;> rfl

/-- It is the body of the service's `execute`. -/
theorem interpret_body (intent_id : UUID) :
    (body intent_id).interpret OrderRepository.port = ExecutionService.body intent_id := by
  have hlock : OrderRepository.port (.lock_for_execution intent_id) =
      OrderRepository.lock_for_execution intent_id >>= fun record => pure record.toExecutionRecord := rfl
  unfold body ExecutionService.body
  rw [interpret_bind, interpret_ask, hlock, Prog.bind_assoc]
  congr 1
  funext record
  rw [Prog.pure_bind]
  have hrisk : record.toExecutionRecord.risk_decision_id = record.risk_decision_id := rfl
  have happroval : record.toExecutionRecord.approval_id = record.approval_id := rfl
  have hstate : record.toExecutionRecord.state = record.state := rfl
  rw [hrisk, happroval, hstate]
  split
  · rfl
  · split
    · rw [interpret_bind]
      rfl
    · rw [interpret_bind, interpret_executeQueued]
      rfl

/-- Over `OrderRepository` it is the coroutine that awaits the session. -/
theorem interpret_execute (intent_id : UUID) :
    (execute intent_id).interpret OrderRepository.port = ExecutionService.execute intent_id := by
  unfold execute ExecutionService.execute Prog.tryFinally
  rw [interpret_bind, interpret_andThen, interpret_body]
  congr 2
  funext r
  rw [interpret_andThen]
  have hfinal : (finalizer r).interpret OrderRepository.port = ExecutionService.finalizer r := by
    cases r with
    | error e => rfl
    | ok out =>
      obtain ⟨result, persisted⟩ := out
      cases persisted <;> rfl
  rw [hfinal]
  congr 1
  funext ended
  cases ended <;> rfl

end ExecutionPort
end MtossBot
