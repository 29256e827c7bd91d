import MtossBot.Application.OutboxDispatcher
import MtossBot.Runtime.System

/-!
# The consumers of the outbox

Any number of dispatchers and workers over one outbox. The publisher and the executor that they are given answer anything; new events
come at any moment.
-/

namespace MtossBot

/-- A coroutine that takes events, with its limit and the times at which it marks them. -/
inductive ConsumerJob where
  | dispatch_batch (limit : Nat) (times : List Int)
  | run_once (limit : Nat) (times : List Int)
deriving DecidableEq

/-- A run of a job. -/
structure Consumer where
  number : Nat
  job : ConsumerJob
deriving DecidableEq

def Consumer.program (t : Consumer) : Coro Nat :=
  match t.job with
  | .dispatch_batch limit times => OutboxDispatcher.dispatch_batch (times.getD · 0) limit
  | .run_once limit times =>
    ExecutionWorker.run_once (fun intent_id => await (.execute_intent intent_id)) (times.getD · 0) limit

/-- A new event is committed. -/
def World.announce {T B : Type} (w : World T B) (e : OutboxEventRecord) (w' : World T B) : Prop :=
  w.outbox e.id = none ∧ e.published_at = none ∧ w' = { w with outbox := Function.update w.outbox e.id (some e) }

abbrev ConsumerEvent : Type := Label calls Exc Nat Consumer OutboxEventRecord

/-- The consumers over an outbox that holds the events `stored` at first. -/
def consumers (dbRaises : Exc → Prop) (stored : UUID → Option OutboxEventRecord) :
    System calls Exc Nat Consumer (World Consumer Unit) OutboxEventRecord where
  init w := w.outbox = stored ∧ w.Idle ∧ w.Constraints
  program := Consumer.program
  call w t op w' := w.call Broker.any t op w'
  answer w t op r w' := w.answer Broker.any dbRaises t w' op r
  finish w t _ w' := w' = (w.rollback t).rollback_outbox t
  crash w t w' := w.crash t w'
  env w e w' := w.announce e w'

end MtossBot
