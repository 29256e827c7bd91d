import MtossBot.Infrastructure.OrderRecord
import MtossBot.Infrastructure.OutboxRecord
import MtossBot.Library.Prog

/-!
# The awaited calls

Where the coroutines await: the session of the order repository, the broker, the session of the outbox, the publisher of events, and
the executor that a worker is given.
-/

namespace MtossBot

inductive Call where
  | scalar_for_update (intent_id : UUID)
  | flush (record : OrderIntentRecord)
  | commit
  | rollback
  | lookup_by_client_order_id (account_id : UUID) (client_order_id : String)
  | submit (intent : ExecutionIntent)
  | claim (limit : Nat) (topic : Option String)
  | get_event (event_id : UUID)
  | flush_event (record : OutboxEventRecord)
  | commit_outbox
  | rollback_outbox
  | publish (topic key : String) (payload : Dict String JsonValue)
  | execute_intent (intent_id : UUID)

/-- The type of the value a call answers with. -/
@[reducible] def Call.Res : Call → Type
  | scalar_for_update _ => Option OrderIntentRecord
  | lookup_by_client_order_id _ _ => Option BrokerOrderResult
  | submit _ => BrokerOrderResult
  | claim _ _ => List ClaimedEvent
  | get_event _ => Option OutboxEventRecord
  | publish _ _ _ => String
  | _ => Unit

abbrev calls : Sig := ⟨Call, Call.Res⟩

/-- A coroutine of the program. -/
abbrev Coro (α : Type) : Type := Prog calls Exc α

/-- Await a call. -/
def await (call : Call) : Coro (Call.Res call) := Prog.perform (σ := calls) call

end MtossBot
