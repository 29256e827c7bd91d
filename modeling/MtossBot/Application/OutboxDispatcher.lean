import MtossBot.Infrastructure.OutboxRepository

/-!
# The outbox dispatcher

`OutboxDispatcher.dispatch_batch`, with the times at which its events are marked. A limit below zero is one of zero.
-/

namespace MtossBot
namespace OutboxDispatcher

/-- Publish an event; whatever is raised gives the event back. -/
def publish (event : ClaimedEvent) : Coro String :=
  Prog.tryExcept (await (.publish event.topic event.message_key event.payload)) fun e => do
    let _ ← OutboxRepository.rollback
    Prog.raise e

/-- The rounds of the loop that are left, when `count` events have been published. -/
def rounds (now : Nat → Int) : (left count : Nat) → Coro Nat
  | 0, count => return count
  | left + 1, count => do
    let events ← OutboxRepository.claim 1 none
    match events with
    | [] => return count
    | event :: _ => do
      let _ ← publish event
      let _ ← OutboxRepository.mark_published (now count) event.id
      rounds now left (count + 1)

def dispatch_batch (now : Nat → Int) (limit : Nat) : Coro Nat := rounds now limit 0

end OutboxDispatcher
end MtossBot
