import MtossBot.Infrastructure.OutboxRepository

/-!
# The execution worker

`ExecutionWorker._process_one` and `ExecutionWorker.run_once`. The two collaborators are a session of the outbox and the coroutine that
executes an intent. A limit below zero is one of zero.
-/

namespace MtossBot
namespace ExecutionWorker

def EXECUTION_TOPIC : String := "execution.intent.ready"

/-- The errors after which another try is of no use. -/
def TERMINAL_ERRORS : List ErrorClass := [.LookupError, .PermissionError]

/-- Whether `except TERMINAL_ERRORS` catches an exception. -/
def terminal (e : Exc) : Bool := TERMINAL_ERRORS.any e.isA

def _read_intent_id (event : ClaimedEvent) : Option UUID :=
  match event.payload.get? "intent_id" with
  | some (.str raw) => UUID.parse raw
  | _ => none

variable {α : Type}

/-- What follows the execution of an intent, by its outcome. -/
def settle (now : Int) (event_id : String) : Except Exc α → Coro Bool
  | .ok _ => do
    let _ ← OutboxRepository.mark_published now event_id
    return true
  | .error e =>
    if terminal e then do
      let _ ← OutboxRepository.mark_published now event_id
      return true
    else if e.isA .Exception then do
      let _ ← OutboxRepository.rollback
      Prog.raise e
    else Prog.raise e

def _process_one (execute_intent : UUID → Coro α) (now : Int) : Coro Bool := do
  let events ← OutboxRepository.claim 1 (some EXECUTION_TOPIC)
  match events with
  | [] => return false
  | event :: _ =>
    match _read_intent_id event with
    | none => do
      let _ ← OutboxRepository.mark_published now event.id
      return true
    | some intent_id => (execute_intent intent_id).andThen (settle now event.id)

/-- The rounds of the loop that are left, when `processed` events have been. -/
def rounds (execute_intent : UUID → Coro α) (now : Nat → Int) : (left processed : Nat) → Coro Nat
  | 0, processed => return processed
  | left + 1, processed => do
    let handled ← _process_one execute_intent (now processed)
    if handled then rounds execute_intent now left (processed + 1) else return processed

def run_once (execute_intent : UUID → Coro α) (now : Nat → Int) (limit : Nat) : Coro Nat := rounds execute_intent now limit 0

end ExecutionWorker
end MtossBot
