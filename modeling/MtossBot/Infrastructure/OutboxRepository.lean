import MtossBot.Infrastructure.Calls

/-!
# The outbox repository

`OutboxRepository`. What the clock says when an event is marked is drawn beforehand.
-/

namespace MtossBot
namespace OutboxRepository

def claim (limit : Nat) (topic : Option String) : Coro (List ClaimedEvent) := await (.claim limit topic)

def rollback : Coro Unit := await .rollback_outbox

def mark_published (now : Int) (event_id : String) : Coro Unit :=
  Prog.tryExcept
    (do
      let id ← Prog.ofExcept <| match UUID.parse event_id with
        | some id => .ok id
        | none => .error (Exc.valueError "badly formed hexadecimal UUID string")
      let record ← await (.get_event id)
      match record with
      | none => Prog.raise (.lookupError event_id)
      | some record => do
        let _ ← await (.flush_event { record with published_at := some now })
        await .commit_outbox)
    fun e => do
      let _ ← await .rollback_outbox
      Prog.raise e

end OutboxRepository
end MtossBot
