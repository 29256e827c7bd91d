import MtossBot.Runtime.Consumers

/-!
# One consumer at a time

An outbox that serves one consumer after another. The database keeps every promise and raises nothing; which of the oldest events a
claim takes is up to it, and what the execution of an intent comes to is given.
-/

namespace MtossBot

/-- The world, and the intents whose execution was called. -/
structure Solo where
  world : World Consumer Unit
  attempted : List UUID

namespace Solo

/-- Which events the database gives to a claim. -/
abbrev Select : Type := Solo → Nat → Option String → List OutboxEventRecord

/-- The database takes the oldest of the events that may be claimed. -/
def OldestFirst (select : Select) : Prop := ∀ (s : Solo) limit topic, s.world.Claims limit topic (select s limit topic)

variable (select : Select) (outcome : UUID → Except Exc Unit) (t : Consumer)

/-- The answers to the calls of a consumer; it makes no others. -/
def serve (s : Solo) : (op : Call) → Except Exc op.Res × Solo
  | .claim limit topic =>
    (.ok ((select s limit topic).map OutboxEventRecord.claimed), { s with world := s.world.claim t (select s limit topic) })
  | .get_event id => (.ok (s.world.outbox id), s)
  | .flush_event record => (.ok (), { s with world := s.world.mark t record })
  | .commit_outbox => (.ok (), { s with world := s.world.commit_outbox t })
  | .rollback_outbox => (.ok (), { s with world := s.world.rollback_outbox t })
  | .publish _ _ _ => (.ok "", s)
  | .execute_intent id => (outcome id, { s with attempted := s.attempted ++ [id] })
  | _ => (.error (.assertionError ""), s)

/-- The end of a consumer closes its session. -/
def close (s : Solo) : Solo := { s with world := s.world.rollback_outbox t }

/-- A consumer runs to its end. -/
def call (s : Solo) : Solo := (t.program.eval (serve select outcome t) s).2.close t

/-- Consumers run one after the other. -/
def calls (ts : List Consumer) (s : Solo) : Solo := ts.foldl (fun s t => s.call select outcome t) s

end Solo
end MtossBot
