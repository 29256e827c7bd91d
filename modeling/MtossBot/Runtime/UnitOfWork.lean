import MtossBot.Api.Execution
import MtossBot.Runtime.System

/-!
# A request and its transaction

The database as the session of one request sees it. A flush or a commit raises what it will; what it keeps to is that a flush that
does not raise has objects that the tables can take, and that nothing is there before a commit that does not raise.
-/

namespace MtossBot

namespace Session

def append (s objects : Session) : Session where
  orders := s.orders ++ objects.orders
  audits := s.audits ++ objects.audits
  events := s.events ++ objects.events

def isEmpty (s : Session) : Bool := s.orders.isEmpty && s.audits.isEmpty && s.events.isEmpty

end Session

variable {T B : Type}

/-- What the database answers to a flush and to a commit of objects. -/
structure Database (T B : Type) where
  flush : World T B → Session → Except Exc Unit
  commit : World T B → Session → Except Exc Unit

/-- The tables as they are committed, and the objects of the session: those that it has to send, and those that the database has. -/
structure UnitOfWork (T B : Type) where
  world : World T B
  pending : Session := {}
  flushed : Session := {}

namespace Database

variable (db : Database T B)

/-- The constraints of the tables are checked when the objects are flushed. -/
def Sound : Prop := ∀ w s, db.flush w s = .ok () → w.Insertable s

/-- An order whose key is taken is reported as the violation that it is. -/
def ReportsDuplicates : Prop :=
  ∀ (w : World T B) (s : Session), (∃ r ∈ s.orders, ∃ id r', w.rows id = some r' ∧ r'.idempotency_key = r.idempotency_key) →
    ∃ e, db.flush w s = .error e ∧ e.isA .IntegrityError = true ∧ e.isA .ValueError = false ∧ e.isA .ValidationError = false ∧
      (∃ c ∈ e.causes, c.sqlstate = some "23505") ∧ ∃ c ∈ e.causes, c.constraint_name = some "uq_order_intent_idempotency"

/-- Send what is pending. -/
def flushed (s : UnitOfWork T B) : Except CreateError Unit × UnitOfWork T B :=
  if s.pending.isEmpty then (.ok (), s)
  else match db.flush s.world (s.flushed.append s.pending) with
    | .ok _ => (.ok (), { s with pending := {}, flushed := s.flushed.append s.pending })
    | .error e => (.error (.raised e), s)

/-- The answers to the calls of a session. -/
def serve (s : UnitOfWork T B) : (op : SessionOp) → Except CreateError op.Res × UnitOfWork T B
  | .add objects => (.ok (), { s with pending := s.pending.append objects })
  | .flush => db.flushed s
  | .commit =>
    match db.flushed s with
    | (.error e, s) => (.error e, s)
    | (.ok _, s) =>
      match db.commit s.world s.flushed with
      | .ok _ => (.ok (), { world := s.world.insert s.flushed })
      | .error e => (.error (.raised e), s)
  | .rollback => (.ok (), { world := s.world })

end Database

/-- A request with a session of its own, from the tables as they are. -/
def Request.run (db : Database T B) (upper : String → String) (drawn : Drawn) (event_id : UUID) (created_at : Int)
    (payload : CreateIntentRequest) (w : World T B) : Except CreateError Reply × UnitOfWork T B :=
  (ExecutionRoute.create_intent
    (fun command => (IntentService.create .decimal upper drawn command).interpret (OrderRepository.perform event_id created_at))
    payload).eval db.serve { world := w }

end MtossBot
