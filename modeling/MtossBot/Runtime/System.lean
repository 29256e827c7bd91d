import MtossBot.Application.ExecutionService
import MtossBot.Infrastructure.FakeBroker
import MtossBot.Library.Pool
import MtossBot.Runtime.World
import MtossBot.Workers.Executor

/-!
# The running system

Any number of executions and workers over one database and one broker, and requests that create orders. A call of the database has
its effect or raises, a commit also both; the broker is an argument, and any program may crash at any moment. Requests are whole
transactions: what they insert is not seen before their commit.
-/

namespace MtossBot

/-- A coroutine that is started by somebody. -/
inductive Job where
  | execute (intent_id : UUID)
  | process_one (now : Int)
deriving DecidableEq

/-- The intent that a job is given to execute. -/
def Job.target : Job → Option UUID
  | .execute intent_id => some intent_id
  | .process_one _ => none

/-- A run of a job: a job may be run any number of times, also at once. -/
structure Caller where
  number : Nat
  job : Job
deriving DecidableEq

/-- What a job returns. -/
inductive Outcome where
  | executed (result : BrokerOrderResult)
  | processed (handled : Bool)

def Caller.program (t : Caller) : Coro Outcome :=
  match t.job with
  | .execute intent_id => (ExecutionService.execute intent_id).andThen fun r => .done (r.map .executed)
  | .process_one now => (ExecutionWorker._process_one ExecutionService.execute now).andThen fun r => .done (r.map .processed)

/-- A broker: what a submission does when it starts, and what the answers are and do. -/
structure Broker (B : Type) where
  init : B → Prop
  submit : B → ExecutionIntent → B → Prop
  submitted : B → ExecutionIntent → Except Exc BrokerOrderResult → B → Prop
  looked_up : B → UUID → String → Except Exc (Option BrokerOrderResult) → B → Prop

/-- A broker that answers anything at any time. -/
def Broker.any : Broker Unit where
  init _ := True
  submit _ _ _ := True
  submitted _ _ _ _ := True
  looked_up _ _ _ _ _ := True

/-- The fake broker: a call runs to its end at once. -/
def Broker.fake : Broker FakeBroker where
  init b := b = {}
  submit b _ b' := b' = b
  submitted b intent r b' := ∃ t, (r, b') = FakeBroker.submit (.aware t 0) b intent
  looked_up b account_id client_order_id r b' := r = .ok (b.lookup_by_client_order_id account_id client_order_id) ∧ b' = b

/-- A request to create an order, with what is drawn while it is served. -/
structure Request where
  drawn : Drawn
  command : CreateIntentCommand
  event_id : UUID
  created_at : Int

/-- What a request leaves in its session, and how `create` ends. -/
def Request.serve (upper : String → String) (req : Request) : Except CreateError IntentCreationResult × Session :=
  (IntentService.create .decimal upper req.drawn req.command).eval (OrderRepository.handler req.event_id req.created_at) {}

abbrev Event : Type := Label calls Exc Outcome Caller Request

section System

variable {T B : Type} [DecidableEq T] (upper : String → String) (broker : Broker B) (dbRaises : Exc → Prop)
  (start : World Caller B → Prop)

/-- What a call does when it is made. -/
def World.call (w : World T B) (t : T) (op : Call) (w' : World T B) : Prop :=
  match op with
  | .submit intent => ∃ b, broker.submit w.broker intent b ∧ w' = { w with broker := b }
  | .commit => w' = { w with committing := Function.update w.committing t true }
  | .commit_outbox => w' = { w with committing_outbox := Function.update w.committing_outbox t true }
  | _ => w' = w

/-- What the answer to a call is and does. A publisher and an executor answer anything, and the tables are not theirs. -/
def World.answer (w : World T B) (t : T) (w' : World T B) : (op : Call) → Except Exc op.Res → Prop
  | .scalar_for_update id, .ok none => w.read t id = none ∧ w' = w
  | .scalar_for_update id, .ok (some record) =>
    w.read t id = some record ∧ w.Available t id ∧ w' = w.lock t id
  | .scalar_for_update id, .error e => dbRaises e ∧ (w' = w ∨ w.Available t id ∧ w' = w.lock t id)
  | .flush record, .ok _ => w.Available t record.id ∧ w' = w.write t record
  | .flush record, .error e => dbRaises e ∧ (w' = w ∨ w.Available t record.id ∧ w' = w.write t record)
  | .commit, .ok _ => w' = w.commit t
  | .commit, .error e => dbRaises e ∧ (w' = w.commit t ∨ w' = w.rollback t ∨
      w' = { w with committing := Function.update w.committing t false })
  | .rollback, .ok _ => w' = w.rollback t
  | .rollback, .error e => dbRaises e ∧ (w' = w ∨ w' = w.rollback t)
  | .lookup_by_client_order_id account_id client_order_id, r =>
    ∃ b, broker.looked_up w.broker account_id client_order_id r b ∧ w' = { w with broker := b }
  | .submit intent, r => ∃ b, broker.submitted w.broker intent r b ∧ w' = { w with broker := b }
  | .claim limit topic, .ok claimed =>
    ∃ events, w.Claims limit topic events ∧ claimed = events.map OutboxEventRecord.claimed ∧ w' = w.claim t events
  | .claim _ _, .error e => dbRaises e ∧ (w' = w ∨ ∃ events, (∀ e ∈ events, w.claimer e.id = none) ∧ w' = w.claim t events)
  | .get_event id, .ok record => record = w.outbox id ∧ w' = w
  | .get_event _, .error e => dbRaises e ∧ w' = w
  | .flush_event record, .ok _ => w' = w.mark t record
  | .flush_event record, .error e => dbRaises e ∧ (w' = w ∨ w' = w.mark t record)
  | .commit_outbox, .ok _ => w' = w.commit_outbox t
  | .commit_outbox, .error e => dbRaises e ∧ (w' = w.commit_outbox t ∨ w' = w.rollback_outbox t ∨
      w' = { w with committing_outbox := Function.update w.committing_outbox t false })
  | .rollback_outbox, .ok _ => w' = w.rollback_outbox t
  | .rollback_outbox, .error e => dbRaises e ∧ (w' = w ∨ w' = w.rollback_outbox t)
  | .publish _ _ _, _ => w' = w
  | .execute_intent _, _ => w' = w

/-- The ways in which an answer leaves the world. -/
inductive World.Move (w : World T B) (t : T) : (op : Call) → Except Exc op.Res → World T B → Prop
  | stay {op : Call} {r : Except Exc op.Res} : Move w t op r w
  | lock {id : UUID} {r : Except Exc (Option OrderIntentRecord)} :
      w.Available t id → Move w t (.scalar_for_update id) r (w.lock t id)
  | write {record : OrderIntentRecord} {r : Except Exc Unit} :
      w.Available t record.id → Move w t (.flush record) r (w.write t record)
  | commit {r : Except Exc Unit} : Move w t .commit r (w.commit t)
  | commit_refused {e : Exc} : Move w t .commit (.error e) (w.rollback t)
  | commit_open {e : Exc} : Move w t .commit (.error e) { w with committing := Function.update w.committing t false }
  | rollback {r : Except Exc Unit} : Move w t .rollback r (w.rollback t)
  | lookup {account_id : UUID} {client_order_id : String} {r : Except Exc (Option BrokerOrderResult)} {b : B} :
      broker.looked_up w.broker account_id client_order_id r b →
      Move w t (.lookup_by_client_order_id account_id client_order_id) r { w with broker := b }
  | submit {intent : ExecutionIntent} {r : Except Exc BrokerOrderResult} {b : B} :
      broker.submitted w.broker intent r b → Move w t (.submit intent) r { w with broker := b }
  | claim {limit : Nat} {topic : Option String} {r : Except Exc (List ClaimedEvent)} {events : List OutboxEventRecord} :
      Move w t (.claim limit topic) r (w.claim t events)
  | mark {record : OutboxEventRecord} {r : Except Exc Unit} : Move w t (.flush_event record) r (w.mark t record)
  | commit_outbox {r : Except Exc Unit} : Move w t .commit_outbox r (w.commit_outbox t)
  | commit_outbox_refused {e : Exc} : Move w t .commit_outbox (.error e) (w.rollback_outbox t)
  | commit_outbox_open {e : Exc} :
      Move w t .commit_outbox (.error e) { w with committing_outbox := Function.update w.committing_outbox t false }
  | rollback_outbox {r : Except Exc Unit} : Move w t .rollback_outbox r (w.rollback_outbox t)

variable {broker dbRaises} in
/-- An answer leaves the world in one of these ways. -/
theorem World.answer_move {w w' : World T B} {t : T} {op : Call} {r : Except Exc op.Res}
    (h : w.answer broker dbRaises t w' op r) : w.Move broker t op r w' := by
  cases op with
  | scalar_for_update id =>
    rcases r with e | _ | record
    · rcases h with ⟨_, rfl | ⟨hfree, rfl⟩⟩
      · exact .stay
      · exact .lock hfree
    · obtain ⟨_, rfl⟩ := h
      exact .stay
    · obtain ⟨_, hfree, rfl⟩ := h
      exact .lock hfree
  | flush record =>
    cases r with
    | ok _ =>
      obtain ⟨hfree, rfl⟩ := h
      exact .write hfree
    | error e =>
      rcases h with ⟨_, rfl | ⟨hfree, rfl⟩⟩
      · exact .stay
      · exact .write hfree
  | commit =>
    cases r with
    | ok _ =>
      obtain rfl : w' = w.commit t := h
      exact .commit
    | error e =>
      rcases h with ⟨_, rfl | rfl | rfl⟩
      · exact .commit
      · exact .commit_refused
      · exact .commit_open
  | rollback =>
    cases r with
    | ok _ =>
      obtain rfl : w' = w.rollback t := h
      exact .rollback
    | error e =>
      rcases h with ⟨_, rfl | rfl⟩
      · exact .stay
      · exact .rollback
  | lookup_by_client_order_id account_id client_order_id =>
    obtain ⟨b, hb, rfl⟩ := h
    exact .lookup hb
  | submit intent =>
    obtain ⟨b, hb, rfl⟩ := h
    exact .submit hb
  | claim limit topic =>
    cases r with
    | ok claimed =>
      obtain ⟨events, _, _, rfl⟩ := h
      exact .claim
    | error e =>
      rcases h with ⟨_, rfl | ⟨events, _, rfl⟩⟩
      · exact .stay
      · exact .claim
  | get_event id =>
    cases r with
    | ok found =>
      obtain ⟨_, rfl⟩ := h
      exact .stay
    | error e =>
      obtain ⟨_, rfl⟩ := h
      exact .stay
  | flush_event record =>
    cases r with
    | ok _ =>
      obtain rfl : w' = w.mark t record := h
      exact .mark
    | error e =>
      rcases h with ⟨_, rfl | rfl⟩
      · exact .stay
      · exact .mark
  | commit_outbox =>
    cases r with
    | ok _ =>
      obtain rfl : w' = w.commit_outbox t := h
      exact .commit_outbox
    | error e =>
      rcases h with ⟨_, rfl | rfl | rfl⟩
      · exact .commit_outbox
      · exact .commit_outbox_refused
      · exact .commit_outbox_open
  | rollback_outbox =>
    cases r with
    | ok _ =>
      obtain rfl : w' = w.rollback_outbox t := h
      exact .rollback_outbox
    | error e =>
      rcases h with ⟨_, rfl | rfl⟩
      · exact .stay
      · exact .rollback_outbox
  | publish topic key payload =>
    obtain rfl : w' = w := h
    exact .stay
  | execute_intent id =>
    obtain rfl : w' = w := h
    exact .stay

/-- A crash ends both transactions of a task; a commit that was under way may have happened. -/
def World.crash (w : World T B) (t : T) (w' : World T B) : Prop :=
  ∃ w₁, (w₁ = w.rollback t ∨ w.committing t = true ∧ w₁ = w.commit t) ∧
    (w' = w₁.rollback_outbox t ∨ w₁.committing_outbox t = true ∧ w' = w₁.commit_outbox t)

/-- A request is committed with what its session holds, if it creates an order or is refused for its risk; or it has no effect. -/
def World.create (w : World Caller B) (req : Request) (w' : World Caller B) : Prop :=
  match req.serve upper with
  | (.ok _, session) => w' = w ∨ w.Insertable session ∧ w' = w.insert session
  | (.error (.riskRejected _), session) => w' = w ∨ w.Insertable session ∧ w' = w.insert session
  | (.error (.raised _), _) => w' = w

/-- The system: its tasks, what their calls do, and the requests. -/
def system : System calls Exc Outcome Caller (World Caller B) Request where
  init w := start w ∧ w.Idle ∧ w.Constraints ∧ broker.init w.broker
  program := Caller.program
  call w t op w' := w.call broker t op w'
  answer w t op r w' := w.answer broker dbRaises t w' op r
  finish w t _ w' := w' = (w.rollback t).rollback_outbox t
  crash w t w' := w.crash t w'
  env w req w' := w.create upper req w'

end System
end MtossBot
