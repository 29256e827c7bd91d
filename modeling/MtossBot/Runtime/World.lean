import Mathlib.Logic.Function.Basic
import MtossBot.Infrastructure.OrderRepository

/-!
# The world of the tasks

What the tasks share: the tables of the database with the locks and the writes of the open transactions, and the broker. A task has a
transaction on each of its two sessions; what a transaction wrote is seen by others once it is committed, and its locks are free
once it has ended.
-/

namespace MtossBot

/-- The tables, the open transactions of the tasks `T`, and the state of the broker. -/
structure World (T B : Type) where
  rows : UUID → Option OrderIntentRecord
  audits : UUID → Option AuditEventRecord
  outbox : UUID → Option OutboxEventRecord
  owner : UUID → Option T
  wrote : T → Option OrderIntentRecord
  committing : T → Bool
  claimer : UUID → Option T
  marked : T → Option OutboxEventRecord
  committing_outbox : T → Bool
  broker : B

namespace World

variable {T B : Type} [DecidableEq T]

/-- A database with nothing in it. -/
def empty (broker : B) : World T B where
  rows _ := none
  audits _ := none
  outbox _ := none
  owner _ := none
  wrote _ := none
  committing _ := false
  claimer _ := none
  marked _ := none
  committing_outbox _ := false
  broker := broker

/-- No transaction is open. -/
structure Idle (w : World T B) : Prop where
  owner : ∀ id, w.owner id = none
  wrote : ∀ t, w.wrote t = none
  claimer : ∀ id, w.claimer id = none
  marked : ∀ t, w.marked t = none

/-- The constraints of the tables: primary keys, and the unique idempotency key. -/
structure Constraints (w : World T B) : Prop where
  row_id : ∀ {id r}, w.rows id = some r → r.id = id
  event_id : ∀ {id e}, w.outbox id = some e → e.id = id
  unique_key : ∀ {i j r r'}, w.rows i = some r → w.rows j = some r' → r.idempotency_key = r'.idempotency_key → i = j

/-! ## The transactions on orders -/

/-- The locks of a task are free. -/
def unlock (w : World T B) (t : T) : World T B :=
  { w with owner := fun id => if w.owner id = some t then none else w.owner id }

/-- The order transaction of a task ends without effect. -/
def rollback (w : World T B) (t : T) : World T B :=
  { w.unlock t with
    wrote := Function.update w.wrote t none
    committing := Function.update w.committing t false }

/-- The order transaction of a task ends with what it wrote. -/
def commit (w : World T B) (t : T) : World T B :=
  { w.rollback t with
    rows := match w.wrote t with
      | some record => Function.update w.rows record.id (some record)
      | none => w.rows }

/-- The lock on a row is free, or the task's own. -/
def Available (w : World T B) (t : T) (id : UUID) : Prop := w.owner id = none ∨ w.owner id = some t

/-- A row becomes locked. -/
def lock (w : World T B) (t : T) (id : UUID) : World T B := { w with owner := Function.update w.owner id (some t) }

/-- A task writes a row, which locks it. -/
def write (w : World T B) (t : T) (record : OrderIntentRecord) : World T B :=
  { w.lock t record.id with wrote := Function.update w.wrote t (some record) }

/-- What a task reads of an order: its own write, or what is committed. -/
def read (w : World T B) (t : T) (id : UUID) : Option OrderIntentRecord :=
  match w.wrote t with
  | some record => if record.id = id then some record else w.rows id
  | none => w.rows id

section Orders

variable (w : World T B) (t : T) (id : UUID) (record : OrderIntentRecord)

omit [DecidableEq T] in
@[simp] theorem rows_lock : (w.lock t id).rows = w.rows := rfl

omit [DecidableEq T] in
@[simp] theorem owner_lock : (w.lock t id).owner = Function.update w.owner id (some t) := rfl

omit [DecidableEq T] in
@[simp] theorem wrote_lock : (w.lock t id).wrote = w.wrote := rfl

@[simp] theorem rows_write : (w.write t record).rows = w.rows := rfl

@[simp] theorem owner_write : (w.write t record).owner = Function.update w.owner record.id (some t) := rfl

@[simp] theorem wrote_write : (w.write t record).wrote = Function.update w.wrote t (some record) := rfl

@[simp] theorem rows_rollback : (w.rollback t).rows = w.rows := rfl

@[simp] theorem owner_rollback : (w.rollback t).owner = fun id => if w.owner id = some t then none else w.owner id := rfl

@[simp] theorem wrote_rollback : (w.rollback t).wrote = Function.update w.wrote t none := rfl

@[simp] theorem owner_commit : (w.commit t).owner = (w.rollback t).owner := rfl

@[simp] theorem wrote_commit : (w.commit t).wrote = Function.update w.wrote t none := rfl

variable {w t record}

theorem rows_commit_none (h : w.wrote t = none) : (w.commit t).rows = w.rows := by
  simp only [commit, h]

theorem rows_commit_some (h : w.wrote t = some record) :
    (w.commit t).rows = Function.update w.rows record.id (some record) := by
  simp only [commit, h]

end Orders

/-! ## The transactions on events -/

/-- The claims of a task are free. -/
def unclaim (w : World T B) (t : T) : World T B :=
  { w with claimer := fun id => if w.claimer id = some t then none else w.claimer id }

/-- The outbox transaction of a task ends without effect. -/
def rollback_outbox (w : World T B) (t : T) : World T B :=
  { w.unclaim t with
    marked := Function.update w.marked t none
    committing_outbox := Function.update w.committing_outbox t false }

/-- The outbox transaction of a task ends with what it wrote. -/
def commit_outbox (w : World T B) (t : T) : World T B :=
  { w.rollback_outbox t with
    outbox := match w.marked t with
      | some event => Function.update w.outbox event.id (some event)
      | none => w.outbox }

/-- An event that `claim` may take. -/
def Claimable (w : World T B) (topic : Option String) (e : OutboxEventRecord) : Prop :=
  w.outbox e.id = some e ∧ e.published_at = none ∧ w.claimer e.id = none ∧ ∀ name, topic = some name → e.topic = name

/-- The events `claim` takes: the first ones in the order of `created_at`, as many as there are up to the limit. -/
structure Claims (w : World T B) (limit : Nat) (topic : Option String) (events : List OutboxEventRecord) : Prop where
  claimable : ∀ e ∈ events, w.Claimable topic e
  distinct : (events.map OutboxEventRecord.id).Nodup
  ordered : events.Pairwise fun a b => a.created_at ≤ b.created_at
  bounded : events.length ≤ limit
  first : ∀ e, w.Claimable topic e → e ∈ events ∨ events.length = limit ∧ ∀ a ∈ events, a.created_at ≤ e.created_at

/-- The events become those of a task. -/
def claim (w : World T B) (t : T) (events : List OutboxEventRecord) : World T B :=
  { w with claimer := fun id => if id ∈ events.map OutboxEventRecord.id then some t else w.claimer id }

section Events

variable (w : World T B) (t : T) (record : OutboxEventRecord)

/-- A task writes an event. -/
def mark : World T B := { w with marked := Function.update w.marked t (some record) }

@[simp] theorem outbox_rollback_outbox : (w.rollback_outbox t).outbox = w.outbox := rfl

@[simp] theorem marked_rollback_outbox : (w.rollback_outbox t).marked = Function.update w.marked t none := rfl

@[simp] theorem marked_commit_outbox : (w.commit_outbox t).marked = Function.update w.marked t none := rfl

@[simp] theorem outbox_mark : (w.mark t record).outbox = w.outbox := rfl

@[simp] theorem marked_mark : (w.mark t record).marked = Function.update w.marked t (some record) := rfl

variable {w t record}

theorem outbox_commit_outbox_none (h : w.marked t = none) : (w.commit_outbox t).outbox = w.outbox := by
  simp only [commit_outbox, h]

theorem outbox_commit_outbox_some (h : w.marked t = some record) :
    (w.commit_outbox t).outbox = Function.update w.outbox record.id (some record) := by
  simp only [commit_outbox, h]

end Events

/-! ## New orders -/

/-- The objects of a session can be inserted: their keys are new. -/
structure Insertable (w : World T B) (s : Session) : Prop where
  row_id : ∀ r ∈ s.orders, w.rows r.id = none
  unique_key : ∀ r ∈ s.orders, ∀ id r', w.rows id = some r' → r'.idempotency_key ≠ r.idempotency_key
  audit_id : ∀ a ∈ s.audits, w.audits a.id = none
  distinct_audits : (s.audits.map AuditEventRecord.id).Nodup
  event_id : ∀ e ∈ s.events, w.outbox e.id = none

/-- The objects of a session are in their tables. -/
def insert (w : World T B) (s : Session) : World T B :=
  { w with
    rows := s.orders.foldl (fun rows r => Function.update rows r.id (some r)) w.rows
    audits := s.audits.foldl (fun audits a => Function.update audits a.id (some a)) w.audits
    outbox := s.events.foldl (fun outbox e => Function.update outbox e.id (some e)) w.outbox }

end World
end MtossBot
