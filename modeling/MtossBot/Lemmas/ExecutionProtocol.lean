import MtossBot.Runtime.System

/-!
# The protocol of an execution

What a task that executes an intent, or a worker that takes an event, may do and knows at each point. The programs follow the
protocol (`Lemmas.ExecutionFollows`), and the results on runs use only the protocol. `quiet` says that no call raises one of the worker's terminal errors,
except a submission that also times out.
-/

namespace MtossBot

/-- What a task that is done with a row knows of it. -/
inductive Known where
  | nothing
  | settled (record : OrderIntentRecord)
  | missing (intent_id : UUID)

/-- Where a task is in its execution, with the intent it is to execute if that is given, the row it holds and the result it will
store. -/
inductive RowPhase where
  | start (target : Option UUID)
  | locking (intent_id : UUID)
  | held (r : OrderIntentRecord)
  | looking (r : OrderIntentRecord)
  | fresh (r : OrderIntentRecord)
  | submitting (r : OrderIntentRecord)
  | timedOut (r : OrderIntentRecord)
  | relooking (r : OrderIntentRecord)
  | decided (r : OrderIntentRecord) (result : BrokerOrderResult)
  | relocking (r : OrderIntentRecord) (result : BrokerOrderResult)
  | relocked (r : OrderIntentRecord) (result : BrokerOrderResult)
  | flushing (r r' : OrderIntentRecord) (result : BrokerOrderResult)
  | flushed (r r' : OrderIntentRecord) (result : BrokerOrderResult)
  | committing (r r' : OrderIntentRecord) (result : BrokerOrderResult)
  | ended (k : Known)
  | rolling (k : Known)

/-- The row of the phase is that of an intent. -/
def RowPhase.Targets (id : UUID) : RowPhase → Prop
  | .start target => target = some id
  | .locking id' => id' = id
  | .held r | .looking r | .fresh r | .submitting r | .timedOut r | .relooking r | .decided r _ | .relocking r _
  | .relocked r _ | .flushing r _ _ | .flushed r _ _ | .committing r _ _ => r.id = id
  | .ended _ | .rolling _ => True

/-- Where a worker is with its event: it may mark it from `marking` on. -/
inductive EventPhase where
  | out
  | claiming
  | claimed (event : ClaimedEvent)
  | marking (event : ClaimedEvent)

structure Phase where
  row : RowPhase
  event : EventPhase

namespace Phase

/-- Where a task may give its row back, and what it knows of it then. -/
def leaves : RowPhase → Option Known
  | .held r => some (if r.state = .QUEUED then .nothing else .settled r)
  | .decided _ _ => some .nothing
  | .relocked _ _ => some .nothing
  | .ended k => some k
  | _ => none

/-- The calls on the row and to the broker that a task may make. -/
inductive RowIssue : RowPhase → Call → RowPhase → Prop where
  | lock {target : Option UUID} {id : UUID} :
      target = none ∨ target = some id → RowIssue (.start target) (.scalar_for_update id) (.locking id)
  | look {r : OrderIntentRecord} {intent : ExecutionIntent} :
      r.state = .QUEUED → r.as_domain = .ok intent →
      RowIssue (.held r) (.lookup_by_client_order_id intent.account_id intent.idempotency_key) (.looking r)
  | submit {r : OrderIntentRecord} {intent : ExecutionIntent} :
      r.as_domain = .ok intent → RowIssue (.fresh r) (.submit intent) (.submitting r)
  | relook {r : OrderIntentRecord} {intent : ExecutionIntent} :
      r.as_domain = .ok intent →
      RowIssue (.timedOut r) (.lookup_by_client_order_id intent.account_id intent.idempotency_key) (.relooking r)
  | relock {r : OrderIntentRecord} {result : BrokerOrderResult} :
      RowIssue (.decided r result) (.scalar_for_update r.id) (.relocking r result)
  | flush {r r' : OrderIntentRecord} {result : BrokerOrderResult} :
      r.Stored r' result → RowIssue (.relocked r result) (.flush r') (.flushing r r' result)
  | commit {r r' : OrderIntentRecord} {result : BrokerOrderResult} :
      RowIssue (.flushed r r' result) .commit (.committing r r' result)
  | rollback {q : RowPhase} {k : Known} : leaves q = some k → RowIssue q .rollback (.rolling k)

/-- A worker may mark its event when it has no intent, or when its intent is settled or missing. -/
def Discharged (row : RowPhase) (event : ClaimedEvent) : Prop :=
  ∀ id, ExecutionWorker._read_intent_id event = some id →
    (∃ r, row = .ended (.settled r) ∧ r.id = id) ∨ row = .ended (.missing id)

/-- The calls on the outbox that a worker may make. -/
inductive EventIssue (quiet : Prop) (row : RowPhase) : EventPhase → Call → EventPhase → Prop where
  | claim {limit : Nat} {topic : Option String} :
      row = .start none → EventIssue quiet row .out (.claim limit topic) .claiming
  | get {event : ClaimedEvent} {id : UUID} :
      UUID.parse event.id = some id → (quiet → Discharged row event) →
      EventIssue quiet row (.claimed event) (.get_event id) (.marking event)
  | flush {event : ClaimedEvent} {record : OutboxEventRecord} :
      record.claimed = event → EventIssue quiet row (.marking event) (.flush_event record) (.marking event)
  | commit {event : ClaimedEvent} : EventIssue quiet row (.marking event) .commit_outbox (.marking event)
  | rollback {q : EventPhase} : EventIssue quiet row q .rollback_outbox q

/-- A row that has the evidence an execution asks for. -/
def Evidence (r : OrderIntentRecord) : Prop := r.risk_decision_id ≠ none ∧ r.approval_id ≠ none

/-- A settled row that an execution raises for. -/
def Defective (r : OrderIntentRecord) : Prop := ¬Evidence r ∨ ∃ e, r.as_broker_result = .error e

/-- A row has its evidence, and read back it is the result. -/
structure Shows (r : OrderIntentRecord) (result : BrokerOrderResult) : Prop where
  evidence : Evidence r
  read : r.as_broker_result = .ok result

/-- A row shows one result. -/
theorem Shows.unique {r : OrderIntentRecord} {result result' : BrokerOrderResult} (h : Shows r result) (h' : Shows r result') :
    result' = result := by
  have hread := h.read
  rw [h'.read] at hread
  exact Except.ok.inj hread

/-- The result has the key of the row. -/
theorem Shows.client_order_id {r : OrderIntentRecord} {result : BrokerOrderResult} (h : Shows r result) :
    result.client_order_id = r.idempotency_key := by
  rw [BrokerOrderResult.create_ok h.read]

/-- A row that shows a result has no defect. -/
theorem Shows.not_defective {r : OrderIntentRecord} {result : BrokerOrderResult} (h : Shows r result) : ¬Defective r := by
  rintro (hnot | ⟨e, he⟩)
  · exact hnot h.evidence
  · rw [h.read] at he
    cases he

def ofOrders : Call → Bool
  | .claim .. | .get_event .. | .flush_event .. | .commit_outbox | .rollback_outbox => false
  | _ => true

/-- The answers to a call on the row or to the broker, and what is known after them. -/
inductive RowAnswer (quiet : Prop) : RowPhase → (op : Call) → Except Exc op.Res → RowPhase → Prop where
  | locked {r : OrderIntentRecord} :
      (quiet → Evidence r) → RowAnswer quiet (.locking r.id) (.scalar_for_update r.id) (.ok (some r)) (.held r)
  | missing {id : UUID} : RowAnswer quiet (.locking id) (.scalar_for_update id) (.ok none) (.ended (.missing id))
  | unknown {r : OrderIntentRecord} {a : UUID} {key : String} :
      RowAnswer quiet (.looking r) (.lookup_by_client_order_id a key) (.ok none) (.fresh r)
  | known {r : OrderIntentRecord} {a : UUID} {key : String} {result : BrokerOrderResult} :
      RowAnswer quiet (.looking r) (.lookup_by_client_order_id a key) (.ok (some result)) (.decided r result)
  | submitted {r : OrderIntentRecord} {intent : ExecutionIntent} {result : BrokerOrderResult} :
      RowAnswer quiet (.submitting r) (.submit intent) (.ok result) (.decided r result)
  | timeout {r : OrderIntentRecord} {intent : ExecutionIntent} {e : Exc} :
      e.isA .TimeoutError = true → RowAnswer quiet (.submitting r) (.submit intent) (.error e) (.timedOut r)
  | lost {r : OrderIntentRecord} {a : UUID} {key : String} :
      RowAnswer quiet (.relooking r) (.lookup_by_client_order_id a key) (.ok none)
        (.decided r (ExecutionService.ambiguous r.idempotency_key))
  | found {r : OrderIntentRecord} {a : UUID} {key : String} {result : BrokerOrderResult} :
      RowAnswer quiet (.relooking r) (.lookup_by_client_order_id a key) (.ok (some result)) (.decided r result)
  | relocked {r : OrderIntentRecord} {result : BrokerOrderResult} :
      RowAnswer quiet (.relocking r result) (.scalar_for_update r.id) (.ok (some r)) (.relocked r result)
  | flushed {r r' : OrderIntentRecord} {result : BrokerOrderResult} :
      RowAnswer quiet (.flushing r r' result) (.flush r') (.ok ()) (.flushed r r' result)
  | committed {r r' : OrderIntentRecord} {result : BrokerOrderResult} :
      RowAnswer quiet (.committing r r' result) .commit (.ok ()) (.ended (.settled r'))
  | rolledBack {k : Known} : RowAnswer quiet (.rolling k) .rollback (.ok ()) (.ended k)
  | failed {q : RowPhase} {op : Call} {e : Exc} :
      ofOrders op = true → (∀ r, q = .submitting r → e.isA .TimeoutError = false) →
      (quiet → ExecutionWorker.terminal e = false) → RowAnswer quiet q op (.error e) (.ended .nothing)

/-- The answers to a call on the outbox. -/
inductive EventAnswer : EventPhase → (op : Call) → Except Exc op.Res → EventPhase → Prop where
  | nothing {limit : Nat} {topic : Option String} : EventAnswer .claiming (.claim limit topic) (.ok []) .out
  | claimed {limit : Nat} {topic : Option String} {event : ClaimedEvent} {rest : List ClaimedEvent} :
      EventAnswer .claiming (.claim limit topic) (.ok (event :: rest)) (.claimed event)
  | unclaimed {limit : Nat} {topic : Option String} {e : Exc} :
      EventAnswer .claiming (.claim limit topic) (.error e) .out
  | got {event : ClaimedEvent} {record : OutboxEventRecord} :
      record.claimed = event → EventAnswer (.marking event) (.get_event record.id) (.ok (some record)) (.marking event)
  | gone {q : EventPhase} {id : UUID} : EventAnswer q (.get_event id) (.ok none) q
  | refused {q : EventPhase} {id : UUID} {e : Exc} : EventAnswer q (.get_event id) (.error e) q
  | flushed {q : EventPhase} {record : OutboxEventRecord} {r : Except Exc Unit} :
      EventAnswer q (.flush_event record) r q
  | committed {q : EventPhase} {r : Except Exc Unit} : EventAnswer q .commit_outbox r q
  | rolledBack {q : EventPhase} {r : Except Exc Unit} : EventAnswer q .rollback_outbox r q

/-- The calls a task may make: none before an event that it is claiming is there. -/
inductive Issue (quiet : Prop) : Phase → Call → Phase → Prop where
  | row {row row' : RowPhase} {event : EventPhase} {op : Call} :
      (∀ target, row = .start target → event ≠ .claiming) → RowIssue row op row' → Issue quiet ⟨row, event⟩ op ⟨row', event⟩
  | event {row : RowPhase} {event event' : EventPhase} {op : Call} :
      EventIssue quiet row event op event' → Issue quiet ⟨row, event⟩ op ⟨row, event'⟩

inductive Answer (quiet : Prop) : Phase → (op : Call) → Except Exc op.Res → Phase → Prop where
  | row {row row' : RowPhase} {event : EventPhase} {op : Call} {r : Except Exc op.Res} :
      RowAnswer quiet row op r row' → Answer quiet ⟨row, event⟩ op r ⟨row', event⟩
  | event {row : RowPhase} {event event' : EventPhase} {op : Call} {r : Except Exc op.Res} :
      EventAnswer event op r event' → Answer quiet ⟨row, event⟩ op r ⟨row, event'⟩

variable {quiet : Prop}

/-- A task that is given an intent stays with it. -/
theorem RowIssue.targets {q q' : RowPhase} {op : Call} {id : UUID} (hi : RowIssue q op q') (h : q.Targets id) :
    q'.Targets id := by
  cases hi with
  | lock ht =>
    have h : _ = some id := h
    rcases ht with ht | ht <;> rw [ht] at h
    · cases h
    · exact Option.some.inj h
  | rollback _ => exact trivial
  | _ => exact h

/-- An answer keeps the target. -/
theorem RowAnswer.targets {q q' : RowPhase} {op : Call} {r : Except Exc op.Res} {id : UUID}
    (ha : RowAnswer quiet q op r q') (h : q.Targets id) : q'.Targets id := by
  cases ha with
  | missing => exact trivial
  | committed => exact trivial
  | rolledBack => exact trivial
  | failed => exact trivial
  | _ => exact h

/-- A call on the outbox is one of the worker's. -/
theorem Issue.on_outbox {q₀ q : Phase} {op : Call} (hi : Issue quiet q₀ op q) (hop : ofOrders op = false) :
    EventIssue quiet q.row q₀.event op q.event := by
  cases hi with
  | row _ hi => cases hi <;> cases hop
  | event hi => exact hi

/-- A call on the orders is one of the row's phase. -/
theorem Issue.on_orders {q₀ q : Phase} {op : Call} (hi : Issue quiet q₀ op q) (hop : ofOrders op = true) :
    RowIssue q₀.row op q.row := by
  cases hi with
  | row _ hi => exact hi
  | event hi => cases hi <;> cases hop

/-- Its answer on the outbox moves the phase of the event only. -/
theorem Answer.on_outbox {q q' : Phase} {op : Call} {r : Except Exc op.Res} (ha : Answer quiet q op r q')
    (hop : ofOrders op = false) : EventAnswer q.event op r q'.event ∧ q'.row = q.row := by
  cases ha with
  | row ha =>
    cases ha with
    | failed hop' => rw [hop] at hop'; cases hop'
    | _ => cases hop
  | event ha => exact ⟨ha, rfl⟩

/-- And one on the orders moves the phase of the row only. -/
theorem Answer.on_orders {q q' : Phase} {op : Call} {r : Except Exc op.Res} (ha : Answer quiet q op r q')
    (hop : ofOrders op = true) : RowAnswer quiet q.row op r q'.row ∧ q'.event = q.event := by
  cases ha with
  | row ha => exact ⟨ha, rfl⟩
  | event ha => cases ha <;> cases hop

end Phase

open Phase

/-- The protocol of the tasks. -/
abbrev executionProtocol (quiet : Prop) : Protocol calls Exc Caller where
  Phase := Phase
  start t := ⟨.start t.job.target, .out⟩
  issue := Issue quiet
  answer := Answer quiet

end MtossBot
