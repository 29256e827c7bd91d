import MtossBot.Lemmas.ExecutionProtocol

/-!
# The programs follow the protocol

One statement for each coroutine, in the order in which they call each other; a caller uses the statement of what it calls.
-/

namespace MtossBot

open Phase

/-! ## Errors of the program itself -/

open ExecutionWorker in
/-- A row that is no order raises nothing that the worker consumes. -/
theorem terminal_as_domain {r : OrderIntentRecord} {e : Exc} (h : r.as_domain = .error e) : terminal e = false := by
  unfold OrderIntentRecord.as_domain ExecutionIntent.create at h
  split at h
  · cases h
  · rw [← Except.error.inj h]
    rfl

open ExecutionWorker in
/-- Nor does a row that is no result. -/
theorem terminal_as_broker_result {r : OrderIntentRecord} {e : Exc} (h : r.as_broker_result = .error e) :
    terminal e = false := by
  unfold OrderIntentRecord.as_broker_result BrokerOrderResult.create at h
  split at h
  · cases h
  · rw [← Except.error.inj h]
    rfl

open ExecutionWorker in
/-- Nor does a step that the state machine refuses. -/
theorem terminal_transition {current target : OrderState} {e : Exc} (h : transition current target = .error e) :
    terminal e = false := by
  unfold transition at h
  split at h
  · cases h
  · rw [← Except.error.inj h]
    rfl

open ExecutionWorker in
/-- Nor does a result that the row refuses. -/
theorem terminal_withResult {r : OrderIntentRecord} {result : BrokerOrderResult} {e : Exc}
    (h : r.withResult result = .error e) : terminal e = false := by
  unfold OrderIntentRecord.withResult at h
  split at h
  · rw [← Except.error.inj h]
    rfl
  · cases hs : OrderIntentRecord.nextState r.state result.state with
    | ok s =>
      rw [hs] at h
      cases h
    | error e' =>
      rw [hs] at h
      obtain rfl : e' = e := Except.error.inj h
      unfold OrderIntentRecord.nextState at hs
      split at hs
      · cases ht : transition r.state .SUBMITTED with
        | error e'' =>
          rw [ht] at hs
          exact Except.error.inj hs ▸ terminal_transition ht
        | ok submitted =>
          rw [ht] at hs
          exact terminal_transition hs
      · exact terminal_transition hs

open ExecutionWorker in
/-- Nor does a result with another key. -/
theorem terminal_validate {intent : ExecutionIntent} {result : BrokerOrderResult} {e : Exc}
    (h : ExecutionService._validate_result_identity intent result = .error e) : terminal e = false := by
  unfold ExecutionService._validate_result_identity at h
  split at h
  · rw [← Except.error.inj h]
    rfl
  · cases h

/-- A result that passes the validation is the one that was validated. -/
theorem validate_ok {intent : ExecutionIntent} {result result' : BrokerOrderResult}
    (h : ExecutionService._validate_result_identity intent result = .ok result') : result' = result := by
  unfold ExecutionService._validate_result_identity at h
  split at h
  · cases h
  · exact (Except.ok.inj h).symm

/-! ## The programs follow the protocol -/

namespace ExecutionFollows

open ExecutionService OrderRepository ExecutionWorker

variable {quiet : Prop} {r : OrderIntentRecord} {event : EventPhase}

/-- An execution that fails has left a row it may give back, unless the row is missing its error is not a terminal one, and if the row is
settled then it is a defective one. -/
structure Failed (quiet : Prop) (intent_id : UUID) (event : EventPhase) (q : Phase) (e : Exc) : Prop where
  event : q.event = event
  leaves : ∃ k, leaves q.row = some k
  error : (quiet → terminal e = false) ∨ q.row = .ended (.missing intent_id)
  defect : ∀ r, Phase.leaves q.row = some (.settled r) → Defective r

/-- A row is given back of which nothing is known. -/
theorem Failed.given_up {intent_id : UUID} {q : Phase} {e : Exc} (hevent : q.event = event) (hleaves : Phase.leaves q.row = some .nothing)
    (he : quiet → terminal e = false) : Failed quiet intent_id event q e :=
  ⟨hevent, ⟨.nothing, hleaves⟩, .inl he, fun r hr => by rw [hleaves] at hr; cases hr⟩

/-- A call that raises leaves nothing known. -/
theorem Failed.nothing {intent_id : UUID} {e : Exc} (he : quiet → terminal e = false) :
    Failed quiet intent_id event ⟨.ended .nothing, event⟩ e :=
  .given_up rfl rfl he

/-- The outcome of finding a result for the row. -/
def Found (quiet : Prop) (r : OrderIntentRecord) (event : EventPhase) (q : Phase) : Except Exc BrokerOrderResult → Prop
  | .ok result => q = ⟨.decided r result, event⟩
  | .error e => Failed quiet r.id event q e

/-- Validating a result that has been decided on. -/
theorem follows_validate (intent : ExecutionIntent) (result : BrokerOrderResult) :
    (Prog.ofExcept (_validate_result_identity intent result)).Follows (executionProtocol quiet) (Found quiet r event)
      ⟨.decided r result, event⟩ := by
  refine Prog.Follows.ofExcept ?_
  cases h : _validate_result_identity intent result with
  | ok result' =>
    rw [validate_ok h]
    rfl
  | error e => exact .given_up rfl rfl fun _ => terminal_validate h

/-- Looking the order up after a timeout finds a result or fails. -/
theorem follows_resolve {intent : ExecutionIntent} (hi : r.as_domain = .ok intent) :
    (resolve intent).Follows (executionProtocol quiet) (Found quiet r event) ⟨.timedOut r, event⟩ := by
  refine ⟨⟨.relooking r, event⟩, .row (fun _ => nofun) (.relook hi), ?_⟩
  intro answer q ha
  cases ha with
  | event ha => cases ha
  | row ha =>
    cases ha with
    | lost =>
      rw [← OrderIntentRecord.as_domain_idempotency_key hi]
      rfl
    | found => exact follows_validate intent _
    | failed _ _ he => exact Failed.nothing he

/-- A result with another key is no timeout. -/
theorem timeout_validate {intent : ExecutionIntent} {result : BrokerOrderResult} {e : Exc}
    (h : _validate_result_identity intent result = .error e) : e.isA .TimeoutError = false := by
  unfold _validate_result_identity at h
  split at h
  · rw [← Except.error.inj h]
    rfl
  · cases h

/-- The outcome of a submission. -/
def Submitted (quiet : Prop) (r : OrderIntentRecord) (event : EventPhase) (q : Phase) : Except Exc BrokerOrderResult → Prop
  | .ok result => q = ⟨.decided r result, event⟩
  | .error e => e.isA .TimeoutError = true ∧ q = ⟨.timedOut r, event⟩ ∨
      e.isA .TimeoutError = false ∧ Failed quiet r.id event q e

/-- A submission returns a result for the order, times out, or fails. -/
theorem follows_submit {intent : ExecutionIntent} (hi : r.as_domain = .ok intent) :
    (do
      let submitted ← await (.submit intent)
      Prog.ofExcept (_validate_result_identity intent submitted)).Follows (executionProtocol quiet)
        (Submitted quiet r event) ⟨.fresh r, event⟩ := by
  refine ⟨⟨.submitting r, event⟩, .row (fun _ => nofun) (.submit hi), ?_⟩
  intro answer q ha
  cases ha with
  | event ha => cases ha
  | row ha =>
    cases ha with
    | @submitted _ _ result =>
      refine Prog.Follows.ofExcept ?_
      cases h : _validate_result_identity intent result with
      | ok result' =>
        rw [validate_ok h]
        rfl
      | error e => exact .inr ⟨timeout_validate h, .given_up rfl rfl fun _ => terminal_validate h⟩
    | timeout ht => exact .inl ⟨ht, rfl⟩
    | failed _ ht he => exact .inr ⟨ht r rfl, Failed.nothing he⟩

/-- A submission, with a lookup after a timeout, finds a result or fails. -/
theorem follows_dispatch {intent : ExecutionIntent} (hi : r.as_domain = .ok intent) :
    (dispatch intent).Follows (executionProtocol quiet) (Found quiet r event) ⟨.fresh r, event⟩ := by
  refine Prog.Follows.tryExcept (follows_submit hi) (fun q result h => h) ?_
  intro q e h
  rcases h with ⟨ht, rfl⟩ | ⟨ht, h⟩
  · rw [if_pos ht]
    exact follows_resolve hi
  · rw [if_neg (by simp [ht])]
    exact h

/-- The outcome of storing a result. -/
def Saved (quiet : Prop) (r : OrderIntentRecord) (result : BrokerOrderResult) (event : EventPhase) (q : Phase) :
    Except Exc Unit → Prop
  | .ok _ => ∃ r', r.Stored r' result ∧ q = ⟨.ended (.settled r'), event⟩
  | .error e => Failed quiet r.id event q e

/-- Writing and committing the row with its result. -/
theorem follows_write {r' : OrderIntentRecord} {result : BrokerOrderResult} (hr : r.Stored r' result) :
    (do
      let _ ← await (.flush r')
      await .commit).Follows (executionProtocol quiet) (Saved quiet r result event) ⟨.relocked r result, event⟩ := by
  refine ⟨⟨.flushing r r' result, event⟩, .row (fun _ => nofun) (.flush hr), ?_⟩
  intro answer q ha
  cases ha with
  | event ha => cases ha
  | row ha =>
    cases ha with
    | failed _ _ he => exact Failed.nothing he
    | flushed =>
      refine ⟨⟨.committing r r' result, event⟩, .row (fun _ => nofun) .commit, ?_⟩
      intro answer q ha
      cases ha with
      | event ha => cases ha
      | row ha =>
        cases ha with
        | failed _ _ he => exact Failed.nothing he
        | committed => exact ⟨r', hr, rfl⟩

/-- The body of the `try` of `save_broker_result`. -/
theorem follows_store (result : BrokerOrderResult) :
    (do
      let record ← lock_for_execution r.id
      let record ← Prog.ofExcept (record.withResult result)
      let _ ← await (.flush record)
      await .commit).Follows (executionProtocol quiet) (Saved quiet r result event) ⟨.decided r result, event⟩ := by
  refine ⟨⟨.relocking r result, event⟩, .row (fun _ => nofun) .relock, ?_⟩
  intro answer q ha
  cases ha with
  | event ha => cases ha
  | row ha =>
    cases ha with
    | failed _ _ he => exact Failed.nothing he
    | relocked =>
      show ((Prog.ofExcept (r.withResult result) : Coro _) >>= fun record => do
        let _ ← await (.flush record)
        await .commit).Follows _ _ _
      cases h : r.withResult result with
      | error e => exact .given_up rfl rfl fun _ => terminal_withResult h
      | ok r' => exact follows_write (OrderIntentRecord.withResult_ok h)

/-- Giving the row back: whatever is known of it stays known, unless the call raises. -/
theorem follows_rollback {q : Phase} {k : Known} (hq : leaves q.row = some k) :
    (await .rollback).Follows (executionProtocol quiet)
      (fun q' answer => q'.event = q.event ∧ match answer with
        | .ok _ => q'.row = .ended k
        | .error e => q'.row = .ended .nothing ∧ (quiet → terminal e = false)) q := by
  obtain ⟨row, event⟩ := q
  refine ⟨⟨.rolling k, event⟩, .row (fun _ h => by simp [h, Phase.leaves] at hq) (.rollback hq), ?_⟩
  intro answer q' ha
  cases ha with
  | event ha => cases ha
  | row ha =>
    cases ha with
    | rolledBack => exact ⟨rfl, rfl⟩
    | failed _ _ he => exact ⟨rfl, rfl, he⟩

/-- A failure stays one while the row is given back, or becomes another one. -/
theorem follows_failed {α : Type} {id : UUID} {q : Phase} {e : Exc} (h : Failed quiet id event q e)
    {Θ : Phase → Except Exc α → Prop} (hΘ : ∀ q' e', Failed quiet id event q' e' → Θ q' (.error e')) :
    (do
      let _ ← await .rollback
      Prog.raise e : Coro α).Follows (executionProtocol quiet) Θ q := by
  obtain ⟨k, hk⟩ := h.leaves
  refine Prog.Follows.bind (follows_rollback hk) ?_ ?_
  · intro q' _ hq'
    refine hΘ q' e ⟨hq'.1.trans h.event, ⟨k, by rw [hq'.2]; rfl⟩, h.error.imp_right ?_, fun r hr => h.defect r ?_⟩
    · intro hrow
      rw [hrow] at hk
      rw [hq'.2, ← Option.some.inj hk]
    · rw [hq'.2] at hr
      exact hk.trans hr
  · intro q' e' hq'
    exact hΘ q' e' (.given_up (hq'.1.trans h.event) (by rw [hq'.2.1]; rfl) hq'.2.2)

/-- Saving a result commits it, or raises with the row given back or not. -/
theorem follows_save (result : BrokerOrderResult) :
    (save_broker_result r.id result).Follows (executionProtocol quiet) (Saved quiet r result event)
      ⟨.decided r result, event⟩ := by
  refine Prog.Follows.tryExcept (follows_store result) (fun q _ h => h) ?_
  intro q e h
  split
  · exact follows_failed h fun q' e' h' => h'
  · exact h

/-- The outcome of the part for a queued order: the row is settled and shows the result. -/
def Settled (quiet : Prop) (id : UUID) (event : EventPhase) (q : Phase) : Except Exc BrokerOrderResult → Prop
  | .ok result => q.event = event ∧ ∃ r, q.row = .ended (.settled r) ∧ r.id = id ∧ Shows r result
  | .error e => Failed quiet id event q e

/-- Persisting a result settles the row, or fails. -/
theorem follows_persist (hevidence : Evidence r) (result : BrokerOrderResult) :
    (_persist_result r.id result).Follows (executionProtocol quiet) (Settled quiet r.id event)
      ⟨.decided r result, event⟩ := by
  refine Prog.Follows.bind (follows_save result) ?_ fun q e h => h
  intro q _ h
  obtain ⟨r', hr, rfl⟩ := h
  refine ⟨rfl, r', rfl, hr.id, ⟨?_, ?_⟩, hr.as_broker_result⟩
  · rw [hr.risk_decision_id]
    exact hevidence.1
  · rw [hr.approval_id]
    exact hevidence.2

/-- Executing a queued row settles it, or fails. -/
theorem follows_executeQueued (hq : r.state = .QUEUED) (hevidence : Evidence r) :
    (executeQueued r.id r).Follows (executionProtocol quiet) (Settled quiet r.id event) ⟨.held r, event⟩ := by
  unfold executeQueued
  cases hi : r.as_domain with
  | error e =>
    refine .given_up rfl ?_ fun _ => terminal_as_domain hi
    simp only [Phase.leaves, if_pos hq]
  | ok intent =>
    refine ⟨⟨.looking r, event⟩, .row (fun _ => nofun) (.look hq hi), ?_⟩
    intro answer q ha
    cases ha with
    | event ha => cases ha
    | row ha =>
      have hpersist : ∀ q result, q = ⟨.decided r result, event⟩ →
          (_persist_result r.id result).Follows (executionProtocol quiet) (Settled quiet r.id event) q := by
        rintro _ result rfl
        exact follows_persist hevidence result
      cases ha with
      | failed _ _ he => exact Failed.nothing he
      | unknown => exact Prog.Follows.bind (follows_dispatch hi) hpersist fun q e h => h
      | known => exact Prog.Follows.bind (follows_validate intent _) hpersist fun q e h => h

/-- The outcome of the body of `execute`: with the flag set the row was given back with the commit, else it is still held. -/
def Body (quiet : Prop) (id : UUID) (event : EventPhase) (q : Phase) : Except Exc (BrokerOrderResult × Bool) → Prop
  | .ok (result, true) => Settled quiet id event q (.ok result)
  | .ok (result, false) => ∃ r, q = ⟨.held r, event⟩ ∧ r.state ≠ .QUEUED ∧ r.id = id ∧ Shows r result
  | .error e => Failed quiet id event q e

/-- A row that is given back as settled is the row that was held. -/
theorem leaves_held {r r' : OrderIntentRecord} (h : leaves (.held r) = some (.settled r')) : r' = r := by
  simp only [leaves, Option.some.injEq] at h
  split at h
  · cases h
  · exact (Known.settled.inj h).symm

/-- The body of `execute` settles its row, still holds one that was settled, or fails. -/
theorem follows_body {target : Option UUID} (id : UUID) (ht : target = none ∨ target = some id) (he : event ≠ .claiming) :
    (body id).Follows (executionProtocol quiet) (Body quiet id event) ⟨.start target, event⟩ := by
  refine ⟨⟨.locking id, event⟩, .row (fun _ _ => he) (.lock ht), ?_⟩
  intro answer q ha
  cases ha with
  | event ha => cases ha
  | row ha =>
    cases ha with
    | failed _ _ he => exact Failed.nothing he
    | missing => exact ⟨rfl, ⟨_, rfl⟩, .inr rfl, fun _ h => nomatch Option.some.inj h⟩
    | @locked r hev =>
      show (if r.risk_decision_id = none ∨ r.approval_id = none then _ else if r.state ≠ .QUEUED then _ else _ :
        Coro (BrokerOrderResult × Bool)).Follows _ _ _
      split
      · rename_i hnone
        refine ⟨rfl, ⟨_, rfl⟩, .inl ?_, ?_⟩
        · intro hquiet
          exact absurd hnone (not_or.mpr (hev hquiet))
        · intro r' hr'
          rw [leaves_held hr']
          exact .inl fun h => not_or.mpr h hnone
      · rename_i hevidence
        split
        · rename_i hstate
          cases hres : r.as_broker_result with
          | error e =>
            refine ⟨rfl, ⟨_, rfl⟩, .inl fun _ => terminal_as_broker_result hres, ?_⟩
            intro r' hr'
            rw [leaves_held hr']
            exact .inr ⟨e, hres⟩
          | ok result => exact ⟨r, rfl, hstate, rfl, not_or.mp hevidence, hres⟩
        · rename_i hstate
          exact Prog.Follows.bind (follows_executeQueued (not_not.mp hstate) (not_or.mp hevidence)) (fun q result h => h)
            fun q e h => h

/-- An execution that returns leaves its row settled, and the row shows the result it returns; one that raises may have given the row
back or not. -/
def Executed (quiet : Prop) (id : UUID) (event : EventPhase) (q : Phase) : Except Exc BrokerOrderResult → Prop
  | .ok result => Settled quiet id event q (.ok result)
  | .error e => q.event = event ∧ ((quiet → terminal e = false) ∨ q.row = .ended (.missing id)) ∧
      ∃ k, q.row = .ended k ∧ ∀ r, k = .settled r → Defective r

/-- What is raised once the row is given back leaves nothing known. -/
theorem Executed.raised {id : UUID} {q : Phase} {e : Exc} (hevent : q.event = event) (hrow : q.row = .ended .nothing)
    (he : quiet → terminal e = false) : Executed quiet id event q (.error e) :=
  ⟨hevent, .inl he, .nothing, hrow, fun _ h => Known.noConfusion h⟩

/-- `execute` follows the protocol. -/
theorem follows_execute {target : Option UUID} (id : UUID) (ht : target = none ∨ target = some id) (he : event ≠ .claiming) :
    (execute id).Follows (executionProtocol quiet) (Executed quiet id event) ⟨.start target, event⟩ := by
  let Returned (q : Phase) (x : Except Exc (BrokerOrderResult × Bool)) : Prop := Executed quiet id event q (x.map Prod.fst)
  have hfinal : (Prog.tryFinally (body id) finalizer).Follows (executionProtocol quiet) Returned ⟨.start target, event⟩ := by
    refine Prog.Follows.tryFinally (follows_body id ht he) ?_
    intro q x h
    match x, h with
    | .ok (result, true), h => exact h
    | .ok (result, false), ⟨r, hq, hstate, hid, hres⟩ =>
      have hleaves : leaves q.row = some (.settled r) := by
        rw [hq, leaves, if_neg hstate]
      refine (follows_rollback hleaves).mono ?_
      intro q' answer h
      match answer, h with
      | .ok _, ⟨hev, hrow⟩ =>
        rw [hq] at hev
        exact ⟨hev, r, hrow, hid, hres⟩
      | .error e, ⟨hev, hrow, he⟩ =>
        rw [hq] at hev
        exact Executed.raised hev hrow he
    | .error e, h =>
      obtain ⟨k, hk⟩ := h.leaves
      refine (follows_rollback hk).mono ?_
      intro q' answer h'
      match answer, h' with
      | .ok _, ⟨hev, hrow⟩ =>
        refine ⟨hev.trans h.event, h.error.imp_right ?_, k, hrow, fun r hr => h.defect r (hr ▸ hk)⟩
        intro hmissing
        rw [hmissing] at hk
        rw [hrow, ← Option.some.inj hk]
      | .error e', ⟨hev, hrow, he⟩ => exact Executed.raised (hev.trans h.event) hrow he
  exact Prog.Follows.bind hfinal (fun q a h => h) fun q e h => h

/-! ## The worker -/

/-- A rollback of the outbox follows it anywhere. -/
theorem follows_rollback_outbox (q : Phase) :
    (await .rollback_outbox).Follows (executionProtocol quiet) (fun _ _ => True) q :=
  ⟨q, .event .rollback, fun _ _ _ => trivial⟩

/-- Ending with an error, once the outbox was rolled back. -/
theorem follows_give_up {α : Type} (q : Phase) (e : Exc) :
    (do
      let _ ← await .rollback_outbox
      Prog.raise e : Coro α).Follows (executionProtocol quiet) (fun _ _ => True) q :=
  Prog.Follows.bind (follows_rollback_outbox q) (fun _ _ _ => trivial) fun _ _ _ => trivial

/-- Marking an event that may be marked: what comes of it does not matter. -/
theorem follows_mark {row : RowPhase} (claimed : ClaimedEvent) (now : Int) (hd : quiet → Discharged row claimed) :
    (OutboxRepository.mark_published now claimed.id).Follows (executionProtocol quiet) (fun _ _ => True)
      ⟨row, .claimed claimed⟩ := by
  refine Prog.Follows.tryExcept (Φ := fun _ _ => True) ?_ (fun _ _ _ => trivial) fun q e _ => follows_give_up q e
  cases hid : UUID.parse claimed.id with
  | none => exact trivial
  | some id =>
    refine ⟨⟨row, .marking claimed⟩, .event (.get hid hd), ?_⟩
    intro answer q ha
    cases ha with
    | row ha => cases ha with
      | failed hop => cases hop
    | event ha =>
      cases ha with
      | gone => exact trivial
      | refused => exact trivial
      | got hrecord =>
        refine ⟨⟨row, .marking claimed⟩, .event (.flush hrecord), ?_⟩
        intro answer q ha
        cases ha with
        | row ha => cases ha with
          | failed hop => cases hop
        | event ha =>
          cases ha with
          | flushed =>
            cases answer with
            | error e => exact trivial
            | ok _ => exact ⟨⟨row, .marking claimed⟩, .event .commit, fun _ _ _ => trivial⟩

/-- Marking an event and returning. -/
theorem follows_mark_and_return {row : RowPhase} (claimed : ClaimedEvent) (now : Int)
    (hd : quiet → Discharged row claimed) :
    (do
      let _ ← OutboxRepository.mark_published now claimed.id
      return true).Follows (executionProtocol quiet) (fun _ _ => True) ⟨row, .claimed claimed⟩ := by
  refine Prog.Follows.bind (follows_mark claimed now hd) ?_ ?_
  · intro q _ _
    exact trivial
  · intro q e _
    exact trivial

/-- A worker marks its event only once the intent is settled or missing. -/
theorem follows_settle {claimed : ClaimedEvent} {id : UUID} (now : Int) (hread : _read_intent_id claimed = some id)
    {q : Phase} {outcome : Except Exc BrokerOrderResult} (h : Executed quiet id (.claimed claimed) q outcome) :
    (settle now claimed.id outcome).Follows (executionProtocol quiet) (fun _ _ => True) q := by
  obtain ⟨row, ev⟩ := q
  have hdischarged : (∃ r, row = .ended (.settled r) ∧ r.id = id) ∨ row = .ended (.missing id) → Discharged row claimed := by
    intro hrow id' hid'
    rw [hread] at hid'
    exact Option.some.inj hid' ▸ hrow
  cases outcome with
  | ok result =>
    obtain ⟨rfl, r, hrow, hid, _⟩ := h
    exact follows_mark_and_return claimed now fun _ => hdischarged (.inl ⟨r, hrow, hid⟩)
  | error e =>
    obtain ⟨rfl, he, _⟩ := h
    show (if terminal e then _ else if e.isA .Exception then _ else _ : Coro Bool).Follows _ _ _
    split
    · rename_i hterminal
      refine follows_mark_and_return claimed now fun hquiet => hdischarged (.inr ?_)
      rcases he with he | hrow
      · rw [he hquiet] at hterminal
        cases hterminal
      · exact hrow
    · split
      · exact follows_give_up _ e
      · exact trivial

/-- And so does a round of the worker. -/
theorem follows_process_one (now : Int) :
    (_process_one execute now).Follows (executionProtocol quiet) (fun _ _ => True) ⟨.start none, .out⟩ := by
  refine ⟨⟨.start none, .claiming⟩, .event (.claim rfl), ?_⟩
  intro answer q ha
  cases ha with
  | row ha => cases ha with
    | failed hop => cases hop
  | event ha =>
    cases ha with
    | nothing => exact trivial
    | unclaimed => exact trivial
    | @claimed _ _ event rest =>
      dsimp only [Bind.bind, Prog.bind, Prog.andThen]
      cases hread : _read_intent_id event with
      | none =>
        refine follows_mark_and_return event now ?_
        intro _ id hid
        rw [hread] at hid
        cases hid
      | some id => exact Prog.Follows.seq (follows_execute id (.inl rfl) nofun) fun q outcome h => follows_settle now hread h

end ExecutionFollows

end MtossBot
