import MtossBot.Lemmas.Events

/-!
# Tasks by themselves

What a task does when nothing comes between its steps and every call answers: the way to build the runs that show what can happen. The
lemmas hold of any pool whose calls are those of the world.
-/

namespace MtossBot


variable {α L T B : Type} [DecidableEq T] {sys : System calls Exc α T (World T B) L} {broker : Broker B} {dbRaises : Exc → Prop}
  {w w₁ w₂ w' : World T B} {t : T}

/-- The calls of a pool do what they do to the world. -/
structure Serves (sys : System calls Exc α T (World T B) L) (broker : Broker B) (dbRaises : Exc → Prop) : Prop where
  call : ∀ {w t op w'}, w.call broker t op w' → sys.call w t op w'
  answer : ∀ {w t op r w'}, w.answer broker dbRaises t w' op r → sys.answer w t op r w'

/-- A call and its answer, and what comes after them. -/
theorem Serves.then {β : Type} (hs : Serves sys broker dbRaises) {op : Call} {r : Except Exc op.Res}
    {k : Except Exc op.Res → Coro β} {ls : List (Label calls Exc α T L)} {p : Coro β} (hcall : w.call broker t op w₁)
    (hanswer : w₁.answer broker dbRaises t w₂ op r) (h : System.Alone sys t w₂ (k r) ls w' p) :
    System.Alone sys t w (.call op k) (.call t op :: .answer t op r :: ls) w' p :=
  .call (hs.call hcall) (hs.answer hanswer) h

/-! ## The outbox -/

/-- A task has written an event and committed it. -/
def World.publish (w : World T B) (t : T) (record : OutboxEventRecord) : World T B :=
  World.commit_outbox { w.mark t record with committing_outbox := Function.update w.committing_outbox t true } t

@[simp] theorem World.outbox_publish (record : OutboxEventRecord) :
    (w.publish t record).outbox = Function.update w.outbox record.id (some record) :=
  World.outbox_commit_outbox_some (Function.update_self _ _ _)

/-- The steps of marking an event. -/
def marking (α L : Type) (t : T) (e : OutboxEventRecord) (now : Int) : List (Label calls Exc α T L) :=
  [.call t (.get_event e.id), .answer t (.get_event e.id) (.ok (some e)),
    .call t (.flush_event { e with published_at := some now }), .answer t (.flush_event { e with published_at := some now }) (.ok ()),
    .call t .commit_outbox, .answer t .commit_outbox (.ok ())]

theorem alone_mark_published (hs : Serves sys broker dbRaises) {e : OutboxEventRecord} (he : w.outbox e.id = some e) (now : Int) :
    System.Alone sys t w (OutboxRepository.mark_published now e.id.str) (marking α L t e now)
      (w.publish t { e with published_at := some now }) (.done (.ok ())) := by
  unfold OutboxRepository.mark_published
  rw [UUID.parse_str]
  exact hs.then rfl ⟨he.symm, rfl⟩ <| hs.then rfl rfl <| hs.then rfl rfl .refl

omit [DecidableEq T] in
/-- The only event that can be claimed is claimed. -/
theorem World.claims_single {topic : Option String} {e : OutboxEventRecord} (h : w.Claimable topic e)
    (hall : ∀ e', w.Claimable topic e' → e' = e) : w.Claims 1 topic [e] where
  claimable _ he := List.mem_singleton.mp he ▸ h
  distinct := List.nodup_singleton _
  ordered := List.pairwise_singleton _ _
  bounded := Nat.le_refl 1
  first e' he' := .inl (List.mem_singleton.mpr (hall e' he'))

/-- A worker that is given one event goes on with the execution of its intent. -/
theorem alone_process_one {β : Type} (hs : Serves sys broker dbRaises) {execute_intent : UUID → Coro β} {e : OutboxEventRecord}
    {id : UUID} {now : Int} {ls : List (Label calls Exc α T L)} {p : Coro Bool}
    (hclaims : w.Claims 1 (some ExecutionWorker.EXECUTION_TOPIC) [e]) (hread : ExecutionWorker._read_intent_id e.claimed = some id)
    (h : System.Alone sys t (w.claim t [e]) ((execute_intent id).andThen (ExecutionWorker.settle now e.claimed.id)) ls w' p) :
    System.Alone sys t w (ExecutionWorker._process_one execute_intent now)
      (.call t (.claim 1 (some ExecutionWorker.EXECUTION_TOPIC)) ::
        .answer t (.claim 1 (some ExecutionWorker.EXECUTION_TOPIC)) (.ok [e.claimed]) :: ls) w' p := by
  refine hs.then rfl ⟨[e], hclaims, rfl, rfl⟩ ?_
  simp only [Prog.done_andThen, hread]
  exact h

/-! ## The orders -/

/-- A task has locked the row of an order, and written and committed it. -/
def World.store (w : World T B) (t : T) (record : OrderIntentRecord) : World T B :=
  World.commit { (w.lock t record.id).write t record with committing := Function.update w.committing t true } t

@[simp] theorem World.rows_store (record : OrderIntentRecord) : (w.store t record).rows = Function.update w.rows record.id (some record) :=
  World.rows_commit_some (Function.update_self _ _ _)

section Execute

open ExecutionService OrderRepository

variable {r r' : OrderIntentRecord} {intent : ExecutionIntent} {result : BrokerOrderResult} {b b' : B}
  {ls : List (Label calls Exc α T L)}

/-- A submission that is answered at once. -/
theorem alone_submit (hs : Serves sys broker dbRaises) (hid : result.client_order_id = intent.idempotency_key)
    (hsubmit : broker.submit w.broker intent b) (hsubmitted : broker.submitted b intent (.ok result) b') :
    System.Alone sys t w (dispatch intent) [.call t (.submit intent), .answer t (.submit intent) (.ok result)] { w with broker := b' }
      (.done (.ok result)) := by
  refine hs.then ⟨b, hsubmit, rfl⟩ ⟨b', hsubmitted, rfl⟩ ?_
  simp only [Prog.done_andThen, Prog.ofExcept, _validate_result_identity, hid, ne_eq, not_true_eq_false, if_false]
  exact .refl

/-- The steps of storing a result. -/
def storing (t : T) (r r' : OrderIntentRecord) : List (Label calls Exc α T L) :=
  [.call t (.scalar_for_update r.id), .answer t (.scalar_for_update r.id) (.ok (some r)), .call t (.flush r'),
    .answer t (.flush r') (.ok ()), .call t .commit, .answer t .commit (.ok ())]

theorem alone_persist (hs : Serves sys broker dbRaises) (hrow : w.rows r.id = some r) (howner : w.owner r.id = some t)
    (hwrote : w.wrote t = none) (hstored : r.withResult result = .ok r') :
    System.Alone sys t w (_persist_result r.id result) (storing t r r') (w.store t r') (.done (.ok result)) := by
  have hread : w.read t r.id = some r := by rw [World.read, hwrote, hrow]
  have hid : r'.id = r.id := (OrderIntentRecord.withResult_ok hstored).id
  have hlock : w.lock t r'.id = w.lock t r.id := by rw [hid]
  have hbody : System.Alone sys t w (do
      let record ← lock_for_execution r.id
      let record ← Prog.ofExcept (record.withResult result)
      let _ ← await (.flush record)
      await .commit : Coro Unit) (storing t r r') (w.store t r') (.done (.ok ())) := by
    refine hs.then rfl ⟨hread, .inr howner, rfl⟩ ?_
    show System.Alone sys t (w.lock t r.id) (Prog.ofExcept (r.withResult result) >>= fun record => do
      let _ ← await (.flush record)
      await .commit : Coro Unit) _ _ _
    rw [hstored, ← hlock]
    refine hs.then rfl ⟨.inr ?_, rfl⟩ (hs.then rfl rfl .refl)
    exact Function.update_self _ _ _
  show System.Alone sys t w (((_ : Coro Unit).andThen _).andThen _) _ _ _
  exact (hbody.andThen _).andThen _

/-- The steps that lead to a result of a queued order, when the broker does not know of the order yet. -/
def executing (t : T) (r r' : OrderIntentRecord) (intent : ExecutionIntent) (dispatched : List (Label calls Exc α T L)) :
    List (Label calls Exc α T L) :=
  .call t (.scalar_for_update r.id) :: .answer t (.scalar_for_update r.id) (.ok (some r)) ::
    .call t (.lookup_by_client_order_id intent.account_id intent.idempotency_key) ::
    .answer t (.lookup_by_client_order_id intent.account_id intent.idempotency_key) (.ok none) :: (dispatched ++ storing t r r')

/-- The execution of a queued order that the broker does not know of. -/
theorem alone_execute_queued (hs : Serves sys broker dbRaises) (hrow : w.rows r.id = some r) (hfree : w.owner r.id = none)
    (hwrote : w.wrote t = none) (hevidence : ¬(r.risk_decision_id = none ∨ r.approval_id = none)) (hqueued : r.state = .QUEUED)
    (hdomain : r.as_domain = .ok intent) (hstored : r.withResult result = .ok r')
    (hlook : broker.looked_up w.broker intent.account_id intent.idempotency_key (.ok none) b)
    (hdispatch : System.Alone sys t { w.lock t r.id with broker := b } (dispatch intent) ls { w.lock t r.id with broker := b' }
      (.done (.ok result))) :
    System.Alone sys t w (execute r.id) (executing t r r' intent ls) (World.store { w.lock t r.id with broker := b' } t r')
      (.done (.ok result)) := by
  have hread : w.read t r.id = some r := by rw [World.read, hwrote, hrow]
  have hpersist : System.Alone sys t { w.lock t r.id with broker := b' } (_persist_result r.id result) (storing t r r')
      (World.store { w.lock t r.id with broker := b' } t r') (.done (.ok result)) :=
    alone_persist hs hrow (Function.update_self _ _ _) hwrote hstored
  have hqueue : System.Alone sys t (w.lock t r.id) (executeQueued r.id r)
      (.call t (.lookup_by_client_order_id intent.account_id intent.idempotency_key) ::
        .answer t (.lookup_by_client_order_id intent.account_id intent.idempotency_key) (.ok none) :: (ls ++ storing t r r'))
      (World.store { w.lock t r.id with broker := b' } t r') (.done (.ok result)) := by
    unfold executeQueued
    rw [hdomain]
    refine hs.then rfl ⟨b, hlook, rfl⟩ ?_
    exact hdispatch.seq hpersist
  have hbody : System.Alone sys t w (body r.id) (executing t r r' intent ls) (World.store { w.lock t r.id with broker := b' } t r')
      (.done (.ok (result, true))) := by
    refine hs.then rfl ⟨hread, .inl hfree, rfl⟩ ?_
    show System.Alone sys t _ (if r.risk_decision_id = none ∨ r.approval_id = none then _ else if r.state ≠ .QUEUED then _ else
      ((executeQueued r.id r).andThen _) : Coro (BrokerOrderResult × Bool)) _ _ _
    rw [if_neg hevidence, if_neg (not_not.mpr hqueued)]
    exact hqueue.andThen _
  show System.Alone sys t w (((body r.id).andThen _).andThen _) _ _ _
  exact (hbody.andThen _).andThen _

/-- The execution of a queued order whose look-up raises. -/
theorem alone_execute_raised (hs : Serves sys broker dbRaises) (hrow : w.rows r.id = some r) (hfree : w.owner r.id = none)
    (hwrote : w.wrote t = none) (hevidence : ¬(r.risk_decision_id = none ∨ r.approval_id = none)) (hqueued : r.state = .QUEUED)
    (hdomain : r.as_domain = .ok intent) {e : Exc}
    (hlook : broker.looked_up w.broker intent.account_id intent.idempotency_key (.error e) b) :
    System.Alone sys t w (execute r.id) [.call t (.scalar_for_update r.id), .answer t (.scalar_for_update r.id) (.ok (some r)),
      .call t (.lookup_by_client_order_id intent.account_id intent.idempotency_key),
      .answer t (.lookup_by_client_order_id intent.account_id intent.idempotency_key) (.error e),
      .call t .rollback, .answer t .rollback (.ok ())] (World.rollback { w.lock t r.id with broker := b } t) (.done (.error e)) := by
  have hread : w.read t r.id = some r := by rw [World.read, hwrote, hrow]
  have hqueue : System.Alone sys t (w.lock t r.id) (executeQueued r.id r)
      [.call t (.lookup_by_client_order_id intent.account_id intent.idempotency_key),
        .answer t (.lookup_by_client_order_id intent.account_id intent.idempotency_key) (.error e)]
      { w.lock t r.id with broker := b } (.done (.error e)) := by
    unfold executeQueued
    rw [hdomain]
    exact hs.then rfl ⟨b, hlook, rfl⟩ .refl
  have hbody : System.Alone sys t w (body r.id) [.call t (.scalar_for_update r.id),
      .answer t (.scalar_for_update r.id) (.ok (some r)), .call t (.lookup_by_client_order_id intent.account_id intent.idempotency_key),
      .answer t (.lookup_by_client_order_id intent.account_id intent.idempotency_key) (.error e)]
      { w.lock t r.id with broker := b } (.done (.error e)) := by
    refine hs.then rfl ⟨hread, .inl hfree, rfl⟩ ?_
    show System.Alone sys t _ (if r.risk_decision_id = none ∨ r.approval_id = none then _ else if r.state ≠ .QUEUED then _ else
      ((executeQueued r.id r).andThen _) : Coro (BrokerOrderResult × Bool)) _ _ _
    rw [if_neg hevidence, if_neg (not_not.mpr hqueued)]
    exact hqueue.andThen _
  show System.Alone sys t w (((body r.id).andThen _).andThen _) _ _ _
  exact ((hbody.andThen _).andThen _).trans (hs.then rfl rfl .refl)

/-- The execution of a settled order. -/
theorem alone_execute_settled (hs : Serves sys broker dbRaises) (hrow : w.rows r.id = some r) (hfree : w.owner r.id = none)
    (hwrote : w.wrote t = none) (hevidence : ¬(r.risk_decision_id = none ∨ r.approval_id = none)) (hsettled : r.state ≠ .QUEUED)
    (hresult : r.as_broker_result = .ok result) :
    System.Alone sys t w (execute r.id) [.call t (.scalar_for_update r.id), .answer t (.scalar_for_update r.id) (.ok (some r)),
      .call t .rollback, .answer t .rollback (.ok ())] ((w.lock t r.id).rollback t) (.done (.ok result)) := by
  have hread : w.read t r.id = some r := by rw [World.read, hwrote, hrow]
  have hbody : System.Alone sys t w (body r.id) [.call t (.scalar_for_update r.id), .answer t (.scalar_for_update r.id) (.ok (some r))]
      (w.lock t r.id) (.done (.ok (result, false))) := by
    refine hs.then rfl ⟨hread, .inl hfree, rfl⟩ ?_
    show System.Alone sys t _ (if r.risk_decision_id = none ∨ r.approval_id = none then _ else if r.state ≠ .QUEUED then
      Prog.ofExcept r.as_broker_result >>= _ else _ : Coro (BrokerOrderResult × Bool)) _ _ _
    rw [if_neg hevidence, if_pos hsettled, hresult]
    exact .refl
  show System.Alone sys t w (((body r.id).andThen _).andThen _) _ _ _
  exact ((hbody.andThen _).andThen _).trans (hs.then rfl rfl .refl)

end Execute

end MtossBot
