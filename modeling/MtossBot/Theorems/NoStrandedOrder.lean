import MtossBot.Lemmas.ExecutionBase
import MtossBot.Lemmas.LimitRuns

/-!
# No order is stranded

An order that is queued has an event that is yet to be taken, as long as neither the database nor the broker raises what a worker takes for a
permanent failure. The worker goes by the class of an exception alone, so that such an exception from the broker strands an order.
-/

namespace MtossBot

/-- The event announces an order to the workers. -/
structure Carries (record : OutboxEventRecord) (id : UUID) : Prop where
  unpublished : record.published_at = none
  topic : record.topic = ExecutionWorker.EXECUTION_TOPIC
  reads : ExecutionWorker._read_intent_id record.claimed = some id

/-- Every queued order has an event that announces it. -/
def NotStranded {T B : Type} (w : World T B) : Prop :=
  ∀ id r, w.rows id = some r → r.state = .QUEUED → ∃ record, w.outbox record.id = some record ∧ Carries record id

/-- No call of an execution raises an error that is terminal for a worker, except a submission that also times out. -/
def MildAnswer (_ : List Event) (l : Event) : Prop := ∀ t op r, l = .answer t op r → Mild op r

namespace NoStrandedAux

open Phase ExecutionWorker

variable {B : Type} {w w' : World Caller B} {t : Caller} {g : Caller → Option Phase} {event : ClaimedEvent}

/-- The task is going to mark the event: it may already, or it has found that the intent is missing. -/
def Dooms (q : Phase) (event : ClaimedEvent) : Prop :=
  q.event = .marking event ∨
    q.event = .claimed event ∧ ∃ id, (q.row = .ended (.missing id) ∨ q.row = .rolling (.missing id)) ∧ _read_intent_id event = some id

/-- No order that is queued has the event's id. -/
def Unneeded (w : World Caller B) (event : ClaimedEvent) : Prop :=
  ∀ id r, _read_intent_id event = some id → w.rows id = some r → r.state ≠ .QUEUED

/-- Every queued order has an event that announces it and that no task is going to mark. -/
def Carried (w : World Caller B) (g : Caller → Option Phase) : Prop :=
  ∀ id r, w.rows id = some r → r.state = .QUEUED →
    ∃ record, w.outbox record.id = some record ∧ Carries record id ∧ ∀ t q, g t = some q → ¬Dooms q record.claimed

/-- A task is going to mark what it has written. -/
theorem dooms_marked (hb : Base True w g) {record : OutboxEventRecord} (hm : w.marked t = some record) :
    ∃ q, g t = some q ∧ Dooms q record.claimed := by
  cases hg : g t with
  | none =>
    rw [(hb.absent t hg).2] at hm
    cases hm
  | some q =>
    refine ⟨q, rfl, ?_⟩
    have hev := hb.event t q hg
    cases hq : q.event with
    | out =>
      rw [hq] at hev
      exact absurd (hev.symm.trans hm) (by simp)
    | claiming =>
      rw [hq] at hev
      exact absurd (hev.symm.trans hm) (by simp)
    | claimed event =>
      rw [hq] at hev
      exact absurd (hev.1.symm.trans hm) (by simp)
    | marking event =>
      rw [hq] at hev
      exact .inl (hev.2 record hm ▸ hq)

/-- A step of a task keeps the events of the queued orders, if it is only going to mark what it was going to mark or what is not needed. -/
theorem Carried.effect (hb : Base True w g) (h : Carried w g) (ho : OrderEffect w t w') (he : EventEffect w t w')
    {p : Option Phase} (hp : ∀ q, p = some q → ∀ event, Dooms q event → (∃ q₀, g t = some q₀ ∧ Dooms q₀ event) ∨ Unneeded w event) :
    Carried w' (Function.update g t p) := by
  intro id r hr hqueued
  have hr₀ : w.rows id = some r := by
    rcases ho.rows_cases hb.sound with hrows | ⟨r₀, r₁, result, _, _, hq₀, hstored, hrows⟩
    · rwa [hrows] at hr
    · rw [hrows, Function.update_apply] at hr
      split at hr
      · rw [← Option.some.inj hr] at hqueued
        exact absurd hqueued (hstored.state_ne_queued hq₀)
      · exact hr
  obtain ⟨record, hrecord, hcarries, hfree⟩ := h id r hr₀ hqueued
  refine ⟨record, ?_, hcarries, ?_⟩
  · rcases he.outbox_cases with houtbox | ⟨m, hm, houtbox⟩
    · rw [houtbox, hrecord]
    · rw [houtbox, Function.update_of_ne, hrecord]
      -- an event with the key of the one that is written is the one that is written
      intro hid
      obtain ⟨q, hq, hdooms⟩ := dooms_marked hb hm
      obtain ⟨m', hm', hclaimed⟩ := hb.events.marked hm
      have hid' : m'.id = m.id := UUID.str_injective (congrArg ClaimedEvent.id hclaimed)
      rw [hid', ← hid, hrecord, Option.some.injEq] at hm'
      rw [← hclaimed, ← hm'] at hdooms
      exact hfree t q hq hdooms
  · intro u q hu hdooms
    by_cases hut : u = t
    · subst hut
      rw [Function.update_self] at hu
      rcases hp q hu _ hdooms with ⟨q₀, hq₀, hdooms₀⟩ | hunneeded
      · exact hfree u q₀ hq₀ hdooms₀
      · exact hunneeded id r hcarries.reads hr₀ hqueued
    · rw [Function.update_of_ne hut] at hu
      exact hfree u q hu hdooms

/-! ## What a step is going to mark -/

theorem Dooms.of_row {q q' : Phase} (h : Dooms q' event) (hevent : q'.event = q.event)
    (hrow : ∀ id, q'.row = .ended (.missing id) ∨ q'.row = .rolling (.missing id) →
      q.row = .ended (.missing id) ∨ q.row = .rolling (.missing id)) : Dooms q event := by
  rcases h with h | ⟨h, id, hid, hread⟩
  · exact .inl (hevent ▸ h)
  · exact .inr ⟨hevent ▸ h, id, hrow id hid, hread⟩

/-- Making a call, a task is going to mark only what is not needed, or what it was going to mark. -/
theorem dooms_issue {q q' : Phase} {op : Call} (hknows : RowKnows w t q.row) (hi : Issue True q op q') (h : Dooms q' event) :
    Dooms q event ∨ Unneeded w event := by
  cases hi with
  | @row row₀ row₁ _ _ _ hi =>
    refine .inl (h.of_row rfl ?_)
    intro id hid
    cases hi with
    | rollback hk =>
      rcases hid with hid | hid
      · cases hid
      · obtain rfl := RowPhase.rolling.inj hid
        cases row₀ with
        | ended k =>
          obtain rfl := Option.some.inj hk
          exact .inl rfl
        | held r =>
          obtain hk := Option.some.inj hk
          split at hk <;> cases hk
        | _ => cases hk
    | _ => rcases hid with hid | hid <;> cases hid
  | @event row _ _ _ hi =>
    cases hi with
    | claim _ => rcases h with h | ⟨h, _⟩ <;> cases h
    | @get event' id _ hdischarged =>
      rcases h with h | ⟨h, _⟩
      · obtain rfl := EventPhase.marking.inj h
        cases hread : _read_intent_id event' with
        | none => exact .inr fun id r hid => by rw [hread] at hid; cases hid
        | some id =>
          rcases hdischarged trivial id hread with ⟨r, rfl, rfl⟩ | hmissing
          · refine .inr ?_
            intro id r' hid hr'
            obtain ⟨hr, hsettled⟩ : w.rows r.id = some r ∧ r.state ≠ .QUEUED := hknows
            rw [hread, Option.some.injEq] at hid
            rw [← hid, hr, Option.some.injEq] at hr'
            exact hr' ▸ hsettled
          · exact .inl (.inr ⟨rfl, id, .inl hmissing, hread⟩)
      · cases h
    | flush _ => exact .inl h
    | commit => exact .inl h
    | rollback => exact .inl h

/-- After an answer likewise. -/
theorem dooms_answer {broker : Broker B} {dbRaises : Exc → Prop} {q₀ q q' : Phase} {op : Call} {r : Except Exc op.Res}
    (hknows : RowKnows w t q.row) (hi : Issue True q₀ op q) (ha : Answer True q op r q')
    (hw : w.answer broker dbRaises t w' op r) (h : Dooms q' event) : Dooms q event ∨ Unneeded w event := by
  cases ha with
  | row ha =>
    cases ha with
    | @missing id =>
      rcases h with h | ⟨_, id', hid, hread⟩
      · exact .inl (.inl h)
      · obtain rfl : id = id' := by
          rcases hid with hid | hid
          · exact Known.missing.inj (RowPhase.ended.inj hid)
          · cases hid
        refine .inr ?_
        intro id' r hid' hr
        obtain ⟨hread', _⟩ : w.read t id = none ∧ _ := hw
        rw [read_of_wrote_none hknows] at hread'
        rw [hread, Option.some.injEq] at hid'
        rw [← hid', hread'] at hr
        cases hr
    | rolledBack =>
      refine .inl (h.of_row rfl ?_)
      intro id hid
      rcases hid with hid | hid
      · exact .inr (congrArg _ (RowPhase.ended.inj hid))
      · cases hid
    | _ =>
      refine .inl (h.of_row rfl ?_)
      intro id hid
      rcases hid with hid | hid <;> cases hid
  | event ha =>
    cases ha with
    | nothing => rcases h with h | ⟨h, _⟩ <;> cases h
    | unclaimed => rcases h with h | ⟨h, _⟩ <;> cases h
    | claimed =>
      rcases h with h | ⟨_, id, hid, _⟩
      · cases h
      · -- a worker claims before it looks at a row
        obtain ⟨row₀, event₀⟩ := q₀
        have hissue := hi.on_outbox rfl
        cases hissue with
        | claim hstart =>
          simp only at hid hstart
          rw [hstart] at hid
          rcases hid with hid | hid <;> cases hid
    | _ => exact .inl h

/-! ## Requests -/

/-- A new order comes with its event, which no task has yet. -/
theorem Carried.insert (hb : Base True w g) (h : Carried w g) {req : Request} {intent : ExecutionIntent} {risk : RiskDecision}
    {approval : ApprovalDecision} (hi : w.Insertable (req.created intent risk approval)) :
    Carried (w.insert (req.created intent risk approval)) g := by
  intro id r hr hqueued
  rw [rows_insert, Function.update_apply] at hr
  split at hr
  · rename_i hid
    obtain rfl := Option.some.inj hr
    have hstate : APPROVAL_STATES approval.status = .QUEUED := hqueued
    have hevents : (req.created intent risk approval).events = [OrderRepository.readyEvent req.event_id req.created_at intent] := by
      simp only [Request.created, OrderRepository.create_with_outbox, List.nil_append, if_pos hstate]
    have hfree := hi.event_id (OrderRepository.readyEvent req.event_id req.created_at intent) (by rw [hevents]; exact List.mem_singleton_self _)
    refine ⟨OrderRepository.readyEvent req.event_id req.created_at intent, ?_, ⟨rfl, rfl, ?_⟩, ?_⟩
    · simp only [World.insert, hevents, List.foldl_cons, List.foldl_nil]
      exact Function.update_self _ _ _
    · rw [hid]
      exact UUID.parse_str intent.intent_id
    · intro t q hq hdooms
      have hannounced : Announced w (OrderRepository.readyEvent req.event_id req.created_at intent).claimed := by
        have hev := hb.event t q hq
        rcases hdooms with hdooms | ⟨hdooms, _⟩
        · rw [hdooms] at hev
          exact hev.1
        · rw [hdooms] at hev
          exact hev.2
      obtain ⟨record, hrecord, hclaimed⟩ := hannounced
      rw [UUID.str_injective (congrArg ClaimedEvent.id hclaimed), hfree] at hrecord
      cases hrecord
  · obtain ⟨record, hrecord, hcarries, hfree⟩ := h id r hr hqueued
    refine ⟨record, ?_, hcarries, hfree⟩
    rcases outbox_insert hi record.id with houtbox | ⟨hnone, _⟩
    · rw [houtbox, hrecord]
    · rw [hrecord] at hnone
      cases hnone

variable {broker : Broker B} {dbRaises : Exc → Prop} {start : World Caller B → Prop} {upper : String → String}

/-- Every step keeps the events of the queued orders. -/
theorem Carried.step {g g' : Caller → Option (executionProtocol True).Phase} {l : Event} (hb : Base True w g) (h : Carried w g)
    (hst : System.PhaseStep (system upper broker dbRaises start) (executionProtocol True) Ended w g l w' g') : Carried w' g' := by
  cases hst with
  | @spawn t ht =>
    refine h.effect hb (.none ⟨rfl, rfl, rfl⟩) (.none ⟨rfl, rfl⟩) ?_
    intro q hq event hdooms
    obtain rfl := Option.some.inj hq
    rcases hdooms with hdooms | ⟨hdooms, _⟩ <;> cases hdooms
  | @call _ t op q q' hg hi hc =>
    refine h.effect hb (.none (sameOrders_call hc)) (.none (sameEvents_call hc)) ?_
    intro p hp event hdooms
    obtain rfl := Option.some.inj hp
    exact (dooms_issue (hb.row t q hg) hi hdooms).imp_left fun hbefore => ⟨q, hg, hbefore⟩
  | @answer _ t op r q₀ q q' hg hi ha hw =>
    have hrow := hb.row t q hg
    have he := (event_answer hb.events hi (hb.event t q hg) ha hw).1
    refine h.effect hb (effect_answer hi hrow hw) he ?_
    intro p hp event hdooms
    obtain rfl := Option.some.inj hp
    exact (dooms_answer hrow hi ha hw hdooms).imp_left fun hbefore => ⟨q, hg, hbefore⟩
  | @finish _ t r q hg _ hfin =>
    obtain rfl : w' = (w.rollback t).rollback_outbox t := hfin
    have ho : OrderEffect w t ((w.rollback t).rollback_outbox t) := .rollback ⟨rfl, rfl, rfl⟩
    have he : EventEffect w t ((w.rollback t).rollback_outbox t) := .rollback ⟨rfl, rfl⟩
    exact h.effect hb ho he fun _ hp => by cases hp
  | @crash _ t q hg hc =>
    obtain ⟨ho, he, _⟩ := effects_crash hc
    exact h.effect hb ho he fun _ hp => by cases hp
  | @env _ req hc =>
    rcases create_cases hc with ⟨ho, he⟩ | ⟨intent, risk, approval, _, hi, rfl⟩
    · intro id r hr hqueued
      rw [ho.rows] at hr
      rw [he.outbox]
      exact h id r hr hqueued
    · exact h.insert hb hi

end NoStrandedAux

/-- The orders have their evidence, and their events. -/
def Announcing {B : Type} (w : World Caller B) : Prop := (∀ id r, w.rows id = some r → Phase.Evidence r) ∧ NotStranded w

open NoStrandedAux in
/-- As long as no call of an execution raises a terminal error, every queued order has its event. -/
theorem no_stranded_order {B : Type} {upper : String → String} {broker : Broker B} {dbRaises : Exc → Prop}
    {c : Config calls Exc Outcome Caller (World Caller B)} {ls : List Event}
    (hr : System.Run (system upper broker dbRaises Announcing) MildAnswer c ls) : NotStranded c.shared := by
  have hbase : System.Invariant (system upper broker dbRaises Announcing) MildAnswer (executionProtocol True) Ended
      fun w _ g => Base True w g :=
    baseInvariant (fun _ hstart _ => hstart.1) fun _ t op r hl _ => hl t op r rfl
  have hinv := hbase.and (K := fun w _ g => Carried w g)
    (fun w hw id r hr hqueued => by
      obtain ⟨record, hrecord, hcarries⟩ := hw.1.2 id r hr hqueued
      exact ⟨record, hrecord, hcarries, fun _ _ hg => by cases hg⟩)
    fun _ _ _ _ _ _ hb _ h hst _ => h.step hb hst
  obtain ⟨g, ⟨_, h⟩, _⟩ := hinv.holds hr
  intro id r hrow hqueued
  obtain ⟨record, hrecord, hcarries, _⟩ := h id r hrow hqueued
  exact ⟨record, hrecord, hcarries⟩

namespace NoStrandedAux

open ExecutionWorker

def worker : Caller := ⟨0, .process_one 0⟩

/-- The limit order, created, and its event. -/
def created : World Caller Unit := placed id false limits ()

def ready : OutboxEventRecord := OrderRepository.readyEvent ⟨14⟩ 0 (limitIntent id false)

theorem outbox_created : created.outbox = Function.update (fun _ => none) ⟨14⟩ (some ready) := rfl

theorem claims_ready : created.Claims 1 (some EXECUTION_TOPIC) [ready] := by
  refine World.claims_single ⟨?_, rfl, rfl, fun _ h => by cases h; rfl⟩ ?_
  · rw [outbox_created]
    exact Function.update_self _ _ _
  · intro event hevent
    have hout := hevent.1
    rw [outbox_created, Function.update_apply] at hout
    split at hout
    · exact (Option.some.inj hout).symm
    · cases hout

/-- What the broker raises when it is asked for the order. -/
def unknownAccount : Exc := .lookupError "account"

/-- The tables once the execution has raised. -/
def afterRaise : World Caller Unit :=
  World.rollback { (created.claim worker [ready]).lock worker ⟨13⟩ with broker := () } worker

/-- The order is executed, which raises, and its event is marked. -/
theorem alone_strands (start : World Caller Unit → Prop) :
    ∃ ls, System.Alone (system id Broker.any (fun _ => False) start) worker created (_process_one ExecutionService.execute 0) ls
      (afterRaise.publish worker { ready with published_at := some 0 }) (.done (.ok true)) := by
  have hrow : (created.claim worker [ready]).rows (limitRow id false limits).id = some (limitRow id false limits) :=
    rows_placed (b := ())
  have hexecute : System.Alone (system id Broker.any (fun _ => False) start) worker (created.claim worker [ready])
      (ExecutionService.execute (limitRow id false limits).id) _ afterRaise (.done (.error unknownAccount)) :=
    alone_execute_raised serves_system hrow rfl rfl (not_or.mpr ⟨Option.some_ne_none _, Option.some_ne_none _⟩) rfl
      as_domain_limitRow trivial
  have hready : afterRaise.outbox ready.id = some ready := by
    show created.outbox ⟨14⟩ = _
    rw [outbox_created, Function.update_self]
  have hmark : System.Alone (system id Broker.any (fun _ => False) start) worker afterRaise
      (settle (α := BrokerOrderResult) 0 ready.claimed.id (.error unknownAccount)) _ _ (.done (.ok true)) :=
    (alone_mark_published serves_system hready 0).andThen _
  have hread : _read_intent_id ready.claimed = some ⟨13⟩ := UUID.parse_str _
  exact ⟨_, alone_process_one serves_system claims_ready hread (hexecute.seq hmark)⟩

theorem announcing_empty {B : Type} (b : B) : Announcing (World.empty b) :=
  ⟨fun _ r h => (Option.some_ne_none r h.symm).elim, fun _ r h _ => (Option.some_ne_none r h.symm).elim⟩

/-- The order is still queued, and its event is published. -/
theorem stranded : ¬NotStranded (((afterRaise.publish worker { ready with published_at := some 0 }).rollback worker).rollback_outbox worker) := by
  intro h
  obtain ⟨record, hrecord, hcarries⟩ := h ⟨13⟩ (limitRow id false limits) (rows_placed (b := ())) rfl
  rw [World.outbox_rollback_outbox] at hrecord
  have houtbox : (afterRaise.publish worker { ready with published_at := some 0 }).outbox record.id = some record := hrecord
  rw [World.outbox_publish, Function.update_apply] at houtbox
  have hpublished := hcarries.unpublished
  split at houtbox
  · rw [← Option.some.inj houtbox] at hpublished
    cases hpublished
  · rename_i hid
    have hother : record.id ≠ ⟨14⟩ := hid
    have hcreated : created.outbox record.id = some record := houtbox
    rw [outbox_created, Function.update_of_ne hother] at hcreated
    cases hcreated

end NoStrandedAux

open NoStrandedAux in
/-- An order that was created and executed has left the queue. -/
theorem no_stranded_executed : ∃ c ls, System.Run (system id Broker.any (fun _ => False) Announcing) MildAnswer c ls ∧
    NotStranded c.shared := by
  have hrun : System.Run (system id Broker.any (fun _ => False) Announcing) (fun _ _ => True) _ _ :=
    run_executed (b := ()) (c := ()) (announcing_empty ()) trivial limitRisk_limits trivial trivial trivial
  have hmild : System.Run (system id Broker.any (fun _ => False) Announcing) MildAnswer _ _ := hrun.of_all fun pre l post hl => by
    have hmem : l ∈ pre ++ l :: post := List.mem_append_right _ (List.mem_cons_self ..)
    rw [← hl] at hmem
    simp only [executed, executedUntil, executing, storing, List.cons_append, List.nil_append, List.mem_cons, List.not_mem_nil,
      or_false] at hmem
    rcases hmem with rfl | rfl | rfl | rfl | rfl | rfl | rfl | rfl | rfl | rfl | rfl | rfl | rfl | rfl | rfl <;>
      intro t op r h <;> cases h <;> intro e he <;> cases he
  exact ⟨_, _, hmild, no_stranded_order hmild⟩

open NoStrandedAux in
/-- The broker knows no such account, and the order is stranded. -/
theorem order_stranded : ∃ c ls, System.Run (system id Broker.any (fun _ => False) Announcing) (fun _ _ => True) c ls ∧
    ¬NotStranded c.shared := by
  obtain ⟨ls, halone⟩ := alone_strands Announcing
  exact ⟨_, _, System.Run.complete (halone.andThen _) rfl (run_placed (announcing_empty ()) trivial limitRisk_limits) rfl, stranded⟩

end MtossBot
