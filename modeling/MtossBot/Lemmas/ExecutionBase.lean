import MtossBot.Lemmas.Events
import MtossBot.Lemmas.ExecutionRuns

/-!
# The base invariant

The orders, the events and what each task knows of both hold together in every run, whatever the broker does. The results on runs are
proved on top of it.
-/

namespace MtossBot

open Phase

variable {B : Type} {w w' : World Caller B} {t u : Caller} {broker : Broker B} {dbRaises : Exc → Prop} {quiet : Prop}

/-! ## Events -/

/-- What a worker knows of its event. -/
def EventKnows (w : World Caller B) (t : Caller) : EventPhase → Prop
  | .out => w.marked t = none
  | .claiming => w.marked t = none
  | .claimed event => w.marked t = none ∧ Announced w event
  | .marking event => Announced w event ∧ ∀ record, w.marked t = some record → record.claimed = event

/-- What another worker knows stays true. -/
theorem EventEffect.knows (hs : EventSound w) (h : EventEffect w t w') (hu : u ≠ t) {q : EventPhase} (hq : EventKnows w u q) :
    EventKnows w' u q := by
  have hm := h.marked_eq hu
  cases q with
  | out => exact hm.trans hq
  | claiming => exact hm.trans hq
  | claimed event => exact ⟨hm.trans hq.1, h.announced hs hq.2⟩
  | marking event => exact ⟨h.announced hs hq.1, fun record hr => hq.2 record (hm ▸ hr)⟩

/-- Making a call changes nothing of what is known. -/
theorem EventKnows.issue {row : RowPhase} {q q' : EventPhase} {op : Call} (hq : EventKnows w t q)
    (hi : EventIssue quiet row q op q') : EventKnows w t q' := by
  cases hi with
  | claim _ => exact hq
  | get _ _ =>
    refine ⟨hq.2, ?_⟩
    intro record hr
    rw [hq.1] at hr
    cases hr
  | flush _ => exact hq
  | commit => exact hq
  | rollback => exact hq

/-- What an answer does to the events. -/
theorem effect_event {row : RowPhase} {q₀ q : EventPhase} {op : Call} {r : Except Exc op.Res}
    (hi : EventIssue quiet row q₀ op q) (hq : EventKnows w t q) (h : w.answer broker dbRaises t w' op r) :
    EventEffect w t w' := by
  refine effect_answer_event ?_ h
  intro record hop
  subst hop
  cases hi with
  | flush hclaimed => exact hclaimed ▸ hq.1

/-- What is known of an event, with the writes of the task gone or as they were. -/
theorem EventKnows.unmarked {q : EventPhase} (hs : EventSound w) (he : EventEffect w t w') (hq : EventKnows w t q)
    (hm : w'.marked t = none ∨ w'.marked t = w.marked t) : EventKnows w' t q := by
  have hnone : w.marked t = none → w'.marked t = none := fun h => hm.elim id fun h' => h'.trans h
  cases q with
  | out => exact hnone hq
  | claiming => exact hnone hq
  | claimed event => exact ⟨hnone hq.1, he.announced hs hq.2⟩
  | marking event =>
    refine ⟨he.announced hs hq.1, ?_⟩
    intro record hr
    rcases hm with hm | hm
    · rw [hm] at hr
      cases hr
    · exact hq.2 record (hm ▸ hr)

/-- What a worker knows after an answer. -/
theorem knows_event {row : RowPhase} {q₀ q q' : EventPhase} {op : Call} {r : Except Exc op.Res} (hs : EventSound w)
    (hi : EventIssue quiet row q₀ op q) (hq : EventKnows w t q) (ha : EventAnswer q op r q')
    (h : w.answer broker dbRaises t w' op r) : EventKnows w' t q' := by
  have he := effect_event hi hq h
  cases ha with
  | nothing =>
    obtain ⟨events, _, _, rfl⟩ := h
    exact hq
  | claimed =>
    obtain ⟨events, hclaims, hmap, rfl⟩ := h
    refine ⟨hq, ?_⟩
    cases events with
    | nil => cases hmap
    | cons record events =>
      rw [List.map_cons, List.cons.injEq] at hmap
      exact ⟨record, (hclaims.claimable record List.mem_cons_self).1, hmap.1.symm⟩
  | unclaimed => rcases h with ⟨_, rfl | ⟨events, _, rfl⟩⟩ <;> exact hq
  | got _ =>
    obtain ⟨_, rfl⟩ := h
    exact hq
  | gone =>
    obtain ⟨_, rfl⟩ := h
    exact hq
  | refused =>
    obtain ⟨_, rfl⟩ := h
    exact hq
  | @flushed _ record r =>
    cases hi with
    | @flush event _ hclaimed =>
      have hmark : ∀ {w' : World Caller B}, w' = w.mark t record → EventEffect w t w' → EventKnows w' t (.marking event) := by
        rintro _ rfl he
        refine ⟨he.announced hs hq.1, ?_⟩
        intro record hr
        rw [World.marked_mark, Function.update_self, Option.some.injEq] at hr
        rw [← hr, hclaimed]
      cases r with
      | ok _ => exact hmark h he
      | error e =>
        rcases h with ⟨_, h | h⟩
        · exact h ▸ hq
        · exact hmark h he
  | @committed _ r =>
    refine hq.unmarked hs he ?_
    cases r with
    | ok _ =>
      obtain rfl : w' = w.commit_outbox t := h
      exact .inl (Function.update_self _ _ _)
    | error e =>
      rcases h with ⟨_, rfl | rfl | rfl⟩
      · exact .inl (Function.update_self _ _ _)
      · exact .inl (Function.update_self _ _ _)
      · exact .inr rfl
  | @rolledBack _ r =>
    refine hq.unmarked hs he ?_
    cases r with
    | ok _ =>
      obtain rfl : w' = w.rollback_outbox t := h
      exact .inl (Function.update_self _ _ _)
    | error e =>
      rcases h with ⟨_, rfl | rfl⟩
      · exact .inr rfl
      · exact .inl (Function.update_self _ _ _)

/-- The protocol knows what to make of every answer to a call on the outbox. -/
theorem event_answered {row : RowPhase} {q₀ q : EventPhase} {op : Call} {r : Except Exc op.Res}
    (hi : EventIssue quiet row q₀ op q) (hq : EventKnows w t q) (h : w.answer broker dbRaises t w' op r) :
    ∃ q', EventAnswer q op r q' := by
  cases hi with
  | claim =>
    cases r with
    | error e => exact ⟨_, .unclaimed⟩
    | ok events =>
      cases events with
      | nil => exact ⟨_, .nothing⟩
      | cons event rest => exact ⟨_, .claimed⟩
  | @get event id hid _ =>
    cases r with
    | error e => exact ⟨_, .refused⟩
    | ok found =>
      cases found with
      | none => exact ⟨_, .gone⟩
      | some record =>
        obtain ⟨rfl, hclaimed⟩ := hq.1.read hid h.1.symm
        exact ⟨_, .got hclaimed⟩
  | flush _ => exact ⟨_, .flushed⟩
  | commit => exact ⟨_, .committed⟩
  | rollback => exact ⟨_, .rolledBack⟩

/-! ## Requests -/

/-- What a request does: nothing, or it adds to the audit only, or it adds an order. -/
theorem create_cases {upper : String → String} {req : Request} (h : w.create upper req w') :
    w.SameOrders w' ∧ w.SameEvents w' ∨ ∃ intent risk approval, req.Creates upper intent risk approval ∧
      w.Insertable (req.created intent risk approval) ∧ w' = w.insert (req.created intent risk approval) := by
  unfold World.create at h
  rcases req.serve_cases upper with ⟨e, s, hserve⟩ | ⟨risk, hserve⟩ | ⟨result, intent, risk, approval, hc, hserve⟩
  · rw [hserve] at h
    obtain rfl := h
    exact .inl ⟨⟨rfl, rfl, rfl⟩, rfl, rfl⟩
  · rw [hserve] at h
    rcases h with rfl | ⟨_, rfl⟩
    · exact .inl ⟨⟨rfl, rfl, rfl⟩, rfl, rfl⟩
    · exact .inl ⟨⟨rfl, rfl, rfl⟩, rfl, rfl⟩
  · rw [hserve] at h
    rcases h with rfl | ⟨hi, rfl⟩
    · exact .inl ⟨⟨rfl, rfl, rfl⟩, rfl, rfl⟩
    · exact .inr ⟨intent, risk, approval, hc, hi, rfl⟩

section Insert

variable {req : Request} {intent : ExecutionIntent} {risk : RiskDecision} {approval : ApprovalDecision}

/-- A created order has the row of its request. -/
theorem rows_insert : (w.insert (req.created intent risk approval)).rows =
    Function.update w.rows intent.intent_id (some (Request.row intent risk approval)) := rfl

/-- A new order takes a place that was free. -/
theorem World.Insertable.free (h : w.Insertable (req.created intent risk approval)) : w.rows intent.intent_id = none :=
  h.row_id (Request.row intent risk approval) (by simp [Request.created_orders])

/-- The events a request adds are new. -/
theorem outbox_insert (h : w.Insertable (req.created intent risk approval)) (id : UUID) :
    (w.insert (req.created intent risk approval)).outbox id = w.outbox id ∨
      w.outbox id = none ∧ id = req.event_id ∧
        (w.insert (req.created intent risk approval)).outbox id =
          some (OrderRepository.readyEvent req.event_id req.created_at intent) := by
  have hevents : (req.created intent risk approval).events = [] ∨
      (req.created intent risk approval).events = [OrderRepository.readyEvent req.event_id req.created_at intent] := by
    simp only [Request.created, OrderRepository.create_with_outbox, List.nil_append]
    split
    · exact .inr rfl
    · exact .inl rfl
  rcases hevents with he | he
  · left
    rw [World.insert, he, List.foldl_nil]
  · have hfree := h.event_id _ (by rw [he]; exact List.mem_singleton_self _)
    by_cases hid : id = req.event_id
    · subst hid
      refine .inr ⟨hfree, rfl, ?_⟩
      simp only [World.insert, he, List.foldl_cons, List.foldl_nil]
      exact Function.update_self _ _ _
    · left
      simp only [World.insert, he, List.foldl_cons, List.foldl_nil]
      exact Function.update_of_ne hid _ _

/-- A new order disturbs no transaction. -/
theorem undisturbed_insert (h : w.Insertable (req.created intent risk approval)) :
    Undisturbed w (w.insert (req.created intent risk approval)) u := by
  have hkeep : ∀ id r, w.rows id = some r → (w.insert (req.created intent risk approval)).rows id = some r := by
    intro id r hr
    rw [rows_insert, Function.update_of_ne, hr]
    rintro rfl
    rw [h.free] at hr
    cases hr
  exact ⟨fun id ho => ho, fun id r _ hr => hkeep id r hr, fun id r hr _ => hkeep id r hr, rfl⟩

/-- A new order keeps the orders sound. -/
theorem sound_insert (hs : Sound w) (h : w.Insertable (req.created intent risk approval)) :
    Sound (w.insert (req.created intent risk approval)) := by
  have hold : ∀ {id r}, (w.insert (req.created intent risk approval)).rows id = some r → w.rows id = some r ∨
      id = intent.intent_id ∧ r = Request.row intent risk approval := by
    intro id r hr
    rw [rows_insert, Function.update_apply] at hr
    split at hr
    · rename_i hid
      exact .inr ⟨hid, (Option.some.inj hr).symm⟩
    · exact .inl hr
  have hnew : ∀ {id r}, w.rows id = some r → r.idempotency_key ≠ (Request.row intent risk approval).idempotency_key :=
    fun {id r} hr => h.unique_key (Request.row intent risk approval) (by simp [Request.created_orders]) id r hr
  refine ⟨fun {id r} hr => ?_, fun {i j r r'} hi hj hkey => ?_, fun {u r'} hw => ?_⟩
  · rcases hold hr with hr | ⟨rfl, rfl⟩
    · exact hs.row_id hr
    · rfl
  · rcases hold hi with hi | ⟨rfl, rfl⟩ <;> rcases hold hj with hj | ⟨rfl, rfl⟩
    · exact hs.unique_key hi hj hkey
    · exact absurd hkey (hnew hi)
    · exact absurd hkey.symm (hnew hj)
    · rfl
  · obtain ⟨ho, r, result, hr, hq, hst⟩ := hs.wrote hw
    exact ⟨ho, r, result, (undisturbed_insert h).rows _ _ ho hr, hq, hst⟩

/-- What was announced stays announced. -/
theorem announced_insert (h : w.Insertable (req.created intent risk approval)) {event : ClaimedEvent}
    (he : Announced w event) : Announced (w.insert (req.created intent risk approval)) event := by
  obtain ⟨record, hrecord, rfl⟩ := he
  refine ⟨record, ?_, rfl⟩
  rcases outbox_insert h record.id with ho | ⟨hnone, _⟩
  · rw [ho, hrecord]
  · rw [hrecord] at hnone
    cases hnone

/-- A new order keeps the events sound. -/
theorem eventSound_insert (hs : EventSound w) (h : w.Insertable (req.created intent risk approval)) :
    EventSound (w.insert (req.created intent risk approval)) := by
  refine ⟨fun {id record} hr => ?_, fun hm => announced_insert h (hs.marked hm)⟩
  rcases outbox_insert h id with ho | ⟨_, hid, ho⟩
  · exact hs.event_id (ho ▸ hr)
  · rw [ho, Option.some.injEq] at hr
    rw [← hr, hid]
    rfl

/-- What a task knows of its event stays true. -/
theorem eventKnows_insert (h : w.Insertable (req.created intent risk approval)) {q : EventPhase} (hq : EventKnows w u q) :
    EventKnows (w.insert (req.created intent risk approval)) u q := by
  cases q with
  | out => exact hq
  | claiming => exact hq
  | claimed event => exact ⟨hq.1, announced_insert h hq.2⟩
  | marking event => exact ⟨announced_insert h hq.1, hq.2⟩

end Insert

/-! ## The base invariant -/

/-- The orders and the events, and what the tasks know of them. -/
structure Base (quiet : Prop) (w : World Caller B) (g : Caller → Option Phase) : Prop where
  sound : Sound w
  evident : Evident quiet w
  events : EventSound w
  row : ∀ t q, g t = some q → RowKnows w t q.row
  event : ∀ t q, g t = some q → EventKnows w t q.event
  target : ∀ t q id, g t = some q → t.job.target = some id → q.row.Targets id
  absent : ∀ t, g t = none → w.wrote t = none ∧ w.marked t = none

/-- What is to be known of a task after its step. -/
def TaskKnows (w : World Caller B) (t : Caller) : Option Phase → Prop
  | some q => RowKnows w t q.row ∧ EventKnows w t q.event ∧ ∀ id, t.job.target = some id → q.row.Targets id
  | none => w.wrote t = none ∧ w.marked t = none

/-- An effect on the orders leaves every order with its evidence. -/
theorem Evident.effect (hs : Sound w) (he : Evident quiet w) (ho : OrderEffect w t w') : Evident quiet w' := by
  intro hq id r hr
  rcases ho.rows_cases hs with hrows | ⟨r₀, r₁, result, _, hr₀, _, hst, hrows⟩
  · exact he hq id r (hrows ▸ hr)
  · rw [hrows, Function.update_apply] at hr
    split at hr
    · have hev := he hq _ r₀ hr₀
      rw [← Option.some.inj hr]
      exact ⟨by rw [hst.risk_decision_id]; exact hev.1, by rw [hst.approval_id]; exact hev.2⟩
    · exact he hq id r hr

/-- A new order has its evidence. -/
theorem Evident.insert {req : Request} {intent : ExecutionIntent} {risk : RiskDecision} {approval : ApprovalDecision}
    (he : Evident quiet w) : Evident quiet (w.insert (req.created intent risk approval)) := by
  intro hq id r hr
  rw [rows_insert, Function.update_apply] at hr
  split at hr
  · rw [← Option.some.inj hr]
    exact ⟨Option.some_ne_none _, Option.some_ne_none _⟩
  · exact he hq id r hr

/-- A step of a task keeps the base, if the task knows what it goes on with. -/
theorem Base.effect {g : Caller → Option Phase} (hb : Base quiet w g) (ho : OrderEffect w t w') (he : EventEffect w t w')
    {q : Option Phase} (hq : TaskKnows w' t q) : Base quiet w' (Function.update g t q) := by
  have hself : ∀ {p}, Function.update g t q t = p → q = p := fun h => by rwa [Function.update_self] at h
  have hother : ∀ {u p}, u ≠ t → Function.update g t q u = p → g u = p := fun hu h => by rwa [Function.update_of_ne hu] at h
  refine ⟨ho.sound hb.sound, hb.evident.effect hb.sound ho, he.sound hb.events, fun u p hp => ?_, fun u p hp => ?_,
    fun u p id hp htarget => ?_, fun u hp => ?_⟩ <;> by_cases hu : u = t
  · subst hu
    rw [hself hp] at hq
    exact hq.1
  · exact (ho.undisturbed hb.sound hu).knows (hb.row u p (hother hu hp))
  · subst hu
    rw [hself hp] at hq
    exact hq.2.1
  · exact he.knows hb.events hu (hb.event u p (hother hu hp))
  · subst hu
    rw [hself hp] at hq
    exact hq.2.2 id htarget
  · exact hb.target u p id (hother hu hp) htarget
  · subst hu
    rw [hself hp] at hq
    exact hq
  · rw [ho.wrote_eq hu, he.marked_eq hu]
    exact hb.absent u (hother hu hp)

/-- Worlds with the same orders are sound alike. -/
theorem World.SameOrders.sound (h : w.SameOrders w') (hs : Sound w) : Sound w' := by
  obtain ⟨hrows, howner, hwrote⟩ := h
  refine ⟨fun hr => hs.row_id (hrows ▸ hr), fun hi hj => hs.unique_key (hrows ▸ hi) (hrows ▸ hj), fun hw => ?_⟩
  rw [hrows, howner]
  exact hs.wrote (hwrote ▸ hw)

/-- A step that changes neither orders nor events. -/
theorem Base.same {g : Caller → Option Phase} (hb : Base quiet w g) (ho : w.SameOrders w') (he : w.SameEvents w') :
    Base quiet w' g := by
  have heffect : ∀ t, EventEffect w t w' := fun t => .none he
  refine ⟨ho.sound hb.sound, fun hq id r hr => hb.evident hq id r (ho.rows ▸ hr), ?_, fun t q hq => ho.undisturbed.knows (hb.row t q hq), fun t q hq => ?_,
    hb.target, fun t ht => ?_⟩
  · refine ⟨fun hr => hb.events.event_id (he.outbox ▸ hr), fun {t record} hm => ?_⟩
    exact (heffect t).announced hb.events (hb.events.marked (he.marked ▸ hm))
  · exact (hb.event t q hq).unmarked hb.events (heffect t) (.inr (by rw [he.marked]))
  · rw [ho.wrote, he.marked]
    exact hb.absent t ht

/-- A new order keeps the base. -/
theorem Base.insert {g : Caller → Option Phase} {req : Request} {intent : ExecutionIntent} {risk : RiskDecision}
    {approval : ApprovalDecision} (hb : Base quiet w g) (hi : w.Insertable (req.created intent risk approval)) :
    Base quiet (w.insert (req.created intent risk approval)) g where
  sound := sound_insert hb.sound hi
  evident := hb.evident.insert
  events := eventSound_insert hb.events hi
  row t q hq := (undisturbed_insert hi).knows (hb.row t q hq)
  event t q hq := eventKnows_insert hi (hb.event t q hq)
  target := hb.target
  absent := hb.absent

section Step

variable {upper : String → String} {start : World Caller B → Prop} {Φ : Caller → (executionProtocol quiet).Phase → Except Exc Outcome → Prop}

/-- What a crash does. -/
theorem effects_crash (h : w.crash t w') :
    OrderEffect w t w' ∧ EventEffect w t w' ∧ w'.wrote t = none ∧ w'.marked t = none := by
  obtain ⟨he, hmarked⟩ := effect_crash_event h
  obtain ⟨w₁, h₁ | ⟨_, h₁⟩, h₂ | ⟨_, h₂⟩⟩ := h <;> subst h₁ h₂
  · exact ⟨.rollback ⟨rfl, rfl, rfl⟩, he, Function.update_self _ _ _, hmarked⟩
  · exact ⟨.rollback ⟨rfl, rfl, rfl⟩, he, Function.update_self _ _ _, hmarked⟩
  · exact ⟨.commit ⟨rfl, rfl, rfl⟩, he, Function.update_self _ _ _, hmarked⟩
  · exact ⟨.commit ⟨rfl, rfl, rfl⟩, he, Function.update_self _ _ _, hmarked⟩

/-- The base holds before the first step. -/
theorem Base.init {w : World Caller B} (hev : Evident quiet w) (h : (system upper broker dbRaises start).init w) :
    Base quiet w fun _ => none := by
  obtain ⟨_, hidle, hc, _⟩ := h
  refine ⟨⟨hc.row_id, hc.unique_key, fun {t r'} hw => ?_⟩, hev, ⟨hc.event_id, fun {t record} hm => ?_⟩, fun t q h => ?_,
    fun t q h => ?_, fun t q id h => ?_, fun t _ => ⟨hidle.wrote t, hidle.marked t⟩⟩
  · rw [hidle.wrote t] at hw
    cases hw
  · rw [hidle.marked t] at hm
    cases hm
  · cases h
  · cases h
  · cases h

/-- What an answer does to the events, and what its task knows of them then. -/
theorem event_answer {q₀ q q' : Phase} {op : Call} {r : Except Exc op.Res} (hs : EventSound w) (hi : Issue quiet q₀ op q)
    (hq : EventKnows w t q.event) (ha : Answer quiet q op r q') (h : w.answer broker dbRaises t w' op r) :
    EventEffect w t w' ∧ EventKnows w' t q'.event := by
  cases hop : ofOrders op with
  | false => exact ⟨effect_event (hi.on_outbox hop) hq h, knows_event hs (hi.on_outbox hop) hq (ha.on_outbox hop).1 h⟩
  | true =>
    have he := sameEvents_answer hop h
    rw [(ha.on_orders hop).2]
    exact ⟨.none he, hq.unmarked hs (.none he) (.inr (by rw [he.marked]))⟩

/-- Every step the protocol allows keeps the base invariant. -/
theorem Base.step {g g' : Caller → Option (executionProtocol quiet).Phase} {l : Event} (hb : Base quiet w g)
    (hst : System.PhaseStep (system upper broker dbRaises start) (executionProtocol quiet) Φ w g l w' g') :
    Base quiet w' g' := by
  cases hst with
  | @spawn t ht =>
    obtain ⟨hwrote, hmarked⟩ := hb.absent t ht
    exact hb.effect (.none ⟨rfl, rfl, rfl⟩) (.none ⟨rfl, rfl⟩) ⟨hwrote, hmarked, fun id h => h⟩
  | @call _ t op q q' hg hi hc =>
    have ho := sameOrders_call hc
    have he := sameEvents_call hc
    have hevent := EventEffect.none he (t := t)
    refine hb.effect (.none ho) hevent ?_
    have hrow := hb.row t q hg
    have hev := hb.event t q hg
    have htarget := hb.target t q
    cases hi with
    | row _ hi =>
      exact ⟨ho.undisturbed.knows (hrow.issue hi), hev.unmarked hb.events hevent (.inr (by rw [he.marked])),
        fun id hid => hi.targets (htarget id hg hid)⟩
    | event hi =>
      exact ⟨ho.undisturbed.knows hrow, (hev.issue hi).unmarked hb.events hevent (.inr (by rw [he.marked])),
        fun id hid => htarget id hg hid⟩
  | @answer _ t op r q₀ q q' hg hi ha hw =>
    have hrow := hb.row t q hg
    obtain ⟨he, hev⟩ := event_answer hb.events hi (hb.event t q hg) ha hw
    refine hb.effect (effect_answer hi hrow hw) he ⟨knows_answer hrow ha hw, hev, ?_⟩
    intro id hid
    have htarget := hb.target t q id hg hid
    cases ha with
    | row ha => exact ha.targets htarget
    | event _ => exact htarget
  | @finish _ t r q hg _ hfin =>
    obtain rfl : w' = (w.rollback t).rollback_outbox t := hfin
    have ho : OrderEffect w t ((w.rollback t).rollback_outbox t) := .rollback ⟨rfl, rfl, rfl⟩
    have he : EventEffect w t ((w.rollback t).rollback_outbox t) := .rollback ⟨rfl, rfl⟩
    exact hb.effect ho he ⟨Function.update_self _ _ _, Function.update_self _ _ _⟩
  | @crash _ t q hg hc =>
    obtain ⟨ho, he, hwrote, hmarked⟩ := effects_crash hc
    exact hb.effect ho he ⟨hwrote, hmarked⟩
  | @env _ req hc =>
    rcases create_cases hc with ⟨ho, he⟩ | ⟨intent, risk, approval, _, hi, rfl⟩
    · exact hb.same ho he
    · exact hb.insert hi

/-- What a step does to the orders: it is a request's, or it is a task's. -/
theorem Base.orders_step {g g' : Caller → Option (executionProtocol quiet).Phase} {l : Event} (hb : Base quiet w g)
    (hst : System.PhaseStep (system upper broker dbRaises start) (executionProtocol quiet) Φ w g l w' g') :
    (∃ t, OrderEffect w t w') ∨ ∃ req, l = .env req ∧ w.create upper req w' := by
  cases hst with
  | spawn _ => exact .inl ⟨⟨0, .process_one 0⟩, .none ⟨rfl, rfl, rfl⟩⟩
  | @call _ t _ _ _ _ _ hc => exact .inl ⟨t, .none (sameOrders_call hc)⟩
  | @answer _ t _ _ _ q _ hg hi _ hw => exact .inl ⟨t, effect_answer hi (hb.row t q hg) hw⟩
  | @finish _ t _ _ _ _ hfin =>
    obtain rfl : w' = (w.rollback t).rollback_outbox t := hfin
    exact .inl ⟨t, .rollback ⟨rfl, rfl, rfl⟩⟩
  | @crash _ t _ _ hc => exact .inl ⟨t, (effects_crash hc).1⟩
  | @env _ req hc => exact .inr ⟨req, rfl, hc⟩

/-- A row that has left `QUEUED` stays as it is. -/
theorem Base.settled_step {g g' : Caller → Option (executionProtocol quiet).Phase} {l : Event} (hb : Base quiet w g)
    (hst : System.PhaseStep (system upper broker dbRaises start) (executionProtocol quiet) Φ w g l w' g') {id : UUID}
    {r : OrderIntentRecord} (hr : w.rows id = some r) (hq : r.state ≠ .QUEUED) : w'.rows id = some r := by
  rcases hb.orders_step hst with ⟨t, ho⟩ | ⟨req, _, hc⟩
  · exact ho.settled hb.sound hr hq
  · rcases create_cases hc with ⟨ho, _⟩ | ⟨intent, risk, approval, _, hi, rfl⟩
    · rw [ho.rows, hr]
    · exact (undisturbed_insert (u := ⟨0, .process_one 0⟩) hi).settled id r hr hq

/-- The protocol knows what to make of every answer. -/
theorem Base.answered {g : Caller → Option Phase} {q₀ q : Phase} {op : Call} {r : Except Exc op.Res} (hb : Base quiet w g)
    (hg : g t = some q) (hi : Issue quiet q₀ op q) (h : w.answer broker dbRaises t w' op r) (hmild : quiet → Mild op r) :
    ∃ q', Answer quiet q op r q' := by
  cases hop : ofOrders op with
  | true =>
    obtain ⟨row, ha⟩ := row_answered hb.sound (hi.on_orders hop) (hb.row t q hg) h hmild hb.evident
    exact ⟨⟨row, q.event⟩, .row ha⟩
  | false =>
    obtain ⟨event, ha⟩ := event_answered (hi.on_outbox hop) (hb.event t q hg) h
    exact ⟨⟨q.row, event⟩, .event ha⟩

/-- How a task ends: an execution that returns leaves its row settled, and the row shows the result that it returns; one that raises
leaves no settled row, or a defective one. -/
def Ended (t : Caller) (q : Phase) (outcome : Except Exc Outcome) : Prop :=
  ∀ id, t.job = .execute id → match outcome with
    | .ok (.executed result) => ∃ r, q.row = .ended (.settled r) ∧ r.id = id ∧ Shows r result
    | .ok (.processed _) => False
    | .error _ => ∃ k, q.row = .ended k ∧ ∀ r, k = .settled r → Defective r

/-- Every task follows the protocol, from its start to its end. -/
theorem follows_program (t : Caller) :
    t.program.Follows (executionProtocol quiet) (Ended t) ((executionProtocol quiet).start t) := by
  unfold Caller.program
  show Prog.Follows (executionProtocol quiet) (Ended t) (⟨.start t.job.target, .out⟩ : Phase) _
  cases hjob : t.job with
  | execute id =>
    refine Prog.Follows.seq (ExecutionFollows.follows_execute id (.inr rfl) nofun) ?_
    intro q outcome h id' hjob'
    rw [hjob] at hjob'
    cases hjob'
    cases outcome with
    | error e => exact h.2.2
    | ok result => exact h.2
  | process_one now =>
    refine Prog.Follows.seq (ExecutionFollows.follows_process_one now) ?_
    intro q outcome _ id hjob'
    rw [hjob] at hjob'
    cases hjob'

/-- The base invariant holds in every run. -/
theorem baseInvariant {ok : List Event → Event → Prop} (hstart : ∀ w, start w → Evident quiet w)
    (hmild : ∀ ls t op r, ok ls (.answer t op r) → quiet → Mild op r) :
    System.Invariant (system upper broker dbRaises start) ok (executionProtocol quiet) Ended fun w _ g => Base quiet w g where
  follows := follows_program
  answered _ ls _ t op r _ _ _ hb hg hi hw hl := hb.answered hg hi hw (hmild ls t op r hl)
  init w hw := Base.init (hstart w hw.1) hw
  step _ _ _ _ _ _ hb hst _ := hb.step hst

end Step

end MtossBot
