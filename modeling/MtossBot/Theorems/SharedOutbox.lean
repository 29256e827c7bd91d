import MtossBot.Lemmas.AloneRuns
import MtossBot.Runtime.Consumers

/-!
# The shared outbox

What the two kinds of consumers do to the events of the execution topic. The worker claims its own topic only; the dispatcher claims
any, so that an event it takes is lost to the worker as soon as its publisher accepts it.
-/

namespace MtossBot

open ExecutionWorker (EXECUTION_TOPIC _read_intent_id)

/-- An event has an intent only if the execution of that intent was called. -/
def Attempted (ls : List ConsumerEvent) (event : ClaimedEvent) : Prop :=
  ∀ intent_id, _read_intent_id event = some intent_id → ∃ t, .call t (.execute_intent intent_id) ∈ ls

/-- The events of the execution topic that were published since the start have been attempted, if their payload can be used. -/
def NotSwallowed {T B : Type} (stored : UUID → Option OutboxEventRecord) (w : World T B) (ls : List ConsumerEvent) : Prop :=
  ∀ id e, w.outbox id = some e → e.topic = EXECUTION_TOPIC → e.published_at ≠ none →
    (∃ e₀, stored id = some e₀ ∧ e₀.published_at ≠ none) ∨ Attempted ls e.claimed

/-- A publisher accepts an event of the execution topic. -/
def AcceptsExecution : ConsumerEvent → Prop
  | .answer _ (.publish topic _ _) (.ok _) => topic = EXECUTION_TOPIC
  | _ => False

namespace SharedOutboxAux

/-! ## The protocol of a consumer -/

/-- Where a consumer is with its event: it may mark it once it is handled. -/
inductive ConsumerPhase where
  | out
  | claiming
  | claimed (event : ClaimedEvent)
  | publishing (event : ClaimedEvent)
  | handled (event : ClaimedEvent)

inductive Issue : ConsumerPhase → Call → ConsumerPhase → Prop where
  | claim {q : ConsumerPhase} {limit : Nat} {topic : Option String} : Issue q (.claim limit topic) .claiming
  | publish {event : ClaimedEvent} :
      Issue (.claimed event) (.publish event.topic event.message_key event.payload) (.publishing event)
  | execute {event : ClaimedEvent} {id : UUID} :
      _read_intent_id event = some id → Issue (.claimed event) (.execute_intent id) (.handled event)
  | unusable {event : ClaimedEvent} {id : UUID} :
      _read_intent_id event = none → UUID.parse event.id = some id → Issue (.claimed event) (.get_event id) (.handled event)
  | get {event : ClaimedEvent} {id : UUID} :
      UUID.parse event.id = some id → Issue (.handled event) (.get_event id) (.handled event)
  | flush {event : ClaimedEvent} {record : OutboxEventRecord} :
      record.claimed = event → Issue (.handled event) (.flush_event record) (.handled event)
  | commit {event : ClaimedEvent} : Issue (.handled event) .commit_outbox (.handled event)
  | rollback {q : ConsumerPhase} : Issue q .rollback_outbox q

inductive Answer : ConsumerPhase → (op : Call) → Except Exc op.Res → ConsumerPhase → Prop where
  | nothing {limit : Nat} {topic : Option String} : Answer .claiming (.claim limit topic) (.ok []) .out
  | claimed {limit : Nat} {topic : Option String} {event : ClaimedEvent} {rest : List ClaimedEvent} :
      Answer .claiming (.claim limit topic) (.ok (event :: rest)) (.claimed event)
  | unclaimed {limit : Nat} {topic : Option String} {e : Exc} : Answer .claiming (.claim limit topic) (.error e) .out
  | published {event : ClaimedEvent} {key text : String} {payload : Dict String JsonValue} :
      event.topic ≠ EXECUTION_TOPIC → Answer (.publishing event) (.publish event.topic key payload) (.ok text) (.handled event)
  | refused {event : ClaimedEvent} {topic key : String} {payload : Dict String JsonValue} {e : Exc} :
      Answer (.publishing event) (.publish topic key payload) (.error e) .out
  | executed {q : ConsumerPhase} {id : UUID} {r : Except Exc Unit} : Answer q (.execute_intent id) r q
  | got {event : ClaimedEvent} {record : OutboxEventRecord} :
      record.claimed = event → Answer (.handled event) (.get_event record.id) (.ok (some record)) (.handled event)
  | gone {q : ConsumerPhase} {id : UUID} : Answer q (.get_event id) (.ok none) q
  | lost {q : ConsumerPhase} {id : UUID} {e : Exc} : Answer q (.get_event id) (.error e) q
  | flushed {q : ConsumerPhase} {record : OutboxEventRecord} {r : Except Exc Unit} : Answer q (.flush_event record) r q
  | committed {q : ConsumerPhase} {r : Except Exc Unit} : Answer q .commit_outbox r q
  | rolledBack {q : ConsumerPhase} {r : Except Exc Unit} : Answer q .rollback_outbox r q

abbrev consumerProtocol : Protocol calls Exc Consumer where
  Phase := ConsumerPhase
  start _ := .out
  issue := Issue
  answer := Answer

/-- A program that keeps to the protocol; how it ends does not matter. -/
abbrev Keeps {α : Type} (q : ConsumerPhase) (p : Coro α) : Prop := p.Follows consumerProtocol (fun _ _ => True) q

/-- A call whose answer does not matter, and what comes after it. -/
theorem keeps_bind {α β : Type} {q : ConsumerPhase} {p : Coro α} {f : α → Coro β} (hp : Keeps q p)
    (hf : ∀ q' a, Keeps q' (f a)) : Keeps q (p >>= f) :=
  Prog.Follows.bind hp (fun q' a _ => hf q' a) fun _ _ _ => trivial

/-- Giving up does not return. -/
theorem follows_give_up {α : Type} (q : ConsumerPhase) (e : Exc) :
    (do
      let _ ← await .rollback_outbox
      Prog.raise e : Coro α).Follows consumerProtocol (fun _ r => ∀ a, r ≠ .ok a) q := by
  refine ⟨q, .rollback, ?_⟩
  intro answer q _
  cases answer with
  | ok _ => exact nofun
  | error _ => exact nofun

/-- Marking an event that is handled, or that has no intent. -/
theorem keeps_mark {q : ConsumerPhase} {event : ClaimedEvent} (now : Int)
    (hq : q = .handled event ∨ q = .claimed event ∧ _read_intent_id event = none) :
    Keeps q (OutboxRepository.mark_published now event.id) := by
  refine Prog.Follows.tryExcept (Φ := fun _ _ => True) ?_ (fun _ _ _ => trivial) fun q e _ =>
    (follows_give_up q e).mono fun _ _ _ => trivial
  cases hid : UUID.parse event.id with
  | none => exact trivial
  | some id =>
    have hissue : Issue q (.get_event id) (.handled event) := by
      rcases hq with rfl | ⟨rfl, hnone⟩
      · exact .get hid
      · exact .unusable hnone hid
    refine ⟨.handled event, hissue, ?_⟩
    intro answer q ha
    cases ha with
    | gone => exact trivial
    | lost => exact trivial
    | got hrecord =>
      refine ⟨.handled event, .flush hrecord, ?_⟩
      intro answer q ha
      cases ha with
      | flushed =>
        cases answer with
        | error e => exact trivial
        | ok _ => exact ⟨.handled event, .commit, fun _ _ _ => trivial⟩

/-- An event whose publication returns is one that may be marked. -/
theorem follows_publish (event : ClaimedEvent) :
    (OutboxDispatcher.publish event).Follows consumerProtocol (fun q r => ∀ text, r = .ok text → q = .handled event)
      (.claimed event) := by
  refine ⟨.publishing event, .publish, ?_⟩
  intro answer q ha
  cases ha with
  | published _ => exact fun _ _ => rfl
  | refused => exact (follows_give_up _ _).mono fun _ _ h text hr => absurd hr (h text)

/-- The dispatcher marks an event that its publisher has accepted. -/
theorem keeps_dispatch (now : Nat → Int) (left count : Nat) (q : ConsumerPhase) :
    Keeps q (OutboxDispatcher.rounds now left count) := by
  induction left generalizing count q with
  | zero => exact trivial
  | succ left ih =>
    refine ⟨.claiming, .claim, ?_⟩
    intro answer q ha
    cases ha with
    | nothing => exact trivial
    | unclaimed => exact trivial
    | @claimed _ _ event rest =>
      exact Prog.Follows.bind (follows_publish event)
        (fun q text hq => keeps_bind (keeps_mark (now count) (.inl (hq text rfl))) fun q _ => ih (count + 1) q)
        fun _ _ _ => trivial

/-- The worker marks an event once its execution was called. -/
theorem keeps_process_one (now : Int) (q : ConsumerPhase) :
    Keeps q (ExecutionWorker._process_one (fun intent_id => await (.execute_intent intent_id)) now) := by
  refine ⟨.claiming, .claim, ?_⟩
  intro answer q ha
  cases ha with
  | nothing => exact trivial
  | unclaimed => exact trivial
  | @claimed _ _ event rest =>
    dsimp only [Bind.bind, Prog.bind, Prog.andThen]
    cases hread : _read_intent_id event with
    | none => exact keeps_bind (keeps_mark now (.inr ⟨rfl, hread⟩)) fun _ _ => trivial
    | some id =>
      refine ⟨.handled event, .execute hread, ?_⟩
      intro answer q ha
      cases ha
      have hmarks : Keeps (.handled event) (do
          let _ ← OutboxRepository.mark_published now event.id
          return true) :=
        keeps_bind (keeps_mark now (.inl rfl)) fun _ _ => trivial
      cases answer with
      | ok _ => exact hmarks
      | error e =>
        show Keeps _ (if ExecutionWorker.terminal e then _ else if e.isA .Exception then _ else _ : Coro Bool)
        split
        · exact hmarks
        · split
          · exact (follows_give_up _ e).mono fun _ _ _ => trivial
          · exact trivial

/-- The rounds of the worker keep what is watched. -/
theorem keeps_rounds (now : Nat → Int) (left processed : Nat) (q : ConsumerPhase) :
    Keeps q (ExecutionWorker.rounds (fun intent_id => await (.execute_intent intent_id)) now left processed) := by
  induction left generalizing processed q with
  | zero => exact trivial
  | succ left ih =>
    refine keeps_bind (keeps_process_one (now processed) q) ?_
    intro q handled
    cases handled with
    | false => exact trivial
    | true => exact ih (processed + 1) q

/-- So does every consumer. -/
theorem keeps_program (t : Consumer) : Keeps .out t.program := by
  unfold Consumer.program
  cases t.job with
  | dispatch_batch limit times => exact keeps_dispatch _ _ _ _
  | run_once limit times => exact keeps_rounds _ _ _ _

/-! ## What is known of the events -/

/-- An event that may be marked: one that is not for the worker, or that was attempted. -/
def Clear (ls : List ConsumerEvent) (event : ClaimedEvent) : Prop := event.topic = EXECUTION_TOPIC → Attempted ls event

/-- What a consumer knows of its event. -/
def Knows (w : World Consumer Unit) (ls : List ConsumerEvent) : ConsumerPhase → Prop
  | .out => True
  | .claiming => True
  | .claimed event => Announced w event
  | .publishing event => Announced w event
  | .handled event => Announced w event ∧ Clear ls event

/-- The events, and what the consumers know of them. -/
structure Watched (stored : UUID → Option OutboxEventRecord) (w : World Consumer Unit) (ls : List ConsumerEvent)
    (g : Consumer → Option ConsumerPhase) : Prop where
  events : EventSound w
  published : NotSwallowed stored w ls
  marked : ∀ t record, w.marked t = some record → Clear ls record.claimed
  knows : ∀ t q, g t = some q → Knows w ls q

variable {stored : UUID → Option OutboxEventRecord} {w w' : World Consumer Unit} {ls : List ConsumerEvent} {l : ConsumerEvent}
  {g g' : Consumer → Option ConsumerPhase} {t : Consumer} {dbRaises : Exc → Prop}

/-- What was attempted stays attempted. -/
theorem Attempted.append {event : ClaimedEvent} (h : Attempted ls event) : Attempted (ls ++ [l]) event :=
  fun id hid => (h id hid).imp fun _ h => List.mem_append_left _ h

/-- What has not begun is clear of what was done before. -/
theorem Clear.append {event : ClaimedEvent} (h : Clear ls event) : Clear (ls ++ [l]) event := fun ht => Attempted.append (h ht)

/-- What is known stays true, while the events stay in the outbox. -/
theorem Knows.append {q : ConsumerPhase} (hann : ∀ event, Announced w event → Announced w' event) (h : Knows w ls q) :
    Knows w' (ls ++ [l]) q := by
  cases q with
  | out => exact trivial
  | claiming => exact trivial
  | claimed event => exact hann event h
  | publishing event => exact hann event h
  | handled event => exact ⟨hann event h.1, h.2.append⟩

/-- A step of a task, from what it does to the events and what the task knows then. -/
theorem Watched.effect (h : Watched stored w ls g) (he : EventEffect w t w')
    (hm : ∀ record, w'.marked t = some record → Clear (ls ++ [l]) record.claimed) {q : Option ConsumerPhase}
    (hq : ∀ q', q = some q' → Knows w' (ls ++ [l]) q') : Watched stored w' (ls ++ [l]) (Function.update g t q) := by
  refine ⟨he.sound h.events, ?_, ?_, ?_⟩
  · intro id e hid htopic hpub
    have hold : w.outbox id = some e →
        (∃ e₀, stored id = some e₀ ∧ e₀.published_at ≠ none) ∨ Attempted (ls ++ [l]) e.claimed :=
      fun hid => (h.published id e hid htopic hpub).imp_right Attempted.append
    rcases he.outbox_cases with ho | ⟨record, hrecord, ho⟩
    · exact hold (ho ▸ hid)
    · rw [ho, Function.update_apply] at hid
      split at hid
      · rw [← Option.some.inj hid] at htopic ⊢
        exact .inr (Attempted.append (h.marked t record hrecord htopic))
      · exact hold hid
  · intro u record hu
    by_cases hut : u = t
    · exact hm record (hut ▸ hu)
    · exact (h.marked u record (he.marked_eq hut ▸ hu)).append
  · intro u q' hu
    by_cases hut : u = t
    · subst hut
      rw [Function.update_self] at hu
      exact hq q' hu
    · rw [Function.update_of_ne hut] at hu
      exact (h.knows u q' hu).append fun _ => he.announced h.events

/-- What is known once a call is made. -/
theorem Knows.issue {q q' : ConsumerPhase} {op : Call} (hann : ∀ event, Announced w event → Announced w' event)
    (h : Knows w ls q) (hi : Issue q op q') : Knows w' (ls ++ [.call t op]) q' := by
  cases hi with
  | claim => exact trivial
  | publish => exact hann _ h
  | @execute event id hread =>
    refine ⟨hann _ h, fun _ id' hid => ⟨t, List.mem_append_right _ ?_⟩⟩
    rw [hread, Option.some.injEq] at hid
    rw [hid]
    exact List.mem_singleton_self _
  | unusable hread _ =>
    refine ⟨hann _ h, ?_⟩
    intro _ id' hid
    rw [hread] at hid
    cases hid
  | get _ => exact ⟨hann _ h.1, h.2.append⟩
  | flush _ => exact ⟨hann _ h.1, h.2.append⟩
  | commit => exact ⟨hann _ h.1, h.2.append⟩
  | rollback => exact h.append hann

/-- What is known once a call is answered. -/
theorem Knows.answer {q q' : ConsumerPhase} {op : Call} {r : Except Exc op.Res} (hs : EventSound w) (h : Knows w ls q)
    (he : EventEffect w t w') (ha : Answer q op r q') (hw : w.answer Broker.any dbRaises t w' op r) :
    Knows w' (ls ++ [l]) q' := by
  have hann : ∀ event, Announced w event → Announced w' event := fun _ => he.announced hs
  cases ha with
  | nothing => exact trivial
  | unclaimed => exact trivial
  | refused => exact trivial
  | claimed =>
    obtain ⟨events, hclaims, hmap, rfl⟩ := hw
    cases events with
    | nil => cases hmap
    | cons record events =>
      rw [List.map_cons, List.cons.injEq] at hmap
      exact ⟨record, (hclaims.claimable record List.mem_cons_self).1, hmap.1.symm⟩
  | published htopic => exact ⟨hann _ h, fun ht => absurd ht htopic⟩
  | _ => exact h.append hann

/-- The protocol knows what to make of every answer, while no publisher accepts what is the worker's. -/
theorem answered {q₀ q : ConsumerPhase} {op : Call} {r : Except Exc op.Res} (h : Knows w ls q) (hi : Issue q₀ op q)
    (hw : w.answer Broker.any dbRaises t w' op r) (hl : ¬AcceptsExecution (.answer t op r)) : ∃ q', Answer q op r q' := by
  have hread : ∀ {event id}, UUID.parse event.id = some id → op = .get_event id → q = .handled event →
      ∃ q', Answer q op r q' := by
    rintro event id hid rfl rfl
    cases r with
    | error e => exact ⟨_, .lost⟩
    | ok found =>
      cases found with
      | none => exact ⟨_, .gone⟩
      | some record =>
        obtain ⟨rfl, hclaimed⟩ := h.1.read hid hw.1.symm
        exact ⟨_, .got hclaimed⟩
  cases hi with
  | claim =>
    cases r with
    | error e => exact ⟨_, .unclaimed⟩
    | ok events =>
      cases events with
      | nil => exact ⟨_, .nothing⟩
      | cons event rest => exact ⟨_, .claimed⟩
  | publish =>
    cases r with
    | error e => exact ⟨_, .refused⟩
    | ok text => exact ⟨_, .published hl⟩
  | execute _ => exact ⟨_, .executed⟩
  | unusable _ hid => exact hread hid rfl rfl
  | get hid => exact hread hid rfl rfl
  | flush _ => exact ⟨_, .flushed⟩
  | commit => exact ⟨_, .committed⟩
  | rollback => exact ⟨_, .rolledBack⟩

/-- A new event is not published. -/
theorem Watched.announce (h : Watched stored w ls g) {e : OutboxEventRecord} (hw : w.announce e w') :
    Watched stored w' (ls ++ [l]) g := by
  obtain ⟨hnew, hunpublished, rfl⟩ := hw
  have hkeep : ∀ id record, w.outbox id = some record → Function.update w.outbox e.id (some e) id = some record := by
    intro id record hr
    rw [Function.update_of_ne, hr]
    rintro rfl
    rw [hnew] at hr
    cases hr
  have hcases : ∀ id record, Function.update w.outbox e.id (some e) id = some record →
      w.outbox id = some record ∨ id = e.id ∧ record = e := by
    intro id record hr
    rw [Function.update_apply] at hr
    split at hr
    · rename_i hid
      exact .inr ⟨hid, (Option.some.inj hr).symm⟩
    · exact .inl hr
  have hann : ∀ event, Announced w event → Announced { w with outbox := Function.update w.outbox e.id (some e) } event :=
    fun event ⟨record, hr, hclaimed⟩ => ⟨record, hkeep _ _ hr, hclaimed⟩
  refine ⟨⟨fun {id record} hr => ?_, fun hm => hann _ (h.events.marked hm)⟩, fun id record hr htopic hpub => ?_,
    fun t record hm => (h.marked t record hm).append, fun t q hq => (h.knows t q hq).append hann⟩
  · rcases hcases id record hr with hr | ⟨rfl, rfl⟩
    · exact h.events.event_id hr
    · rfl
  · rcases hcases id record hr with hr | ⟨rfl, rfl⟩
    · exact (h.published id record hr htopic hpub).imp_right Attempted.append
    · exact absurd hunpublished hpub

/-- Every step keeps what is known, while no publisher accepts what is the worker's. -/
theorem Watched.step {g g' : Consumer → Option consumerProtocol.Phase} (h : Watched stored w ls g)
    (hst : System.PhaseStep (consumers dbRaises stored) consumerProtocol (fun _ _ _ => True) w g l w' g') :
    Watched stored w' (ls ++ [l]) g' := by
  have hmarked : ∀ {t record}, w.marked t = some record → Clear (ls ++ [l]) record.claimed :=
    fun hm => (h.marked _ _ hm).append
  have hended : ∀ {t record}, w'.marked t = none → w'.marked t = some record → Clear (ls ++ [l]) record.claimed := by
    intro t record hnone hm
    rw [hnone] at hm
    cases hm
  cases hst with
  | spawn _ => exact h.effect (.none ⟨rfl, rfl⟩) (fun record hm => hmarked hm) fun q hq => Option.some.inj hq ▸ trivial
  | @call _ t op q q' hg hi hc =>
    have he := sameEvents_call hc
    have heffect := EventEffect.none he (t := t)
    refine h.effect heffect (fun record hm => hmarked (he.marked ▸ hm)) ?_
    intro p hp
    exact Option.some.inj hp ▸ (h.knows t q hg).issue (fun _ => heffect.announced h.events) hi
  | @answer _ t op r q₀ q q' hg hi ha hw =>
    have hknows := h.knows t q hg
    have hflush : ∀ record, op = .flush_event record → Announced w record.claimed ∧ Clear ls record.claimed := by
      rintro record rfl
      cases hi with
      | flush hclaimed => exact hclaimed ▸ hknows
    have he := effect_answer_event (fun record hop => (hflush record hop).1) hw
    refine h.effect he ?_ fun p hp => Option.some.inj hp ▸ hknows.answer h.events he ha hw
    intro record hm
    rcases marked_answer hw hm with hm | hop
    · exact hmarked hm
    · exact (hflush record hop).2.append
  | @finish _ t r q hg _ hfin =>
    obtain rfl : w' = (w.rollback t).rollback_outbox t := hfin
    have he : EventEffect w t ((w.rollback t).rollback_outbox t) := .rollback ⟨rfl, rfl⟩
    exact h.effect he (fun record hm => hended (Function.update_self _ _ _) hm) nofun
  | @crash _ t q hg hc =>
    obtain ⟨he, hnone⟩ := effect_crash_event hc
    exact h.effect he (fun record hm => hended hnone hm) nofun
  | env he => exact h.announce he

/-- Before the first step nothing has been watched. -/
theorem Watched.init (h : (consumers dbRaises stored).init w) : Watched stored w [] fun _ => none := by
  obtain ⟨rfl, hidle, hc⟩ := h
  refine ⟨⟨hc.event_id, fun {t record} hm => ?_⟩, fun id e hid _ hpub => .inl ⟨e, hid, hpub⟩, fun t record hm => ?_, nofun⟩ <;>
  · rw [hidle.marked t] at hm
    cases hm

/-- What is known of the events in every run in which no publisher accepts what is the worker's. -/
theorem watchedInvariant : System.Invariant (consumers dbRaises stored) (fun _ l => ¬AcceptsExecution l) consumerProtocol
    (fun _ _ _ => True) fun w ls g => Watched stored w ls g where
  follows := keeps_program
  answered _ _ _ t _ _ _ _ q h hg hi hw hl := answered (h.knows t q hg) hi hw hl
  init _ h := Watched.init h
  step _ _ _ _ _ _ h hst _ := h.step hst

end SharedOutboxAux

open SharedOutboxAux

/-- While no publisher accepts an event of the execution topic, every such event that gets published has been attempted. -/
theorem execution_events_attempted {dbRaises : Exc → Prop} {stored : UUID → Option OutboxEventRecord}
    {c : Config calls Exc Nat Consumer (World Consumer Unit)} {ls : List ConsumerEvent}
    (hr : System.Run (consumers dbRaises stored) (fun _ l => ¬AcceptsExecution l) c ls) : NotSwallowed stored c.shared ls := by
  obtain ⟨g, h, _⟩ := watchedInvariant.holds hr
  exact h.published

namespace SharedOutboxAux

/-! ## One event -/

/-- An outbox with one event in it. -/
def only (e : OutboxEventRecord) : UUID → Option OutboxEventRecord := Function.update (fun _ => none) e.id (some e)

def atRest (e : OutboxEventRecord) : World Consumer Unit := { World.empty () with outbox := only e }

variable {e : OutboxEventRecord} {dbRaises : Exc → Prop}

/-- An outbox with one event has no other. -/
theorem only_eq_some {id : UUID} {e' : OutboxEventRecord} (h : only e id = some e') : id = e.id ∧ e' = e := by
  rw [only, Function.update_apply] at h
  split at h
  · rename_i hid
    exact ⟨hid, (Option.some.inj h).symm⟩
  · cases h

/-- The event is there. -/
theorem only_self : only e e.id = some e := Function.update_self _ _ _

/-- At rest the consumers may begin. -/
theorem init_atRest : (consumers dbRaises (only e)).init (atRest e) where
  left := rfl
  right.left := ⟨fun _ => rfl, fun _ => rfl, fun _ => rfl, fun _ => rfl⟩
  right.right := ⟨nofun, fun h => by rw [(only_eq_some h).1, (only_eq_some h).2], nofun⟩

/-- The event is claimed by who asks for its topic, or for any. -/
theorem claims_atRest {topic : Option String} (hnew : e.published_at = none) (htopic : ∀ name, topic = some name → e.topic = name) :
    (atRest e).Claims 1 topic [e] :=
  World.claims_single ⟨only_self, hnew, rfl, htopic⟩ fun _ h => (only_eq_some h.1).2

/-- The store serves every call. -/
theorem serves : Serves (consumers dbRaises (only e)) Broker.any dbRaises := ⟨id, id⟩

def dispatcher (now : Int) : Consumer := ⟨0, .dispatch_batch 1 [now]⟩

def dispatching (e : OutboxEventRecord) (now : Int) : List ConsumerEvent :=
  let t := dispatcher now
  [.call t (.claim 1 none), .answer t (.claim 1 none) (.ok [e.claimed]),
    .call t (.publish e.topic e.message_key e.payload), .answer t (.publish e.topic e.message_key e.payload) (.ok "")] ++
    marking Nat OutboxEventRecord t e now

/-- A dispatcher publishes the event. -/
theorem alone_dispatch (hnew : e.published_at = none) (now : Int) :
    System.Alone (consumers dbRaises (only e)) (dispatcher now) (atRest e) (dispatcher now).program (dispatching e now)
      (((atRest e).claim (dispatcher now) [e]).publish (dispatcher now) { e with published_at := some now }) (.done (.ok 1)) := by
  refine serves.then rfl ⟨[e], claims_atRest hnew nofun, rfl, rfl⟩ <| serves.then rfl rfl ?_
  show System.Alone _ _ _ ((OutboxRepository.mark_published now e.id.str).andThen _) _ _ _
  exact (alone_mark_published serves only_self now).andThen _

def worker (now : Int) : Consumer := ⟨0, .run_once 1 [now]⟩

def working (e : OutboxEventRecord) (intent_id : UUID) (now : Int) : List ConsumerEvent :=
  let t := worker now
  [.call t (.claim 1 (some EXECUTION_TOPIC)), .answer t (.claim 1 (some EXECUTION_TOPIC)) (.ok [e.claimed]),
    .call t (.execute_intent intent_id), .answer t (.execute_intent intent_id) (.ok ())] ++
    marking Nat OutboxEventRecord t e now

/-- A worker has the event executed and publishes it. -/
theorem alone_work (hnew : e.published_at = none) (htopic : e.topic = EXECUTION_TOPIC) {intent_id : UUID}
    (hread : _read_intent_id e.claimed = some intent_id) (now : Int) :
    System.Alone (consumers dbRaises (only e)) (worker now) (atRest e) (worker now).program (working e intent_id now)
      (((atRest e).claim (worker now) [e]).publish (worker now) { e with published_at := some now }) (.done (.ok 1)) := by
  refine serves.then rfl ⟨[e], claims_atRest hnew fun _ h => Option.some.inj h ▸ htopic, rfl, rfl⟩ ?_
  dsimp only [Bind.bind, Prog.bind, Prog.andThen]
  rw [hread]
  refine serves.then rfl rfl ?_
  show System.Alone _ _ _ (((OutboxRepository.mark_published now e.id.str).andThen _).andThen _) _ _ _
  exact ((alone_mark_published serves only_self now).andThen _).andThen _

/-- An event of the execution topic, as an order's creation writes it. -/
def waiting : OutboxEventRecord where
  id := ⟨1⟩
  topic := EXECUTION_TOPIC
  message_key := "key"
  payload := Dict.empty.set "intent_id" (.str (UUID.str ⟨2⟩))
  created_at := 0

/-- The announced order is read from the event. -/
theorem read_waiting : _read_intent_id waiting.claimed = some ⟨2⟩ := UUID.parse_str _

/-- The published event is in the outbox after a run of either consumer. -/
theorem outbox_after {t : Consumer} {now : Int} :
    ((((atRest e).claim t [e]).publish t { e with published_at := some now }).rollback t |>.rollback_outbox t).outbox e.id =
      some { e with published_at := some now } := by
  show (World.publish _ t _).outbox e.id = _
  rw [World.outbox_publish, Function.update_self]

end SharedOutboxAux

/-- A dispatcher whose publisher accepts an execution event publishes it, and nobody has executed it. -/
theorem execution_event_swallowed :
    ¬∀ (dbRaises : Exc → Prop) (stored : UUID → Option OutboxEventRecord)
      (c : Config calls Exc Nat Consumer (World Consumer Unit)) (ls : List ConsumerEvent),
      System.Run (consumers dbRaises stored) (fun _ _ => True) c ls → NotSwallowed stored c.shared ls := by
  intro h
  have hrun := System.Run.complete (@alone_dispatch waiting (fun _ => False) rfl 0) rfl (.init init_atRest) rfl
  rcases h _ _ _ _ hrun waiting.id _ outbox_after rfl nofun with ⟨e₀, he₀, hpub⟩ | hattempted
  · rw [(only_eq_some he₀).2] at hpub
    exact hpub rfl
  · obtain ⟨t, ht⟩ := hattempted ⟨2⟩ read_waiting
    simp [dispatching, marking] at ht

/-- A worker alone has the event executed and publishes it. -/
theorem execution_events_attempted_worker :
    ∃ (w : World Consumer Unit) (ls : List ConsumerEvent), NotSwallowed (only waiting) w ls ∧
      w.outbox waiting.id = some { waiting with published_at := some 0 } := by
  have hrun := System.Run.complete (@alone_work waiting (fun _ => False) rfl rfl _ read_waiting 0) rfl (.init init_atRest) rfl
  refine ⟨_, _, execution_events_attempted (hrun.of_all ?_), outbox_after⟩
  intro pre l post hl
  have hmem : l ∈ [] ++ .spawn (worker 0) :: working waiting ⟨2⟩ 0 ++ [.finish (worker 0) (.ok 1)] := by
    rw [hl]
    simp
  simp only [working, marking, List.nil_append, List.cons_append, List.mem_cons, List.not_mem_nil, or_false] at hmem
  rcases hmem with rfl | rfl | rfl | rfl | rfl | rfl | rfl | rfl | rfl | rfl | rfl | rfl <;> exact id

end MtossBot
