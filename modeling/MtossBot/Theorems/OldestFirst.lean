import Mathlib.Data.Finset.Sort
import Mathlib.Data.Set.Finite.Basic
import MtossBot.Runtime.Solo

/-!
# The oldest event first

Workers one after the other over a backlog in which one event fails. An event is given back when its execution raises, and it is then
the oldest again: the events before it get through, and the events after it wait for it.
-/

namespace MtossBot

open ExecutionWorker (EXECUTION_TOPIC _read_intent_id)

/-- The events that wait for a worker are `events`; the execution of `failing` always raises an error that is worth another try, and
that of the others succeeds. -/
structure Backlog (w : World Consumer Unit) (outcome : UUID → Except Exc Unit) (events : List OutboxEventRecord)
    (failing : OutboxEventRecord) : Prop where
  rest : ∀ id, w.claimer id = none
  waiting : ∀ e, e ∈ events ↔ w.Claimable (some EXECUTION_TOPIC) e
  failing_mem : failing ∈ events
  usable : ∀ e ∈ events, ∃ id, _read_intent_id e.claimed = some id
  succeeds : ∀ e ∈ events, e ≠ failing → ∀ id, _read_intent_id e.claimed = some id → outcome id = .ok ()
  fails : ∀ id, _read_intent_id failing.claimed = some id → ∃ error, outcome id = .error error ∧ ExecutionWorker.terminal error = false

/-- An event is in the outbox as published. -/
def Published (w : World Consumer Unit) (e : OutboxEventRecord) : Prop :=
  ∃ now, w.outbox e.id = some { e with published_at := some now }

/-- The execution of the intent of an event was called. -/
def Solo.Attempted (s : Solo) (e : OutboxEventRecord) : Prop := ∃ id ∈ s.attempted, _read_intent_id e.claimed = some id

namespace OldestFirstAux

open Solo

/-! ## What a claim finds -/

/-- There are finitely many identifiers. -/
theorem uuid_finite : Finite UUID :=
  Finite.of_injective UUID.int fun a b h => by
    cases a
    cases b
    cases h
    rfl

/-- There is always something to answer to a claim. -/
theorem exists_claims (w : World Consumer Unit) (limit : Nat) (topic : Option String) : ∃ events, w.Claims limit topic events := by
  have hinj : Set.InjOn OutboxEventRecord.id {e | w.Claimable topic e} := by
    intro a ha b hb h
    have hb' := hb.1
    rw [← h, ha.1, Option.some.injEq] at hb'
    exact hb'
  have := uuid_finite
  have hfin : {e | w.Claimable topic e}.Finite := Set.Finite.of_finite_image (Set.toFinite _) hinj
  let older (a b : OutboxEventRecord) : Bool := decide (a.created_at ≤ b.created_at)
  let all := hfin.toFinset.toList.mergeSort older
  have hall : ∀ e, e ∈ all ↔ w.Claimable topic e := by
    intro e
    rw [List.mem_mergeSort, Finset.mem_toList, Set.Finite.mem_toFinset, Set.mem_ofPred_eq]
  have hsorted : all.Pairwise fun a b => a.created_at ≤ b.created_at := by
    have h := @List.pairwise_mergeSort _ older (fun a b c hab hbc => by simp only [older, decide_eq_true_eq] at *; omega)
      (fun a b => by simp only [older, Bool.or_eq_true, decide_eq_true_eq]; omega) hfin.toFinset.toList
    exact h.imp fun hab => of_decide_eq_true hab
  have hnodup : all.Nodup := (List.mergeSort_perm _ _).nodup_iff.mpr (Finset.nodup_toList _)
  refine ⟨all.take limit, fun e he => (hall e).mp (List.mem_of_mem_take he), ?_, hsorted.sublist (List.take_sublist _ _),
    List.length_take_le _ _, fun e he => ?_⟩
  · refine (hnodup.sublist (List.take_sublist _ _)).map_on ?_
    intro a ha b hb h
    exact hinj ((hall a).mp (List.mem_of_mem_take ha)) ((hall b).mp (List.mem_of_mem_take hb)) h
  · have hmem := (hall e).mpr he
    rw [← List.take_append_drop limit all] at hmem hsorted
    rcases List.mem_append.mp hmem with h | h
    · exact .inl h
    · refine .inr ⟨?_, fun a ha => (List.pairwise_append.mp hsorted).2.2 a ha e h⟩
      have hlt : 0 < (all.drop limit).length := List.length_pos_of_mem h
      rw [List.length_drop] at hlt
      rw [List.length_take]
      omega

/-- There is a way to select the oldest first. -/
theorem exists_oldestFirst : ∃ select, OldestFirst select :=
  ⟨fun s limit topic => (exists_claims s.world limit topic).choose, fun s limit topic => (exists_claims s.world limit topic).choose_spec⟩

/-! ## One event -/

variable {select : Select} {outcome : UUID → Except Exc Unit} {t : Consumer} {s : Solo} {e : OutboxEventRecord} {id : UUID}
  {now : Int}

/-- The coroutine that a worker is given to execute an intent. -/
abbrev execute_intent (intent_id : UUID) : Coro Unit := await (.execute_intent intent_id)

/-- An event is claimed, and the execution of its intent is called. -/
def attempting (t : Consumer) (s : Solo) (e : OutboxEventRecord) (id : UUID) : Solo where
  world := s.world.claim t [e]
  attempted := s.attempted ++ [id]

/-- An event is marked, and its claim ends. -/
def marking (t : Consumer) (s : Solo) (record : OutboxEventRecord) : Solo :=
  { s with world := (s.world.mark t record).commit_outbox t }

/-- A mark of an event of the outbox stamps it. -/
theorem eval_mark (he : s.world.outbox e.id = some e) :
    (OutboxRepository.mark_published now e.id.str).eval (serve select outcome t) s =
      (.ok (), marking t s { e with published_at := some now }) := by
  unfold OutboxRepository.mark_published
  rw [UUID.parse_str]
  simp only [Prog.tryExcept, Prog.eval_andThen, Prog.eval_bind, Prog.ofExcept, await, Prog.perform, Prog.eval, serve, he]
  rfl

/-- What a worker does with the event that it is given. -/
theorem eval_process_one (hselect : select s 1 (some EXECUTION_TOPIC) = [e]) (hread : _read_intent_id e.claimed = some id) :
    (ExecutionWorker._process_one execute_intent now).eval (serve select outcome t) s =
      (ExecutionWorker.settle now e.id.str (outcome id)).eval (serve select outcome t) (attempting t s e id) := by
  simp only [ExecutionWorker._process_one, OutboxRepository.claim, await, Prog.eval_bind, Prog.perform, Prog.eval, serve, hselect,
    List.map_cons, List.map_nil, hread, Prog.eval_andThen]
  rfl

/-- An execution that succeeds. -/
theorem eval_success (hselect : select s 1 (some EXECUTION_TOPIC) = [e]) (hread : _read_intent_id e.claimed = some id)
    (houtcome : outcome id = .ok ()) (he : s.world.outbox e.id = some e) :
    (ExecutionWorker._process_one execute_intent now).eval (serve select outcome t) s =
      (.ok true, marking t (attempting t s e id) { e with published_at := some now }) := by
  have hmark : (OutboxRepository.mark_published now e.id.str).eval (serve select outcome t) (attempting t s e id) = _ := eval_mark he
  rw [eval_process_one hselect hread, houtcome, ExecutionWorker.settle, Prog.eval_bind, hmark]
  rfl

/-- An execution that raises an error that is worth another try: the event is given back. -/
theorem eval_failure (now : Int) {error : Exc} (hselect : select s 1 (some EXECUTION_TOPIC) = [e])
    (hread : _read_intent_id e.claimed = some id) (houtcome : outcome id = .error error)
    (hterminal : ExecutionWorker.terminal error = false) :
    ∃ s', (ExecutionWorker._process_one execute_intent now).eval (serve select outcome t) s = (.error error, s') ∧
      s'.close t = (attempting t s e id).close t := by
  rw [eval_process_one hselect hread, houtcome, ExecutionWorker.settle, hterminal, if_neg Bool.false_ne_true]
  split
  · refine ⟨_, rfl, ?_⟩
    show Solo.close t (Solo.close t _) = _
    simp only [Solo.close, World.rollback_outbox, World.unclaim, Function.update_idem]
    congr 2
    funext i
    split <;> simp_all
  · exact ⟨_, rfl, rfl⟩

/-! ## What holds after each event -/

variable {w₀ : World Consumer Unit} {events : List OutboxEventRecord} {failing : OutboxEventRecord}

/-- Some events are published, none of them newer than the failing one; that one and the others wait. -/
structure Held (events : List OutboxEventRecord) (failing : OutboxEventRecord) (s : Solo) : Prop where
  rest : ∀ i, s.world.claimer i = none
  waiting : ∀ e, s.world.Claimable (some EXECUTION_TOPIC) e → e ∈ events
  state : ∀ e ∈ events, s.world.outbox e.id = some e ∨
    e ≠ failing ∧ e.created_at ≤ failing.created_at ∧ Published s.world e ∧ s.Attempted e
  attempted : ∀ id ∈ s.attempted, ∃ e ∈ events, e.created_at ≤ failing.created_at ∧ _read_intent_id e.claimed = some id

/-- What waits is not older than the failing event. -/
def NoEarlier (failing : OutboxEventRecord) (s : Solo) : Prop :=
  ∀ e, s.world.Claimable (some EXECUTION_TOPIC) e → failing.created_at ≤ e.created_at

/-- Before the first batch the backlog is held. -/
theorem Held.init (hb : Backlog w₀ outcome events failing) : Held events failing ⟨w₀, []⟩ where
  rest := hb.rest
  waiting e he := (hb.waiting e).mpr he
  state e he := .inl ((hb.waiting e).mp he).1
  attempted := nofun

/-- The failing event is in the outbox. -/
theorem Held.outbox_failing (hb : Backlog w₀ outcome events failing) (h : Held events failing s) :
    s.world.outbox failing.id = some failing :=
  (h.state failing hb.failing_mem).resolve_right fun h => h.1 rfl

/-- An event that has not been published may be claimed. -/
theorem Held.claimable (hb : Backlog w₀ outcome events failing) (h : Held events failing s) (he : e ∈ events)
    (hout : s.world.outbox e.id = some e) : s.world.Claimable (some EXECUTION_TOPIC) e := by
  obtain ⟨_, hnew, _, htopic⟩ := (hb.waiting e).mp he
  exact ⟨hout, hnew, h.rest _, htopic⟩

/-- Events with one identifier are one event. -/
theorem eq_of_id (hb : Backlog w₀ outcome events failing) {e e' : OutboxEventRecord} (he : e ∈ events) (he' : e' ∈ events)
    (hid : e.id = e'.id) : e = e' := by
  have h := ((hb.waiting e).mp he).1
  rw [hid, ((hb.waiting e').mp he').1, Option.some.injEq] at h
  exact h.symm

/-- The claim of a worker is the oldest event, which is not newer than the failing one. -/
theorem Held.oldest (hb : Backlog w₀ outcome events failing) (hselect : OldestFirst select) (h : Held events failing s) :
    ∃ e, select s 1 (some EXECUTION_TOPIC) = [e] ∧ s.world.Claimable (some EXECUTION_TOPIC) e ∧
      e.created_at ≤ failing.created_at ∧
      ∀ e', s.world.Claimable (some EXECUTION_TOPIC) e' → e.created_at ≤ e'.created_at := by
  have hclaims := hselect s 1 (some EXECUTION_TOPIC)
  have holder : ∀ e, select s 1 (some EXECUTION_TOPIC) = [e] → ∀ e', s.world.Claimable (some EXECUTION_TOPIC) e' →
      e.created_at ≤ e'.created_at := by
    intro e heq e' he'
    rcases hclaims.first e' he' with hmem | ⟨_, hmem⟩
    · rw [heq, List.mem_singleton] at hmem
      rw [hmem]
    · exact hmem e (heq ▸ List.mem_singleton_self e)
  have hfailing := h.claimable hb hb.failing_mem (h.outbox_failing hb)
  match heq : select s 1 (some EXECUTION_TOPIC) with
  | [] =>
    rcases hclaims.first failing hfailing with hmem | ⟨hlength, _⟩
    · rw [heq] at hmem
      cases hmem
    · rw [heq] at hlength
      cases hlength
  | [e] => exact ⟨e, rfl, hclaims.claimable e (heq ▸ List.mem_singleton_self e), holder e heq failing hfailing, holder e heq⟩
  | a :: b :: l =>
    have hbounded := hclaims.bounded
    rw [heq, List.length_cons, List.length_cons] at hbounded
    omega

/-- The locks are free once the claim of an event has ended. -/
theorem rest_ended (hrest : ∀ i, s.world.claimer i = none) (i : UUID) :
    (if (s.world.claim t [e]).claimer i = some t then none else (s.world.claim t [e]).claimer i) = none := by
  show (if (if i ∈ [e.id] then some t else s.world.claimer i) = some t then none
    else if i ∈ [e.id] then some t else s.world.claimer i) = none
  rw [hrest]
  split <;> simp_all

/-- The intent of a claimed event has been attempted. -/
theorem Held.attempts (h : Held events failing s) (he : e ∈ events) (hle : e.created_at ≤ failing.created_at)
    (hread : _read_intent_id e.claimed = some id) {id' : UUID} (hid : id' ∈ s.attempted ++ [id]) :
    ∃ e ∈ events, e.created_at ≤ failing.created_at ∧ _read_intent_id e.claimed = some id' := by
  rcases List.mem_append.mp hid with hid | hid
  · exact h.attempted id' hid
  · exact ⟨e, he, hle, (List.mem_singleton.mp hid).symm ▸ hread⟩

/-- What was attempted stays attempted. -/
theorem Attempted.append (h : s.Attempted e) : Solo.Attempted ⟨w₀, s.attempted ++ [id]⟩ e :=
  h.imp fun _ h => ⟨List.mem_append_left _ h.1, h.2⟩

/-- A mark changes the marked event only. -/
theorem outbox_marking {record : OutboxEventRecord} :
    (marking t s record).world.outbox = Function.update s.world.outbox record.id (some record) :=
  World.outbox_commit_outbox_some (Function.update_self _ _ _)

/-- What can be claimed once an event is published. -/
theorem claimable_marking (hrest : ∀ i, s.world.claimer i = none) {e' : OutboxEventRecord}
    (h : (marking t (attempting t s e id) { e with published_at := some now }).world.Claimable (some EXECUTION_TOPIC) e') :
    s.world.Claimable (some EXECUTION_TOPIC) e' ∧ e'.id ≠ e.id := by
  obtain ⟨hout, hnew, _, htopic⟩ := h
  rw [outbox_marking, Function.update_apply] at hout
  split at hout
  · rw [← Option.some.inj hout] at hnew
    cases hnew
  · rename_i hid
    exact ⟨⟨hout, hnew, hrest _, htopic⟩, hid⟩

/-- An event that succeeds is published, and nothing else changes. -/
theorem Held.success (hb : Backlog w₀ outcome events failing) (h : Held events failing s)
    (hclaimable : s.world.Claimable (some EXECUTION_TOPIC) e) (hle : e.created_at ≤ failing.created_at) (hne : e ≠ failing)
    (hread : _read_intent_id e.claimed = some id) :
    Held events failing (marking t (attempting t s e id) { e with published_at := some now }) where
  rest := rest_ended h.rest
  waiting e' he' := h.waiting e' (claimable_marking h.rest he').1
  state e' he' := by
    have he := h.waiting e hclaimable
    by_cases heq : e' = e
    · subst heq
      exact .inr ⟨hne, hle, ⟨now, by rw [outbox_marking, Function.update_self]⟩, id, List.mem_append_right _ (List.mem_singleton_self _),
        hread⟩
    · have hid : e'.id ≠ e.id := fun hid => heq (eq_of_id hb he' he hid)
      have hout : (marking t (attempting t s e id) { e with published_at := some now }).world.outbox e'.id = s.world.outbox e'.id := by
        rw [outbox_marking, Function.update_of_ne hid]
        rfl
      rw [Published, hout]
      exact (h.state e' he').imp_right fun ⟨hne, hle, hpub, hatt⟩ => ⟨hne, hle, hpub, Attempted.append hatt⟩
  attempted _ hid := h.attempts (h.waiting e hclaimable) hle hread hid

/-- The failing event is given back, and it is then among the oldest. -/
theorem Held.failure (hb : Backlog w₀ outcome events failing) (h : Held events failing s)
    (hread : _read_intent_id failing.claimed = some id) : Held events failing ((attempting t s failing id).close t) where
  rest := rest_ended h.rest
  waiting e he := h.waiting e ⟨he.1, he.2.1, h.rest _, he.2.2.2⟩
  state e he := (h.state e he).imp_right fun ⟨hne, hle, hpub, hatt⟩ => ⟨hne, hle, hpub, Attempted.append hatt⟩
  attempted _ hid := h.attempts hb.failing_mem (Int.le_refl _) hread hid

/-- What a worker does with one event: it publishes one, or it ends at the failing one. -/
theorem Held.round (hb : Backlog w₀ outcome events failing) (hselect : OldestFirst select) (h : Held events failing s) (t : Consumer)
    (now : Int) :
    (∃ e s', s.world.Claimable (some EXECUTION_TOPIC) e ∧
      (ExecutionWorker._process_one execute_intent now).eval (serve select outcome t) s = (.ok true, s') ∧ Held events failing s' ∧
      ∀ e', s'.world.Claimable (some EXECUTION_TOPIC) e' → s.world.Claimable (some EXECUTION_TOPIC) e' ∧ e'.id ≠ e.id) ∨
    ∃ error s', (ExecutionWorker._process_one execute_intent now).eval (serve select outcome t) s = (.error error, s') ∧
      Held events failing (s'.close t) ∧ NoEarlier failing (s'.close t) := by
  obtain ⟨e, hsel, hclaimable, hle, holder⟩ := h.oldest hb hselect
  have he := h.waiting e hclaimable
  obtain ⟨id, hread⟩ := hb.usable e he
  by_cases hne : e = failing
  · subst hne
    obtain ⟨error, hout, hterminal⟩ := hb.fails id hread
    obtain ⟨s', heval, hclose⟩ := eval_failure now (t := t) hsel hread hout hterminal
    refine .inr ⟨error, s', heval, ?_⟩
    rw [hclose]
    exact ⟨h.failure hb hread, fun e' he' => holder e' ⟨he'.1, he'.2.1, h.rest _, he'.2.2.2⟩⟩
  · refine .inl ⟨e, _, hclaimable, eval_success hsel hread (hb.succeeds e he hne id hread) hclaimable.1,
      h.success hb hclaimable hle hne hread, fun e' he' => claimable_marking h.rest he'⟩

/-- A worker that may take as many events as wait gets to the failing one: the induction is on what is left of its limit, and `l` names
the events that wait. -/
theorem Held.rounds (hb : Backlog w₀ outcome events failing) (hselect : OldestFirst select) (t : Consumer) (now : Nat → Int)
    (left processed : Nat) (l : List UUID) (hl : l.length ≤ left) (h : Held events failing s)
    (hcover : ∀ e, s.world.Claimable (some EXECUTION_TOPIC) e → e.id ∈ l) :
    let s' := ((ExecutionWorker.rounds execute_intent now left processed).eval (serve select outcome t) s).2.close t
    Held events failing s' ∧ NoEarlier failing s' := by
  induction left generalizing s processed l with
  | zero =>
    have hmem := hcover failing (h.claimable hb hb.failing_mem (h.outbox_failing hb))
    rw [List.length_eq_zero_iff.mp (Nat.le_zero.mp hl)] at hmem
    cases hmem
  | succ left ih =>
    rw [ExecutionWorker.rounds, Prog.eval_bind]
    rcases h.round hb hselect t (now processed) with ⟨e, s', hclaimable, heval, h', hrest⟩ | ⟨error, s', heval, h'⟩
    · rw [heval]
      have hmem := hcover e hclaimable
      refine ih (processed + 1) (l.erase e.id) ?_ h' ?_
      · rw [List.length_erase_of_mem hmem]
        omega
      · intro e' he'
        exact (List.mem_erase_of_ne (hrest e' he').2).mpr (hcover e' (hrest e' he').1)
    · rw [heval]
      exact h'

/-- After a worker whose limit is the length of the backlog, nothing that is older than the failing event waits. -/
theorem Held.call (hb : Backlog w₀ outcome events failing) (hselect : OldestFirst select) (h : Held events failing s)
    {times : List Int} (ht : t.job = .run_once events.length times) :
    Held events failing (s.call select outcome t) ∧ NoEarlier failing (s.call select outcome t) := by
  have hprogram : t.program = ExecutionWorker.rounds execute_intent (times.getD · 0) events.length 0 := by
    rw [Consumer.program, ht]
    rfl
  rw [Solo.call, hprogram]
  refine h.rounds hb hselect t _ _ _ (events.map OutboxEventRecord.id) (List.length_map _).le ?_
  intro e he
  exact List.mem_map_of_mem (h.waiting e he)

/-- What holds after workers whose limits are the length of the backlog. -/
theorem Held.calls (hb : Backlog w₀ outcome events failing) (hselect : OldestFirst select) {ts : List Consumer}
    (hts : ∀ t ∈ ts, ∃ times, t.job = .run_once events.length times) (h : Held events failing s) :
    Held events failing (s.calls select outcome ts) ∧ (ts ≠ [] → NoEarlier failing (s.calls select outcome ts)) := by
  induction ts using List.reverseRecOn with
  | nil => exact ⟨h, fun h => absurd rfl h⟩
  | append_singleton ts t ih =>
    obtain ⟨times, ht⟩ := hts t (by simp)
    have hlast := (ih fun u hu => hts u (List.mem_append_left _ hu)).1.call hb hselect ht
    rw [Solo.calls, List.foldl_append]
    exact ⟨hlast.1, fun _ => hlast.2⟩

end OldestFirstAux

open Solo OldestFirstAux

/-- A failing event does not block the events before it: they are executed and published. The failing event waits for another try, and
the events after it wait behind it. -/
theorem earlier_events_not_blocked {select : Select} (hselect : OldestFirst select) {outcome : UUID → Except Exc Unit}
    {w : World Consumer Unit} {events : List OutboxEventRecord} {failing : OutboxEventRecord}
    (hb : Backlog w outcome events failing) {ts : List Consumer} (hlength : ts.length = events.length)
    (hts : ∀ t ∈ ts, ∃ times, t.job = .run_once events.length times) :
    let s := Solo.calls select outcome ts ⟨w, []⟩
    (∀ e ∈ events, e.created_at < failing.created_at → Published s.world e ∧ s.Attempted e) ∧
      s.world.outbox failing.id = some failing ∧
      (∀ e ∈ events, failing.created_at < e.created_at → s.world.outbox e.id = some e) ∧
      ∀ id ∈ s.attempted, ∃ e ∈ events, e.created_at ≤ failing.created_at ∧ _read_intent_id e.claimed = some id := by
  intro s
  obtain ⟨h, hearlier⟩ := (Held.init hb).calls hb hselect hts
  have hne : ts ≠ [] := by
    rintro rfl
    have hmem := hb.failing_mem
    rw [List.length_eq_zero_iff.mp hlength.symm] at hmem
    cases hmem
  refine ⟨?_, h.outbox_failing hb, ?_, h.attempted⟩
  · intro e he hlt
    rcases h.state e he with hout | ⟨_, _, hpub, hatt⟩
    · have := hearlier hne e (h.claimable hb he hout)
      omega
    · exact ⟨hpub, hatt⟩
  · intro e he hlt
    refine (h.state e he).resolve_right fun ⟨_, hle, _⟩ => ?_
    omega

namespace OldestFirstAux

/-! ## Three events -/

def queued (id : UUID) (created_at : Int) : OutboxEventRecord where
  id := id
  topic := EXECUTION_TOPIC
  message_key := "key"
  payload := Dict.empty.set "intent_id" (.str id.str)
  created_at := created_at

/-- The announced order is read from the event. -/
theorem read_queued (id : UUID) (created_at : Int) : _read_intent_id (queued id created_at).claimed = some id := UUID.parse_str _

def queue : List OutboxEventRecord := [queued ⟨0⟩ 0, queued ⟨1⟩ 1, queued ⟨2⟩ 2]

def holding : World Consumer Unit := { World.empty () with outbox := fun id => queue.find? fun e => e.id = id }

/-- The broker is not reached for the second intent. -/
def unreachable (id : UUID) : Except Exc Unit := if id = ⟨1⟩ then .error ⟨[.Exception], "unreachable", [], []⟩ else .ok ()

def workers : List Consumer := [⟨0, .run_once 3 []⟩, ⟨1, .run_once 3 []⟩, ⟨2, .run_once 3 []⟩]

/-- Every worker makes as many rounds as there are events. -/
theorem run_once_workers : ∀ t ∈ workers, ∃ times, t.job = .run_once queue.length times := by
  intro t ht
  rcases List.mem_cons.mp ht with rfl | ht
  · exact ⟨_, rfl⟩
  rcases List.mem_cons.mp ht with rfl | ht
  · exact ⟨_, rfl⟩
  · obtain rfl := List.mem_singleton.mp ht
    exact ⟨_, rfl⟩

/-- The queue is a backlog with a failing event at its head. -/
theorem backlog_queue : Backlog holding unreachable queue (queued ⟨1⟩ 1) where
  rest _ := rfl
  waiting e := by
    have hfound : holding.outbox e.id = some e → e ∈ queue := by
      intro h
      have h : queue.find? (fun e' => e'.id = e.id) = some e := h
      exact List.mem_of_find?_eq_some h
    refine ⟨?_, fun he => hfound he.1⟩
    intro he
    rcases List.mem_cons.mp he with rfl | he
    · exact ⟨rfl, rfl, rfl, fun _ h => Option.some.inj h⟩
    rcases List.mem_cons.mp he with rfl | he
    · exact ⟨rfl, rfl, rfl, fun _ h => Option.some.inj h⟩
    · exact List.mem_singleton.mp he ▸ ⟨rfl, rfl, rfl, fun _ h => Option.some.inj h⟩
  failing_mem := List.mem_cons_of_mem _ List.mem_cons_self
  usable e he := by
    rcases List.mem_cons.mp he with rfl | he
    · exact ⟨_, read_queued _ _⟩
    rcases List.mem_cons.mp he with rfl | he
    · exact ⟨_, read_queued _ _⟩
    · exact List.mem_singleton.mp he ▸ ⟨_, read_queued _ _⟩
  succeeds e he hne id hid := by
    rcases List.mem_cons.mp he with rfl | he
    · rw [read_queued, Option.some.injEq] at hid
      exact hid ▸ rfl
    rcases List.mem_cons.mp he with rfl | he
    · exact absurd rfl hne
    · rw [List.mem_singleton.mp he, read_queued, Option.some.injEq] at hid
      exact hid ▸ rfl
  fails id hid := by
    rw [read_queued, Option.some.injEq] at hid
    exact hid ▸ ⟨_, rfl, rfl⟩

end OldestFirstAux

/-- The third event is still in the outbox after three workers, since the second one fails. -/
theorem later_event_blocked :
    ¬∀ (select : Select) (outcome : UUID → Except Exc Unit) (w : World Consumer Unit) (events : List OutboxEventRecord)
      (failing : OutboxEventRecord) (ts : List Consumer), OldestFirst select → Backlog w outcome events failing →
      ts.length = events.length → (∀ t ∈ ts, ∃ times, t.job = .run_once events.length times) →
      ∀ e ∈ events, e ≠ failing →
        Published (Solo.calls select outcome ts ⟨w, []⟩).world e ∧ (Solo.calls select outcome ts ⟨w, []⟩).Attempted e := by
  intro h
  obtain ⟨select, hselect⟩ := exists_oldestFirst
  have hlast : queued ⟨2⟩ 2 ∈ queue := List.mem_cons_of_mem _ (List.mem_cons_of_mem _ List.mem_cons_self)
  have hne : queued ⟨2⟩ 2 ≠ queued ⟨1⟩ 1 := fun h => by cases congrArg OutboxEventRecord.created_at h
  obtain ⟨⟨now, hpub⟩, _⟩ := h select unreachable holding queue (queued ⟨1⟩ 1) workers hselect backlog_queue rfl run_once_workers _ hlast hne
  have hheld := ((Held.init backlog_queue).calls backlog_queue hselect run_once_workers).1
  rcases hheld.state _ hlast with hout | ⟨_, hle, _⟩
  · rw [hpub] at hout
    cases congrArg OutboxEventRecord.published_at (Option.some.inj hout)
  · exact absurd hle (by decide)

/-- The first event is published and the other two wait after three workers. -/
theorem earlier_events_not_blocked_three :
    ∃ select, Published (Solo.calls select unreachable workers ⟨holding, []⟩).world (queued ⟨0⟩ 0) ∧
      (Solo.calls select unreachable workers ⟨holding, []⟩).world.outbox ⟨1⟩ = some (queued ⟨1⟩ 1) ∧
      (Solo.calls select unreachable workers ⟨holding, []⟩).world.outbox ⟨2⟩ = some (queued ⟨2⟩ 2) := by
  obtain ⟨select, hselect⟩ := exists_oldestFirst
  obtain ⟨hbefore, hfailing, hafter, _⟩ :=
    earlier_events_not_blocked hselect backlog_queue (show workers.length = queue.length from rfl) run_once_workers
  refine ⟨select, (hbefore (queued ⟨0⟩ 0) List.mem_cons_self (by decide)).1, hfailing, ?_⟩
  exact hafter (queued ⟨2⟩ 2) (List.mem_cons_of_mem _ (List.mem_cons_of_mem _ List.mem_cons_self)) (by decide)

end MtossBot
