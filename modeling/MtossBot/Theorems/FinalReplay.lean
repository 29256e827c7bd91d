import MtossBot.Lemmas.ExecutionBase
import MtossBot.Lemmas.LimitRuns

/-!
# An execution is final and can be replayed

Once an execution of an order has returned, its row is settled for good, nothing more is said of it to the broker, and every later execution
returns the same result, whatever the broker does.
-/

namespace MtossBot

/-- What a task has heard since it was started: that a call raised, that its submission timed out, and that the order could not be found
after that. -/
structure Heard where
  raised : Bool := false
  timeout : Bool := false
  lost : Bool := false

/-- An answer is heard. -/
def Heard.hear (h : Heard) : (op : Call) → Except Exc op.Res → Heard
  | .submit _, .error e => { h with raised := true, timeout := h.timeout || e.isA .TimeoutError }
  | .lookup_by_client_order_id _ _, .ok none => { h with lost := h.timeout }
  | _, .error _ => { h with raised := true }
  | _, .ok _ => h

/-- What a task has heard after one more step. -/
def Heard.next (t : Caller) (h : Heard) : Event → Heard
  | .spawn u => if u = t then {} else h
  | .answer u op r => if u = t then h.hear op r else h
  | _ => h

def heard (t : Caller) (ls : List Event) : Heard := ls.foldl (Heard.next t) {}

/-- The calls to the broker. -/
def ofBroker : Call → Bool
  | .lookup_by_client_order_id _ _ | .submit _ => true
  | _ => false

/-- A call to the broker about an order. -/
def Concerns (id : UUID) (client_order_id : String) : Call → Prop
  | .lookup_by_client_order_id _ key => key = client_order_id
  | .submit intent => intent.intent_id = id
  | _ => False

namespace FinalReplayAux

open Phase

variable {B : Type} {w w' : World Caller B} {t u : Caller} {g g' : Caller → Option (executionProtocol False).Phase} {ls : List Event} {l : Event}

theorem heard_append : heard t (ls ++ [l]) = (heard t ls).next t l := by
  rw [heard, List.foldl_append]
  rfl

/-- A step of another task is not heard. -/
theorem next_other {h : Heard} (hl : l.task ≠ some t) : h.next t l = h := by
  cases l with
  | spawn u => exact if_neg fun hu => hl (congrArg some hu)
  | answer u op r => exact if_neg fun hu => hl (congrArg some hu)
  | _ => rfl

/-! ## After a submission that was lost -/

/-- A task that has submitted does not go back. -/
def Submitted : RowPhase → Prop
  | .start _ | .locking _ | .held _ | .looking _ | .fresh _ | .submitting _ => False
  | _ => True

/-- The result of a task whose submission was lost is the ambiguous one. -/
def Lost : RowPhase → Prop
  | .decided r result | .relocking r result | .relocked r result | .flushing r _ result | .flushed r _ result | .committing r _ result =>
    result = ExecutionService.ambiguous r.idempotency_key
  | .ended k | .rolling k => ∀ r, k = .settled r → r.as_broker_result = .ok (ExecutionService.ambiguous r.idempotency_key)
  | _ => False

theorem lost_nothing : Lost (.rolling .nothing) := fun _ h => Known.noConfusion h

/-- What the phase of a task says of what it has heard. -/
def HeardBy (h : Heard) (q : RowPhase) : Prop := (h.timeout = true → Submitted q) ∧ (h.lost = true → Lost q)

/-- Making a call changes nothing of it. -/
theorem HeardBy.issue {h : Heard} {q q' : RowPhase} {op : Call} (hq : HeardBy h q) (hi : RowIssue q op q') : HeardBy h q' := by
  obtain ⟨htimeout, hlost⟩ := hq
  cases hi with
  | lock _ => exact ⟨htimeout, hlost⟩
  | look _ _ => exact ⟨htimeout, hlost⟩
  | submit _ => exact ⟨htimeout, hlost⟩
  | relook _ => exact ⟨htimeout, hlost⟩
  | relock => exact ⟨htimeout, hlost⟩
  | flush _ => exact ⟨htimeout, hlost⟩
  | commit => exact ⟨htimeout, hlost⟩
  | @rollback _ k hk =>
    refine ⟨fun _ => trivial, ?_⟩
    intro h
    have hlost := hlost h
    cases q with
    | decided _ _ =>
      obtain rfl := Option.some.inj hk
      exact lost_nothing
    | relocked _ _ =>
      obtain rfl := Option.some.inj hk
      exact lost_nothing
    | ended k' =>
      obtain rfl := Option.some.inj hk
      exact hlost
    | held _ => exact hlost.elim
    | _ => cases hk

/-- After an answer it holds of what is heard then. -/
theorem HeardBy.answer {h : Heard} {q q' : RowPhase} {op : Call} {r : Except Exc op.Res} (hq : HeardBy h q) (hknows : RowKnows w t q)
    (ha : RowAnswer False q op r q') : HeardBy (h.hear op r) q' := by
  obtain ⟨htimeout, hlost⟩ := hq
  cases ha with
  | locked _ => exact ⟨htimeout, hlost⟩
  | missing => exact ⟨fun _ => trivial, fun _ _ h => Known.noConfusion h⟩
  | unknown => exact ⟨htimeout, fun h => (htimeout h).elim⟩
  | known => exact ⟨fun _ => trivial, fun h => (hlost h).elim⟩
  | submitted => exact ⟨fun _ => trivial, fun h => (hlost h).elim⟩
  | timeout _ => exact ⟨fun _ => trivial, fun h => (hlost h).elim⟩
  | lost => exact ⟨fun _ => trivial, fun _ => rfl⟩
  | found => exact ⟨fun _ => trivial, fun h => (hlost h).elim⟩
  | relocked => exact ⟨htimeout, hlost⟩
  | flushed => exact ⟨htimeout, hlost⟩
  | @committed r r' result =>
    refine ⟨fun _ => trivial, ?_⟩
    intro h record hr
    obtain ⟨_, _, hst, _⟩ := hknows
    rw [← Known.settled.inj hr, hst.as_broker_result, hst.idempotency_key, hlost h]
  | rolledBack => exact ⟨htimeout, hlost⟩
  | failed _ _ _ => exact ⟨fun _ => trivial, fun _ _ h => Known.noConfusion h⟩

/-- A call on the outbox is not about a submission. -/
theorem hear_outbox {h : Heard} {op : Call} {r : Except Exc op.Res} (hop : ofOrders op = false) :
    (h.hear op r).timeout = h.timeout ∧ (h.hear op r).lost = h.lost := by
  cases op with
  | submit _ => cases hop
  | lookup_by_client_order_id _ _ => cases hop
  | _ => cases r <;> exact ⟨rfl, rfl⟩

variable {broker : Broker B} {dbRaises : Exc → Prop} {start : World Caller B → Prop} {upper : String → String}

abbrev AnyStep (upper : String → String) (broker : Broker B) (dbRaises : Exc → Prop) (start : World Caller B → Prop)
    (w : World Caller B) (g : Caller → Option (executionProtocol False).Phase) (l : Event) (w' : World Caller B)
    (g' : Caller → Option (executionProtocol False).Phase) : Prop :=
  System.PhaseStep (system upper broker dbRaises start) (executionProtocol False) Ended w g l w' g'

theorem heardBy_step (hb : Base False w g) (h : ∀ t q, g t = some q → HeardBy (heard t ls) q.row)
    (hst : AnyStep upper broker dbRaises start w g l w' g') : ∀ t q, g' t = some q → HeardBy (heard t (ls ++ [l])) q.row := by
  intro t q' hq
  rw [heard_append]
  rcases hst.phase_cases hq with ⟨hother, hg⟩ | ⟨rfl, _⟩ | ⟨op, q, rfl, hg, hi⟩ | ⟨op, r, q₀, q, rfl, hg, hi, ha⟩
  · rw [next_other hother]
    exact h t q' hg
  · simp only [Heard.next, if_pos]
    exact ⟨nofun, nofun⟩
  · cases hi with
    | row _ hi => exact (h t _ hg).issue hi
    | event _ =>
      have hrow := h t _ hg
      exact hrow
  · simp only [Heard.next, if_pos]
    cases ha with
    | row ha => exact (h t _ hg).answer (hb.row t _ hg) ha
    | event ha =>
      obtain ⟨htimeout, hlost⟩ := hear_outbox (h := heard t ls) (r := r) (by cases ha <;> rfl)
      have hrow := h t _ hg
      rw [HeardBy, htimeout, hlost]
      exact hrow

/-! ## After an execution has returned -/

variable {id : UUID} {result : BrokerOrderResult} {lost : Bool} {post : List Event}

/-- The row of an order is settled and shows a result. -/
def Final (id : UUID) (result : BrokerOrderResult) (lost : Bool) (w : World Caller B) : Prop :=
  ∃ r, w.rows id = some r ∧ r.state ≠ .QUEUED ∧ Shows r result ∧ (lost = true → r.state = .UNKNOWN)

/-- An execution of a settled order none of whose calls raised. -/
def Replaying (id : UUID) (result : BrokerOrderResult) : RowPhase → Prop
  | .start target => target = some id
  | .locking id' => id' = id
  | .held r | .rolling (.settled r) | .ended (.settled r) => r.state ≠ .QUEUED ∧ Shows r result
  | _ => False

/-- What holds since an execution has returned a result. -/
structure After (id : UUID) (result : BrokerOrderResult) (lost : Bool) (post : List Event) (w : World Caller B)
    (g : Caller → Option (executionProtocol False).Phase) : Prop where
  final : Final id result lost w
  silent : ∀ u op, .call u op ∈ post → ¬Concerns id result.client_order_id op ∧ (u.job = .execute id → ofBroker op = false)
  replaying : ∀ u q, u.job = .execute id → .spawn u ∈ post → (heard u post).raised = false → g u = some q → Replaying id result q.row
  ended : ∀ mid u outcome rest, post = mid ++ .finish u outcome :: rest → u.job = .execute id →
    (∀ result', outcome = .ok (.executed result') → result' = result) ∧
      (.spawn u ∈ mid → (heard u mid).raised = false → outcome = .ok (.executed result))

/-- The row of a settled order is not one that a task is executing. -/
theorem Final.other (hf : Final id result lost w) (hs : Sound w) {r : OrderIntentRecord} (hr : Holds w u r) (hqueued : r.state = .QUEUED) :
    r.id ≠ id ∧ r.idempotency_key ≠ result.client_order_id := by
  obtain ⟨r₀, hr₀, hstate, hshows, _⟩ := hf
  have hne : r.id ≠ id := by
    rintro rfl
    rw [hr.row, Option.some.injEq] at hr₀
    exact hstate (hr₀ ▸ hqueued)
  refine ⟨hne, fun hkey => hne ?_⟩
  rw [hshows.client_order_id] at hkey
  exact hs.unique_key hr.row hr₀ hkey

/-- Nothing is said to the broker about a settled order. -/
theorem Final.silent (hf : Final id result lost w) (hb : Base False w g) {q q' : Phase} {op : Call} (hg : g u = some q)
    (hi : Issue False q op q') : ¬Concerns id result.client_order_id op ∧ (u.job = .execute id → ofBroker op = false) := by
  have hbroker {r : OrderIntentRecord} (hr : Holds w u r ∧ r.state = .QUEUED) (hrow : q.row.Targets id → r.id = id)
      (hconcerns : Concerns id result.client_order_id op → r.id = id ∨ r.idempotency_key = result.client_order_id) :
      ¬Concerns id result.client_order_id op ∧ (u.job = .execute id → ofBroker op = false) := by
    obtain ⟨hid, hkey⟩ := hf.other hb.sound hr.1 hr.2
    refine ⟨fun h => (hconcerns h).elim hid hkey, fun hjob => absurd (hrow (hb.target u q id hg ?_)) hid⟩
    rw [hjob]
    rfl
  have hknows := hb.row u q hg
  cases hi with
  | event hi => cases hi <;> exact ⟨nofun, fun _ => rfl⟩
  | row _ hi =>
    cases hi with
    | look hqueued hr =>
      refine hbroker ⟨hknows.1, hqueued⟩ (fun h => h) fun h => .inr ?_
      rw [← OrderIntentRecord.as_domain_idempotency_key hr]
      exact h
    | submit hr =>
      refine hbroker ⟨hknows.1, hknows.2.1⟩ (fun h => h) fun h => .inl ?_
      rw [← OrderIntentRecord.as_domain_intent_id hr]
      exact h
    | relook hr =>
      refine hbroker ⟨hknows.1, hknows.2.1⟩ (fun h => h) fun h => .inr ?_
      rw [← OrderIntentRecord.as_domain_idempotency_key hr]
      exact h
    | _ => exact ⟨nofun, fun _ => rfl⟩

/-- The row stays as it is. -/
theorem Final.step (hf : Final id result lost w) (hb : Base False w g) (hst : AnyStep upper broker dbRaises start w g l w' g') :
    Final id result lost w' := by
  obtain ⟨r, hr, hstate, hshows⟩ := hf
  exact ⟨r, hb.settled_step hst hr hstate, hstate, hshows⟩

/-- An execution of a settled order only looks at the row. -/
theorem Replaying.issue {q q' : RowPhase} {op : Call} (hq : Replaying id result q) (hi : RowIssue q op q') : Replaying id result q' := by
  cases hi with
  | lock ht =>
    have hq : _ = some id := hq
    rcases ht with ht | ht <;> rw [ht] at hq
    · cases hq
    · exact Option.some.inj hq
  | look hqueued _ => exact absurd hqueued hq.1
  | @rollback _ k hk =>
    cases q with
    | held r =>
      simp only [leaves, if_neg hq.1, Option.some.injEq] at hk
      exact hk ▸ hq
    | ended k' =>
      obtain rfl := Option.some.inj hk
      cases k' with
      | settled r => exact hq
      | _ => exact hq.elim
    | decided _ _ => exact hq.elim
    | relocked _ _ => exact hq.elim
    | _ => cases hk
  | _ => exact hq.elim

/-- It finds the row, unless its call raises. -/
theorem Replaying.answer {q q' : RowPhase} {op : Call} {r : Except Exc op.Res} (hq : Replaying id result q)
    (hf : Final id result lost w) (hknows : RowKnows w u q) (ha : RowAnswer False q op r q')
    (hw : w.answer broker dbRaises u w' op r) (hraised : ∀ e, r ≠ .error e) : Replaying id result q' := by
  obtain ⟨row, hrow, hstate, hshows, _⟩ := hf
  cases ha with
  | @locked r _ =>
    obtain ⟨hread, _, _⟩ := hw
    obtain rfl : r.id = id := hq
    rw [read_of_wrote_none hknows, hrow, Option.some.injEq] at hread
    exact hread ▸ ⟨hstate, hshows⟩
  | @missing id' =>
    obtain ⟨hread, _⟩ := hw
    obtain rfl : id' = id := hq
    rw [read_of_wrote_none hknows, hrow] at hread
    cases hread
  | @rolledBack k =>
    cases k with
    | settled r => exact hq
    | _ => exact hq.elim
  | failed _ _ _ => exact absurd rfl (hraised _)
  | _ => exact hq.elim

/-- An answer that is not an error is heard as one. -/
theorem raised_hear {h : Heard} {op : Call} {r : Except Exc op.Res} (hr : (h.hear op r).raised = false) :
    h.raised = false ∧ ∀ e, r ≠ .error e := by
  cases r with
  | error e => cases op <;> cases hr
  | ok a =>
    refine ⟨?_, nofun⟩
    cases op with
    | lookup_by_client_order_id _ _ => cases a <;> exact hr
    | _ => exact hr

theorem replaying_step (hb : Base False w g) (hf : Final id result lost w) (hst : AnyStep upper broker dbRaises start w g l w' g')
    (h : ∀ u q, u.job = .execute id → .spawn u ∈ post → (heard u post).raised = false → g u = some q → Replaying id result q.row) :
    ∀ u q, u.job = .execute id → .spawn u ∈ post ++ [l] → (heard u (post ++ [l])).raised = false → g' u = some q →
      Replaying id result q.row := by
  intro u q' hjob hspawn hraised hq
  rw [heard_append] at hraised
  have hbefore : l ≠ .spawn u → .spawn u ∈ post := fun hl => by
    rcases List.mem_append.mp hspawn with h | h
    · exact h
    · exact absurd (List.mem_singleton.mp h).symm hl
  rcases hst.phase_cases hq with ⟨hother, hg⟩ | ⟨_, rfl⟩ | ⟨op, q, rfl, hg, hi⟩ | ⟨op, r, q₀, q, rfl, hg, hi, ha⟩
  · rw [next_other hother] at hraised
    exact h u q' hjob (hbefore fun hl => hother (hl ▸ rfl)) hraised hg
  · show u.job.target = some id
    rw [hjob]
    rfl
  · have hrow := h u q hjob (hbefore nofun) hraised hg
    cases hi with
    | row _ hi => exact hrow.issue hi
    | event _ => exact hrow
  · simp only [Heard.next, if_pos] at hraised
    obtain ⟨hraised, hok⟩ := raised_hear hraised
    have hrow := h u q hjob (hbefore nofun) hraised hg
    cases ha with
    | event _ => exact hrow
    | row ha =>
      cases hst with
      | answer _ _ _ hw => exact hrow.answer hf (hb.row u _ hg) ha hw hok

/-- How an execution of a settled order ends. -/
theorem ended_step (hf : Final id result lost w) (hb : Base False w g) {q : Phase} {outcome : Except Exc Outcome} (hg : g u = some q)
    (hended : Ended u q outcome) (hjob : u.job = .execute id) :
    (∀ result', outcome = .ok (.executed result') → result' = result) ∧
      (Replaying id result q.row → outcome = .ok (.executed result)) := by
  obtain ⟨row, hrow, hstate, hshows, _⟩ := hf
  have hended := hended id hjob
  have hknows := hb.row u q hg
  match outcome, hended with
  | .ok (.executed result'), ⟨r, hq, hid, hr⟩ =>
    rw [hq] at hknows
    have heq : some r = some row := by rw [← hknows.1, hid, hrow]
    rw [Option.some.inj heq] at hr
    obtain rfl := hshows.unique hr
    exact ⟨fun result' h => (Outcome.executed.inj (Except.ok.inj h)).symm, fun _ => rfl⟩
  | .error e, ⟨k, hq, hdefective⟩ =>
    refine ⟨fun _ h => (by cases h), ?_⟩
    intro hreplaying
    rw [hq] at hreplaying
    cases k with
    | settled r => exact absurd (hdefective r rfl) hreplaying.2.not_defective
    | _ => exact hreplaying.elim

/-- Since an execution has returned: a step more. -/
theorem After.step (h : After id result lost post w g) (hb : Base False w g) (hst : AnyStep upper broker dbRaises start w g l w' g') :
    After id result lost (post ++ [l]) w' g' := by
  refine ⟨h.final.step hb hst, ?_, replaying_step hb h.final hst h.replaying, ?_⟩
  · intro u op hmem
    rcases List.mem_append.mp hmem with hmem | hmem
    · exact h.silent u op hmem
    · obtain rfl := List.mem_singleton.mp hmem
      cases hst with
      | call hg hi _ => exact h.final.silent hb hg hi
  · intro mid u outcome rest hpost hjob
    rcases System.append_singleton_cases hpost with ⟨_, rfl, rfl⟩ | ⟨rest', _, rfl⟩
    · cases hst with
      | finish hg hended _ =>
        obtain ⟨hsame, hreturns⟩ := ended_step h.final hb hg hended hjob
        exact ⟨hsame, fun hspawn hraised => hreturns (h.replaying u _ hjob hspawn hraised hg)⟩
    · exact h.ended mid u outcome rest' rfl hjob

/-- An execution returns. -/
theorem After.first (hb : Base False w g) (hb' : Base False w' g') (hheard : ∀ t q, g t = some q → HeardBy (heard t ls) q.row)
    (hst : AnyStep upper broker dbRaises start w g (.finish t (.ok (.executed result))) w' g') (hjob : t.job = .execute id) :
    After id result (heard t ls).lost [] w' g' := by
  have hfinal : Final id result (heard t ls).lost w' := by
    cases hst with
    | @finish _ _ _ q hg hended hfin =>
      obtain ⟨r, hq, rfl, hshows⟩ := hended id hjob
      have hknows := hb.row t q hg
      rw [hq] at hknows
      obtain rfl : w' = (w.rollback t).rollback_outbox t := hfin
      refine ⟨r, hknows.1, hknows.2, hshows, ?_⟩
      intro hlost
      have hread := (hheard t q hg).2 hlost
      rw [hq] at hread
      have hfields := BrokerOrderResult.create_ok (hread r rfl)
      exact (congrArg BrokerOrderResultFields.state hfields).symm
  exact ⟨hfinal, fun _ _ h => absurd h List.not_mem_nil, fun _ _ _ h => absurd h List.not_mem_nil,
    fun mid _ _ rest h => absurd h.symm (List.append_ne_nil_of_right_ne_nil mid (List.cons_ne_nil _ rest))⟩

end FinalReplayAux

open FinalReplayAux

/-- In every run, with every broker: once an execution of an order has returned, the row has left `QUEUED` and shows the result, as `UNKNOWN`
if the submission was lost; no call to the broker is about the order any more; and every execution that returns, returns that result, and
one that was started after it does so unless one of its calls raises. -/
theorem final_replay {B : Type} {upper : String → String} {broker : Broker B} {dbRaises : Exc → Prop} {start : World Caller B → Prop}
    {c : Config calls Exc Outcome Caller (World Caller B)} {ls pre post : List Event}
    (hr : System.Run (system upper broker dbRaises start) (fun _ _ => True) c ls) {t : Caller} {id : UUID} {result : BrokerOrderResult}
    (hls : ls = pre ++ .finish t (.ok (.executed result)) :: post) (hjob : t.job = .execute id) :
    (∃ r, c.shared.rows id = some r ∧ r.state ≠ .QUEUED ∧ r.as_broker_result = .ok result ∧
        ((heard t pre).lost = true → r.state = .UNKNOWN)) ∧
      (∀ u op, .call u op ∈ post → ¬Concerns id result.client_order_id op ∧ (u.job = .execute id → ofBroker op = false)) ∧
      ∀ mid u outcome rest, post = mid ++ .finish u outcome :: rest → u.job = .execute id →
        (∀ result', outcome = .ok (.executed result') → result' = result) ∧
          (.spawn u ∈ mid → (heard u mid).raised = false → outcome = .ok (.executed result)) := by
  have hbase : System.Invariant (system upper broker dbRaises start) (fun _ _ => True) (executionProtocol False) Ended
      fun w _ g => Base False w g :=
    baseInvariant (fun _ _ h => h.elim) fun _ _ _ _ _ h => h.elim
  have hheard := hbase.and (K := fun _ ls g => ∀ t (q : Phase), g t = some q → HeardBy (heard t ls) q.row) (fun _ _ _ _ h => nomatch h)
    fun _ _ _ _ _ _ hb _ h hst _ => heardBy_step hb h hst
  have hafter := hheard.since
    (K := fun pre (l : Event) post w g => ∀ t id result, l = .finish t (.ok (.executed result)) → t.job = .execute id →
      After id result (heard t pre).lost post w g)
    (fun _ _ _ _ _ _ hJ hJ' hst _ _ _ hl hjob => by
      subst hl
      exact After.first hJ.1 hJ'.1 hJ.2 hst hjob)
    fun _ _ _ _ _ _ _ _ _ hJ hK hst t id result hl hjob => (hK t id result hl hjob).step hJ.1 hst
  obtain ⟨g, ⟨_, h⟩, _⟩ := hafter.holds hr
  obtain ⟨⟨r, hrow, hstate, hshows, hlost⟩, hsilent, _, hended⟩ := h pre _ post hls t id result rfl hjob
  exact ⟨⟨r, hrow, hstate, hshows.read, hlost⟩, hsilent, hended⟩

/-- The steps of an execution of the limit order after the first one, until it returns. -/
def replayedUntil : List Event :=
  let r := submittedRow id false limits
  [.spawn (executor 1), .call (executor 1) (.scalar_for_update r.id), .answer (executor 1) (.scalar_for_update r.id) (.ok (some r)),
    .call (executor 1) .rollback, .answer (executor 1) .rollback (.ok ())]

/-- The limit order is executed twice. -/
theorem final_replay_twice : ∃ c pre outcome,
    System.Run (system id Broker.any (fun _ => False) fun _ => True) (fun _ _ => True) c
        (pre ++ .finish (executor 0) (.ok (.executed (limitSubmitted id false))) :: (replayedUntil ++ [.finish (executor 1) outcome])) ∧
      outcome = .ok (.executed (limitSubmitted id false)) ∧
      ∃ r, c.shared.rows ⟨13⟩ = some r ∧ r.state ≠ .QUEUED ∧ r.as_broker_result = .ok (limitSubmitted id false) := by
  have hfirst : System.Run (system id Broker.any (fun _ => False) fun _ => True) (fun _ _ => True) _ _ :=
    run_executed (b := ()) (c := ()) trivial trivial limitRisk_limits trivial trivial trivial
  have hstored : (limitRow id false limits).Stored (submittedRow id false limits) (limitSubmitted id false) :=
    OrderIntentRecord.withResult_ok withResult_limitRow
  have hread := hstored.as_broker_result
  have hevidence : ¬((submittedRow id false limits).risk_decision_id = none ∨ (submittedRow id false limits).approval_id = none) :=
    not_or.mpr ⟨Option.some_ne_none _, Option.some_ne_none _⟩
  have halone : System.Alone (system id Broker.any (fun _ => False) fun _ => True) (executor 1) (afterExecution id false limits () ())
      (ExecutionService.execute (submittedRow id false limits).id) _ _ (.done (.ok (limitSubmitted id false))) :=
    alone_execute_settled serves_system rows_afterExecution owner_afterExecution wrote_afterExecution hevidence nofun hread
  have hrun := System.Run.complete (halone.andThen _) rfl hfirst rfl
  let pre : List Event := .env (limitRequest false limits) :: executedUntil id false limits
  let outcome : Except Exc Outcome := .ok (.executed (limitSubmitted id false))
  obtain ⟨⟨r, hrow, hqueued, hresult, _⟩, _, hended⟩ :=
    final_replay hrun (rfl : _ = pre ++ .finish (executor 0) outcome :: (replayedUntil ++ [.finish (executor 1) outcome])) rfl
  exact ⟨_, pre, outcome, hrun, (hended replayedUntil (executor 1) outcome [] rfl rfl).2 List.mem_cons_self rfl, r, hrow, hqueued, hresult⟩

end MtossBot
