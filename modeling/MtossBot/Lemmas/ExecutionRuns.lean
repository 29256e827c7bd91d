import MtossBot.Lemmas.ExecutionFollows
import MtossBot.Lemmas.Requests

/-!
# Orders over runs

What holds of the orders in every run of the system, whatever the broker does: only the task that holds a row's lock may change the row,
only from `QUEUED` to another state, and what a task knows of its row stays true while others go on.
-/

namespace MtossBot

open Phase

variable {B : Type} {w w' : World Caller B} {t u : Caller}

/-- The orders, their locks and the writes on them are the same. -/
structure World.SameOrders (w w' : World Caller B) : Prop where
  rows : w'.rows = w.rows
  owner : w'.owner = w.owner
  wrote : w'.wrote = w.wrote

/-- What a task does to the orders. -/
inductive OrderEffect (w : World Caller B) (t : Caller) (w' : World Caller B) : Prop where
  | none : w.SameOrders w' → OrderEffect w t w'
  | lock {id : UUID} : w.Available t id → (w.lock t id).SameOrders w' → OrderEffect w t w'
  | write {r r' : OrderIntentRecord} {result : BrokerOrderResult} :
      w.owner r.id = some t → w.rows r.id = some r → r.state = .QUEUED → r.Stored r' result →
      (w.write t r').SameOrders w' → OrderEffect w t w'
  | rollback : (w.rollback t).SameOrders w' → OrderEffect w t w'
  | commit : (w.commit t).SameOrders w' → OrderEffect w t w'

/-- The rows have their own keys, and what a transaction has written is a result stored in a queued row that it has locked. -/
structure Sound (w : World Caller B) : Prop where
  row_id : ∀ {id r}, w.rows id = some r → r.id = id
  unique_key : ∀ {i j r r'}, w.rows i = some r → w.rows j = some r' → r.idempotency_key = r'.idempotency_key → i = j
  wrote : ∀ {t r'}, w.wrote t = some r' → w.owner r'.id = some t ∧
    ∃ r result, w.rows r'.id = some r ∧ r.state = .QUEUED ∧ r.Stored r' result

namespace OrderEffect

/-- A lock that another task takes was free, so one's own locks stay. -/
theorem owner_update_iff {id id' : UUID} (hu : u ≠ t) (ha : w.Available t id) :
    Function.update w.owner id (some t) id' = some u ↔ w.owner id' = some u := by
  by_cases hid : id' = id
  · subst hid
    rw [Function.update_self]
    rcases ha with ha | ha <;> simp [ha, Ne.symm hu]
  · rw [Function.update_of_ne hid]

/-- The locks of other tasks stay as they are. -/
theorem owner_iff (h : OrderEffect w t w') (hu : u ≠ t) (id : UUID) : w'.owner id = some u ↔ w.owner id = some u := by
  have hunlock : (w.rollback t).owner id = some u ↔ w.owner id = some u := by
    simp only [World.owner_rollback]
    split
    · rename_i ht
      simp [ht, Ne.symm hu]
    · rfl
  cases h with
  | none h => rw [h.owner]
  | lock ha h =>
    rw [h.owner, World.owner_lock]
    exact owner_update_iff hu ha
  | write ho _ _ hs h =>
    rw [h.owner, World.owner_write, hs.id]
    exact owner_update_iff hu (.inr ho)
  | rollback h =>
    rw [h.owner]
    exact hunlock
  | commit h =>
    rw [h.owner, World.owner_commit]
    exact hunlock

/-- The writes of other tasks stay as they are. -/
theorem wrote_eq (h : OrderEffect w t w') (hu : u ≠ t) : w'.wrote u = w.wrote u := by
  cases h with
  | none h => rw [h.wrote]
  | lock _ h => rw [h.wrote, World.wrote_lock]
  | write _ _ _ _ h => rw [h.wrote, World.wrote_write, Function.update_of_ne hu]
  | rollback h => rw [h.wrote, World.wrote_rollback, Function.update_of_ne hu]
  | commit h => rw [h.wrote, World.wrote_commit, Function.update_of_ne hu]

/-- The rows stay as they are, but for a result stored in a queued row of the task. -/
theorem rows_cases (hs : Sound w) (h : OrderEffect w t w') :
    w'.rows = w.rows ∨ ∃ r r' result, w.owner r.id = some t ∧ w.rows r.id = some r ∧ r.state = .QUEUED ∧
      r.Stored r' result ∧ w'.rows = Function.update w.rows r.id (some r') := by
  cases h with
  | none h => exact .inl h.rows
  | lock _ h => exact .inl h.rows
  | write _ _ _ _ h => exact .inl h.rows
  | rollback h => exact .inl h.rows
  | commit h =>
    cases hw : w.wrote t with
    | none =>
      left
      rw [h.rows, World.rows_commit_none hw]
    | some r' =>
      obtain ⟨ho, r, result, hr, hq, hst⟩ := hs.wrote hw
      rw [hst.id] at ho hr
      refine .inr ⟨r, r', result, ho, hr, hq, hst, ?_⟩
      rw [h.rows, World.rows_commit_some hw, hst.id]

/-- A row that has left `QUEUED` stays as it is. -/
theorem settled (hs : Sound w) (h : OrderEffect w t w') {id : UUID} {r : OrderIntentRecord} (hr : w.rows id = some r)
    (hq : r.state ≠ .QUEUED) : w'.rows id = some r := by
  rcases h.rows_cases hs with he | ⟨r₀, r', result, _, hr₀, hq₀, _, he⟩
  · rw [he, hr]
  · rw [he, Function.update_of_ne, hr]
    rintro rfl
    rw [hr] at hr₀
    exact hq (Option.some.inj hr₀ ▸ hq₀)

/-- A row locked by another task stays as it is. -/
theorem rows_eq (hs : Sound w) (h : OrderEffect w t w') (hu : u ≠ t) {id : UUID} (ho : w.owner id = some u) :
    w'.rows id = w.rows id := by
  rcases h.rows_cases hs with he | ⟨r₀, r', result, ho₀, _, _, _, he⟩
  · rw [he]
  · rw [he, Function.update_of_ne]
    rintro rfl
    rw [ho₀] at ho
    exact hu (Option.some.inj ho).symm

/-- What the task itself has written, before or in this step. -/
theorem wrote_self (hs : Sound w) (h : OrderEffect w t w') {r' : OrderIntentRecord} (hw : w'.wrote t = some r') :
    w'.owner r'.id = some t ∧ w'.rows = w.rows ∧ ∃ r result, w.rows r'.id = some r ∧ r.state = .QUEUED ∧ r.Stored r' result := by
  cases h with
  | none h =>
    rw [h.wrote] at hw
    exact ⟨by rw [h.owner]; exact (hs.wrote hw).1, h.rows, (hs.wrote hw).2⟩
  | @lock id ha h =>
    rw [h.wrote] at hw
    refine ⟨?_, h.rows, (hs.wrote hw).2⟩
    rw [h.owner, World.owner_lock]
    by_cases hid : r'.id = id
    · rw [hid, Function.update_self]
    · rw [Function.update_of_ne hid]
      exact (hs.wrote hw).1
  | write ho hr hq hst h =>
    rw [h.wrote, World.wrote_write, Function.update_self, Option.some.injEq] at hw
    subst hw
    refine ⟨?_, h.rows, _, _, ?_, hq, hst⟩
    · rw [h.owner, World.owner_write, Function.update_self]
    · rw [hst.id]
      exact hr
  | rollback h =>
    rw [h.wrote, World.wrote_rollback, Function.update_self] at hw
    cases hw
  | commit h =>
    rw [h.wrote, World.wrote_commit, Function.update_self] at hw
    cases hw

/-- An effect on the orders keeps them sound. -/
theorem sound (hs : Sound w) (h : OrderEffect w t w') : Sound w' := by
  refine ⟨fun {id r} hr => ?_, fun {i j r r'} hi hj hkey => ?_, fun {u r'} hw => ?_⟩
  · rcases h.rows_cases hs with he | ⟨r₀, r', result, _, hr₀, _, hst, he⟩
    · rw [he] at hr
      exact hs.row_id hr
    · rw [he, Function.update_apply] at hr
      split at hr
      · rename_i hid
        rw [← Option.some.inj hr, hst.id, hid]
      · exact hs.row_id hr
  · rcases h.rows_cases hs with he | ⟨r₀, r₁, result, _, hr₀, _, hst, he⟩
    · rw [he] at hi hj
      exact hs.unique_key hi hj hkey
    · -- the new row has the key of the row it replaces
      have hold : ∀ k s, w'.rows k = some s → ∃ s₀, w.rows k = some s₀ ∧ s₀.idempotency_key = s.idempotency_key := by
        intro k s hks
        rw [he, Function.update_apply] at hks
        split at hks
        · rename_i hk
          exact ⟨r₀, hk ▸ hr₀, by rw [← Option.some.inj hks, hst.idempotency_key]⟩
        · exact ⟨s, hks, rfl⟩
      obtain ⟨s, hs₁, hk₁⟩ := hold i r hi
      obtain ⟨s', hs₂, hk₂⟩ := hold j r' hj
      exact hs.unique_key hs₁ hs₂ (by rw [hk₁, hk₂, hkey])
  · by_cases hu : u = t
    · subst hu
      obtain ⟨ho, hrows, hwrote⟩ := h.wrote_self hs hw
      rw [hrows]
      exact ⟨ho, hwrote⟩
    · rw [h.wrote_eq hu] at hw
      obtain ⟨ho, hwrote⟩ := hs.wrote hw
      rw [h.rows_eq hs hu ho]
      exact ⟨(h.owner_iff hu _).mpr ho, hwrote⟩

end OrderEffect

/-! ## What a task knows of its row -/

/-- A task holds a row. -/
structure Holds (w : World Caller B) (t : Caller) (r : OrderIntentRecord) : Prop where
  owner : w.owner r.id = some t
  row : w.rows r.id = some r

/-- Only one task holds the row of an order. -/
theorem Sound.holder_unique (hs : Sound w) {r r' : OrderIntentRecord} (h : Holds w t r) (h' : Holds w u r')
    (hkey : r.idempotency_key = r'.idempotency_key) : t = u := by
  have hid := hs.unique_key h.row h'.row hkey
  have ho := h.owner
  rw [hid, h'.owner] at ho
  exact (Option.some.inj ho).symm

def KnownHolds (w : World Caller B) : Known → Prop
  | .settled r => w.rows r.id = some r ∧ r.state ≠ .QUEUED
  | _ => True

/-- What a task knows in a phase. -/
def RowKnows (w : World Caller B) (t : Caller) : RowPhase → Prop
  | .start _ => w.wrote t = none
  | .locking _ => w.wrote t = none
  | .held r => Holds w t r ∧ w.wrote t = none
  | .looking r | .fresh r | .submitting r | .timedOut r | .relooking r | .decided r _ | .relocking r _ | .relocked r _ =>
    Holds w t r ∧ r.state = .QUEUED ∧ w.wrote t = none
  | .flushing r r' result => Holds w t r ∧ r.state = .QUEUED ∧ r.Stored r' result
  | .flushed r r' result | .committing r r' result =>
    Holds w t r ∧ r.state = .QUEUED ∧ r.Stored r' result ∧ w.wrote t = some r'
  | .ended k | .rolling k => KnownHolds w k

/-- A step leaves alone what a task holds, what it wrote, and what is settled. -/
structure Undisturbed (w w' : World Caller B) (u : Caller) : Prop where
  owner : ∀ id, w.owner id = some u → w'.owner id = some u
  rows : ∀ id r, w.owner id = some u → w.rows id = some r → w'.rows id = some r
  settled : ∀ id r, w.rows id = some r → r.state ≠ .QUEUED → w'.rows id = some r
  wrote : w'.wrote u = w.wrote u

/-- An effect of one task disturbs no other. -/
theorem OrderEffect.undisturbed (hs : Sound w) (h : OrderEffect w t w') (hu : u ≠ t) : Undisturbed w w' u where
  owner id := (h.owner_iff hu id).mpr
  rows id r ho hr := by rw [h.rows_eq hs hu ho, hr]
  settled _ _ hr hq := h.settled hs hr hq
  wrote := h.wrote_eq hu

/-- What leaves the orders alone disturbs no task. -/
theorem World.SameOrders.undisturbed (h : w.SameOrders w') : Undisturbed w w' u where
  owner id ho := by rw [h.owner, ho]
  rows id r _ hr := by rw [h.rows, hr]
  settled id r hr _ := by rw [h.rows, hr]
  wrote := by rw [h.wrote]

namespace Undisturbed

/-- An undisturbed task still holds its row. -/
theorem holds (h : Undisturbed w w' u) {r : OrderIntentRecord} (hr : Holds w u r) : Holds w' u r :=
  ⟨h.owner _ hr.owner, h.rows _ _ hr.owner hr.row⟩

/-- What it knows of a row that was settled stays true. -/
theorem known (h : Undisturbed w w' u) {k : Known} (hk : KnownHolds w k) : KnownHolds w' k := by
  cases k with
  | nothing => exact trivial
  | settled r => exact ⟨h.settled _ _ hk.1 hk.2, hk.2⟩
  | missing id => exact trivial

/-- What a task knows stays true. -/
theorem knows (h : Undisturbed w w' u) {q : RowPhase} (hq : RowKnows w u q) : RowKnows w' u q := by
  cases q with
  | start _ => exact h.wrote.trans hq
  | locking id => exact h.wrote.trans hq
  | held r => exact ⟨h.holds hq.1, h.wrote.trans hq.2⟩
  | looking r => exact ⟨h.holds hq.1, hq.2.1, h.wrote.trans hq.2.2⟩
  | fresh r => exact ⟨h.holds hq.1, hq.2.1, h.wrote.trans hq.2.2⟩
  | submitting r => exact ⟨h.holds hq.1, hq.2.1, h.wrote.trans hq.2.2⟩
  | timedOut r => exact ⟨h.holds hq.1, hq.2.1, h.wrote.trans hq.2.2⟩
  | relooking r => exact ⟨h.holds hq.1, hq.2.1, h.wrote.trans hq.2.2⟩
  | decided r result => exact ⟨h.holds hq.1, hq.2.1, h.wrote.trans hq.2.2⟩
  | relocking r result => exact ⟨h.holds hq.1, hq.2.1, h.wrote.trans hq.2.2⟩
  | relocked r result => exact ⟨h.holds hq.1, hq.2.1, h.wrote.trans hq.2.2⟩
  | flushing r r' result => exact ⟨h.holds hq.1, hq.2⟩
  | flushed r r' result => exact ⟨h.holds hq.1, hq.2.1, hq.2.2.1, h.wrote.trans hq.2.2.2⟩
  | committing r r' result => exact ⟨h.holds hq.1, hq.2.1, hq.2.2.1, h.wrote.trans hq.2.2.2⟩
  | ended k => exact h.known hq
  | rolling k => exact h.known hq

end Undisturbed

/-- Making a call changes nothing of what is known. -/
theorem RowKnows.issue {q q' : RowPhase} {op : Call} (hq : RowKnows w t q) (hi : RowIssue q op q') : RowKnows w t q' := by
  cases hi with
  | lock _ => exact hq
  | look hqueued _ => exact ⟨hq.1, hqueued, hq.2⟩
  | submit _ => exact hq
  | relook _ => exact hq
  | relock => exact hq
  | flush hst => exact ⟨hq.1, hq.2.1, hst⟩
  | commit => exact hq
  | @rollback _ k hk =>
    cases q with
    | held r =>
      simp only [leaves, Option.some.injEq] at hk
      subst hk
      split
      · exact trivial
      · rename_i hstate
        exact ⟨hq.1.row, hstate⟩
    | decided r result => exact Option.some.inj hk ▸ trivial
    | relocked r result => exact Option.some.inj hk ▸ trivial
    | ended k' => exact Option.some.inj hk ▸ hq
    | _ => cases hk

/-! ## Answers -/

section Answers

variable {broker : Broker B} {dbRaises : Exc → Prop} {quiet : Prop}

/-- A call made changes no order. -/
theorem sameOrders_call {op : Call} (h : w.call broker t op w') : w.SameOrders w' := by
  cases op with
  | submit intent =>
    obtain ⟨b, _, rfl⟩ := h
    exact ⟨rfl, rfl, rfl⟩
  | _ =>
    obtain rfl := h
    exact ⟨rfl, rfl, rfl⟩

/-- The calls on the outbox change no order. -/
theorem sameOrders_answer {op : Call} {r : Except Exc op.Res} (hop : ofOrders op = false)
    (h : w.answer broker dbRaises t w' op r) : w.SameOrders w' := by
  cases World.answer_move h with
  | lock _ => cases hop
  | write _ => cases hop
  | commit => cases hop
  | commit_refused => cases hop
  | commit_open => cases hop
  | rollback => cases hop
  | _ => exact ⟨rfl, rfl, rfl⟩

/-- A call that writes writes a result in the row that is held. -/
theorem effect_write {q₀ q : RowPhase} {record : OrderIntentRecord} (hi : RowIssue q₀ (.flush record) q)
    (hq : RowKnows w t q) (h : w' = w.write t record) : OrderEffect w t w' := by
  cases hi with
  | flush hst =>
    obtain ⟨hheld, hqueued, _⟩ := hq
    subst h
    exact .write hheld.owner hheld.row hqueued hst ⟨rfl, rfl, rfl⟩

/-- What an answer does to the orders. -/
theorem effect_answer {q₀ q : Phase} {op : Call} {r : Except Exc op.Res} (hi : Issue quiet q₀ op q)
    (hq : RowKnows w t q.row) (h : w.answer broker dbRaises t w' op r) : OrderEffect w t w' := by
  cases hi with
  | event hi => exact .none (sameOrders_answer (by cases hi <;> rfl) h)
  | row _ hi =>
    cases World.answer_move h with
    | lock hfree => exact .lock hfree ⟨rfl, rfl, rfl⟩
    | write _ => exact effect_write hi hq rfl
    | commit => exact .commit ⟨rfl, rfl, rfl⟩
    | commit_refused => exact .rollback ⟨rfl, rfl, rfl⟩
    | rollback => exact .rollback ⟨rfl, rfl, rfl⟩
    | _ => exact .none ⟨rfl, rfl, rfl⟩

/-- A task that has written nothing reads what is committed. -/
theorem read_of_wrote_none {id : UUID} (h : w.wrote t = none) : w.read t id = w.rows id := by
  rw [World.read, h]

/-- A lookup leaves the orders alone. -/
theorem sameOrders_lookup {a : UUID} {key : String} {r : Except Exc (Option BrokerOrderResult)}
    (h : w.answer broker dbRaises t w' (.lookup_by_client_order_id a key) r) : w.SameOrders w' := by
  obtain ⟨b, _, rfl⟩ := h
  exact ⟨rfl, rfl, rfl⟩

/-- So does a submission. -/
theorem sameOrders_submit {intent : ExecutionIntent} {r : Except Exc BrokerOrderResult}
    (h : w.answer broker dbRaises t w' (.submit intent) r) : w.SameOrders w' := by
  obtain ⟨b, _, rfl⟩ := h
  exact ⟨rfl, rfl, rfl⟩

/-- What a task knows after an answer. -/
theorem knows_answer {q q' : Phase} {op : Call} {r : Except Exc op.Res} (hq : RowKnows w t q.row)
    (ha : Answer quiet q op r q') (h : w.answer broker dbRaises t w' op r) : RowKnows w' t q'.row := by
  cases ha with
  | event ha => exact (sameOrders_answer (by cases ha <;> rfl) h).undisturbed.knows hq
  | @row row row' event op r ha =>
    cases ha with
    | @locked record =>
      obtain ⟨hread, _, rfl⟩ := h
      rw [read_of_wrote_none hq] at hread
      exact ⟨⟨Function.update_self _ _ _, hread⟩, hq⟩
    | missing => exact trivial
    | @unknown record => exact (sameOrders_lookup h).undisturbed.knows (q := .fresh record) hq
    | @known record _ _ result => exact (sameOrders_lookup h).undisturbed.knows (q := .decided record result) hq
    | @submitted record _ result => exact (sameOrders_submit h).undisturbed.knows (q := .decided record result) hq
    | @timeout record => exact (sameOrders_submit h).undisturbed.knows (q := .timedOut record) hq
    | @lost record =>
      exact (sameOrders_lookup h).undisturbed.knows (q := .decided record (ExecutionService.ambiguous _)) hq
    | @found record _ _ result => exact (sameOrders_lookup h).undisturbed.knows (q := .decided record result) hq
    | relocked =>
      obtain ⟨_, _, rfl⟩ := h
      exact ⟨⟨Function.update_self _ _ _, hq.1.row⟩, hq.2⟩
    | @flushed r₀ r' result =>
      obtain ⟨_, rfl⟩ := h
      obtain ⟨hheld, hqueued, hst⟩ := hq
      refine ⟨⟨?_, hheld.row⟩, hqueued, hst, Function.update_self _ _ _⟩
      rw [World.owner_write, hst.id, Function.update_self]
    | @committed r₀ r' result =>
      obtain rfl : w' = w.commit t := h
      obtain ⟨_, hqueued, hst, hwrote⟩ := hq
      refine ⟨?_, hst.state_ne_queued hqueued⟩
      rw [World.rows_commit_some hwrote, Function.update_self]
    | @rolledBack k =>
      obtain rfl : w' = w.rollback t := h
      cases k with
      | settled record => exact hq
      | _ => exact trivial
    | failed => exact trivial

/-- An answer that raises none of the worker's terminal errors in an execution, except from a submission that also times out. -/
def Mild (op : Call) (r : Except Exc op.Res) : Prop :=
  ∀ e, r = .error e → ofOrders op = true →
    ExecutionWorker.terminal e = false ∨ (∃ intent, op = .submit intent) ∧ e.isA .TimeoutError = true

/-- In a quiet system the rows have their evidence. -/
def Evident (quiet : Prop) (w : World Caller B) : Prop := quiet → ∀ id r, w.rows id = some r → Evidence r

/-- The protocol has a phase for a call that raised. -/
theorem raised_answered {q : RowPhase} {op : Call} {e : Exc} (hop : ofOrders op = true)
    (hmild : quiet → Mild op (.error e)) (hsubmit : ∀ intent, op = .submit intent → e.isA .TimeoutError = false)
    (hq : ∀ r, q = .submitting r → e.isA .TimeoutError = false) : ∃ q', RowAnswer quiet q op (.error e) q' := by
  refine ⟨_, .failed hop hq ?_⟩
  intro h
  rcases hmild h e rfl hop with h | ⟨⟨intent, hintent⟩, ht⟩
  · exact h
  · rw [hsubmit intent hintent] at ht
    cases ht

/-- The protocol knows what to make of every answer to a call on the row or to the broker. -/
theorem row_answered (hs : Sound w) {q₀ q : RowPhase} {op : Call} {r : Except Exc op.Res} (hi : RowIssue q₀ op q)
    (hq : RowKnows w t q) (h : w.answer broker dbRaises t w' op r) (hmild : quiet → Mild op r) (he : Evident quiet w) :
    ∃ q', RowAnswer quiet q op r q' := by
  cases hi with
  | lock =>
    cases r with
    | error e => exact raised_answered rfl hmild (by simp) (by simp)
    | ok found =>
      cases found with
      | none => exact ⟨_, .missing⟩
      | some record =>
        obtain ⟨hread, _, _⟩ := h
        rw [read_of_wrote_none hq] at hread
        obtain rfl := hs.row_id hread
        exact ⟨_, .locked fun hq => he hq _ _ hread⟩
  | look =>
    cases r with
    | error e => exact raised_answered rfl hmild (by simp) (by simp)
    | ok known =>
      cases known with
      | none => exact ⟨_, .unknown⟩
      | some result => exact ⟨_, .known⟩
  | submit =>
    cases r with
    | ok result => exact ⟨_, .submitted⟩
    | error e =>
      cases ht : e.isA .TimeoutError with
      | true => exact ⟨_, .timeout ht⟩
      | false => exact raised_answered rfl hmild (fun _ _ => ht) fun _ _ => ht
  | relook =>
    cases r with
    | error e => exact raised_answered rfl hmild (by simp) (by simp)
    | ok known =>
      cases known with
      | none => exact ⟨_, .lost⟩
      | some result => exact ⟨_, .found⟩
  | @relock record _ =>
    cases r with
    | error e => exact raised_answered rfl hmild (by simp) (by simp)
    | ok found =>
      have hread : w.read t record.id = found := by
        cases found with
        | none => exact h.1
        | some record => exact h.1
      rw [read_of_wrote_none hq.2.2, hq.1.row] at hread
      subst hread
      exact ⟨_, .relocked⟩
  | flush =>
    cases r with
    | error e => exact raised_answered rfl hmild (by simp) (by simp)
    | ok _ => exact ⟨_, .flushed⟩
  | commit =>
    cases r with
    | error e => exact raised_answered rfl hmild (by simp) (by simp)
    | ok _ => exact ⟨_, .committed⟩
  | rollback =>
    cases r with
    | error e => exact raised_answered rfl hmild (by simp) (by simp)
    | ok _ => exact ⟨_, .rolledBack⟩

end Answers

end MtossBot
