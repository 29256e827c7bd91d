import MtossBot.Infrastructure.OrderRepository

/-!
# The life of an order row

Any number of calls of `save_broker_result` on one row, one after the other over one session, with failures wherever the database is
called. Where a call fails after the object was assigned, only the rollback keeps what was assigned from the next call.
-/

namespace MtossBot

/-- The committed row, the object of the session with what is assigned to it in the open transaction, and how the coming calls of the
database fail: those without an entry succeed. -/
structure RowSession where
  stored : OrderIntentRecord
  record : Option OrderIntentRecord := none
  faults : List (Option Exc) := []

namespace RowSession

/-- How the next call fails, and what is left. -/
def fault (s : RowSession) : Option Exc × RowSession :=
  match s.faults with
  | [] => (none, s)
  | f :: faults => (f, { s with faults := faults })

/-- The calls of the session of one row. An object that could not be flushed stays as it was assigned until the rollback. -/
def answer (s : RowSession) : (op : Call) → Except Exc op.Res × RowSession
  | .scalar_for_update intent_id =>
    match s.fault with
    | (some e, s) => (.error e, s)
    | (none, s) => (.ok (if s.stored.id = intent_id then some (s.record.getD s.stored) else none), s)
  | .flush record =>
    match s.fault with
    | (some e, s) => (.error e, { s with record := some record })
    | (none, s) => (.ok (), { s with record := some record })
  | .commit =>
    match s.fault with
    | (some e, s) => (.error e, s)
    | (none, s) => (.ok (), { s with stored := s.record.getD s.stored, record := none })
  | .rollback =>
    match s.fault with
    | (some e, s) => (.error e, { s with record := none })
    | (none, s) => (.ok (), { s with record := none })
  | _ => (.error (.assertionError "not a call of save_broker_result"), s)

/-- The session after a call: an exception that is no `Exception` is the cancellation of the task, which closes its session. -/
def after (s : RowSession) : Except Exc Unit → RowSession
  | .ok () => s
  | .error e => if e.isA .Exception then s else { s with record := none }

/-- Nothing is assigned that is not committed. -/
def Clean (s : RowSession) : Prop := s.record = none

end RowSession

/-- A result, and how the calls of the database fail while it is saved. -/
structure Attempt where
  result : BrokerOrderResult
  faults : List (Option Exc)

/-- What saving a result returns or raises, and the session after it. -/
def Attempt.save (a : Attempt) (s : RowSession) : Except Exc Unit × RowSession :=
  let (outcome, s) := (OrderRepository.save_broker_result s.stored.id a.result).eval RowSession.answer { s with faults := a.faults }
  (outcome, s.after outcome)

/-- The session: at the beginning, and after each attempt. -/
def sessions (s : RowSession) : List Attempt → List RowSession
  | [] => [s]
  | a :: attempts => s :: sessions (a.save s).2 attempts

/-- The committed rows: at the beginning, and after each attempt of a session opened on the row. -/
def committed (row : OrderIntentRecord) (attempts : List Attempt) : List OrderIntentRecord :=
  (sessions { stored := row } attempts).map RowSession.stored

/-- A step of the state machine, or the two steps by way of `SUBMITTED` out of `QUEUED`. -/
def Moves (s s' : OrderState) : Prop :=
  s' ∈ ALLOWED s ∨ s = .QUEUED ∧ OrderState.SUBMITTED ∈ ALLOWED .QUEUED ∧ s' ∈ ALLOWED .SUBMITTED

/-- The states without a way out. -/
def finalStates : List OrderState := [.FILLED, .CANCELED, .REJECTED, .EXPIRED]

namespace OrderLifecycleAux

variable {row row' : OrderIntentRecord} {a : Attempt} {s : RowSession}

/-- How far an order is on its way: not yet queued, queued, or past it. -/
def progress : OrderState → Nat
  | .CREATED | .PENDING_APPROVAL => 0
  | .QUEUED => 1
  | _ => 2

/-- Only a queued order is between the two. -/
theorem progress_queued : ∀ {s : OrderState}, progress s = 1 → s = .QUEUED := by
  intro s h
  cases s <;> first | rfl | cases h

/-- No step goes back. -/
theorem progress_le {s s' : OrderState} (h : Moves s s') : progress s ≤ progress s' := by
  have hall : ∀ s s', Decidable.decide (s' ∈ ALLOWED s) = true → progress s ≤ progress s' := by
    intro s s'
    cases s <;> cases s' <;> decide
  rcases h with h | ⟨rfl, _, h⟩
  · exact hall s s' (decide_eq_true h)
  · exact (by decide : progress .QUEUED ≤ progress .SUBMITTED).trans (hall _ _ (decide_eq_true h))

/-- Nothing follows a final state. -/
theorem not_moves_final {s s' : OrderState} (hs : s ∈ finalStates) : ¬Moves s s' := by
  have hnone : ALLOWED s = [] ∧ s ≠ .QUEUED := by
    simp only [finalStates, List.mem_cons, List.not_mem_nil, or_false] at hs
    rcases hs with rfl | rfl | rfl | rfl <;> exact ⟨rfl, nofun⟩
  rintro (h | ⟨h, _⟩)
  · rw [hnone.1] at h
    cases h
  · exact hnone.2 h

/-- The state that a result is stored with is reached by allowed steps. -/
theorem moves_nextState {current target s : OrderState} (h : OrderIntentRecord.nextState current target = .ok s) :
    Moves current s := by
  unfold OrderIntentRecord.nextState at h
  split at h
  · rename_i hqueued
    obtain ⟨submitted, h₁, h₂⟩ := except_bind_eq_ok h
    obtain ⟨rfl, hmem₁⟩ := transition_ok h₁
    obtain ⟨rfl, hmem₂⟩ := transition_ok h₂
    rw [hqueued.1] at hmem₁
    exact .inr ⟨hqueued.1, hmem₁, hmem₂⟩
  · obtain ⟨rfl, hmem⟩ := transition_ok h
    exact .inl hmem

/-- A result takes the row to a state that is reached by allowed steps. -/
theorem moves_withResult {result : BrokerOrderResult} (h : row.withResult result = .ok row') : Moves row.state row'.state := by
  have hst := OrderIntentRecord.withResult_ok h
  rw [hst.state]
  exact moves_nextState hst.step

/-- What is left after the failure of a call is drawn is the session, but for the drawn entry. -/
theorem fault_session {s' : RowSession} {f : Option Exc} (h : s.fault = (f, s')) :
    s'.stored = s.stored ∧ s'.record = s.record := by
  unfold RowSession.fault at h
  split at h <;> obtain ⟨_, rfl⟩ := Prod.mk.inj h <;> exact ⟨rfl, rfl⟩

/-- Without entries nothing fails. -/
theorem fault_nil {s' : RowSession} {f : Option Exc} (h : s.fault = (f, s')) (hs : s.faults = []) : f = none ∧ s'.faults = [] := by
  simp only [RowSession.fault, hs] at h
  obtain ⟨rfl, rfl⟩ := Prod.mk.inj h
  exact ⟨rfl, hs⟩

open OrderRepository in
/-- The body of `save_broker_result`, on the row of a clean session: it commits the row with the result, or raises and commits nothing,
and if no call fails it raises because the row is refused the result. -/
theorem eval_body (result : BrokerOrderResult) (hs : s.Clean) :
    (∃ s' row', (do
        let record ← lock_for_execution s.stored.id
        let record ← Prog.ofExcept (record.withResult result)
        let _ ← await (.flush record)
        await .commit : Coro Unit).eval RowSession.answer s = (.ok (), s') ∧
      s.stored.withResult result = .ok row' ∧ s'.stored = row' ∧ s'.Clean) ∨
    ∃ s' e, (do
        let record ← lock_for_execution s.stored.id
        let record ← Prog.ofExcept (record.withResult result)
        let _ ← await (.flush record)
        await .commit : Coro Unit).eval RowSession.answer s = (.error e, s') ∧ s'.stored = s.stored ∧
      (s.faults = [] → ∃ e', s.stored.withResult result = .error e') := by
  have hawait : ∀ (op : Call) (s : RowSession), (await op).eval RowSession.answer s = s.answer op := fun _ _ => rfl
  have hlift : ∀ {β : Type} (r : Except Exc β) (s : RowSession),
      (Prog.ofExcept r : Coro β).eval RowSession.answer s = (r, s) := fun _ _ => rfl
  rcases h₁ : s.fault with ⟨_ | e, s₁⟩
  · obtain ⟨hstored₁, hrecord₁⟩ := fault_session h₁
    have hlock : (lock_for_execution s.stored.id).eval RowSession.answer s = (.ok s.stored, s₁) := by
      rw [lock_for_execution, Prog.eval_bind, hawait]
      simp only [RowSession.answer, h₁, hstored₁, hrecord₁, show s.record = none from hs, if_pos, Option.getD_none]
      rfl
    rw [Prog.eval_bind, hlock]
    simp only [Prog.eval_bind, hlift, hawait]
    cases hr : s.stored.withResult result with
    | error e => exact .inr ⟨_, _, rfl, hstored₁, fun _ => ⟨e, rfl⟩⟩
    | ok row' =>
      rcases h₂ : s₁.fault with ⟨_ | e, s₂⟩
      · rcases h₃ : RowSession.fault { s₂ with record := some row' } with ⟨_ | e, s₃⟩
        · left
          obtain ⟨_, hrecord₃⟩ := fault_session h₃
          simp only [RowSession.answer, h₂, h₃]
          exact ⟨_, row', rfl, rfl, by rw [hrecord₃, Option.getD_some], rfl⟩
        · right
          simp only [RowSession.answer, h₂, h₃]
          refine ⟨_, _, rfl, (fault_session h₃).1.trans ((fault_session h₂).1.trans hstored₁), ?_⟩
          intro hs
          cases (fault_nil h₃ (fault_nil h₂ (fault_nil h₁ hs).2).2).1
      · right
        simp only [RowSession.answer, h₂]
        refine ⟨_, _, rfl, (fault_session h₂).1.trans hstored₁, ?_⟩
        intro hs
        cases (fault_nil h₂ (fault_nil h₁ hs).2).1
  · right
    have hlock : (lock_for_execution s.stored.id).eval RowSession.answer s = (.error e, s₁) := by
      rw [lock_for_execution, Prog.eval_bind, hawait]
      simp only [RowSession.answer, h₁]
    rw [Prog.eval_bind, hlock]
    refine ⟨_, _, rfl, (fault_session h₁).1, ?_⟩
    intro hs
    cases (fault_nil h₁ hs).1

/-- A rollback commits nothing, and leaves the session clean even where it fails. -/
theorem rollback_clean (s : RowSession) : (s.answer .rollback).2.stored = s.stored ∧ (s.answer .rollback).2.Clean := by
  rcases h : s.fault with ⟨_ | e, s'⟩ <;> simp only [RowSession.answer, h] <;> exact ⟨(fault_session h).1, rfl⟩

/-- What ends an attempt commits nothing more. -/
theorem after_stored (s : RowSession) (outcome : Except Exc Unit) : (s.after outcome).stored = s.stored := by
  unfold RowSession.after
  split
  · rfl
  · split <;> rfl

/-- A session that was just opened is clean. -/
theorem clean_opened (row : OrderIntentRecord) : RowSession.Clean { stored := row } := rfl

/-- A clean session stays clean. -/
theorem after_clean (hs : s.Clean) (outcome : Except Exc Unit) : (s.after outcome).Clean := by
  unfold RowSession.after
  split
  · exact hs
  · split
    · exact hs
    · rfl

/-- Saving a result in a clean session commits the row with the result, or raises and leaves the row; if no call fails, it raises
because the row is refused the result. The session is clean again. -/
theorem save_cases (a : Attempt) (hs : s.Clean) :
    (((a.save s).1 = .ok () ∧ s.stored.withResult a.result = .ok (a.save s).2.stored) ∨
      ∃ e, (a.save s).1 = .error e ∧ (a.save s).2.stored = s.stored ∧
        (a.faults = [] → ∃ e', s.stored.withResult a.result = .error e')) ∧
    (a.save s).2.Clean := by
  unfold Attempt.save OrderRepository.save_broker_result Prog.tryExcept
  simp only [Prog.eval_andThen]
  rcases eval_body (s := { s with faults := a.faults }) a.result hs with ⟨s', row', h, hr, hs', hclean⟩ | ⟨s', e, h, hs', hr⟩
  · rw [h]
    exact ⟨.inl ⟨rfl, hr.trans (congrArg Except.ok hs'.symm)⟩, hclean⟩
  · rw [h]
    simp only
    split
    · rw [Prog.eval_bind]
      have hroll := rollback_clean s'
      have hawait : (await .rollback).eval RowSession.answer s' = s'.answer .rollback := rfl
      rw [hawait]
      -- the rollback may raise in its turn, and its exception may be a cancellation
      rcases hans : s'.answer .rollback with ⟨_ | _, s''⟩ <;> rw [hans] at hroll
      · exact ⟨.inr ⟨_, rfl, (after_stored ..).trans (hroll.1.trans hs'), hr⟩, after_clean hroll.2 _⟩
      · exact ⟨.inr ⟨_, rfl, (after_stored ..).trans (hroll.1.trans hs'), hr⟩, after_clean hroll.2 _⟩
    · rename_i hcancelled
      refine ⟨.inr ⟨e, rfl, (after_stored ..).trans hs', hr⟩, ?_⟩
      show (if e.isA .Exception then s' else { s' with record := none }).Clean
      rw [if_neg hcancelled]
      rfl

/-- A result that the row takes is committed, if no call fails. -/
theorem save_ok {result : BrokerOrderResult} (hs : s.Clean) (h : s.stored.withResult result = .ok row') :
    (Attempt.save ⟨result, []⟩ s).1 = .ok () ∧ (Attempt.save ⟨result, []⟩ s).2.stored = row' := by
  rcases (save_cases ⟨result, []⟩ hs).1 with ⟨hok, hr⟩ | ⟨_, _, _, hr⟩
  · exact ⟨hok, Except.ok.inj (hr.symm.trans h)⟩
  · obtain ⟨e', he⟩ := hr rfl
    rw [h] at he
    cases he

/-- A result that the row does not take is refused. -/
theorem save_refused {e : Exc} (hs : s.Clean) (h : s.stored.withResult a.result = .error e) :
    (∃ e', (a.save s).1 = .error e') ∧ (a.save s).2.stored = s.stored := by
  rcases (save_cases a hs).1 with ⟨_, hr⟩ | ⟨e', he, hrow, _⟩
  · rw [h] at hr
    cases hr
  · exact ⟨⟨e', he⟩, hrow⟩

/-- From one committed row to the next. -/
theorem save_moves (a : Attempt) (hs : s.Clean) :
    (a.save s).2.stored = s.stored ∨ Moves s.stored.state (a.save s).2.stored.state := by
  rcases (save_cases a hs).1 with ⟨_, h⟩ | ⟨_, _, h, _⟩
  · exact .inr (moves_withResult h)
  · exact .inl h

/-- The session is clean between the attempts. -/
theorem clean_sessions {s' : RowSession} {attempts : List Attempt} (hs : s.Clean) (h : s' ∈ sessions s attempts) : s'.Clean := by
  induction attempts generalizing s with
  | nil =>
    obtain rfl := List.mem_singleton.mp h
    exact hs
  | cons a attempts ih =>
    rcases List.mem_cons.mp h with rfl | h
    · exact hs
    · exact ih (save_cases a hs).2 h

/-- The sessions begin with the session. -/
theorem sessions_eq_cons (s : RowSession) (attempts : List Attempt) : ∃ rest, sessions s attempts = s :: rest := by
  cases attempts with
  | nil => exact ⟨[], rfl⟩
  | cons a attempts => exact ⟨_, rfl⟩

/-- Consecutive committed rows are related as one attempt relates them. -/
theorem isChain_sessions {R : OrderIntentRecord → OrderIntentRecord → Prop}
    (h : ∀ (a : Attempt) s, s.Clean → R s.stored (a.save s).2.stored) (hs : s.Clean) (attempts : List Attempt) :
    ((sessions s attempts).map RowSession.stored).IsChain R := by
  induction attempts generalizing s with
  | nil => exact .singleton _
  | cons a attempts ih =>
    obtain ⟨rest, hrest⟩ := sessions_eq_cons (a.save s).2 attempts
    have htail := ih (save_cases a hs).2
    rw [sessions, hrest]
    rw [hrest] at htail
    exact .cons_cons (h a s hs) htail

/-- Consecutive committed rows of a session opened on a row are related as one attempt relates them. -/
theorem isChain_committed {R : OrderIntentRecord → OrderIntentRecord → Prop}
    (h : ∀ (a : Attempt) s, s.Clean → R s.stored (a.save s).2.stored) (row : OrderIntentRecord) (attempts : List Attempt) :
    (committed row attempts).IsChain R := isChain_sessions h (clean_opened row) attempts

/-- A relation that one attempt establishes, and that composes, holds from each committed row to every later one. -/
theorem pairwise_committed {R : OrderIntentRecord → OrderIntentRecord → Prop}
    (h : ∀ (a : Attempt) s, s.Clean → R s.stored (a.save s).2.stored) (htrans : ∀ {r s t}, R r s → R s t → R r t)
    (row : OrderIntentRecord) (attempts : List Attempt) : (committed row attempts).Pairwise R := by
  have : IsTrans OrderIntentRecord R := ⟨fun _ _ _ => htrans⟩
  exact List.isChain_iff_pairwise.mp (isChain_committed h row attempts)

/-- No order goes back from one committed row to a later one. -/
theorem progress_committed (row : OrderIntentRecord) (attempts : List Attempt) :
    (committed row attempts).Pairwise fun r r' => progress r.state ≤ progress r'.state := by
  refine pairwise_committed ?_ (fun h h' => h.trans h') row attempts
  intro a s hs
  rcases save_moves a hs with h | h
  · rw [h]
  · exact progress_le h

end OrderLifecycleAux

open OrderLifecycleAux

/-- For every row and every sequence of results with any failures: the committed states follow the state machine, what raises commits
nothing and leaves nothing assigned in the session, a row that has left `QUEUED` does not come back, and a row in a final state stays
as it is. -/
theorem order_lifecycle (row : OrderIntentRecord) (attempts : List Attempt) :
    ((committed row attempts).IsChain fun r r' => r' = r ∨ Moves r.state r'.state) ∧
      (∀ s ∈ sessions { stored := row } attempts, ∀ a : Attempt, ∀ e, (a.save s).1 = .error e →
        (a.save s).2.stored = s.stored ∧ (a.save s).2.record = none) ∧
      (∀ before r after, committed row attempts = before ++ r :: after → (∃ q ∈ before, q.state = .QUEUED) →
        r.state ≠ .QUEUED → ∀ r' ∈ after, r'.state ≠ .QUEUED) ∧
      (committed row attempts).Pairwise fun r r' => r.state ∈ finalStates → r' = r := by
  refine ⟨isChain_committed (fun a _ hs => save_moves a hs) row attempts, ?_, ?_, ?_⟩
  · intro s hmem a e he
    obtain ⟨hcases, hclean⟩ := save_cases a (clean_sessions (clean_opened row) hmem)
    rcases hcases with ⟨h, _⟩ | ⟨_, _, h, _⟩
    · rw [h] at he
      cases he
    · exact ⟨h, hclean⟩
  · intro before r after hrows hbefore hleft r' hr' hqueued
    obtain ⟨q, hq, hqstate⟩ := hbefore
    have hpairs := progress_committed row attempts
    rw [hrows, List.pairwise_append, List.pairwise_cons] at hpairs
    obtain ⟨_, ⟨hafter, _⟩, hacross⟩ := hpairs
    have hfrom := hacross q hq r List.mem_cons_self
    have hto := hafter r' hr'
    rw [hqstate] at hfrom
    rw [hqueued] at hto
    exact hleft (progress_queued (le_antisymm hto hfrom))
  · refine pairwise_committed ?_ (fun {r s t} h h' hfinal => ?_) row attempts
    · intro a s hs hfinal
      exact (save_moves a hs).resolve_right (not_moves_final hfinal)
    · have hs := h hfinal
      rw [← hs] at hfinal
      exact (h' hfinal).trans hs

end MtossBot
