import MtossBot.Lemmas.Rows
import MtossBot.Theorems.OrderLifecycle

/-!
# Stored fills

What a row holds of the execution of its order after any results that were accepted, and which sequences of fills are accepted.
-/

namespace MtossBot

/-- How far an order is executed, as stored or as reported. -/
structure Execution where
  state : OrderState
  broker_order_id : Option String
  filled_quantity : ℚ
deriving DecidableEq

def OrderIntentRecord.execution (r : OrderIntentRecord) : Execution := ⟨r.state, r.broker_order_id, r.filled_quantity.toRat⟩

def BrokerOrderResult.execution (r : BrokerOrderResult) : Execution := ⟨r.state, r.broker_order_id, r.filled_quantity.toRat⟩

/-- The execution of an order that was just queued. -/
def Execution.queued : Execution := ⟨.QUEUED, none, 0⟩

/-- Fills within a quantity that never go backwards, and orders at the broker that stay known. -/
structure FillLaws (quantity : ℚ) (executions : List Execution) : Prop where
  bounds : ∀ e ∈ executions, 0 ≤ e.filled_quantity ∧ e.filled_quantity ≤ quantity
  grows : executions.IsChain fun e e' => e.filled_quantity ≤ e'.filled_quantity
  complete : ∀ e ∈ executions, e.state = .FILLED → e.filled_quantity = quantity
  kept : executions.IsChain fun e e' => e.broker_order_id ≠ none → e'.broker_order_id ≠ none

/-- Each attempt is accepted, one after the other over one session. -/
def RowSession.AllAccepted (s : RowSession) : List Attempt → Prop
  | [] => True
  | a :: attempts => (a.save s).1 = .ok () ∧ AllAccepted (a.save s).2 attempts

/-- Each attempt of a session opened on the row is accepted. -/
def AllAccepted (row : OrderIntentRecord) (attempts : List Attempt) : Prop := RowSession.AllAccepted { stored := row } attempts

namespace StoredFillsAux

open OrderLifecycleAux

variable {row : OrderIntentRecord} {s : RowSession} {a : Attempt} {attempts : List Attempt} {result : BrokerOrderResult}

/-- An accepted result is what is stored. -/
theorem execution_save (hs : s.Clean) (h : (a.save s).1 = .ok ()) : (a.save s).2.stored.execution = a.result.execution := by
  rcases (save_cases a hs).1 with ⟨_, hr⟩ | ⟨_, he, _⟩
  · rw [(OrderIntentRecord.withResult_ok hr).eq]
    rfl
  · rw [h] at he
    cases he

/-- What a session holds of the execution after each accepted result is what the result reports. -/
theorem sessions_execution (hs : s.Clean) (h : s.AllAccepted attempts) :
    ((sessions s attempts).map RowSession.stored).map OrderIntentRecord.execution =
      s.stored.execution :: attempts.map fun a => a.result.execution := by
  induction attempts generalizing s with
  | nil => rfl
  | cons a attempts ih =>
    rw [sessions, List.map_cons, List.map_cons, ih (save_cases a hs).2 h.2, execution_save hs h.1, List.map_cons]

/-- The committed executions are the one of the row and those of the accepted results. -/
theorem committed_execution (h : AllAccepted row attempts) :
    (committed row attempts).map OrderIntentRecord.execution = row.execution :: attempts.map fun a => a.result.execution :=
  sessions_execution (clean_opened row) h

/-- A result never reports a negative fill. -/
theorem filled_quantity_nonneg (result : BrokerOrderResult) : 0 ≤ result.filled_quantity.toRat := by
  have h := (List.append_eq_nil_iff.mp result.accepted).1
  unfold BrokerOrderResultFields.check_filled_quantity at h
  cases hv : validate_order_decimal_input result.filled_quantity "order result decimal" with
  | error e =>
    rw [hv] at h
    cases h
  | ok value =>
    obtain rfl := validate_order_decimal_input_eq hv
    rw [hv] at h
    by_contra hneg
    have herror : fieldErrors "filled_quantity" (if _ then _ else _ : Except String Decimal) = [] := h
    rw [if_pos (not_le.mp hneg)] at herror
    cases herror

/-- A row in a final state takes no result. -/
theorem final_refuses (hs : s.Clean) (h : s.stored.state ∈ finalStates) (a : Attempt) : (a.save s).1 ≠ .ok () := by
  intro hok
  rcases (save_cases a hs).1 with ⟨_, hr⟩ | ⟨_, he, _⟩
  · exact not_moves_final h (moves_withResult hr)
  · rw [hok] at he
    cases he

/-- Where every result is accepted, a row in a final state is the last one. -/
theorem last_of_final (hs : s.Clean) (h : s.AllAccepted attempts) {before after : List OrderIntentRecord} {r : OrderIntentRecord}
    (hsplit : (sessions s attempts).map RowSession.stored = before ++ r :: after) (hr : r.state ∈ finalStates) : after = [] := by
  induction attempts generalizing s before with
  | nil =>
    cases before with
    | nil => exact (List.cons.inj hsplit).2.symm
    | cons _ before => simp [sessions] at hsplit
  | cons a attempts ih =>
    cases before with
    | nil =>
      obtain ⟨rfl, _⟩ := List.cons.inj hsplit
      exact absurd h.1 (final_refuses hs hr a)
    | cons _ before => exact ih (save_cases a hs).2 h.2 (List.cons.inj hsplit).2

end StoredFillsAux

open OrderLifecycleAux StoredFillsAux

/-- A row that was just queued holds, after any results that were accepted, what the last of them reports, whatever it held before;
so its fills obey the laws just when the reports do. In a final state it takes no further result. -/
theorem stored_fills (row : OrderIntentRecord) (attempts : List Attempt) (hnew : row.execution = .queued)
    (h : AllAccepted row attempts) :
    (committed row attempts).map OrderIntentRecord.execution = .queued :: attempts.map (fun a => a.result.execution) ∧
      (∀ r ∈ committed row attempts, 0 ≤ r.filled_quantity.toRat) ∧
      (∀ before r after, committed row attempts = before ++ r :: after → r.state ∈ finalStates → after = []) ∧
      (FillLaws row.quantity.toRat ((committed row attempts).map OrderIntentRecord.execution) ↔
        FillLaws row.quantity.toRat (.queued :: attempts.map fun a => a.result.execution)) := by
  have hrows := committed_execution h
  rw [hnew] at hrows
  refine ⟨hrows, ?_, fun before r after => last_of_final (clean_opened row) h, by rw [hrows]⟩
  intro r hr
  have hexecution : r.execution ∈ Execution.queued :: attempts.map fun a => a.result.execution := by
    rw [← hrows]
    exact List.mem_map_of_mem hr
  rcases List.mem_cons.mp hexecution with hq | hreported
  · exact (congrArg Execution.filled_quantity hq).ge
  · obtain ⟨a, _, ha⟩ := List.mem_map.mp hreported
    exact (filled_quantity_nonneg a.result).trans (congrArg Execution.filled_quantity ha).le

/-- A queued order for one unit. -/
def unitRow : OrderIntentRecord where
  id := ⟨1⟩
  account_id := ⟨2⟩
  signal_id := ⟨3⟩
  target_version := 1
  market := "MT5"
  symbol := "XAUUSD"
  side := .BUY
  quantity := .ofInt 1
  limit_price := some (.ofInt 100)
  currency := "USD"
  expires_at := .aware 10 0
  idempotency_key := "k"
  state := .QUEUED
  risk_decision_id := some ⟨4⟩
  approval_id := some ⟨5⟩

/-- A report on the order. -/
def unitReport (state : OrderState) (broker_order_id : Option String) (filled : Int)
    (accepted : BrokerOrderResultFields.errors ⟨"k", broker_order_id, state, .ofInt filled, none, none, none⟩ = []) : Attempt where
  result := ⟨⟨"k", broker_order_id, state, .ofInt filled, none, none, none⟩, accepted⟩
  faults := []

/-- Reports that contradict each other and the quantity. -/
def wildReports : List Attempt :=
  [unitReport .PARTIALLY_FILLED (some "b-1") 2 (by decide), unitReport .UNKNOWN none 1 (by decide),
    unitReport .FILLED none 0 (by decide)]

/-- The order takes each of them. -/
theorem accepted_wildReports : AllAccepted unitRow wildReports := by
  have hopened := clean_opened unitRow
  have hfirst := (save_cases (unitReport .PARTIALLY_FILLED (some "b-1") 2 (by decide)) hopened).2
  have hsecond := (save_cases (unitReport .UNKNOWN none 1 (by decide)) hfirst).2
  exact ⟨(save_ok hopened rfl).1, (save_ok hfirst rfl).1, (save_ok hsecond rfl).1, trivial⟩

/-- What the reports say is stored, the last of them for good. -/
theorem stored_fills_wild : (committed unitRow wildReports).map OrderIntentRecord.execution =
    [.queued, ⟨.PARTIALLY_FILLED, some "b-1", 2⟩, ⟨.UNKNOWN, none, 1⟩, ⟨.FILLED, none, 0⟩] := by
  have hreports : wildReports.map (fun a => a.result.execution) =
      [⟨.PARTIALLY_FILLED, some "b-1", 2⟩, ⟨.UNKNOWN, none, 1⟩, ⟨.FILLED, none, 0⟩] := by decide
  rw [← hreports]
  exact (stored_fills unitRow wildReports (by decide) accepted_wildReports).1

/-- An order for one unit is filled with two, then with one, then with nothing, and its number at the broker is lost. -/
theorem fills_go_backwards : unitRow.execution = .queued ∧ AllAccepted unitRow wildReports ∧
    ¬FillLaws unitRow.quantity.toRat ((committed unitRow wildReports).map OrderIntentRecord.execution) := by
  refine ⟨by decide, accepted_wildReports, ?_⟩
  intro h
  rw [committed_execution accepted_wildReports] at h
  have hbounds := (h.bounds ⟨.PARTIALLY_FILLED, some "b-1", 2⟩ (by decide)).2
  exact absurd hbounds (by decide)

/-! ## Fills reported one after the other -/

/-- Reports of an order's fills as they grow: all but the last are partial, and the last completes the order. -/
structure Progressive (row : OrderIntentRecord) (earlier : List BrokerOrderResult) (last : BrokerOrderResult) : Prop where
  earlier_state : ∀ r ∈ earlier, r.state = .PARTIALLY_FILLED
  last_state : last.state = .FILLED
  client_order_id : ∀ r ∈ earlier ++ [last], r.client_order_id = row.idempotency_key
  positive : ∀ r ∈ earlier ++ [last], 0 < r.filled_quantity.toRat
  grows : (earlier ++ [last]).IsChain fun r r' => r.filled_quantity.toRat < r'.filled_quantity.toRat
  complete : last.filled_quantity.toRat = row.quantity.toRat

/-- Each report is accepted by a call that does not fail, and the row ends `FILLED` with the whole quantity. -/
def RowSession.Recorded (s : RowSession) (reports : List BrokerOrderResult) : Prop :=
  s.AllAccepted (reports.map fun r => ⟨r, []⟩) ∧
    ∃ before r, (sessions s (reports.map fun r => ⟨r, []⟩)).map RowSession.stored = before ++ [r] ∧ r.state = .FILLED ∧
      r.filled_quantity.toRat = s.stored.quantity.toRat

/-- The reports are recorded over a session opened on the row. -/
def Recorded (row : OrderIntentRecord) (reports : List BrokerOrderResult) : Prop := RowSession.Recorded { stored := row } reports

namespace StoredFillsAux

variable {row : OrderIntentRecord} {s : RowSession}

/-- A row past `QUEUED` takes a result for it whose state is allowed. -/
theorem save_allowed (hs : s.Clean) (result : BrokerOrderResult) (hid : result.client_order_id = s.stored.idempotency_key)
    (hq : s.stored.state ≠ .QUEUED) (hstate : result.state ∈ ALLOWED s.stored.state) :
    (Attempt.save ⟨result, []⟩ s).1 = .ok () ∧ OrderIntentRecord.Stored s.stored (Attempt.save ⟨result, []⟩ s).2.stored result := by
  have hr : ∃ row', s.stored.withResult result = .ok row' := by
    rw [OrderIntentRecord.withResult, if_neg (not_not.mpr hid), OrderIntentRecord.nextState, if_neg fun h => hq h.1, transition,
      if_pos hstate]
    exact ⟨_, rfl⟩
  obtain ⟨row', hr⟩ := hr
  obtain ⟨hok, hstored⟩ := save_ok hs hr
  exact ⟨hok, hstored ▸ OrderIntentRecord.withResult_ok hr⟩

/-- A state that is not allowed is refused. -/
theorem withResult_refused (row : OrderIntentRecord) (result : BrokerOrderResult)
    (hq : row.state ≠ .QUEUED ∨ result.state ∉ OrderIntentRecord.IMMEDIATE) (hstate : result.state ∉ ALLOWED row.state) :
    ∃ e, row.withResult result = .error e := by
  unfold OrderIntentRecord.withResult
  split
  · exact ⟨_, rfl⟩
  · rw [OrderIntentRecord.nextState, if_neg fun h => hq.elim (absurd h.1) (absurd h.2), transition, if_neg hstate]
    exact ⟨_, rfl⟩

/-- The report that completes an order is recorded. -/
theorem recorded_last {last : BrokerOrderResult} (hs : s.Clean) (hid : last.client_order_id = s.stored.idempotency_key)
    (hq : s.stored.state ≠ .QUEUED) (hstate : OrderState.FILLED ∈ ALLOWED s.stored.state) (hlast : last.state = .FILLED)
    (hcomplete : last.filled_quantity.toRat = s.stored.quantity.toRat) : s.Recorded [last] := by
  obtain ⟨hok, hstored⟩ := save_allowed hs last hid hq (hlast ▸ hstate)
  refine ⟨⟨hok, trivial⟩, [s.stored], (Attempt.save ⟨last, []⟩ s).2.stored, rfl, hstored.state.trans hlast, ?_⟩
  rw [hstored.eq]
  exact hcomplete

/-- After an accepted report the rest is recorded on the row with it. -/
theorem recorded_cons {first : BrokerOrderResult} {reports : List BrokerOrderResult}
    (hok : (Attempt.save ⟨first, []⟩ s).1 = .ok ()) (hquantity : (Attempt.save ⟨first, []⟩ s).2.stored.quantity = s.stored.quantity)
    (h : (Attempt.save ⟨first, []⟩ s).2.Recorded reports) : s.Recorded (first :: reports) := by
  obtain ⟨haccepted, before, r, hrows, hfilled, hcomplete⟩ := h
  refine ⟨⟨hok, haccepted⟩, s.stored :: before, r, ?_, hfilled, hquantity ▸ hcomplete⟩
  rw [List.map_cons, sessions, List.map_cons, hrows, List.cons_append]

/-- Of two partial fills in a row the second is refused: the table has no way from `PARTIALLY_FILLED` to itself. -/
theorem not_recorded {first second : BrokerOrderResult} {reports : List BrokerOrderResult}
    (hfirst : first.state = .PARTIALLY_FILLED) (hsecond : second.state = .PARTIALLY_FILLED) :
    ¬Recorded row (first :: second :: reports) := by
  rintro ⟨⟨hok, hok', _⟩, _⟩
  have hopened := clean_opened row
  have hstate : (Attempt.save ⟨first, []⟩ { stored := row }).2.stored.state = .PARTIALLY_FILLED :=
    (congrArg Execution.state (execution_save hopened hok)).trans hfirst
  obtain ⟨e, he⟩ := withResult_refused (Attempt.save ⟨first, []⟩ { stored := row }).2.stored second (.inl (by simp [hstate]))
    (by rw [hstate, hsecond]; decide)
  obtain ⟨⟨e', hrefused⟩, _⟩ := save_refused (a := ⟨second, []⟩) (save_cases ⟨first, []⟩ hopened).2 he
  rw [hrefused] at hok'
  cases hok'

end StoredFillsAux

/-- An order's growing fills are recorded if and only if at most one of them is partial; and no row takes again the result it
holds. -/
theorem progressive_fills_iff (row : OrderIntentRecord) :
    (∀ earlier last, row.state = .SUBMITTED → Progressive row earlier last →
      (Recorded row (earlier ++ [last]) ↔ earlier.length ≤ 1)) ∧
    ∀ a : Attempt, row.as_broker_result = .ok a.result →
      (∃ e, (a.save { stored := row }).1 = .error e) ∧ (a.save { stored := row }).2.stored = row := by
  have hopened := clean_opened row
  refine ⟨?_, ?_⟩
  · intro earlier last hsubmitted h
    have hlast : last.client_order_id = row.idempotency_key := h.client_order_id last (by simp)
    cases earlier with
    | nil =>
      refine iff_of_true ?_ (Nat.zero_le 1)
      exact recorded_last hopened hlast (by simp [hsubmitted]) (by rw [hsubmitted]; decide) h.last_state h.complete
    | cons first earlier =>
      have hfirst : first.state = .PARTIALLY_FILLED := h.earlier_state first List.mem_cons_self
      cases earlier with
      | nil =>
        refine iff_of_true ?_ le_rfl
        obtain ⟨hok, hstored⟩ := save_allowed hopened first (h.client_order_id first (by simp)) (by simp [hsubmitted])
          (by rw [hsubmitted, hfirst]; decide)
        have hpartly := hstored.state.trans hfirst
        have hquantity : (Attempt.save ⟨first, []⟩ { stored := row }).2.stored.quantity = row.quantity := by rw [hstored.eq]
        refine recorded_cons hok hquantity ?_
        exact recorded_last (save_cases ⟨first, []⟩ hopened).2 (hlast.trans hstored.idempotency_key.symm)
          (by simp [hpartly]) (by rw [hpartly]; decide) h.last_state (hquantity ▸ h.complete)
      | cons second earlier => exact iff_of_false (not_recorded hfirst (h.earlier_state second (by simp))) (by simp)
  · intro a hstored
    have hstate : a.result.state = row.state := by rw [BrokerOrderResult.create_ok hstored]
    have hnot : ∀ s : OrderState, s ∉ ALLOWED s ∧ (s = .QUEUED → s ∉ OrderIntentRecord.IMMEDIATE) := by
      intro s
      cases s <;> decide
    have hqueued : row.state ≠ .QUEUED ∨ a.result.state ∉ OrderIntentRecord.IMMEDIATE := by
      by_cases hq : row.state = .QUEUED
      · exact .inr (hstate ▸ (hnot row.state).2 hq)
      · exact .inl hq
    obtain ⟨e, he⟩ := withResult_refused row a.result hqueued (hstate ▸ (hnot row.state).1)
    exact save_refused hopened he

/-- An order for three units, at the broker. -/
def threeRow : OrderIntentRecord := { unitRow with quantity := .ofInt 3, state := .SUBMITTED }

/-- Fills of one, two and three units. -/
def thirds : List BrokerOrderResult :=
  [⟨⟨"k", some "b-1", .PARTIALLY_FILLED, .ofInt 1, none, none, none⟩, by decide⟩,
    ⟨⟨"k", some "b-1", .PARTIALLY_FILLED, .ofInt 2, none, none, none⟩, by decide⟩]

def filledThree : BrokerOrderResult := ⟨⟨"k", some "b-1", .FILLED, .ofInt 3, none, none, none⟩, by decide⟩

/-- One fill of two units and then the third are recorded. -/
theorem progressive_fills_three : Recorded threeRow (thirds.drop 1 ++ [filledThree]) := by
  have hprogressive : Progressive threeRow (thirds.drop 1) filledThree :=
    ⟨by decide, rfl, by decide, by decide, by decide, rfl⟩
  exact ((progressive_fills_iff threeRow).1 (thirds.drop 1) filledThree rfl hprogressive).mpr le_rfl

/-- Of the fills of one, two and three units the second is refused. -/
theorem fills_refused : threeRow.state = .SUBMITTED ∧ Progressive threeRow thirds filledThree ∧
    ¬Recorded threeRow (thirds ++ [filledThree]) :=
  ⟨rfl, ⟨by decide, rfl, by decide, by decide, by decide, rfl⟩, not_recorded rfl rfl⟩

end MtossBot
