import MtossBot.Infrastructure.Mt5Errors
import MtossBot.Lemmas.LimitRuns
import MtossBot.Theorems.ExecutionEnds

/-!
# What becomes of an answer of MT5

The terminal's answer to an order is reported by `build_result` and stored by `execute`. An answer that leaves open whether the order
arrived is never stored as a refusal, which would invite a second order: the order is looked up, and what the lookup knows is stored,
or that nothing is known. `Found` is how `execute` comes to a result, call by call.
-/

namespace MtossBot

open ExecutionPort Mt5Errors

/-- The lookup of an order. -/
abbrev lookupOf (intent : ExecutionIntent) : ExecutionOp := .lookup_by_client_order_id intent.account_id intent.idempotency_key

namespace Mt5RepliesAux

open ExecutionEndsAux (Ready)
open ExecutionService (_validate_result_identity ambiguous)

/-- How a result is found: the calls, and what comes of them. -/
inductive Found (intent : ExecutionIntent) : List PortCall → Except Exc BrokerOrderResult → Prop where
  | known {known : BrokerOrderResult} : Found intent [⟨lookupOf intent, .ok (some known)⟩] (_validate_result_identity intent known)
  | unreachable {e : Exc} : Found intent [⟨lookupOf intent, .error e⟩] (.error e)
  | submitted {result : BrokerOrderResult} :
      Found intent [⟨lookupOf intent, .ok none⟩, ⟨.submit intent, .ok result⟩] (_validate_result_identity intent result)
  | failed {e : Exc} : e.isA .TimeoutError = false →
      Found intent [⟨lookupOf intent, .ok none⟩, ⟨.submit intent, .error e⟩] (.error e)
  | resolved {e : Exc} {known : BrokerOrderResult} : e.isA .TimeoutError = true →
      Found intent [⟨lookupOf intent, .ok none⟩, ⟨.submit intent, .error e⟩, ⟨lookupOf intent, .ok (some known)⟩]
        (_validate_result_identity intent known)
  | unresolved {e e' : Exc} : e.isA .TimeoutError = true →
      Found intent [⟨lookupOf intent, .ok none⟩, ⟨.submit intent, .error e⟩, ⟨lookupOf intent, .error e'⟩] (.error e')
  | lost {e : Exc} : e.isA .TimeoutError = true →
      Found intent [⟨lookupOf intent, .ok none⟩, ⟨.submit intent, .error e⟩, ⟨lookupOf intent, .ok none⟩]
        (.ok (ambiguous intent.idempotency_key))

/-- What is done with what was found: it is saved, and the lock is given back unless that worked. -/
inductive Settles (intent_id : UUID) : Except Exc BrokerOrderResult → List PortCall → Prop where
  | nothing {e : Exc} {b : Except Exc Unit} : Settles intent_id (.error e) [⟨.release_execution_lock, b⟩]
  | saved {result : BrokerOrderResult} : Settles intent_id (.ok result) [⟨.save_broker_result intent_id result, .ok ()⟩]
  | refused {result : BrokerOrderResult} {e : Exc} {b : Except Exc Unit} :
      Settles intent_id (.ok result) [⟨.save_broker_result intent_id result, .error e⟩, ⟨.release_execution_lock, b⟩]

variable {intent_id : UUID} {intent : ExecutionIntent} {trace : List PortCall}

/-! ### Finding a result -/

/-- A result of another order is no timeout. -/
theorem validate_not_timeout {result : BrokerOrderResult} {e : Exc} (h : _validate_result_identity intent result = .error e) :
    e.isA .TimeoutError = false := by
  unfold _validate_result_identity at h
  split at h
  · cases h
    rfl
  · cases h

/-- What is validated is the result itself, with the key of the order. -/
theorem validate_eq {result result' : BrokerOrderResult} (h : _validate_result_identity intent result = .ok result') :
    result' = result ∧ result.client_order_id = intent.idempotency_key := by
  unfold _validate_result_identity at h
  split at h
  · cases h
  · rename_i hid
    cases h
    exact ⟨rfl, not_not.mp hid⟩

/-- The calls after the first lookup knew nothing. -/
theorem dispatch_found {out : Except Exc BrokerOrderResult} (h : (dispatch intent).Traces trace out) :
    Found intent (⟨lookupOf intent, .ok none⟩ :: trace) out := by
  unfold dispatch Prog.tryExcept at h
  obtain ⟨r, trace₁, trace₂, rfl, hbody, hhandler⟩ := Prog.traces_andThen.mp h
  rcases Prog.traces_bind.mp hbody with ⟨e, rfl, hask⟩ | ⟨result, trace₃, trace₄, rfl, hask, hrest⟩
  · rw [Prog.traces_perform.mp hask]
    by_cases htimeout : e.isA .TimeoutError = true
    · simp only [htimeout, if_true] at hhandler
      unfold resolve at hhandler
      rcases Prog.traces_bind.mp hhandler with ⟨e', rfl, hlook⟩ | ⟨known, trace₅, trace₆, rfl, hlook, hknown⟩
      · rw [Prog.traces_perform.mp hlook]
        exact .unresolved htimeout
      · rw [Prog.traces_perform.mp hlook]
        cases known with
        | some known =>
          obtain ⟨rfl, rfl⟩ := Prog.traces_done.mp hknown
          exact .resolved htimeout
        | none =>
          obtain ⟨rfl, rfl⟩ := Prog.traces_done.mp hknown
          exact .lost htimeout
    · simp only [htimeout, Bool.false_eq_true, if_false] at hhandler
      obtain ⟨rfl, rfl⟩ := Prog.traces_done.mp hhandler
      exact .failed (by simpa using htimeout)
  · rw [Prog.traces_perform.mp hask]
    obtain ⟨rfl, rfl⟩ := Prog.traces_done.mp hrest
    cases hvalid : _validate_result_identity intent result with
    | ok result' =>
      rw [hvalid] at hhandler
      obtain ⟨rfl, rfl⟩ := Prog.traces_done.mp hhandler
      rw [← hvalid]
      exact .submitted
    | error e =>
      rw [hvalid] at hhandler
      simp only [validate_not_timeout hvalid, Bool.false_eq_true, if_false] at hhandler
      obtain ⟨rfl, rfl⟩ := Prog.traces_done.mp hhandler
      rw [← hvalid]
      exact .submitted

/-- What is found is found in one of these ways. -/
theorem find_found {out : Except Exc BrokerOrderResult} (h : (find intent).Traces trace out) : Found intent trace out := by
  unfold find at h
  rcases Prog.traces_bind.mp h with ⟨e, rfl, hask⟩ | ⟨known, trace₁, trace₂, rfl, hask, hrest⟩
  · rw [Prog.traces_perform.mp hask]
    exact .unreachable
  · rw [Prog.traces_perform.mp hask]
    cases known with
    | some known =>
      obtain ⟨rfl, rfl⟩ := Prog.traces_done.mp hrest
      exact .known
    | none => exact dispatch_found hrest

/-- What the body does for a queued row: it finds a result, and saves it. -/
theorem executeQueued_found {record : ExecutionRecord} {out : Except Exc BrokerOrderResult}
    (h : (executeQueued intent_id record).Traces trace out) :
    (trace = [] ∧ ∃ e, out = .error e) ∨ ∃ intent, record.as_domain = .ok intent ∧ ∃ found,
      (Found intent found out ∧ trace = found ∧ ∃ e, out = .error e) ∨ ∃ result a, Found intent found (.ok result) ∧
        trace = found ++ [⟨.save_broker_result intent_id result, a⟩] ∧ out = a.map fun _ => result := by
  unfold executeQueued at h
  rcases Prog.traces_bind.mp h with ⟨e, rfl, hdomain⟩ | ⟨intent, trace₁, trace₂, rfl, hdomain, hrest⟩
  · exact .inl ⟨(Prog.traces_done.mp hdomain).1, e, rfl⟩
  · obtain ⟨rfl, hintent⟩ := Prog.traces_done.mp hdomain
    refine .inr ⟨intent, hintent.symm, ?_⟩
    rcases Prog.traces_bind.mp hrest with ⟨e, rfl, hfind⟩ | ⟨result, found, trace₃, rfl, hfind, hpersist⟩
    · exact ⟨trace₂, .inl ⟨find_found hfind, rfl, e, rfl⟩⟩
    · refine ⟨found, .inr ⟨result, ?_⟩⟩
      unfold _persist_result at hpersist
      rcases Prog.traces_bind.mp hpersist with ⟨e, rfl, hask⟩ | ⟨_, trace₄, trace₅, rfl, hask, hdone⟩
      · exact ⟨.error e, find_found hfind, by rw [Prog.traces_perform.mp hask]; rfl, rfl⟩
      · obtain ⟨rfl, rfl⟩ := Prog.traces_done.mp hdone
        exact ⟨.ok (), find_found hfind, by rw [Prog.traces_perform.mp hask]; rfl, rfl⟩

/-- What the body does: it locks the row and has nothing to find, or finds a result, or finds and saves one. -/
theorem body_found {out : Except Exc (BrokerOrderResult × Bool)} (h : (body intent_id).Traces trace out) :
    (∃ a, trace = [⟨.lock_for_execution intent_id, a⟩] ∧ ∀ result, out ≠ .ok (result, true)) ∨
      ∃ record intent found, Ready record intent ∧
        ((∃ e, Found intent found (.error e) ∧ trace = ⟨.lock_for_execution intent_id, .ok record⟩ :: found ∧ out = .error e) ∨
          ∃ result a, Found intent found (.ok result) ∧
            trace = ⟨.lock_for_execution intent_id, .ok record⟩ :: found ++ [⟨.save_broker_result intent_id result, a⟩] ∧
            out = a.map fun _ => (result, true)) := by
  unfold body at h
  rcases Prog.traces_bind.mp h with ⟨e, rfl, hask⟩ | ⟨record, trace₁, trace₂, rfl, hask, hrest⟩
  · rw [Prog.traces_perform.mp hask]
    exact .inl ⟨_, rfl, ExecutionEndsAux.error_not_persisted _⟩
  · rw [Prog.traces_perform.mp hask]
    split at hrest
    · obtain ⟨rfl, rfl⟩ := Prog.traces_done.mp hrest
      exact .inl ⟨_, rfl, ExecutionEndsAux.error_not_persisted _⟩
    · rename_i hevidence
      split at hrest
      · rcases Prog.traces_bind.mp hrest with ⟨e, rfl, hread⟩ | ⟨result, trace₃, trace₄, rfl, hread, hdone⟩
        · rw [(Prog.traces_done.mp hread).1]
          exact .inl ⟨_, rfl, ExecutionEndsAux.error_not_persisted _⟩
        · obtain ⟨rfl, rfl⟩ := Prog.traces_done.mp hdone
          rw [(Prog.traces_done.mp hread).1]
          exact .inl ⟨_, rfl, by simp⟩
      · rename_i hqueued
        have hready : ∀ intent, record.as_domain = .ok intent → Ready record intent := by
          intro intent hdomain
          rw [not_or] at hevidence
          exact ⟨hevidence.1, hevidence.2, not_not.mp hqueued, hdomain⟩
        have hout : ∃ inner, (executeQueued intent_id record).Traces trace₂ inner ∧ out = inner.map fun result => (result, true) := by
          rcases Prog.traces_bind.mp hrest with ⟨e, rfl, hexec⟩ | ⟨result, trace₃, trace₄, rfl, hexec, hdone⟩
          · exact ⟨_, hexec, rfl⟩
          · obtain ⟨rfl, rfl⟩ := Prog.traces_done.mp hdone
            rw [List.append_nil]
            exact ⟨_, hexec, rfl⟩
        obtain ⟨inner, hexec, rfl⟩ := hout
        rcases executeQueued_found hexec with ⟨rfl, e, rfl⟩ | ⟨intent, hdomain, found, ⟨hfound, rfl, e, rfl⟩ | ⟨result, a, hfound, rfl, rfl⟩⟩
        · exact .inl ⟨_, rfl, ExecutionEndsAux.error_not_persisted _⟩
        · exact .inr ⟨record, intent, trace₂, hready intent hdomain, .inl ⟨e, hfound, rfl, rfl⟩⟩
        · refine .inr ⟨record, intent, found, hready intent hdomain, .inr ⟨result, a, hfound, rfl, ?_⟩⟩
          cases a <;> rfl

/-- An execution finds nothing to do, or a result is found and settled. -/
theorem execute_found {out : Except Exc BrokerOrderResult} (h : (execute intent_id).Traces trace out) :
    (∃ a b, trace = [⟨.lock_for_execution intent_id, a⟩, ⟨.release_execution_lock, b⟩]) ∨
      ∃ record intent found outcome tail, Ready record intent ∧ Found intent found outcome ∧ Settles intent_id outcome tail ∧
        trace = ⟨.lock_for_execution intent_id, .ok record⟩ :: (found ++ tail) := by
  have htry : ∃ outcome, ((body intent_id).tryFinally finalizer).Traces trace outcome := by
    unfold execute at h
    rcases Prog.traces_bind.mp h with ⟨e, rfl, htry⟩ | ⟨⟨result, persisted⟩, trace₁, trace₂, rfl, htry, hdone⟩
    · exact ⟨_, htry⟩
    · obtain ⟨rfl, rfl⟩ := Prog.traces_done.mp hdone
      rw [List.append_nil]
      exact ⟨_, htry⟩
  obtain ⟨outcome, htry⟩ := htry
  unfold Prog.tryFinally at htry
  obtain ⟨r, trace₁, trace₂, rfl, hbody, hfinally⟩ := Prog.traces_andThen.mp htry
  obtain ⟨ended, trace₃, trace₄, rfl, hfinal, hend⟩ := Prog.traces_andThen.mp hfinally
  have hend : trace₄ = [] := by
    cases ended with
    | ok _ => exact (Prog.traces_done.mp hend).1
    | error e => exact (Prog.traces_done.mp hend).1
  rw [hend, List.append_nil]
  rcases body_found hbody with ⟨a, rfl, hno⟩ | ⟨record, intent, found, hready, ⟨e, hfound, rfl, rfl⟩ | ⟨result, a, hfound, rfl, rfl⟩⟩
  · obtain ⟨b, rfl⟩ := ExecutionEndsAux.finalizer_traces hfinal hno
    exact .inl ⟨a, b, rfl⟩
  · obtain ⟨b, rfl⟩ := ExecutionEndsAux.finalizer_traces hfinal (ExecutionEndsAux.error_not_persisted e)
    exact .inr ⟨record, intent, found, _, _, hready, hfound, .nothing, rfl⟩
  · cases a with
    | ok _ =>
      obtain ⟨rfl, _⟩ := Prog.traces_done.mp hfinal
      exact .inr ⟨record, intent, found, _, _, hready, hfound, .saved, by simp⟩
    | error e =>
      obtain ⟨b, rfl⟩ := ExecutionEndsAux.finalizer_traces hfinal (ExecutionEndsAux.error_not_persisted e)
      exact .inr ⟨record, intent, found, .ok result, [⟨.save_broker_result intent_id result, .error e⟩, ⟨.release_execution_lock, b⟩],
        hready, hfound, .refused, by simp⟩

end Mt5RepliesAux

/-- The results that a trace saves or tries to save. -/
def saving (trace : List PortCall) : List BrokerOrderResult :=
  trace.filterMap fun x => match x with
    | ⟨.save_broker_result _ result, _⟩ => some result
    | _ => none

/-- What is to be saved after a lookup: the order's own report, or that nothing is known of it. -/
def afterLookup (intent : ExecutionIntent) : Except Exc (Option BrokerOrderResult) → List BrokerOrderResult
  | .ok none => [ExecutionService.ambiguous intent.idempotency_key]
  | .ok (some known) => if known.client_order_id = intent.idempotency_key then [known] else []
  | .error _ => []

namespace Mt5RepliesAux

open ExecutionService (_validate_result_identity ambiguous)

variable {intent_id : UUID} {intent : ExecutionIntent} {trace : List PortCall}

/-! ### What is saved -/

/-- The saves of a sequence are those of its parts. -/
theorem saving_append (a b : List PortCall) : saving (a ++ b) = saving a ++ saving b := List.filterMap_append

/-- No result is saved while it is looked for. -/
theorem saving_found {found : List PortCall} {outcome : Except Exc BrokerOrderResult} (h : Found intent found outcome) :
    saving found = [] := by
  cases h <;> rfl

/-- Once it is found it is saved, if it is a result. -/
theorem saving_settles {outcome : Except Exc BrokerOrderResult} {tail : List PortCall} (h : Settles intent_id outcome tail) :
    saving tail = outcome.toOption.toList := by
  cases h <;> rfl

/-- What was found is settled without another submission. -/
theorem submit_settles {outcome : Except Exc BrokerOrderResult} {tail : List PortCall} (h : Settles intent_id outcome tail)
    {intent' : ExecutionIntent} {a : Except Exc BrokerOrderResult} : ⟨.submit intent', a⟩ ∉ tail := by
  cases h <;> simp

/-- Nor is anything looked up again. -/
theorem lookup_settles {outcome : Except Exc BrokerOrderResult} {tail : List PortCall} (h : Settles intent_id outcome tail)
    {account_id : UUID} {key : String} {a : Except Exc (Option BrokerOrderResult)} : ⟨.lookup_by_client_order_id account_id key, a⟩ ∉ tail := by
  cases h <;> simp

/-- A save is of a result that was found. -/
theorem save_settles {outcome : Except Exc BrokerOrderResult} {tail : List PortCall} (h : Settles intent_id outcome tail)
    {id : UUID} {result : BrokerOrderResult} {a : Except Exc Unit} (hmem : ⟨.save_broker_result id result, a⟩ ∈ tail) :
    outcome = .ok result := by
  cases h with
  | nothing => simp at hmem
  | saved =>
    obtain ⟨⟨_, rfl⟩, _⟩ : (id = intent_id ∧ result = _) ∧ a = .ok () := by simpa using hmem
    rfl
  | refused =>
    obtain ⟨⟨_, rfl⟩, _⟩ : (id = intent_id ∧ result = _) ∧ a = _ := by simpa using hmem
    rfl

/-- Finding a result saves nothing. -/
theorem not_save_found {found : List PortCall} {outcome : Except Exc BrokerOrderResult} (h : Found intent found outcome)
    {id : UUID} {result : BrokerOrderResult} {a : Except Exc Unit} : ⟨.save_broker_result id result, a⟩ ∉ found := by
  cases h <;> simp

/-- The outcome of the check of a result that was looked up. -/
theorem afterLookup_some (intent : ExecutionIntent) (known : BrokerOrderResult) :
    (_validate_result_identity intent known).toOption.toList = afterLookup intent (.ok (some known)) := by
  have hafter : afterLookup intent (.ok (some known)) = if known.client_order_id = intent.idempotency_key then [known] else [] := rfl
  rw [hafter]
  unfold _validate_result_identity
  by_cases hid : known.client_order_id = intent.idempotency_key
  · rw [if_neg (not_not.mpr hid), if_pos hid]
    rfl
  · rw [if_pos hid, if_neg hid]
    rfl

/-- A submission that ended in a timeout is followed by a lookup, and what that answers is the outcome. -/
theorem found_timeout {found : List PortCall} {outcome : Except Exc BrokerOrderResult} (h : Found intent found outcome)
    {intent' : ExecutionIntent} {e : Exc} (htimeout : e.isA .TimeoutError = true) (hmem : ⟨.submit intent', .error e⟩ ∈ found) :
    intent' = intent ∧ ∃ r, found = [⟨lookupOf intent, .ok none⟩, ⟨.submit intent, .error e⟩, ⟨lookupOf intent, r⟩] ∧
      outcome.toOption.toList = afterLookup intent r := by
  cases h with
  | known => simp at hmem
  | unreachable => simp at hmem
  | submitted => simp at hmem
  | failed hno =>
    obtain ⟨rfl, rfl⟩ : intent' = intent ∧ e = _ := by simpa using hmem
    rw [htimeout] at hno
    cases hno
  | @resolved e' known _ =>
    obtain ⟨rfl, rfl⟩ : intent' = intent ∧ e = e' := by simpa using hmem
    exact ⟨rfl, .ok (some known), rfl, afterLookup_some intent' known⟩
  | @unresolved e' e'' _ =>
    obtain ⟨rfl, rfl⟩ : intent' = intent ∧ e = e' := by simpa using hmem
    exact ⟨rfl, .error e'', rfl, rfl⟩
  | @lost e' _ =>
    obtain ⟨rfl, rfl⟩ : intent' = intent ∧ e = e' := by simpa using hmem
    exact ⟨rfl, .ok none, rfl, rfl⟩

/-- Where a result that was found comes from. -/
theorem found_source {found : List PortCall} {result : BrokerOrderResult} (h : Found intent found (.ok result)) :
    result.client_order_id = intent.idempotency_key ∧
      (⟨lookupOf intent, .ok (some result)⟩ ∈ found ∨ ⟨.submit intent, .ok result⟩ ∈ found ∨
        (∃ e, e.isA .TimeoutError = true ∧ ⟨.submit intent, .error e⟩ ∈ found) ∧ result = ambiguous intent.idempotency_key) := by
  obtain ⟨outcome, hout⟩ : ∃ outcome : Except Exc BrokerOrderResult, outcome = .ok result := ⟨_, rfl⟩
  rw [← hout] at h
  cases h with
  | known =>
    obtain ⟨rfl, hid⟩ := validate_eq hout
    exact ⟨hid, .inl (by simp)⟩
  | unreachable => cases hout
  | submitted =>
    obtain ⟨rfl, hid⟩ := validate_eq hout
    exact ⟨hid, .inr (.inl (by simp))⟩
  | failed => cases hout
  | resolved =>
    obtain ⟨rfl, hid⟩ := validate_eq hout
    exact ⟨hid, .inl (by simp)⟩
  | unresolved => cases hout
  | @lost e htimeout =>
    cases hout
    exact ⟨rfl, .inr (.inr ⟨⟨e, htimeout, by simp⟩, rfl⟩)⟩

/-- An ambiguous answer is a timeout. -/
theorem ambiguous_timeout (client_order_id : String) (requested : Decimal) {reply : Mt5Errors.Reply} (h : is_ambiguous reply.retcode = true) :
    ∃ e, build_result client_order_id requested reply = .error e ∧ e.isA .TimeoutError = true :=
  ⟨_, build_result_ambiguous h, by simp [mt5Ambiguous, Exc.isA]⟩

/-- A queued row takes every report that an answer leads to. -/
theorem queued_takes {requested filled : Decimal} {retcode : Int} :
    OrderIntentRecord.nextState .QUEUED (resolve_state retcode requested filled) = .ok (resolve_state retcode requested filled) := by
  have hmem := resolve_state_mem retcode requested filled
  generalize resolve_state retcode requested filled = state at hmem
  simp only [List.mem_cons, List.not_mem_nil, or_false] at hmem
  rcases hmem with rfl | rfl | rfl | rfl <;> decide

end Mt5RepliesAux

open Mt5RepliesAux

/-- What an answer of the terminal becomes. It raises a timeout exactly when its code is ambiguous, and otherwise a validation error exactly
when its numbers fit nowhere; every other answer becomes a report that a queued row of the order takes and shows again, refused exactly
when the code is no success, filled exactly when the code says done and as much as was asked for was filled, and with an error code that
names the return code of a refusal. -/
theorem reply_stored {row : OrderIntentRecord} (hqueued : row.state = .QUEUED) (requested : Decimal) (reply : Mt5Errors.Reply) :
    ((∃ e, build_result row.idempotency_key requested reply = .error e ∧ e.isA .TimeoutError = true) ↔ is_ambiguous reply.retcode = true) ∧
    ((∃ e, build_result row.idempotency_key requested reply = .error e ∧ e.isA .ValidationError = true) ↔
      is_ambiguous reply.retcode = false ∧ ¬reply.Fits) ∧
    (is_ambiguous reply.retcode = false ∧ reply.Fits ↔ ∃ result, build_result row.idempotency_key requested reply = .ok result) ∧
    ∀ result, build_result row.idempotency_key requested reply = .ok result → ∃ row', row.withResult result = .ok row' ∧
      row'.as_broker_result = .ok result ∧
      (row'.state = .REJECTED ↔ ¬Success reply.retcode) ∧
      (row'.state = .FILLED ↔ (reply.retcode = RETCODE_DONE ∨ reply.retcode = RETCODE_DONE_PARTIAL) ∧
        0 < row'.filled_quantity.toRat ∧ requested.toRat ≤ row'.filled_quantity.toRat) ∧
      (row'.state = .PARTIALLY_FILLED ↔ (reply.retcode = RETCODE_DONE ∨ reply.retcode = RETCODE_DONE_PARTIAL) ∧
        0 < row'.filled_quantity.toRat ∧ row'.filled_quantity.toRat < requested.toRat) ∧
      row'.state ∈ [OrderState.SUBMITTED, .PARTIALLY_FILLED, .FILLED, .REJECTED] ∧
      ∀ reply' result', build_result row.idempotency_key requested reply' = .ok result' → row'.state = .REJECTED →
        result'.state = .REJECTED → row'.error_code = result'.error_code → reply.retcode = reply'.retcode := by
  refine ⟨?_, ?_, ?_, ?_⟩
  · constructor
    · rintro ⟨e, he, htimeout⟩
      by_contra hclear
      rw [Bool.not_eq_true] at hclear
      by_cases hfits : reply.Fits
      · obtain ⟨result, hresult, _⟩ := build_result_fits row.idempotency_key requested hclear hfits
        rw [hresult] at he
        cases he
      · obtain ⟨errors, herrors⟩ := build_result_unfit row.idempotency_key requested hclear hfits
        rw [herrors] at he
        cases he
        cases htimeout
    · exact ambiguous_timeout _ _
  · constructor
    · rintro ⟨e, he, hinvalid⟩
      have hclear : is_ambiguous reply.retcode = false := by
        by_contra hambiguous
        rw [build_result_ambiguous (by simpa using hambiguous)] at he
        cases he
        -- the exception of an ambiguous code is a timeout and nothing else
        simp [mt5Ambiguous, Exc.isA] at hinvalid
      refine ⟨hclear, ?_⟩
      intro hfits
      obtain ⟨result, hresult, _⟩ := build_result_fits row.idempotency_key requested hclear hfits
      rw [hresult] at he
      cases he
    · rintro ⟨hclear, hunfit⟩
      obtain ⟨errors, herrors⟩ := build_result_unfit row.idempotency_key requested hclear hunfit
      exact ⟨_, herrors, rfl⟩
  · constructor
    · rintro ⟨hclear, hfits⟩
      obtain ⟨result, hresult, _⟩ := build_result_fits row.idempotency_key requested hclear hfits
      exact ⟨result, hresult⟩
    · rintro ⟨result, hresult⟩
      obtain ⟨hclear, _⟩ := build_result_ok hresult
      refine ⟨hclear, ?_⟩
      by_contra hunfit
      obtain ⟨errors, herrors⟩ := build_result_unfit row.idempotency_key requested hclear hunfit
      rw [herrors] at hresult
      cases hresult
  · intro result hresult
    obtain ⟨_, hfields⟩ := build_result_ok hresult
    have hstate : result.state = resolve_state reply.retcode requested reply.filled_quantity := by rw [hfields]; rfl
    have hfilled : result.filled_quantity = reply.filled_quantity := by rw [hfields]; rfl
    have hcode : result.error_code = error_code_for reply.retcode := by rw [hfields]; rfl
    have hid : result.client_order_id = row.idempotency_key := by rw [hfields]; rfl
    have hnext : OrderIntentRecord.nextState row.state result.state = .ok result.state := by rw [hqueued, hstate, queued_takes]
    obtain ⟨row', hrow'⟩ : ∃ row', row.withResult result = .ok row' := by
      unfold OrderIntentRecord.withResult
      rw [if_neg (not_not.mpr hid), hnext]
      exact ⟨_, rfl⟩
    have hstored := OrderIntentRecord.withResult_ok hrow'
    have hcode' : row'.error_code = result.error_code := by rw [hstored.eq]
    have hfilled' : row'.filled_quantity = reply.filled_quantity := by rw [hstored.eq, ← hfilled]
    refine ⟨row', hrow', hstored.as_broker_result, ?_, ?_, ?_, ?_, ?_⟩
    · rw [hstored.state, hstate, resolve_state_rejected_iff]
    · rw [hstored.state, hstate, resolve_state_filled_iff, hfilled']
    · rw [hstored.state, hstate, resolve_state_partial_iff, hfilled']
    · rw [hstored.state, hstate]
      exact resolve_state_mem _ _ _
    · intro reply' result' hresult' hrejected hrejected' hcodes
      obtain ⟨_, hfields'⟩ := build_result_ok hresult'
      rw [hstored.state, hstate, resolve_state_rejected_iff] at hrejected
      have hstate' : result'.state = resolve_state reply'.retcode requested reply'.filled_quantity := by rw [hfields']; rfl
      rw [hstate', resolve_state_rejected_iff] at hrejected'
      have hcode'' : result'.error_code = error_code_for reply'.retcode := by rw [hfields']; rfl
      rw [hcode', hcode, hcode''] at hcodes
      exact error_code_for_injective hrejected hrejected' hcodes

/-- The terminal says that half of two was filled. -/
def halfFilled : Mt5Errors.Reply := ⟨RETCODE_DONE_PARTIAL, .ofInt 1, some (.ofInt 100), some "7", none, ""⟩

/-- The half that was filled fits. -/
theorem halfFilled_fits : halfFilled.Fits := by
  refine ⟨⟨.ofInt 1, by decide⟩, ?_⟩
  rintro price - ⟨⟩
  exact ⟨.ofInt 100, by decide⟩

/-- A queued order shows half of it as partially filled. -/
theorem reply_stored_half : ∃ result row',
    build_result (limitRow id false []).idempotency_key (.ofInt 2) halfFilled = .ok result ∧
      (limitRow id false []).withResult result = .ok row' ∧ row'.state = .PARTIALLY_FILLED := by
  obtain ⟨result, hresult, hfields⟩ := build_result_fits (limitRow id false []).idempotency_key
    (.ofInt 2) rfl halfFilled_fits
  obtain ⟨row', hrow', _, _, _, hpartly, _⟩ := (@reply_stored (limitRow id false []) rfl (.ofInt 2) halfFilled).2.2.2 result hresult
  have hfilled : row'.filled_quantity = .ofInt 1 := by
    rw [(OrderIntentRecord.withResult_ok hrow').eq]
    show result.filled_quantity = _
    rw [hfields]
    rfl
  refine ⟨result, row', hresult, hrow', hpartly.mpr ⟨.inr rfl, ?_, ?_⟩⟩
  · rw [hfilled]
    decide
  · rw [hfilled]
    decide

/-- For every behaviour of the repository and of the broker: after a submission that was answered ambiguously, the order is looked up once
more, and never again, and not submitted again, and what is saved is the order's report if the lookup knows one, that nothing is known if it knows none,
and nothing if it fails. Every result that is saved comes from a lookup of the order or from an answer to it, or says that nothing is
known after a timeout; so with an adapter that reports by `build_result`, a refusal is saved only where a lookup says so or where the
terminal refused the order with a code that is not ambiguous. -/
theorem ambiguous_looked_up_again {intent_id : UUID} {trace : List PortCall} {out : Except Exc BrokerOrderResult}
    (h : (execute intent_id).Traces trace out) :
    (∀ intent reply, is_ambiguous reply.retcode = true →
      ⟨.submit intent, build_result intent.idempotency_key intent.quantity reply⟩ ∈ trace →
      ∃ pre r post, trace = pre ++ ⟨.submit intent, build_result intent.idempotency_key intent.quantity reply⟩ :: ⟨lookupOf intent, r⟩ :: post ∧
        (∀ intent' a, ⟨.submit intent', a⟩ ∉ pre ∧ ⟨.submit intent', a⟩ ∉ post) ∧
        (∀ account_id key a, ⟨.lookup_by_client_order_id account_id key, a⟩ ∉ post) ∧ saving trace = afterLookup intent r) ∧
    ∀ id result a, ⟨.save_broker_result id result, a⟩ ∈ trace → ∃ intent, result.client_order_id = intent.idempotency_key ∧
      (⟨lookupOf intent, .ok (some result)⟩ ∈ trace ∨ ⟨.submit intent, .ok result⟩ ∈ trace ∨
        (∃ e, e.isA .TimeoutError = true ∧ ⟨.submit intent, .error e⟩ ∈ trace) ∧
          result = ExecutionService.ambiguous intent.idempotency_key) ∧
      ((∀ submitted, ⟨.submit intent, .ok submitted⟩ ∈ trace → ∃ reply,
          build_result intent.idempotency_key intent.quantity reply = .ok submitted) →
        result.state = .REJECTED → ⟨lookupOf intent, .ok (some result)⟩ ∈ trace ∨ ∃ reply, ⟨.submit intent, .ok result⟩ ∈ trace ∧
          build_result intent.idempotency_key intent.quantity reply = .ok result ∧ is_ambiguous reply.retcode = false ∧
          ¬Success reply.retcode) := by
  rcases execute_found h with ⟨a, b, rfl⟩ | ⟨record, intent, found, outcome, tail, hready, hfound, hsettles, rfl⟩
  · exact ⟨by simp, by simp⟩
  · refine ⟨?_, ?_⟩
    · intro intent' reply hambiguous hsubmit
      obtain ⟨e, he, htimeout⟩ := ambiguous_timeout intent'.idempotency_key intent'.quantity hambiguous
      rw [he] at hsubmit ⊢
      have hmem : ⟨.submit intent', .error e⟩ ∈ found := by
        simpa [submit_settles hsettles] using hsubmit
      obtain ⟨rfl, r, hcalls, houtcome⟩ := found_timeout hfound htimeout hmem
      refine ⟨[⟨.lock_for_execution intent_id, .ok record⟩, ⟨lookupOf intent', .ok none⟩], r, tail, ?_, ?_, ?_, ?_⟩
      · rw [hcalls]
        rfl
      · intro intent'' a
        exact ⟨by simp, submit_settles hsettles⟩
      · exact fun _ _ _ => lookup_settles hsettles
      · have hsaving : saving (⟨.lock_for_execution intent_id, .ok record⟩ :: (found ++ tail)) = saving (found ++ tail) := rfl
        rw [hsaving, saving_append, saving_found hfound, saving_settles hsettles, List.nil_append, houtcome]
    · intro id result a hsave
      have hmem : ⟨.save_broker_result id result, a⟩ ∈ tail := by
        simpa [not_save_found hfound] using hsave
      obtain rfl := save_settles hsettles hmem
      obtain ⟨hid, hsource⟩ := found_source hfound
      have hin : ∀ x ∈ found, x ∈ (⟨.lock_for_execution intent_id, .ok record⟩ : PortCall) :: (found ++ tail) := by
        intro x hx
        exact List.mem_cons_of_mem _ (List.mem_append_left _ hx)
      refine ⟨intent, hid, ?_, ?_⟩
      · rcases hsource with hlook | hsubmit | ⟨⟨e, htimeout, hsubmit⟩, hunknown⟩
        · exact .inl (hin _ hlook)
        · exact .inr (.inl (hin _ hsubmit))
        · exact .inr (.inr ⟨⟨e, htimeout, hin _ hsubmit⟩, hunknown⟩)
      · intro hmt5 hrejected
        rcases hsource with hlook | hsubmit | ⟨_, hunknown⟩
        · exact .inl (hin _ hlook)
        · obtain ⟨reply, hreply⟩ := hmt5 result (hin _ hsubmit)
          obtain ⟨hclear, hfields⟩ := build_result_ok hreply
          refine .inr ⟨reply, hin _ hsubmit, hreply, hclear, ?_⟩
          rw [hfields] at hrejected
          exact resolve_state_rejected_iff.mp hrejected
        · rw [hunknown] at hrejected
          cases hrejected

/-- The terminal does not say whether the order arrived. -/
def lostConnection : Mt5Errors.Reply := ⟨10031, .ofInt 0, none, none, none, "connection"⟩

/-- The calls of an execution whose submission got that answer and whose second lookup knows nothing. -/
def lostTrace : List PortCall :=
  [⟨.lock_for_execution ⟨13⟩, .ok (limitRow id false []).toExecutionRecord⟩, ⟨lookupOf (limitRead id false), .ok none⟩,
    ⟨.submit (limitRead id false), build_result (limitRead id false).idempotency_key (limitRead id false).quantity lostConnection⟩,
    ⟨lookupOf (limitRead id false), .ok none⟩,
    ⟨.save_broker_result ⟨13⟩ (ExecutionService.ambiguous (limitRead id false).idempotency_key), .ok ()⟩]

/-- A queued row, a result and its save are an execution. -/
theorem execute_traces {intent_id : UUID} {record : ExecutionRecord} {intent : ExecutionIntent} {found : List PortCall}
    {result : BrokerOrderResult} (hready : ExecutionEndsAux.Ready record intent) (hfind : (find intent).Traces found (.ok result)) :
    (execute intent_id).Traces (⟨.lock_for_execution intent_id, .ok record⟩ :: (found ++ [⟨.save_broker_result intent_id result, .ok ()⟩]))
      (.ok result) := by
  have hpersist : (_persist_result intent_id result).Traces [⟨.save_broker_result intent_id result, .ok ()⟩] (.ok result) :=
    Prog.traces_bind.mpr (.inr ⟨(), [⟨.save_broker_result intent_id result, .ok ()⟩], [], rfl, Prog.traces_perform.mpr rfl,
      Prog.traces_done.mpr ⟨rfl, rfl⟩⟩)
  have hqueued : (executeQueued intent_id record).Traces (found ++ [⟨.save_broker_result intent_id result, .ok ()⟩]) (.ok result) := by
    unfold executeQueued
    rw [hready.as_domain]
    exact Prog.traces_bind.mpr (.inr ⟨intent, [], _, rfl, Prog.traces_done.mpr ⟨rfl, rfl⟩,
      Prog.traces_bind.mpr (.inr ⟨result, found, _, rfl, hfind, hpersist⟩)⟩)
  have hbody : (body intent_id).Traces
      (⟨.lock_for_execution intent_id, .ok record⟩ :: (found ++ [⟨.save_broker_result intent_id result, .ok ()⟩])) (.ok (result, true)) := by
    unfold body
    refine Prog.traces_bind.mpr (.inr ⟨record, [⟨.lock_for_execution intent_id, .ok record⟩], _, rfl, Prog.traces_perform.mpr rfl, ?_⟩)
    rw [if_neg (not_or.mpr ⟨hready.risk, hready.approval⟩), if_neg (not_not.mpr hready.queued)]
    exact Prog.traces_bind.mpr (.inr ⟨result, _, [], (List.append_nil _).symm, hqueued, Prog.traces_done.mpr ⟨rfl, rfl⟩⟩)
  unfold execute
  refine Prog.traces_bind.mpr (.inr ⟨(result, true), _, [], (List.append_nil _).symm, ?_, Prog.traces_done.mpr ⟨rfl, rfl⟩⟩)
  exact Prog.traces_andThen.mpr ⟨.ok (result, true), _, [], (List.append_nil _).symm, hbody,
    Prog.traces_andThen.mpr ⟨.ok (), [], [], rfl, Prog.traces_done.mpr ⟨rfl, rfl⟩, Prog.traces_done.mpr ⟨rfl, rfl⟩⟩⟩

/-- The calls that find nothing, after a submission that ended in a timeout. -/
theorem find_lost {intent : ExecutionIntent} {e : Exc} (htimeout : e.isA .TimeoutError = true) :
    (find intent).Traces [⟨lookupOf intent, .ok none⟩, ⟨.submit intent, .error e⟩, ⟨lookupOf intent, .ok none⟩]
      (.ok (ExecutionService.ambiguous intent.idempotency_key)) := by
  have hresolve : (resolve intent).Traces [⟨lookupOf intent, .ok none⟩] (.ok (ExecutionService.ambiguous intent.idempotency_key)) :=
    Prog.traces_bind.mpr (.inr ⟨none, [⟨lookupOf intent, .ok none⟩], [], rfl, Prog.traces_perform.mpr rfl, Prog.traces_done.mpr ⟨rfl, rfl⟩⟩)
  have hdispatch : (dispatch intent).Traces [⟨.submit intent, .error e⟩, ⟨lookupOf intent, .ok none⟩]
      (.ok (ExecutionService.ambiguous intent.idempotency_key)) := by
    refine Prog.traces_andThen.mpr ⟨.error e, [⟨.submit intent, .error e⟩], [⟨lookupOf intent, .ok none⟩], rfl,
      Prog.traces_bind.mpr (.inl ⟨e, rfl, Prog.traces_perform.mpr rfl⟩), ?_⟩
    simp only [htimeout, if_true]
    exact hresolve
  exact Prog.traces_bind.mpr (.inr ⟨none, [⟨lookupOf intent, .ok none⟩], _, rfl, Prog.traces_perform.mpr rfl, hdispatch⟩)

/-- Such an execution, and what it saves. -/
theorem ambiguous_looked_up_again_lost :
    (execute ⟨13⟩).Traces lostTrace (.ok (ExecutionService.ambiguous (limitRead id false).idempotency_key)) ∧
      ∃ pre r post, lostTrace = pre ++ ⟨.submit (limitRead id false), build_result (limitRead id false).idempotency_key
          (limitRead id false).quantity lostConnection⟩ :: ⟨lookupOf (limitRead id false), r⟩ :: post ∧
        saving lostTrace = afterLookup (limitRead id false) r := by
  have hdomain : (limitRow id false []).as_domain = .ok (limitRead id false) := as_domain_limitRow
  have hready : ExecutionEndsAux.Ready (limitRow id false []).toExecutionRecord (limitRead id false) :=
    ⟨Option.some_ne_none _, Option.some_ne_none _, rfl, hdomain⟩
  have htrace : (execute ⟨13⟩).Traces lostTrace (.ok (ExecutionService.ambiguous (limitRead id false).idempotency_key)) := by
    rw [lostTrace, @build_result_ambiguous _ _ lostConnection rfl]
    exact execute_traces hready (find_lost rfl)
  obtain ⟨pre, r, post, hsplit, _, _, hsaving⟩ :=
    (ambiguous_looked_up_again htrace).1 (limitRead id false) lostConnection rfl (by simp [lostTrace])
  exact ⟨htrace, pre, r, post, hsplit, hsaving⟩

end MtossBot
