import MtossBot.Application.ExecutionPort
import MtossBot.Lemmas.ExecutionRuns

/-!
# How an execution ends

Whatever the repository and the broker answer or raise, `execute` locks once, looks up and submits at most once, saves at most once,
and gives the lock back unless the save completed. The traces of its calls have one of four shapes (`Shape`), and what the claims of
its transaction are is read off from them.
-/

namespace MtossBot

open ExecutionPort

/-- A call of `execute` with its answer. -/
abbrev PortCall : Type := Exchange executionPorts Exc

namespace ExecutionOp

def isRelease : ExecutionOp → Bool
  | release_execution_lock => true
  | _ => false

def isSubmit : ExecutionOp → Bool
  | submit _ => true
  | _ => false

end ExecutionOp

/-- A save has completed. -/
def Saved (trace : List PortCall) : Prop := ∃ intent_id result, ⟨.save_broker_result intent_id result, .ok ()⟩ ∈ trace

namespace ExecutionEndsAux

/-- Only lookups. -/
def Lookups (trace : List PortCall) : Prop := ∀ x ∈ trace, ∃ account_id client_order_id,
  x.op = .lookup_by_client_order_id account_id client_order_id

/-- If there is a result, it carries the key of the order. -/
def Named (intent : ExecutionIntent) (out : Except Exc BrokerOrderResult) : Prop :=
  ∀ result, out = .ok result → result.client_order_id = intent.idempotency_key

/-- The calls that find a result: lookups, with a submission after one that knew nothing. -/
def Finds (intent : ExecutionIntent) (trace : List PortCall) : Prop :=
  Lookups trace ∨ ∃ a rest, Lookups rest ∧
    trace = ⟨.lookup_by_client_order_id intent.account_id intent.idempotency_key, .ok none⟩ :: ⟨.submit intent, a⟩ :: rest

/-- A row that is executed, and its order. -/
structure Ready (record : ExecutionRecord) (intent : ExecutionIntent) : Prop where
  risk : record.risk_decision_id ≠ none
  approval : record.approval_id ≠ none
  queued : record.state = .QUEUED
  as_domain : record.as_domain = .ok intent

/-- No call is no submission. -/
theorem lookups_nil : Lookups [] := by
  intro x hx
  cases hx

/-- A lookup by itself. -/
theorem lookups_single (account_id : UUID) (client_order_id : String) (r : Except Exc (Option BrokerOrderResult)) :
    Lookups [⟨.lookup_by_client_order_id account_id client_order_id, r⟩] := by
  intro x hx
  rw [List.mem_singleton.mp hx]
  exact ⟨account_id, client_order_id, rfl⟩

/-- An exception is no result with another key. -/
theorem named_error (intent : ExecutionIntent) (e : Exc) : Named intent (.error e) := by
  intro result h
  cases h

/-- The check of the identity lets only the order's own results through. -/
theorem named_validate (intent : ExecutionIntent) (result : BrokerOrderResult) :
    Named intent (ExecutionService._validate_result_identity intent result) := by
  intro result' h
  unfold ExecutionService._validate_result_identity at h
  split at h
  · cases h
  · rename_i hid
    cases h
    exact not_not.mp hid

/-! ### The helpers of `execute` -/

/-- After a timeout the order is looked up, no more. -/
theorem resolve_traces {intent : ExecutionIntent} {trace : List PortCall} {out : Except Exc BrokerOrderResult}
    (h : (resolve intent).Traces trace out) : Lookups trace ∧ Named intent out := by
  unfold resolve at h
  rcases Prog.traces_bind.mp h with ⟨e, rfl, hask⟩ | ⟨known, trace₁, trace₂, rfl, hask, hrest⟩
  · rw [Prog.traces_perform.mp hask]
    exact ⟨lookups_single _ _ _, named_error intent e⟩
  · rw [Prog.traces_perform.mp hask]
    cases known with
    | some known =>
      obtain ⟨rfl, rfl⟩ := Prog.traces_done.mp hrest
      exact ⟨lookups_single _ _ _, named_validate intent known⟩
    | none =>
      obtain ⟨rfl, rfl⟩ := Prog.traces_done.mp hrest
      refine ⟨lookups_single _ _ _, ?_⟩
      intro result hresult
      cases hresult
      rfl

/-- An order is submitted once, and looked up after a timeout. -/
theorem dispatch_traces {intent : ExecutionIntent} {trace : List PortCall} {out : Except Exc BrokerOrderResult}
    (h : (dispatch intent).Traces trace out) :
    (∃ a rest, Lookups rest ∧ trace = ⟨.submit intent, a⟩ :: rest) ∧ Named intent out := by
  unfold dispatch Prog.tryExcept at h
  obtain ⟨r, trace₁, trace₂, rfl, hbody, hhandler⟩ := Prog.traces_andThen.mp h
  have hbody : (∃ a, trace₁ = [⟨.submit intent, a⟩]) ∧ Named intent r := by
    rcases Prog.traces_bind.mp hbody with ⟨e, rfl, hask⟩ | ⟨submitted, trace₁, trace₂, rfl, hask, hrest⟩
    · exact ⟨⟨_, Prog.traces_perform.mp hask⟩, named_error intent e⟩
    · obtain ⟨rfl, rfl⟩ := Prog.traces_done.mp hrest
      rw [List.append_nil]
      exact ⟨⟨_, Prog.traces_perform.mp hask⟩, named_validate intent submitted⟩
  obtain ⟨⟨a, rfl⟩, hnamed⟩ := hbody
  cases r with
  | ok result =>
    obtain ⟨rfl, rfl⟩ := Prog.traces_done.mp hhandler
    exact ⟨⟨a, [], lookups_nil, rfl⟩, hnamed⟩
  | error e =>
    by_cases htimeout : e.isA .TimeoutError = true
    · simp only [htimeout, if_true] at hhandler
      obtain ⟨hlookups, hout⟩ := resolve_traces hhandler
      exact ⟨⟨a, trace₂, hlookups, rfl⟩, hout⟩
    · simp only [htimeout, Bool.false_eq_true, if_false] at hhandler
      obtain ⟨rfl, rfl⟩ := Prog.traces_done.mp hhandler
      exact ⟨⟨a, [], lookups_nil, rfl⟩, named_error intent e⟩

/-- A result is found by a lookup, or by a submission after one that knew nothing. -/
theorem find_traces {intent : ExecutionIntent} {trace : List PortCall} {out : Except Exc BrokerOrderResult}
    (h : (find intent).Traces trace out) : Finds intent trace ∧ Named intent out := by
  unfold find at h
  rcases Prog.traces_bind.mp h with ⟨e, rfl, hask⟩ | ⟨known, trace₁, trace₂, rfl, hask, hrest⟩
  · rw [Prog.traces_perform.mp hask]
    exact ⟨.inl (lookups_single _ _ _), named_error intent e⟩
  · rw [Prog.traces_perform.mp hask]
    cases known with
    | some known =>
      obtain ⟨rfl, rfl⟩ := Prog.traces_done.mp hrest
      exact ⟨.inl (lookups_single _ _ _), named_validate intent known⟩
    | none =>
      obtain ⟨⟨a, rest, hlookups, rfl⟩, hout⟩ := dispatch_traces hrest
      exact ⟨.inr ⟨a, rest, hlookups, rfl⟩, hout⟩

/-- What the body of `execute` does for a queued row: it raises before a save, or ends with the answer of the save. -/
theorem executeQueued_traces {intent_id : UUID} {record : ExecutionRecord} {trace : List PortCall}
    {out : Except Exc BrokerOrderResult} (h : (executeQueued intent_id record).Traces trace out) :
    (trace = [] ∧ ∃ e, out = .error e) ∨ ∃ intent, record.as_domain = .ok intent ∧ ∃ found, Finds intent found ∧
      ((trace = found ∧ ∃ e, out = .error e) ∨ ∃ result a, result.client_order_id = intent.idempotency_key ∧
        trace = found ++ [⟨.save_broker_result intent_id result, a⟩] ∧ out = a.map fun _ => result) := by
  unfold executeQueued at h
  rcases Prog.traces_bind.mp h with ⟨e, rfl, hdomain⟩ | ⟨intent, trace₁, trace₂, rfl, hdomain, hrest⟩
  · exact .inl ⟨(Prog.traces_done.mp hdomain).1, e, rfl⟩
  · obtain ⟨rfl, hintent⟩ := Prog.traces_done.mp hdomain
    refine .inr ⟨intent, hintent.symm, ?_⟩
    rcases Prog.traces_bind.mp hrest with ⟨e, rfl, hfind⟩ | ⟨result, found, trace₃, rfl, hfind, hpersist⟩
    · exact ⟨trace₂, (find_traces hfind).1, .inl ⟨rfl, e, rfl⟩⟩
    · obtain ⟨hfinds, hnamed⟩ := find_traces hfind
      refine ⟨found, hfinds, .inr ⟨result, ?_⟩⟩
      unfold _persist_result at hpersist
      rcases Prog.traces_bind.mp hpersist with ⟨e, rfl, hask⟩ | ⟨_, trace₄, trace₅, rfl, hask, hdone⟩
      · exact ⟨.error e, hnamed result rfl, by rw [Prog.traces_perform.mp hask]; rfl, rfl⟩
      · obtain ⟨rfl, rfl⟩ := Prog.traces_done.mp hdone
        exact ⟨.ok (), hnamed result rfl, by rw [Prog.traces_perform.mp hask]; rfl, rfl⟩

/-! ### The shapes of a trace -/

/-- The traces of `execute`, with their outcomes: it leaves with nothing found, with a result that is not saved, with one that is,
or with one whose save raised. -/
inductive Shape (intent_id : UUID) : List PortCall → Except Exc BrokerOrderResult → Prop where
  | unready {a : Except Exc ExecutionRecord} {b : Except Exc Unit} {out : Except Exc BrokerOrderResult} :
      Shape intent_id [⟨.lock_for_execution intent_id, a⟩, ⟨.release_execution_lock, b⟩] out
  | unfound {record : ExecutionRecord} {intent : ExecutionIntent} {found : List PortCall} {b : Except Exc Unit}
      {out : Except Exc BrokerOrderResult} :
      Ready record intent → Finds intent found →
      Shape intent_id (⟨.lock_for_execution intent_id, .ok record⟩ :: found ++ [⟨.release_execution_lock, b⟩]) out
  | saved {record : ExecutionRecord} {intent : ExecutionIntent} {found : List PortCall} {result : BrokerOrderResult} :
      Ready record intent → Finds intent found → result.client_order_id = intent.idempotency_key →
      Shape intent_id (⟨.lock_for_execution intent_id, .ok record⟩ :: found ++ [⟨.save_broker_result intent_id result, .ok ()⟩])
        (.ok result)
  | unsaved {record : ExecutionRecord} {intent : ExecutionIntent} {found : List PortCall} {result : BrokerOrderResult} {e : Exc}
      {b : Except Exc Unit} {out : Except Exc BrokerOrderResult} :
      Ready record intent → Finds intent found → result.client_order_id = intent.idempotency_key →
      Shape intent_id (⟨.lock_for_execution intent_id, .ok record⟩ :: found ++
        [⟨.save_broker_result intent_id result, .error e⟩, ⟨.release_execution_lock, b⟩]) out

/-- What the body does: it locks, and finds and saves a result if the row is ready. -/
inductive BodyShape (intent_id : UUID) : List PortCall → Except Exc (BrokerOrderResult × Bool) → Prop where
  | unready {a : Except Exc ExecutionRecord} {out : Except Exc (BrokerOrderResult × Bool)} :
      (∀ result, out ≠ .ok (result, true)) → BodyShape intent_id [⟨.lock_for_execution intent_id, a⟩] out
  | unfound {record : ExecutionRecord} {intent : ExecutionIntent} {found : List PortCall} {e : Exc} :
      Ready record intent → Finds intent found →
      BodyShape intent_id (⟨.lock_for_execution intent_id, .ok record⟩ :: found) (.error e)
  | found {record : ExecutionRecord} {intent : ExecutionIntent} {found : List PortCall} {result : BrokerOrderResult}
      {a : Except Exc Unit} :
      Ready record intent → Finds intent found → result.client_order_id = intent.idempotency_key →
      BodyShape intent_id (⟨.lock_for_execution intent_id, .ok record⟩ :: found ++ [⟨.save_broker_result intent_id result, a⟩])
        (a.map fun _ => (result, true))

/-- What raises has persisted nothing. -/
theorem error_not_persisted (e : Exc) : ∀ result, (.error e : Except Exc (BrokerOrderResult × Bool)) ≠ .ok (result, true) := by
  intro result h
  cases h

/-- The body of `execute` makes its calls in one of these forms. -/
theorem body_shape {intent_id : UUID} {trace : List PortCall} {out : Except Exc (BrokerOrderResult × Bool)}
    (h : (body intent_id).Traces trace out) : BodyShape intent_id trace out := by
  unfold body at h
  rcases Prog.traces_bind.mp h with ⟨e, rfl, hask⟩ | ⟨record, trace₁, trace₂, rfl, hask, hrest⟩
  · rw [Prog.traces_perform.mp hask]
    exact .unready (error_not_persisted _)
  · rw [Prog.traces_perform.mp hask]
    split at hrest
    · obtain ⟨rfl, rfl⟩ := Prog.traces_done.mp hrest
      exact .unready (error_not_persisted _)
    · rename_i hevidence
      split at hrest
      · rcases Prog.traces_bind.mp hrest with ⟨e, rfl, hread⟩ | ⟨result, trace₃, trace₄, rfl, hread, hdone⟩
        · rw [(Prog.traces_done.mp hread).1]
          exact .unready (error_not_persisted _)
        · obtain ⟨rfl, rfl⟩ := Prog.traces_done.mp hdone
          rw [(Prog.traces_done.mp hread).1]
          exact .unready fun result => by simp
      · rename_i hqueued
        have hready : ∀ intent, record.as_domain = .ok intent → Ready record intent := by
          intro intent hdomain
          rw [not_or] at hevidence
          exact ⟨hevidence.1, hevidence.2, not_not.mp hqueued, hdomain⟩
        rcases Prog.traces_bind.mp hrest with ⟨e, rfl, hexec⟩ | ⟨result, trace₃, trace₄, rfl, hexec, hdone⟩
        · rcases executeQueued_traces hexec with ⟨rfl, _⟩ | ⟨intent, hdomain, found, hfinds, ⟨rfl, _⟩ | ⟨result, a, hid, rfl, ha⟩⟩
          · exact .unready (error_not_persisted _)
          · exact .unfound (hready intent hdomain) hfinds
          · cases a with
            | ok _ => cases ha
            | error e' =>
              cases ha
              exact .found (hready intent hdomain) hfinds hid
        · obtain ⟨rfl, rfl⟩ := Prog.traces_done.mp hdone
          rw [List.append_nil]
          rcases executeQueued_traces hexec with ⟨_, e, he⟩ | ⟨intent, hdomain, found, hfinds, ⟨_, e, he⟩ | ⟨result', a, hid, rfl, ha⟩⟩
          · cases he
          · cases he
          · cases a with
            | error e' => cases ha
            | ok _ =>
              cases ha
              exact .found (hready intent hdomain) hfinds hid

/-- Unless a result has been stored, the lock is given back. -/
theorem finalizer_traces {r : Except Exc (BrokerOrderResult × Bool)} {trace : List PortCall} {ended : Except Exc Unit}
    (h : (finalizer r).Traces trace ended) (hno : ∀ result, r ≠ .ok (result, true)) :
    ∃ b, trace = [⟨.release_execution_lock, b⟩] := by
  unfold finalizer at h
  split at h
  · rename_i result
    exact absurd rfl (hno result)
  · exact ⟨_, Prog.traces_perform.mp h⟩

/-- So does `execute`, with the release at its end. -/
theorem execute_shape {intent_id : UUID} {trace : List PortCall} {out : Except Exc BrokerOrderResult}
    (h : (execute intent_id).Traces trace out) : Shape intent_id trace out := by
  have htry : ∃ outcome, ((body intent_id).tryFinally finalizer).Traces trace outcome ∧ out = outcome.map Prod.fst := by
    unfold execute at h
    rcases Prog.traces_bind.mp h with ⟨e, rfl, htry⟩ | ⟨⟨result, persisted⟩, trace₁, trace₂, rfl, htry, hdone⟩
    · exact ⟨_, htry, rfl⟩
    · obtain ⟨rfl, rfl⟩ := Prog.traces_done.mp hdone
      rw [List.append_nil]
      exact ⟨_, htry, rfl⟩
  obtain ⟨outcome, htry, rfl⟩ := htry
  unfold Prog.tryFinally at htry
  obtain ⟨r, trace₁, trace₂, rfl, hbody, hfinally⟩ := Prog.traces_andThen.mp htry
  obtain ⟨ended, trace₃, trace₄, rfl, hfinal, hend⟩ := Prog.traces_andThen.mp hfinally
  have hend : trace₄ = [] ∧ (ended = .ok () → outcome = r) := by
    cases ended with
    | ok _ => exact ⟨(Prog.traces_done.mp hend).1, fun _ => (Prog.traces_done.mp hend).2⟩
    | error e => exact ⟨(Prog.traces_done.mp hend).1, fun h => by cases h⟩
  obtain ⟨rfl, houtcome⟩ := hend
  rw [List.append_nil]
  cases body_shape hbody with
  | unready hno =>
    obtain ⟨b, rfl⟩ := finalizer_traces hfinal hno
    exact .unready
  | unfound hready hfinds =>
    obtain ⟨b, rfl⟩ := finalizer_traces hfinal (error_not_persisted _)
    exact .unfound hready hfinds
  | @found record intent found result a hready hfinds hid =>
    cases a with
    | ok _ =>
      obtain ⟨rfl, hended⟩ := Prog.traces_done.mp hfinal
      rw [houtcome hended, List.append_nil]
      exact .saved hready hfinds hid
    | error e =>
      obtain ⟨b, rfl⟩ := finalizer_traces hfinal (error_not_persisted e)
      rw [List.append_assoc]
      exact .unsaved hready hfinds hid

/-! ### What the shapes say -/

/-- The calls that find a result neither save nor give the lock back. -/
theorem finds_op {intent : ExecutionIntent} {found : List PortCall} (h : Finds intent found) : ∀ x ∈ found,
    (∃ account_id client_order_id, x.op = .lookup_by_client_order_id account_id client_order_id) ∨ x.op = .submit intent := by
  intro x hx
  rcases h with h | ⟨a, rest, h, rfl⟩
  · exact .inl (h x hx)
  · simp only [List.mem_cons] at hx
    rcases hx with rfl | rfl | hx
    · exact .inl ⟨_, _, rfl⟩
    · exact .inr rfl
    · exact .inl (h x hx)

/-- Finding a result releases nothing. -/
theorem finds_releases {intent : ExecutionIntent} {found : List PortCall} (h : Finds intent found) :
    found.countP (·.op.isRelease) = 0 := by
  rw [List.countP_eq_zero]
  intro x hx
  rcases finds_op h x hx with ⟨a, key, hop⟩ | hop <;> simp [hop, ExecutionOp.isRelease]

/-- Nor does it save anything. -/
theorem finds_not_saved {intent : ExecutionIntent} {found : List PortCall} (h : Finds intent found) {intent_id : UUID}
    {result : BrokerOrderResult} {a : Except Exc Unit} : ⟨.save_broker_result intent_id result, a⟩ ∉ found := by
  intro hx
  rcases finds_op h _ hx with ⟨_, _, hop⟩ | hop <;> cases hop

/-- Lookups submit nothing. -/
theorem lookups_submits {trace : List PortCall} (h : Lookups trace) : trace.countP (·.op.isSubmit) = 0 := by
  rw [List.countP_eq_zero]
  intro x hx
  obtain ⟨a, key, hop⟩ := h x hx
  simp [hop, ExecutionOp.isSubmit]

/-- So a submission is not among them. -/
theorem lookups_not_submit {trace : List PortCall} (h : Lookups trace) {intent : ExecutionIntent}
    {a : Except Exc BrokerOrderResult} : ⟨.submit intent, a⟩ ∉ trace := by
  intro hx
  obtain ⟨_, _, hop⟩ := h _ hx
  cases hop

/-- Finding a result submits at most once. -/
theorem finds_submits {intent : ExecutionIntent} {found : List PortCall} (h : Finds intent found) :
    found.countP (·.op.isSubmit) ≤ 1 := by
  rcases h with h | ⟨a, rest, h, rfl⟩
  · rw [lookups_submits h]
    omega
  · rw [List.countP_cons, List.countP_cons, lookups_submits h]
    exact le_refl 1

/-- The save completed and the lock was not given back, or it did not and the lock was given back once. -/
theorem shape_ends {intent_id : UUID} {trace : List PortCall} {out : Except Exc BrokerOrderResult}
    (h : Shape intent_id trace out) :
    (Saved trace ∧ trace.countP (·.op.isRelease) = 0) ∨ (¬ Saved trace ∧ trace.countP (·.op.isRelease) = 1) := by
  cases h with
  | unready =>
    right
    refine ⟨?_, by simp [ExecutionOp.isRelease]⟩
    rintro ⟨id, result, hmem⟩
    simp at hmem
  | unfound _ hfinds =>
    right
    refine ⟨?_, ?_⟩
    · rintro ⟨id, result, hmem⟩
      simp [finds_not_saved hfinds] at hmem
    · rw [List.cons_append, List.countP_cons, List.countP_append, finds_releases hfinds]
      rfl
  | @saved record intent found result _ hfinds _ =>
    left
    refine ⟨⟨intent_id, result, by simp⟩, ?_⟩
    rw [List.cons_append, List.countP_cons, List.countP_append, finds_releases hfinds]
    rfl
  | unsaved _ hfinds _ =>
    right
    refine ⟨?_, ?_⟩
    · rintro ⟨id, result, hmem⟩
      simp [finds_not_saved hfinds] at hmem
    · rw [List.cons_append, List.countP_cons, List.countP_append, finds_releases hfinds]
      rfl

/-- What is saved carries the key of the order. -/
theorem shape_saves {intent_id : UUID} {trace : List PortCall} {out : Except Exc BrokerOrderResult}
    (h : Shape intent_id trace out) {id : UUID} {result : BrokerOrderResult} {a : Except Exc Unit}
    (hsave : ⟨.save_broker_result id result, a⟩ ∈ trace) :
    id = intent_id ∧ ∃ record intent, ⟨.lock_for_execution intent_id, .ok record⟩ ∈ trace ∧ record.as_domain = .ok intent ∧
      result.client_order_id = intent.idempotency_key := by
  cases h with
  | unready => simp at hsave
  | unfound _ hfinds => simp [finds_not_saved hfinds] at hsave
  | @saved record intent found result' hready hfinds hid =>
    obtain ⟨⟨rfl, rfl⟩, _⟩ : (id = intent_id ∧ result = result') ∧ a = .ok () := by
      simpa [finds_not_saved hfinds] using hsave
    exact ⟨rfl, _, _, by simp, hready.as_domain, hid⟩
  | @unsaved record intent found result' e _ _ hready hfinds hid =>
    obtain ⟨⟨rfl, rfl⟩, _⟩ : (id = intent_id ∧ result = result') ∧ a = .error e := by
      simpa [finds_not_saved hfinds] using hsave
    exact ⟨rfl, _, _, by simp, hready.as_domain, hid⟩

/-- Where a submission is: after the lock and a lookup that knew nothing. -/
theorem finds_before {intent : ExecutionIntent} {found : List PortCall} (h : Finds intent found) {x : PortCall}
    {rest : List PortCall} (hrest : ∀ intent' a, ⟨.submit intent', a⟩ ∉ rest)
    (hx : ∀ intent' a, (⟨.submit intent', a⟩ : PortCall) ≠ x) {pre post : List PortCall} {intent' : ExecutionIntent}
    {a' : Except Exc BrokerOrderResult} (heq : x :: found ++ rest = pre ++ ⟨.submit intent', a'⟩ :: post) :
    x ∈ pre ∧ intent' = intent ∧ ⟨.lookup_by_client_order_id intent.account_id intent.idempotency_key, .ok none⟩ ∈ pre := by
  rcases h with h | ⟨a, after, h, rfl⟩
  · have hmem : (⟨.submit intent', a'⟩ : PortCall) ∈ x :: found ++ rest := by simp [heq]
    simp [hx, hrest, lookups_not_submit h] at hmem
  · have hsplit : [x, ⟨.lookup_by_client_order_id intent.account_id intent.idempotency_key, .ok none⟩] ++
        (⟨.submit intent, a⟩ : PortCall) :: (after ++ rest) = pre ++ ⟨.submit intent', a'⟩ :: post := by simpa using heq
    obtain ⟨rfl, hcall, _⟩ := (List.append_cons_inj_of_notMem (by simp [hx]) (by simp [hrest, lookups_not_submit h])).mp hsplit
    cases hcall
    exact ⟨by simp, rfl, by simp⟩

/-- A submission comes after a lookup that knew nothing of the order of a queued row with its evidence. -/
theorem shape_submits {intent_id : UUID} {trace : List PortCall} {out : Except Exc BrokerOrderResult}
    (h : Shape intent_id trace out) {pre post : List PortCall} {intent : ExecutionIntent} {a : Except Exc BrokerOrderResult}
    (heq : trace = pre ++ ⟨.submit intent, a⟩ :: post) :
    ∃ record, ⟨.lock_for_execution intent_id, .ok record⟩ ∈ pre ∧ Ready record intent ∧
      ⟨.lookup_by_client_order_id intent.account_id intent.idempotency_key, .ok none⟩ ∈ pre := by
  cases h with
  | @unready a₀ b =>
    have hmem : (⟨.submit intent, a⟩ : PortCall) ∈ [⟨.lock_for_execution intent_id, a₀⟩, ⟨.release_execution_lock, b⟩] := by
      simp [heq]
    simp at hmem
  | unfound hready hfinds =>
    obtain ⟨hlock, rfl, hlookup⟩ := finds_before hfinds (by simp) (by simp) heq
    exact ⟨_, hlock, hready, hlookup⟩
  | saved hready hfinds hid =>
    obtain ⟨hlock, rfl, hlookup⟩ := finds_before hfinds (by simp) (by simp) heq
    exact ⟨_, hlock, hready, hlookup⟩
  | unsaved hready hfinds hid =>
    obtain ⟨hlock, rfl, hlookup⟩ := finds_before hfinds (by simp) (by simp) heq
    exact ⟨_, hlock, hready, hlookup⟩

/-- Whatever its form, an execution submits at most once. -/
theorem shape_submits_once {intent_id : UUID} {trace : List PortCall} {out : Except Exc BrokerOrderResult}
    (h : Shape intent_id trace out) : trace.countP (·.op.isSubmit) ≤ 1 := by
  cases h with
  | unready => simp [ExecutionOp.isSubmit]
  | unfound _ hfinds =>
    rw [List.cons_append, List.countP_cons, List.countP_append]
    exact finds_submits hfinds
  | saved _ hfinds _ =>
    rw [List.cons_append, List.countP_cons, List.countP_append]
    exact finds_submits hfinds
  | unsaved _ hfinds _ =>
    rw [List.cons_append, List.countP_cons, List.countP_append]
    exact finds_submits hfinds

/-- A completed save is the end. -/
theorem shape_saved {intent_id : UUID} {trace : List PortCall} {e : Exc} (h : Shape intent_id trace (.error e)) :
    ¬ Saved trace := by
  rintro ⟨id, result, hmem⟩
  cases h with
  | unready => simp at hmem
  | unfound _ hfinds => simp [finds_not_saved hfinds] at hmem
  | unsaved _ hfinds _ => simp [finds_not_saved hfinds] at hmem

/-! ### The stored rows -/

variable {B : Type} {broker : Broker B} {t : Caller}

/-- The stored rows change with a commit only. -/
theorem rows_answer {w w₁ w' : World Caller B} {op : Call} {r : Except Exc op.Res} (hop : op ≠ .commit)
    (hcall : w.call broker t op w₁) (ha : w₁.answer broker (fun _ => True) t w' op r) : w'.rows = w.rows := by
  rw [← (sameOrders_call hcall).rows]
  cases World.answer_move ha with
  | commit => exact absurd rfl hop
  | commit_refused => exact absurd rfl hop
  | commit_open => exact absurd rfl hop
  | _ => rfl

/-- The trace of a locking read has that read only. -/
theorem lock_traces {intent_id : UUID} {trace : List (Exchange calls Exc)} {out : Except Exc OrderIntentRecord}
    (h : (OrderRepository.lock_for_execution intent_id).Traces trace out) :
    ∃ r, trace = [⟨.scalar_for_update intent_id, r⟩] := by
  unfold OrderRepository.lock_for_execution at h
  rcases Prog.traces_bind.mp h with ⟨e, rfl, hask⟩ | ⟨record, trace₁, trace₂, rfl, hask, hrest⟩
  · exact ⟨_, Prog.traces_perform.mp hask⟩
  · have hnil : trace₂ = [] := by
      cases record with
      | none => exact (Prog.traces_done.mp hrest).1
      | some record => exact (Prog.traces_done.mp hrest).1
    rw [Prog.traces_perform.mp hask, hnil]
    exact ⟨_, rfl⟩

/-- A save that raises has not committed. -/
theorem save_traces {intent_id : UUID} {result : BrokerOrderResult} {trace : List (Exchange calls Exc)} {e : Exc}
    (h : (OrderRepository.save_broker_result intent_id result).Traces trace (.error e)) : ⟨.commit, .ok ()⟩ ∉ trace := by
  unfold OrderRepository.save_broker_result Prog.tryExcept at h
  obtain ⟨r, trace₁, trace₂, rfl, hbody, hhandler⟩ := Prog.traces_andThen.mp h
  cases r with
  | ok _ => cases (Prog.traces_done.mp hhandler).2
  | error e' =>
    -- the body raised, in whichever of its parts; the handler rolls back at most
    have hfirst : ⟨.commit, .ok ()⟩ ∉ trace₁ := by
      rcases Prog.traces_bind.mp hbody with ⟨_, _, hlock⟩ | ⟨record, trace₃, trace₄, rfl, hlock, hrest⟩
      · obtain ⟨_, rfl⟩ := lock_traces hlock
        simp
      · obtain ⟨_, rfl⟩ := lock_traces hlock
        rcases Prog.traces_bind.mp hrest with ⟨_, _, hresult⟩ | ⟨record', trace₅, trace₆, rfl, hresult, hwrite⟩
        · obtain ⟨rfl, _⟩ := Prog.traces_done.mp hresult
          simp
        · obtain ⟨rfl, _⟩ := Prog.traces_done.mp hresult
          rcases Prog.traces_bind.mp hwrite with ⟨_, _, hflush⟩ | ⟨_, trace₇, trace₈, rfl, hflush, hcommit⟩
          · rw [Prog.traces_perform.mp hflush]
            simp
          · rw [Prog.traces_perform.mp hflush, Prog.traces_perform.mp hcommit]
            simp
    have hsecond : ⟨.commit, .ok ()⟩ ∉ trace₂ := by
      by_cases hexception : e'.isA .Exception = true
      · simp only [hexception, if_true] at hhandler
        rcases Prog.traces_bind.mp hhandler with ⟨_, _, hrollback⟩ | ⟨_, trace₃, trace₄, rfl, hrollback, hraise⟩
        · rw [Prog.traces_perform.mp hrollback]
          simp
        · rw [Prog.traces_perform.mp hrollback, (Prog.traces_done.mp hraise).1]
          simp
      · simp only [hexception, Bool.false_eq_true, if_false] at hhandler
        rw [(Prog.traces_done.mp hhandler).1]
        simp
    simp [hfirst, hsecond]

/-- What the repository and the broker do for a call of `execute` commits nothing, unless it is a save that returns. -/
theorem port_traces {x : PortCall} {trace : List (Exchange calls Exc)} (h : (OrderRepository.port x.op).Traces trace x.answer)
    (hx : ∀ intent_id result, x ≠ ⟨.save_broker_result intent_id result, .ok ()⟩) : ⟨.commit, .ok ()⟩ ∉ trace := by
  obtain ⟨op, answer⟩ := x
  cases op with
  | lock_for_execution intent_id =>
    rcases Prog.traces_bind.mp h with ⟨_, _, hlock⟩ | ⟨record, trace₁, trace₂, rfl, hlock, hdone⟩
    · obtain ⟨_, rfl⟩ := lock_traces hlock
      simp
    · obtain ⟨_, rfl⟩ := lock_traces hlock
      rw [(Prog.traces_done.mp hdone).1]
      simp
  | save_broker_result intent_id result =>
    cases answer with
    | ok _ => exact absurd rfl (hx intent_id result)
    | error e => exact save_traces h
  | release_execution_lock =>
    have htrace := Prog.traces_perform.mp h
    simp [htrace]
  | lookup_by_client_order_id account_id client_order_id =>
    have htrace := Prog.traces_perform.mp h
    simp [htrace]
  | submit intent =>
    have htrace := Prog.traces_perform.mp h
    simp [htrace]

end ExecutionEndsAux

open ExecutionEndsAux

/-- However the repository and the broker answer, `execute` ends with a completed save or gives the lock back once; it saves only
what carries the key of its order; it submits once at most, and only after a lookup that knew nothing, for a queued row with its
evidence; and if it raises, the stored rows are what they were, where a commit that raises has not been done. -/
theorem execution_ends {B : Type} (broker : Broker B) (t : Caller)
    (step : World Caller B → (op : Call) → Except Exc op.Res → World Caller B → Prop)
    (hstep : ∀ w op r w', step w op r w' → ∃ w₁, w.call broker t op w₁ ∧ w₁.answer broker (fun _ => True) t w' op r)
    (hcommit : ∀ w e w', step w .commit (.error e) w' → w'.rows = w.rows) (intent_id : UUID) :
    (∀ trace out, (ExecutionPort.execute intent_id).Traces trace out →
      ((Saved trace ∧ trace.countP (·.op.isRelease) = 0) ∨ (¬ Saved trace ∧ trace.countP (·.op.isRelease) = 1)) ∧
      (∀ id result a, ⟨.save_broker_result id result, a⟩ ∈ trace → id = intent_id ∧
        ∃ record intent, ⟨.lock_for_execution intent_id, .ok record⟩ ∈ trace ∧ record.as_domain = .ok intent ∧
          result.client_order_id = intent.idempotency_key) ∧
      trace.countP (·.op.isSubmit) ≤ 1 ∧
      ∀ pre intent a post, trace = pre ++ ⟨.submit intent, a⟩ :: post →
        ∃ record, ⟨.lock_for_execution intent_id, .ok record⟩ ∈ pre ∧ record.state = .QUEUED ∧
          record.risk_decision_id ≠ none ∧ record.approval_id ≠ none ∧ record.as_domain = .ok intent ∧
          ⟨.lookup_by_client_order_id intent.account_id intent.idempotency_key, .ok none⟩ ∈ pre) ∧
    ∀ w trace e w', (ExecutionService.execute intent_id).Runs step w trace (.error e) w' → w'.rows = w.rows := by
  constructor
  · intro trace out h
    have hshape := execute_shape h
    refine ⟨shape_ends hshape, fun id result a hsave => shape_saves hshape hsave, shape_submits_once hshape, ?_⟩
    intro pre intent a post heq
    obtain ⟨record, hlock, hready, hlookup⟩ := shape_submits hshape heq
    exact ⟨record, hlock, hready.queued, hready.risk, hready.approval, hready.as_domain, hlookup⟩
  · intro w trace e w' h
    rw [← interpret_execute] at h
    obtain ⟨calls, hcalls⟩ := h.of_interpret
    have hsaved := shape_saved (execute_shape hcalls.traces)
    refine hcalls.keeps (I := fun w' => w'.rows = w.rows) ?_ rfl
    rintro s x s' hx hs ⟨trace, hrun⟩
    -- no call of this trace is a completed save, so none of its parts is a completed commit
    have hcommits := port_traces hrun.traces fun intent_id result heq => hsaved ⟨intent_id, result, heq ▸ hx⟩
    refine hrun.keeps (I := fun w' => w'.rows = w.rows) ?_ hs
    rintro s₁ ⟨op, r⟩ s₂ hmem hs₁ hst
    rw [← hs₁]
    by_cases hop : op = .commit
    · subst hop
      cases r with
      | ok _ => exact absurd hmem hcommits
      | error e => exact hcommit s₁ e s₂ hst
    · obtain ⟨w₁, hcall, ha⟩ := hstep s₁ op r s₂ hst
      exact rows_answer hop hcall ha

/-- A database that raises whatever it likes, but has not done a commit for which it raises. -/
def atomicStep (t : Caller) (w : World Caller Unit) (op : Call) (r : Except Exc op.Res) (w' : World Caller Unit) : Prop :=
  (∃ w₁, w.call Broker.any t op w₁ ∧ w₁.answer Broker.any (fun _ => True) t w' op r) ∧
    (op = .commit → ∀ e, r = .error e → w'.rows = w.rows)

/-- Over a database whose commit is done only if it does not raise, an execution that raises leaves the rows as they are. -/
theorem execution_ends_atomic :
    (∀ trace out, (ExecutionPort.execute ⟨1⟩).Traces trace out →
      ((Saved trace ∧ trace.countP (·.op.isRelease) = 0) ∨ (¬ Saved trace ∧ trace.countP (·.op.isRelease) = 1)) ∧
      (∀ id result a, ⟨.save_broker_result id result, a⟩ ∈ trace → id = ⟨1⟩ ∧
        ∃ record intent, ⟨.lock_for_execution ⟨1⟩, .ok record⟩ ∈ trace ∧ record.as_domain = .ok intent ∧
          result.client_order_id = intent.idempotency_key) ∧
      trace.countP (·.op.isSubmit) ≤ 1 ∧
      ∀ pre intent a post, trace = pre ++ ⟨.submit intent, a⟩ :: post →
        ∃ record, ⟨.lock_for_execution ⟨1⟩, .ok record⟩ ∈ pre ∧ record.state = .QUEUED ∧
          record.risk_decision_id ≠ none ∧ record.approval_id ≠ none ∧ record.as_domain = .ok intent ∧
          ⟨.lookup_by_client_order_id intent.account_id intent.idempotency_key, .ok none⟩ ∈ pre) ∧
    ∀ w trace e w', (ExecutionService.execute ⟨1⟩).Runs (atomicStep ⟨0, .execute ⟨1⟩⟩) w trace (.error e) w' →
      w'.rows = w.rows :=
  execution_ends Broker.any ⟨0, .execute ⟨1⟩⟩ (atomicStep ⟨0, .execute ⟨1⟩⟩) (fun _ _ _ _ h => h.1)
    (fun _ e _ h => h.2 rfl e rfl) ⟨1⟩

end MtossBot
