import MtossBot.Theorems.DegradedSession

/-!
# The thread of the client

Every function of the client is called on the thread of the executor, but one: a `start` whose `initialize` answers false asks for
`last_error` on the event loop.
-/

namespace MtossBot

/-- The answer false of an `initialize`. -/
def Refusal : (op : Mt5Call) → Except Exc op.Res → Prop
  | .run_in_executor (.initialize_client _), .ok false => True
  | _, _ => False

/-- A step that does not resume a `start` with the answer false of its `initialize`. -/
def Attaches (config : Mt5Config) : Mt5Pool → Mt5Pool → Prop := (mt5Session config).Within fun op r => ¬Refusal op r

namespace ClientThreadAux

open EventLoop Mt5Session DegradedSessionAux

/-- All calls so far were made on the thread of the executor. -/
def Confined (s : Mt5State) : Prop := ∀ i ∈ s.invocations, i.thread = .executor

/-- The calls that do not call the client from the event loop. -/
def Indirect (op : Mt5Call) : Prop := ∀ f, op ≠ .invoke f

variable {config : Mt5Config} {s : Mt5State}

/-- An exception is no refusal. -/
theorem not_refusal_error {op : Mt5Call} {e : Exc} : ¬Refusal op (.error e) := by
  unfold Refusal
  split <;> simp_all

/-- To submit an operation is not to call the client from the event loop. -/
theorem indirect_run_in_executor {op : ClientOp} : Indirect (.run_in_executor op) := by
  intro f h
  cases h

/-- Nor is anything local. -/
theorem local_indirect : Local fun op _ => Indirect op where
  state _ := nofun
  set_state _ _ := nofun
  shutdown_executor _ := nofun

/-! ### What the coroutines call -/

/-- A coroutine that does not call the client itself, unless an `initialize` is answered false. -/
abbrev Keeps (p : Mt5Coro Unit) : Prop := Makes (σ := mt5Calls) (ε := Exc) (fun op r => ¬Refusal op r) Indirect p

/-- A `start` that is not refused never calls the client from the event loop. -/
theorem along_attaching_start : Along (fun op r => ¬Refusal op r) (fun op _ => Indirect op) (start config) := by
  refine local_indirect.along_call indirect_run_in_executor ?_
  intro ok hok
  cases ok with
  | false => exact absurd trivial hok
  | true =>
    refine local_indirect.along_call indirect_run_in_executor ?_
    intro terminal _
    exact local_indirect.along_call indirect_run_in_executor fun account _ => local_indirect.along_conclude terminal account

/-- Nor does any other coroutine, so each keeps the calls on the thread of the executor. -/
theorem keeps_program (t : Mt5Task) : Keeps (t.program config) :=
  makes_of_along (local_indirect.along_program along_attaching_start (fun _ => indirect_run_in_executor)
    indirect_run_in_executor t)

/-! ### What the calls record -/

/-- The thread of the executor adds calls of its own. -/
theorem begin_invocations (s : Mt5State) :
    ∃ called : List ClientOp, s.begin.invocations = s.invocations ++ called.map fun op => ⟨.executor, op⟩ :=
  ⟨_, rfl⟩

/-- A submitted operation is called by the executor. -/
theorem submit_invocations (s : Mt5State) (t : Mt5Task) (op : ClientOp) :
    ∃ called : List ClientOp, (s.submit t op).invocations = s.invocations ++ called.map fun op => ⟨.executor, op⟩ := by
  unfold Mt5State.submit
  dsimp only
  split
  · exact begin_invocations _
  · exact ⟨[], (List.append_nil _).symm⟩

/-- Calls of the executor keep all calls on its thread. -/
theorem confined_append {s' : Mt5State} (h : Confined s)
    (hs : ∃ called : List ClientOp, s'.invocations = s.invocations ++ called.map fun op => ⟨.executor, op⟩) : Confined s' := by
  obtain ⟨called, hs⟩ := hs
  intro i hi
  rw [hs, List.mem_append, List.mem_map] at hi
  rcases hi with hi | ⟨op, _, rfl⟩
  · exact h i hi
  · rfl

/-- A coroutine that suspends keeps them there. -/
theorem confined_suspend (h : Confined s) (t : Mt5Task) (op : Mt5Call) : Confined (s.suspend t op) := by
  cases op with
  | run_in_executor op => exact confined_append h (submit_invocations s t op)
  | _ => exact h

/-- When an operation ends, what is called next is called by the executor. -/
theorem finishes_invocations {s' : Mt5State} (hf : s.Finishes s') :
    ∃ called : List ClientOp, s'.invocations = s.invocations ++ called.map fun op => ⟨.executor, op⟩ := by
  obtain ⟨ticket, rest, _, rfl⟩ := hf
  exact begin_invocations _

/-- A call that returns at once is not from the event loop to the client, and not an answer to `initialize`. -/
theorem confined_now {op : Mt5Call} {r : Except Exc op.Res} {s' : Mt5State} (h : Confined s) (hop : Indirect op)
    (hnow : Mt5State.now config s op = some (r, s')) : ¬Refusal op r ∧ Confined s' := by
  cases op with
  | invoke f => exact absurd rfl (hop f)
  | run_in_executor f =>
    simp only [Mt5State.now] at hnow
    split at hnow
    · cases hnow
      exact ⟨not_refusal_error, h⟩
    · cases hnow
  | _ =>
    cases hnow
    exact ⟨id, h⟩

/-- A resumed coroutine has not called the client yet. -/
theorem invocations_resume {t : Mt5Task} {op : Mt5Call} {r : Except Exc op.Res} {s' : Mt5State}
    (hr : Mt5State.Resume s t op r s') : s'.invocations = s.invocations := by
  cases hr <;> rfl

/-- In a run in which every `initialize` attaches, all calls are made on the thread of the executor. -/
theorem confined_turns {c₀ c : Mt5Pool} (hnone : ∀ t, c₀.tasks t = none) (h₀ : Confined c₀.shared)
    (h : (mt5Session config).Turns (Attaches config) c₀ c) : Confined c.shared :=
  makes_turns keeps_program (fun _ _ _ _ => confined_now) (fun _ t op hs _ => confined_suspend hs t op)
    (fun s _ _ _ s' hs hr => by rw [Confined, invocations_resume hr]; exact hs) (fun _ _ hs hf => confined_append hs (finishes_invocations hf)) hnone h₀ h

/-! ### A call that has been made stays made -/

/-- What is appended to the record keeps what was recorded. -/
theorem mem_of_append {i : Invocation} {s s' : Mt5State} {added : List Invocation} (hi : i ∈ s.invocations)
    (h : s'.invocations = s.invocations ++ added) : i ∈ s'.invocations :=
  h ▸ List.mem_append_left _ hi

/-- A call that returns at once keeps what was recorded. -/
theorem mem_now {i : Invocation} {op : Mt5Call} {r : Except Exc op.Res} {s' : Mt5State} (hi : i ∈ s.invocations)
    (hnow : Mt5State.now config s op = some (r, s')) : i ∈ s'.invocations := by
  cases op with
  | invoke f =>
    cases hnow
    exact List.mem_append_left _ hi
  | run_in_executor f =>
    simp only [Mt5State.now] at hnow
    split at hnow
    · cases hnow
      exact hi
    · cases hnow
  | _ =>
    cases hnow
    exact hi

/-- So does a coroutine, up to where it suspends. -/
theorem mem_advance {i : Invocation} (t : Mt5Task) (p : Mt5Coro Unit) (hi : i ∈ s.invocations) :
    i ∈ ((mt5Session config).advance t p s).1.invocations := by
  induction p generalizing s with
  | done r => exact hi
  | call op k ih =>
    cases hnow : (mt5Session config).now s op with
    | some answer =>
      simp only [advance, hnow]
      exact ih answer.1 (mem_now hi hnow)
    | none =>
      simp only [advance, hnow]
      cases op with
      | run_in_executor op =>
        obtain ⟨called, hs⟩ := submit_invocations s t op
        exact mem_of_append hi hs
      | _ => exact hi

/-- And so does every turn. -/
theorem mem_step {i : Invocation} {c c' : Mt5Pool} (hi : i ∈ c.shared.invocations) (h : (mt5Session config).Step c c') :
    i ∈ c'.shared.invocations := by
  cases h with
  | spawn _ => exact mem_advance _ _ hi
  | resume _ hr =>
    refine mem_advance _ _ ?_
    rw [invocations_resume hr]
    exact hi
  | env hf =>
    obtain ⟨called, hs⟩ := finishes_invocations hf
    exact mem_of_append hi hs

/-! ### The answer false -/

/-- Resumed by the answer false of an `initialize`, the coroutine calls the client from the event loop. -/
def Reports (config : Mt5Config) (op : mt5Calls.Op) (k : Except Exc (mt5Calls.Res op) → Mt5Coro Unit) : Prop :=
  ∀ r, Refusal op r → ∀ t s, ¬Confined ((mt5Session config).advance t (k r) s).1

/-- Every operation of a coroutine is such. -/
abbrev AllReport (config : Mt5Config) (p : Mt5Coro Unit) : Prop := Awaits (σ := mt5Calls) (ε := Exc) (Reports config) p

/-- Only an `initialize` can be refused. -/
theorem reports_of_ne {op : mt5Calls.Op} {k : Except Exc (mt5Calls.Res op) → Mt5Coro Unit}
    (h : ∀ kwargs, op ≠ .run_in_executor (.initialize_client kwargs)) : Reports config op k := by
  intro r hr
  unfold Refusal at hr
  split at hr
  · exact absurd rfl (h _)
  · exact hr.elim

/-- A refused `start` asks for the last error from the event loop. -/
theorem reports_refuse (t : Mt5Task) (s : Mt5State) : ¬Confined ((mt5Session config).advance t refuse s).1 := by
  have hmem : ⟨.event_loop, .last_error⟩ ∈ ((mt5Session config).advance t refuse s).1.invocations := by
    simp only [refuse, Prog.bind_eq, Prog.bind, Mt5Call.perform, Prog.perform, Prog.call_andThen, Prog.done_andThen, advance,
      mt5Session, Mt5State.now]
    cases config.client s.invocations .last_error <;> exact List.mem_append_right _ (List.mem_singleton_self _)
  intro h
  cases h _ hmem

/-- What is local cannot be refused. -/
theorem local_reports : Local (Reports config) where
  state _ := reports_of_ne nofun
  set_state _ _ := reports_of_ne nofun
  shutdown_executor _ := reports_of_ne nofun

/-- Of the operations of `start` the `initialize` reports, and the others cannot be refused. -/
theorem along_reporting_start : Along (fun _ _ => True) (Reports config) (start config) := by
  refine local_reports.along_call ?_ ?_
  · intro r hr t s
    -- the answer is false
    cases r with
    | error e => exact (not_refusal_error hr).elim
    | ok ok =>
      cases ok with
      | false => exact reports_refuse t s
      | true => exact hr.elim
  · intro ok _
    cases ok with
    | false => exact local_reports.along_refuse fun _ => reports_of_ne nofun
    | true =>
      refine local_reports.along_call (reports_of_ne nofun) ?_
      intro terminal _
      exact local_reports.along_call (reports_of_ne nofun) fun account _ => local_reports.along_conclude terminal account

/-- So every coroutine reports a refusal of its `initialize`. -/
theorem reports_program (t : Mt5Task) : AllReport config (t.program config) :=
  awaits_of_along (local_reports.along_program along_reporting_start (fun _ => reports_of_ne nofun) (reports_of_ne nofun) t)

/-- A run whose calls were all made on the thread of the executor has no `initialize` that was answered false. -/
theorem attaches_turns {c₀ c : Mt5Pool} (hnone : ∀ t, c₀.tasks t = none)
    (h : (mt5Session config).Turns (fun _ _ => True) c₀ c) (hc : Confined c.shared) : (mt5Session config).Turns (Attaches config) c₀ c := by
  induction h with
  | refl => exact .refl
  | @tail c c' hturns hstep ih =>
    have hbefore : Confined c.shared := fun i hi => hc i (mem_step hi hstep.1)
    refine .tail (ih hbefore) ⟨hstep.1, fun t τ r s₁ ht hr hc' hrefusal => ?_⟩
    -- the resumed coroutine would have called the client
    obtain ⟨_, hreports, _⟩ := awaits_turns reports_program hnone hturns t τ ht
    rw [hc'] at hc
    exact hreports r hrefusal t s₁ hc

end ClientThreadAux

open EventLoop ClientThreadAux DegradedSessionAux

/-- In a run of a session all functions of the client are called on the thread of the executor, exactly when no `initialize` of the
run is answered false. -/
theorem client_thread {config : Mt5Config} {c₀ c : Mt5Pool} (hinit : (mt5Session config).init c₀.shared)
    (hnone : ∀ t, c₀.tasks t = none) (hrun : (mt5Session config).Turns (fun _ _ => True) c₀ c) :
    (∀ i ∈ c.shared.invocations, i.thread = .executor) ↔ (mt5Session config).Turns (Attaches config) c₀ c := by
  have h₀ : Confined c₀.shared := by
    rw [show c₀.shared = {} from hinit]
    intro i hi
    cases hi
  exact ⟨attaches_turns hnone hrun, confined_turns hnone h₀⟩

/-- A `start` that attaches, and then asks for the terminal. -/
theorem client_thread_attached :
    ∃ c, c.shared.invocations = [⟨.executor, .initialize_client (Mt5Session.kwargs {})⟩, ⟨.executor, .terminal_info⟩] ∧
      ((∀ i ∈ c.shared.invocations, i.thread = .executor) ↔ (mt5Session {}).Turns (Attaches {}) fresh c) := by
  have hrun : Leads (fun c c' => (mt5Session {}).Step c c' ∧ True) fresh fun c =>
      c.shared.invocations = [⟨.executor, .initialize_client (Mt5Session.kwargs {})⟩, ⟨.executor, .terminal_info⟩] := by
    refine .head ⟨.spawn (t := starter) rfl, trivial⟩ (.head ⟨finish _ rfl, trivial⟩ ?_)
    exact .head ⟨answer (t := starter) (.ok true) rfl rfl List.mem_cons_self, trivial⟩ (.refl rfl)
  obtain ⟨c, hturns, hcalled⟩ := hrun
  exact ⟨c, hcalled, client_thread rfl (fun _ => rfl) hturns⟩

/-- A `start` whose `initialize` answers false calls `last_error` on the event loop. -/
theorem last_error_on_event_loop :
    ¬∀ (config : Mt5Config) (c₀ c : Mt5Pool), (mt5Session config).init c₀.shared → (∀ t, c₀.tasks t = none) →
      (mt5Session config).Turns (fun _ _ => True) c₀ c → ∀ i ∈ c.shared.invocations, i.thread = .executor := by
  intro h
  have hrun : Leads (fun c c' => (mt5Session {}).Step c c' ∧ True) fresh fun c =>
      ⟨.event_loop, .last_error⟩ ∈ c.shared.invocations := by
    refine .head ⟨.spawn (t := starter) rfl, trivial⟩ (.head ⟨finish _ rfl, trivial⟩ ?_)
    exact .head ⟨answer (t := starter) (.ok false) rfl rfl List.mem_cons_self, trivial⟩ (.refl (by decide))
  obtain ⟨c, hturns, hmem⟩ := hrun
  cases h {} fresh c rfl (fun _ => rfl) hturns _ hmem

end MtossBot
