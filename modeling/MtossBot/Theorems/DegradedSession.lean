import MtossBot.Runtime.Mt5Loop

/-!
# A degraded session

A session that became degraded while no `start` was about to set it ready stays degraded until it is closed, and takes no operation but
the shutdown. One that became degraded while a `start` waits for the account is ready again when the account comes.
-/

namespace MtossBot
namespace DegradedSessionAux

open EventLoop Mt5Session

/-- Degraded, or closed with the executor shut down; and since the operations of `base` were submitted, only shutdowns were. -/
def Stuck (base : List ClientOp) (s : Mt5State) : Prop :=
  (s.state = .DEGRADED ∨ s.state = .CLOSED ∧ s.shut = true) ∧
    ∃ ops, s.submitted = base ++ ops ∧ ∀ op ∈ ops, op = ClientOp.shutdown

/-- The call by which a session is shut down. -/
def Shutdown (op : Mt5Call) : Prop := op = .run_in_executor .shutdown

/-- A coroutine that is about to set the session ready: one answer for the account is enough. -/
def SetsReady (τ : Suspended mt5Calls Exc Unit) : Prop :=
  ∃ k, τ = ⟨.run_in_executor .account_info, k⟩ ∧ ∃ account, k (.ok account) = Mt5Call.perform (.set_state .READY)

/-- The session does not become degraded while a coroutine is about to set it ready. -/
def Orderly (c c' : Mt5Pool) : Prop :=
  c.shared.state ≠ .DEGRADED → c'.shared.state = .DEGRADED → ∀ t τ, c'.tasks t = some τ → ¬SetsReady τ

/-- A coroutine that leaves a stuck session stuck. -/
def Calm (config : Mt5Config) (p : Mt5Coro Unit) : Prop := ∀ base s, Stuck base s → (mt5Session config).Keeps (Stuck base) Shutdown p s

/-- A suspended coroutine that leaves a stuck session stuck. -/
def Rests (config : Mt5Config) (τ : Suspended mt5Calls Exc Unit) : Prop :=
  ∀ base, Suspended.Keeps (mt5Session config) (Stuck base) Shutdown τ

variable {config : Mt5Config} {base : List ClientOp} {s : Mt5State}

/-- What only raises leaves a stuck session stuck. -/
theorem calm_raise (e : Exc) : Calm config (Prog.raise e) := fun _ _ h => h

/-- So does what sets the session degraded before it raises. -/
theorem calm_degrade (e : Exc) :
    Calm config (do
      let _ ← Mt5Call.perform (.set_state .DEGRADED)
      Prog.raise e) :=
  fun _ _ h => ⟨.inl rfl, h.2⟩

/-- What `start` does when the terminal is not there. -/
def refuse : Mt5Coro Unit := do
  let _ ← Mt5Call.perform (.set_state .DEGRADED)
  let error ← Mt5Call.perform (.invoke .last_error)
  Prog.raise (.mt5Unavailable ("initialize failed: " ++ error))

/-- A `start` that is refused by the terminal leaves a stuck session stuck. -/
theorem calm_refuse : Calm config refuse := by
  intro base s h
  simp only [refuse, Prog.bind_eq, Prog.bind, Mt5Call.perform, Prog.perform, Prog.call_andThen, Prog.done_andThen, Keeps, mt5Session,
    Mt5State.now]
  cases config.client s.invocations .last_error <;> exact ⟨.inl rfl, h.2⟩

/-- A call in a stuck session raises, whatever comes after it. -/
theorem calm_call (op : ClientOp) (f : op.Res → Mt5Coro Unit) : Calm config (call op >>= f) := by
  intro base s h
  rw [Prog.bind_eq]
  simp only [call, Prog.bind_eq, Prog.bind, Mt5Call.perform, Prog.perform, Prog.call_andThen, Prog.done_andThen, Keeps, mt5Session,
    Mt5State.now]
  rcases h.1 with hdegraded | ⟨hclosed, hshut⟩
  · rw [if_pos hdegraded]
    exact h
  · rw [if_neg (by simp [hclosed])]
    simp only [Prog.tryExcept, Prog.call_andThen, Keeps, Mt5State.now, if_pos hshut]
    exact h

/-- What `call` makes of the answer of its operation. -/
def answered {α : Type} (r : Except Exc α) : Mt5Coro α :=
  (Prog.done r).tryExcept fun e =>
    if e.isA .TimeoutError then do
      let _ ← Mt5Call.perform (.set_state .DEGRADED)
      Prog.raise e
    else Prog.raise e

/-- A coroutine that waits for an operation leaves a stuck session stuck if it goes on calmly. -/
theorem rests_answered {op : ClientOp} {f : op.Res → Mt5Coro Unit} (hf : ∀ a, Calm config (f a)) :
    Rests config ⟨.run_in_executor op, fun r => answered r >>= f⟩ := by
  intro base r s h
  cases r with
  | ok a => exact hf a base s h
  | error e =>
    by_cases he : e.isA .TimeoutError = true
    · simp only [answered, Prog.tryExcept, Prog.done_andThen, if_pos he]
      exact ⟨.inl rfl, h.2⟩
    · simp only [answered, Prog.tryExcept, Prog.done_andThen, if_neg he]
      exact h

/-! ## The end of a session -/

/-- The end of `close`, after its `try`. -/
def closing (r : Except Exc Unit) : Mt5Coro Unit :=
  (Prog.done r).tryExcept (fun e => if e.isA .Exception then pure () else Prog.raise e) >>= fun _ => do
    let _ ← Mt5Call.perform .shutdown_executor
    Mt5Call.perform (.set_state .CLOSED)

/-- Whatever comes of the shutdown, `close` leaves a stuck session stuck. -/
theorem calm_closing (config : Mt5Config) (r : Except Exc Unit) : Calm config (closing r) := by
  intro base s h
  cases r with
  | ok _ => exact ⟨.inr ⟨rfl, rfl⟩, h.2⟩
  | error e =>
    by_cases he : e.isA .Exception = true
    · simp only [closing, Prog.tryExcept, Prog.done_andThen, if_pos he]
      exact ⟨.inr ⟨rfl, rfl⟩, h.2⟩
    · simp only [closing, Prog.tryExcept, Prog.done_andThen, if_neg he]
      exact h

/-- A `close` that waits for its shutdown leaves a stuck session stuck. -/
theorem rests_closing (config : Mt5Config) : Rests config ⟨.run_in_executor .shutdown, closing⟩ :=
  fun base r s h => calm_closing config r base s h

/-- A shutdown may be submitted in a stuck session. -/
theorem Stuck.shutdown (h : Stuck base s) (t : Mt5Task) : Stuck base (s.submit t .shutdown) := by
  obtain ⟨hstate, ops, hops, hall⟩ := h
  obtain ⟨hsame, hshut, hsubmitted⟩ := s.submit_cases t .shutdown
  refine ⟨by rw [hsame, hshut]; exact hstate, ops ++ [.shutdown], ?_, ?_⟩
  · rw [← List.append_assoc, ← hops, hsubmitted]
  · intro op hop
    rcases List.mem_append.mp hop with hop | hop
    · exact hall op hop
    · exact List.mem_singleton.mp hop

/-- A `close` that begins in a stuck session leaves it stuck. -/
theorem calm_close : Calm config close := by
  intro base s h
  simp only [close, shutdown, Prog.bind_eq, Prog.bind, Mt5Call.perform, Prog.perform, Prog.call_andThen, Prog.done_andThen, Keeps,
    mt5Session, Mt5State.now]
  split
  · simp only [Prog.tryExcept, Prog.call_andThen, Keeps, Mt5State.now]
    split
    · rename_i hnow
      split at hnow
      · cases hnow
        exact calm_closing config (.error Mt5State.shutdownError) base s h
      · cases hnow
    · exact ⟨fun t => h.shutdown t, rfl, fun r s' h' => rests_closing config base r s' h'⟩
  · exact ⟨.inr ⟨rfl, rfl⟩, h.2⟩

/-! ## The calls of the coroutines -/

/-- What holds of the calls that neither ask the client nor submit to the executor, whatever comes after them. -/
structure Local (Q : (op : mt5Calls.Op) → (Except Exc (mt5Calls.Res op) → Mt5Coro Unit) → Prop) : Prop where
  state : ∀ k, Q .state k
  set_state : ∀ state k, Q (.set_state state) k
  shutdown_executor : ∀ k, Q .shutdown_executor k

namespace Local

variable {R : (op : mt5Calls.Op) → Except Exc (mt5Calls.Res op) → Prop}
  {Q : (op : mt5Calls.Op) → (Except Exc (mt5Calls.Res op) → Mt5Coro Unit) → Prop}

/-- To set the state is local, so only what comes after it counts. -/
theorem along_set_state (hQ : Local Q) {state : SessionState} {k : Except Exc Unit → Mt5Coro Unit}
    (hk : ∀ r, Along R Q (k r)) : Along R Q (.call (Mt5Call.set_state state) k) :=
  ⟨hQ.set_state state k, fun r _ => hk r⟩

/-- To set the session degraded and raise is local. -/
theorem along_degrade (hQ : Local Q) (e : Exc) :
    Along R Q (do
      let _ ← Mt5Call.perform (.set_state .DEGRADED)
      Prog.raise e) :=
  hQ.along_set_state fun r => by cases r <;> trivial

/-- Of the calls of a refused `start` only the question for the last error is not local. -/
theorem along_refuse (hQ : Local Q) (hinvoke : ∀ k, Q (.invoke .last_error) k) : Along R Q refuse :=
  hQ.along_set_state fun r => by
    cases r with
    | error e => trivial
    | ok _ => exact ⟨hinvoke _, fun r _ => by cases r <;> trivial⟩

/-- What a call makes of the answer of its operation is local. -/
theorem along_answered (hQ : Local Q) {α : Type} (r : Except Exc α) {f : α → Mt5Coro Unit}
    (hf : ∀ a, r = .ok a → Along R Q (f a)) : Along R Q (answered r >>= f) := by
  cases r with
  | ok a => exact hf a rfl
  | error e =>
    simp only [answered, Prog.bind_eq, Prog.bind, Prog.tryExcept, Prog.done_andThen]
    split
    · exact hQ.along_set_state fun r => by cases r <;> trivial
    · trivial

/-- A call submits its operation, unless the session is degraded. -/
theorem along_call (hQ : Local Q) {op : ClientOp} {f : op.Res → Mt5Coro Unit}
    (hop : Q (.run_in_executor op) fun r => answered r >>= f)
    (hf : ∀ a, R (.run_in_executor op) (.ok a) → Along R Q (f a)) : Along R Q (call op >>= f) := by
  refine ⟨hQ.state _, ?_⟩
  intro r _
  cases r with
  | error e => trivial
  | ok state =>
    simp only [Prog.andThen]
    split
    · trivial
    · refine ⟨hop, fun r hr => hQ.along_answered r fun a ha => hf a ?_⟩
      rw [← ha]
      exact hr

/-- The end of `start` is local. -/
theorem along_conclude (hQ : Local Q) (terminal : Option TerminalInfo) (account : Option AccountInfo) :
    Along R Q (conclude terminal account) := by
  unfold conclude
  split
  · split
    · trivial
    · exact hQ.along_set_state fun _ => trivial
  · exact hQ.along_degrade _

/-- The end of `close` is local. -/
theorem along_closing (hQ : Local Q) (r : Except Exc Unit) : Along R Q (closing r) := by
  have hclosed : Along R Q (do
      let _ ← Mt5Call.perform .shutdown_executor
      Mt5Call.perform (.set_state .CLOSED)) :=
    ⟨hQ.shutdown_executor _, fun r _ => by cases r <;> [trivial; exact hQ.along_set_state fun _ => trivial]⟩
  cases r with
  | ok _ => exact hclosed
  | error e =>
    simp only [closing, Prog.bind_eq, Prog.bind, Prog.tryExcept, Prog.done_andThen]
    split
    · exact hclosed
    · trivial

/-- Of the calls of `close` only the shutdown is not local. -/
theorem along_close (hQ : Local Q) (hshutdown : Q (.run_in_executor .shutdown) closing) : Along R Q close := by
  refine ⟨hQ.state _, ?_⟩
  intro r _
  cases r with
  | error e => trivial
  | ok state =>
    simp only [Prog.done_andThen]
    split
    · exact ⟨hshutdown, fun r _ => hQ.along_closing r⟩
    · exact hQ.along_closing (.ok ())

/-- A job, once `start` is walked through: only the operations of the executor are left to look at. -/
theorem along_program (hQ : Local Q) (hstart : Along R Q (start config))
    (hcall : ∀ number, Q (.run_in_executor (.operation number)) fun r => answered r >>= pure)
    (hshutdown : Q (.run_in_executor .shutdown) closing) (t : Mt5Task) : Along R Q (t.program config) := by
  unfold Mt5Task.program
  split
  · exact hstart
  · rw [← Prog.bind_pure (Mt5Session.call _)]
    exact hQ.along_call (hcall _) fun _ _ => trivial
  · exact hQ.along_close hshutdown

end Local

/-! ## What the coroutines wait for -/

/-- An operation leaves a stuck session stuck when it is answered, unless the answer sets the session ready. -/
def Resumable (config : Mt5Config) (op : mt5Calls.Op) (k : Except Exc (mt5Calls.Res op) → Mt5Coro Unit) : Prop :=
  (∃ operation, op = .run_in_executor operation) → ¬SetsReady ⟨op, k⟩ → Rests config ⟨op, k⟩

/-- What is not submitted to the executor is not waited for, so nothing is to be shown of it. -/
theorem resumable_of_ne {op : mt5Calls.Op} {k : Except Exc (mt5Calls.Res op) → Mt5Coro Unit}
    (h : ∀ operation, op ≠ .run_in_executor operation) : Resumable config op k :=
  fun ⟨operation, hop⟩ => absurd hop (h operation)

/-- In particular nothing of what is local. -/
theorem local_resumable : Local (Resumable config) where
  state _ := resumable_of_ne nofun
  set_state _ _ := resumable_of_ne nofun
  shutdown_executor _ := resumable_of_ne nofun

/-- Every operation of a coroutine is such. -/
abbrev AllResumable (config : Mt5Config) (p : Mt5Coro Unit) : Prop := Awaits (σ := mt5Calls) (ε := Exc) (Resumable config) p

/-- An operation leaves a stuck session stuck if what follows its answer does, or if it is the one before `READY`. -/
theorem resumable_call {op : ClientOp} {f : op.Res → Mt5Coro Unit}
    (h : ¬SetsReady ⟨.run_in_executor op, fun r => answered r >>= f⟩ → ∀ a, Calm config (f a)) :
    Resumable config (.run_in_executor op) fun r => answered r >>= f :=
  fun _ hsets => rests_answered (h hsets)

/-- Unless the terminal allows trading, a `start` does not set the session ready. -/
theorem calm_conclude {terminal : Option TerminalInfo} (h : ¬∃ info : TerminalInfo, terminal = some info ∧ info.trade_allowed = true)
    (account : Option AccountInfo) : Calm config (conclude terminal account) := by
  unfold conclude
  split
  · rename_i info _
    have hnot : info.trade_allowed = false := Bool.eq_false_iff.mpr fun hinfo => h ⟨info, rfl, hinfo⟩
    rw [hnot]
    exact calm_raise _
  · exact calm_degrade _

/-- Every operation of `start` is one of the two. -/
theorem along_start : Along (fun _ _ => True) (Resumable config) (start config) := by
  refine local_resumable.along_call (resumable_call ?_) ?_
  · intro _ ok
    cases ok
    · exact calm_refuse
    · exact calm_call _ _
  · intro ok _
    cases ok
    · exact local_resumable.along_refuse fun _ => resumable_of_ne nofun
    · refine local_resumable.along_call (resumable_call fun _ terminal => calm_call _ _) ?_
      intro terminal _
      refine local_resumable.along_call (resumable_call ?_) ?_
      · intro hsets account
        refine calm_conclude (fun ⟨info, hterminal, hallowed⟩ => hsets ⟨_, rfl, some ⟨0⟩, ?_⟩) account
        subst hterminal
        show conclude (some info) (some ⟨0⟩) = _
        simp only [conclude, hallowed]
        rfl
      · intro account _
        exact local_resumable.along_conclude terminal account

/-- In every job. -/
theorem awaits_program (t : Mt5Task) : AllResumable config (t.program config) := by
  refine awaits_of_along (local_resumable.along_program along_start ?_ (fun _ _ => rests_closing config) t)
  intro number
  exact resumable_call fun _ _ _ _ h => h

/-- A coroutine that begins in a stuck session leaves it stuck. -/
theorem calm_program (t : Mt5Task) : Calm config (t.program config) := by
  unfold Mt5Task.program
  split
  · exact calm_call _ _
  · rw [← Prog.bind_pure (Mt5Session.call _)]
    exact calm_call _ _
  · exact calm_close

/-! ## Runs -/

/-- The answer to a coroutine keeps a session stuck. -/
theorem Stuck.resume {t : Mt5Task} {op : Mt5Call} {r : Except Exc op.Res} {s' : Mt5State} (h : Stuck base s)
    (hr : Mt5State.Resume s t op r s') : Stuck base s' := by
  cases hr <;> exact h

/-- So does the end of an operation. -/
theorem Stuck.finishes {s' : Mt5State} (h : Stuck base s) (hf : s.Finishes s') : Stuck base s' := by
  obtain ⟨ticket, rest, _, rfl⟩ := hf
  exact h

/-- A turn in a stuck session leaves it stuck, and its coroutines at rest. -/
theorem stuck_step {c c' : Mt5Pool} (h : Stuck base c.shared)
    (hrests : ∀ t τ, c.tasks t = some τ → Suspended.Keeps (mt5Session config) (Stuck base) Shutdown τ)
    (hstep : (mt5Session config).Step c c') :
    Stuck base c'.shared ∧ ∀ t τ, c'.tasks t = some τ →
      Suspended.Keeps (mt5Session config) (Stuck base) Shutdown τ ∧ (c.tasks t = some τ ∨ Shutdown τ.op) :=
  keeps_step (fun t s h => calm_program t base s h) (fun _ _ _ _ _ h hr => h.resume hr) (fun _ _ h hf => h.finishes hf) h hrests hstep

/-- In every run. -/
theorem stuck_turns {c c' : Mt5Pool} (h : Stuck base c.shared)
    (hrests : ∀ t τ, c.tasks t = some τ → Suspended.Keeps (mt5Session config) (Stuck base) Shutdown τ)
    (hturns : Relation.ReflTransGen (mt5Session config).Step c c') : Stuck base c'.shared := by
  have hall : Stuck base c'.shared ∧
      ∀ t τ, c'.tasks t = some τ → Suspended.Keeps (mt5Session config) (Stuck base) Shutdown τ := by
    induction hturns with
    | refl => exact ⟨h, hrests⟩
    | tail _ hstep ih =>
      obtain ⟨hstuck, hkeeps⟩ := stuck_step ih.1 ih.2 hstep
      exact ⟨hstuck, fun t τ hτ => (hkeeps t τ hτ).1⟩
  exact hall.1

/-- A degraded session is stuck from then on. -/
theorem stuck_of_degraded (h : s.state = .DEGRADED) : Stuck s.submitted s :=
  ⟨.inl h, [], (List.append_nil _).symm, nofun⟩

/-- Every coroutine that waits in a degraded session is at rest. -/
theorem rests_of_orderly {c₀ c : Mt5Pool} (hnone : ∀ t, c₀.tasks t = none)
    (hturns : (mt5Session config).Turns Orderly c₀ c) (h : c.shared.state = .DEGRADED) :
    ∀ t τ, c.tasks t = some τ → Rests config τ := by
  have hsuspended {c : Mt5Pool} (hturns : (mt5Session config).Turns Orderly c₀ c) (hnot : ∀ t τ, c.tasks t = some τ → ¬SetsReady τ) :
      ∀ t τ, c.tasks t = some τ → Rests config τ := by
    intro t τ hτ
    obtain ⟨⟨s, hnow⟩, hQ, _⟩ := awaits_turns awaits_program hnone hturns t τ hτ
    refine hQ ?_ (hnot t τ hτ)
    cases hop : τ.op with
    | run_in_executor operation => exact ⟨operation, rfl⟩
    | _ =>
      rw [hop] at hnow
      cases hnow
  suffices hnot : ∀ t τ, c.tasks t = some τ → ¬SetsReady τ from hsuspended hturns hnot
  induction hturns with
  | refl =>
    intro t τ hτ
    rw [hnone] at hτ
    cases hτ
  | @tail c c' hturns hstep ih =>
    by_cases hbefore : c.shared.state = .DEGRADED
    · intro t τ hτ
      have hrests := hsuspended hturns (ih hbefore)
      obtain ⟨_, hkeeps⟩ := stuck_step (stuck_of_degraded hbefore) (fun t τ hτ => hrests t τ hτ _) hstep.1
      rcases (hkeeps t τ hτ).2 with hold | hshutdown
      · exact ih hbefore t τ hold
      · rintro ⟨k, rfl, _⟩
        cases hshutdown
    · exact hstep.2 hbefore h

end DegradedSessionAux

open EventLoop DegradedSessionAux

/-- A session that became degraded while no `start` was about to set it ready is degraded or closed ever after, and only the shutdown is
submitted. -/
theorem degraded_for_good {config : Mt5Config} {c₀ c c' : Mt5Pool} (hnone : ∀ t, c₀.tasks t = none) (hturns : (mt5Session config).Turns Orderly c₀ c)
    (hdegraded : c.shared.state = .DEGRADED) (hafter : Relation.ReflTransGen (mt5Session config).Step c c') :
    (c'.shared.state = .DEGRADED ∨ c'.shared.state = .CLOSED) ∧
      ∃ ops, c'.shared.submitted = c.shared.submitted ++ ops ∧ ∀ op ∈ ops, op = ClientOp.shutdown := by
  have hrests := rests_of_orderly hnone hturns hdegraded
  obtain ⟨hstate, hops⟩ := stuck_turns (stuck_of_degraded hdegraded) (fun t τ hτ => hrests t τ hτ _) hafter
  exact ⟨hstate.imp_right And.left, hops⟩

namespace DegradedSessionAux

/-! ## A user of the session whose operation takes too long -/

/-- Steps lead from a configuration to one with a property. -/
def Leads (r : Mt5Pool → Mt5Pool → Prop) (c : Mt5Pool) (P : Mt5Pool → Prop) : Prop := ∃ c', Relation.ReflTransGen r c c' ∧ P c'

/-- No step leads to where one is. -/
theorem Leads.refl {r : Mt5Pool → Mt5Pool → Prop} {c : Mt5Pool} {P : Mt5Pool → Prop} (h : P c) : Leads r c P := ⟨c, .refl, h⟩

/-- One step, and others after it. -/
theorem Leads.head {r : Mt5Pool → Mt5Pool → Prop} {c c' : Mt5Pool} {P : Mt5Pool → Prop} (h : r c c') (h' : Leads r c' P) : Leads r c P := by
  obtain ⟨c'', hsteps, hP⟩ := h'
  exact ⟨c'', .head h hsteps, hP⟩

/-- The executor finishes the operation at the head of its queue. -/
theorem finish {s : Mt5State} {ticket : Nat} {rest : List Nat} (tasks : Mt5Task → Option (Suspended mt5Calls Exc Unit))
    (h : s.queue = ticket :: rest) :
    (mt5Session {}).Step ⟨s, tasks⟩ ⟨Mt5State.begin { s with queue := rest, finished := s.finished ++ [ticket] }, tasks⟩ :=
  .env ⟨ticket, rest, h, rfl⟩

/-- A coroutine whose operation has finished is resumed with an answer. -/
theorem answer {s : Mt5State} {tasks : Mt5Task → Option (Suspended mt5Calls Exc Unit)} {t : Mt5Task} {op : ClientOp} {ticket : Nat}
    {k : Except Exc op.Res → Mt5Coro Unit} (r : Except Exc op.Res) (ht : tasks t = some ⟨.run_in_executor op, k⟩)
    (hw : s.waits t = some ticket) (hf : ticket ∈ s.finished) :
    (mt5Session {}).Step ⟨s, tasks⟩ ⟨((mt5Session {}).advance t (k r) (s.wake t)).1,
      Function.update tasks t ((mt5Session {}).advance t (k r) (s.wake t)).2⟩ :=
  .resume ht (.finished hw hf)

def fresh : Mt5Pool := ⟨{}, fun _ => none⟩

def starter : Mt5Task := ⟨0, .start⟩

def user : Mt5Task := ⟨1, .call 0⟩

def closer : Mt5Task := ⟨2, .close⟩

end DegradedSessionAux

/-- A `start` waits for the account behind the operation of a user. The time of the user is up, then the account comes. -/
theorem degraded_session_ready :
    ¬∀ (config : Mt5Config) (c₀ c c' : Mt5Pool), (mt5Session config).init c₀.shared → (∀ t, c₀.tasks t = none) →
      Relation.ReflTransGen (mt5Session config).Step c₀ c → c.shared.state = .DEGRADED →
      Relation.ReflTransGen (mt5Session config).Step c c' → c'.shared.state ≠ .READY := by
  intro h
  have hrun : Leads (mt5Session {}).Step fresh fun c =>
      c.shared.state = .DEGRADED ∧ Leads (mt5Session {}).Step c fun c' => c'.shared.state = .READY := by
    refine .head (.spawn (t := starter) rfl) (.head (finish _ rfl) ?_)
    refine .head (answer (t := starter) (.ok true) rfl rfl List.mem_cons_self) (.head (finish _ rfl) ?_)
    refine .head (.spawn (t := user) rfl) ?_
    refine .head (answer (t := starter) (.ok (some ⟨true⟩)) rfl rfl (List.mem_cons_of_mem _ List.mem_cons_self)) ?_
    refine .head (.resume (t := user) rfl (.timeout rfl)) (.refl ⟨rfl, ?_⟩)
    refine .head (finish _ rfl) (.head (finish _ rfl) ?_)
    exact .head (answer (t := starter) (.ok (some ⟨0⟩)) rfl rfl (by decide)) (.refl rfl)
  obtain ⟨c, hbefore, hdegraded, c', hafter, hready⟩ := hrun
  exact h {} fresh c c' rfl (fun _ => rfl) hbefore hdegraded hafter hready

/-- A session that no `start` attached is degraded by a user and then closed. -/
theorem degraded_for_good_closed :
    ∃ c c', (mt5Session {}).Turns Orderly fresh c ∧ c.shared.state = .DEGRADED ∧
      Relation.ReflTransGen (mt5Session {}).Step c c' ∧ c'.shared.submitted = [.operation 0, .shutdown] ∧
      (c'.shared.state = .DEGRADED ∨ c'.shared.state = .CLOSED) := by
  have hrun : Leads (fun c c' => (mt5Session {}).Step c c' ∧ Orderly c c') fresh fun c =>
      c.shared.state = .DEGRADED ∧ Leads (mt5Session {}).Step c fun c' => c'.shared.submitted = [.operation 0, .shutdown] := by
    refine .head ⟨.spawn (t := user) rfl, fun _ h => nomatch h⟩ ?_
    refine .head ⟨.resume (t := user) rfl (.timeout rfl), fun _ _ t τ h => ?_⟩ (.refl ⟨rfl, ?_⟩)
    · dsimp only at h
      rw [Function.update_idem, Function.update_apply] at h
      split at h <;> exact nomatch (show none = some τ from h)
    · exact .head (.spawn (t := closer) rfl) (.head (.resume (t := closer) rfl (.timeout rfl)) (.refl rfl))
  obtain ⟨c, hbefore, hdegraded, c', hafter, hsubmitted⟩ := hrun
  exact ⟨c, c', hbefore, hdegraded, hafter, hsubmitted, (degraded_for_good (fun _ => rfl) hbefore hdegraded hafter).1⟩

end MtossBot
