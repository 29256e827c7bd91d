import MtossBot.Library.Prog

/-!
# Runs of one program

What a program does from a state to its end, when nothing else changes the state: the calls it makes with their answers, in order,
and how it ends. What a call may answer and do to the state is a relation, so that the environment may choose. The rules follow the
shape of a program: a statement about the runs of a helper is used by its callers through `runs_andThen` and `runs_bind`. `Reaches` is
a run that need not have ended.
-/

namespace MtossBot

/-- A call with its answer. -/
structure Exchange (σ : Sig) (ε : Type) where
  op : σ.Op
  answer : Except ε (σ.Res op)

namespace Prog

variable {σ τ : Sig} {ε α β S : Type}

/-- The program runs from a state to a state, with the calls of a trace and an outcome. -/
inductive Runs (step : S → (op : σ.Op) → Except ε (σ.Res op) → S → Prop) :
    Prog σ ε α → S → List (Exchange σ ε) → Except ε α → S → Prop where
  | done {r : Except ε α} {s : S} : Runs step (done r) s [] r s
  | call {op : σ.Op} {k : Except ε (σ.Res op) → Prog σ ε α} {s s₁ s₂ : S} {r : Except ε (σ.Res op)}
      {trace : List (Exchange σ ε)} {out : Except ε α} :
      step s op r s₁ → Runs step (k r) s₁ trace out s₂ → Runs step (call op k) s (⟨op, r⟩ :: trace) out s₂

variable {step : S → (op : σ.Op) → Except ε (σ.Res op) → S → Prop} {s s' : S} {trace : List (Exchange σ ε)}

/-- A program that has ended makes no call. -/
theorem runs_done {r out : Except ε α} : (done r).Runs step s trace out s' ↔ trace = [] ∧ out = r ∧ s' = s := by
  constructor
  · intro h
    cases h
    exact ⟨rfl, rfl, rfl⟩
  · rintro ⟨rfl, rfl, rfl⟩
    exact .done

/-- A program that makes a call goes on with its answer. -/
theorem runs_call {op : σ.Op} {k : Except ε (σ.Res op) → Prog σ ε α} {out : Except ε α} :
    (call op k).Runs step s trace out s' ↔
      ∃ r s₁ rest, trace = ⟨op, r⟩ :: rest ∧ step s op r s₁ ∧ (k r).Runs step s₁ rest out s' := by
  constructor
  · intro h
    cases h with
    | call hs hk => exact ⟨_, _, _, rfl, hs, hk⟩
  · rintro ⟨r, s₁, rest, rfl, hs, hk⟩
    exact .call hs hk

/-- Sequencing: the second program runs from where the first one ends. -/
theorem runs_andThen {p : Prog σ ε α} {f : Except ε α → Prog σ ε β} {out : Except ε β} :
    (p.andThen f).Runs step s trace out s' ↔
      ∃ r s₁ trace₁ trace₂, trace = trace₁ ++ trace₂ ∧ p.Runs step s trace₁ r s₁ ∧ (f r).Runs step s₁ trace₂ out s' := by
  induction p generalizing s trace with
  | done r =>
    rw [done_andThen]
    constructor
    · intro h
      exact ⟨r, s, [], trace, rfl, .done, h⟩
    · rintro ⟨r', s₁, trace₁, trace₂, rfl, hp, hf⟩
      obtain ⟨rfl, rfl, rfl⟩ := runs_done.mp hp
      exact hf
  | call op k ih =>
    rw [call_andThen, runs_call]
    constructor
    · rintro ⟨a, s₁, rest, rfl, hs, hk⟩
      obtain ⟨r, s₂, trace₁, trace₂, rfl, hp, hf⟩ := (ih a).mp hk
      exact ⟨r, s₂, ⟨op, a⟩ :: trace₁, trace₂, rfl, .call hs hp, hf⟩
    · rintro ⟨r, s₁, trace₁, trace₂, rfl, hp, hf⟩
      obtain ⟨a, s₂, rest, rfl, hs, hk⟩ := runs_call.mp hp
      exact ⟨a, s₂, rest ++ trace₂, rfl, hs, (ih a).mpr ⟨r, s₁, rest, trace₂, rfl, hk, hf⟩⟩

/-- The rule of `do`: a value goes on, an exception ends the run. -/
theorem runs_bind {p : Prog σ ε α} {f : α → Prog σ ε β} {out : Except ε β} :
    (p >>= f).Runs step s trace out s' ↔
      (∃ e, out = .error e ∧ p.Runs step s trace (.error e) s') ∨
        ∃ a s₁ trace₁ trace₂, trace = trace₁ ++ trace₂ ∧ p.Runs step s trace₁ (.ok a) s₁ ∧ (f a).Runs step s₁ trace₂ out s' := by
  rw [bind_eq, bind, runs_andThen]
  constructor
  · rintro ⟨r, s₁, trace₁, trace₂, rfl, hp, hf⟩
    cases r with
    | error e =>
      obtain ⟨rfl, rfl, rfl⟩ := runs_done.mp hf
      exact .inl ⟨e, rfl, by rwa [List.append_nil]⟩
    | ok a => exact .inr ⟨a, s₁, trace₁, trace₂, rfl, hp, hf⟩
  · rintro (⟨e, rfl, hp⟩ | ⟨a, s₁, trace₁, trace₂, rfl, hp, hf⟩)
    · exact ⟨.error e, s', trace, [], by rw [List.append_nil], hp, .done⟩
    · exact ⟨.ok a, s₁, trace₁, trace₂, rfl, hp, hf⟩

/-- One call is one step. -/
theorem runs_perform {op : σ.Op} {out : Except ε (σ.Res op)} :
    (perform op : Prog σ ε (σ.Res op)).Runs step s trace out s' ↔ trace = [⟨op, out⟩] ∧ step s op out s' := by
  rw [perform, runs_call]
  constructor
  · rintro ⟨r, s₁, rest, rfl, hs, hk⟩
    obtain ⟨rfl, rfl, rfl⟩ := runs_done.mp hk
    exact ⟨rfl, hs⟩
  · rintro ⟨rfl, hs⟩
    exact ⟨out, s', [], rfl, hs, .done⟩

/-- The calls of a run are steps of the environment; what each keeps, the run keeps. -/
theorem Runs.keeps {p : Prog σ ε α} {out : Except ε α} {I : S → Prop} (h : p.Runs step s trace out s')
    (hstep : ∀ s x s', x ∈ trace → I s → step s x.op x.answer s' → I s') (hs : I s) : I s' := by
  induction h with
  | done => exact hs
  | @call op k s s₁ s₂ r trace out hr _ ih =>
    exact ih (fun s x s' hx => hstep s x s' (List.mem_cons_of_mem _ hx)) (hstep s ⟨op, r⟩ s₁ List.mem_cons_self hs hr)

/-- A run of an interpreted program is one of the program, whose calls are runs of what they are replaced by. -/
theorem Runs.of_interpret {f : (op : τ.Op) → Prog σ ε (τ.Res op)} {p : Prog τ ε α} {out : Except ε α}
    (h : (p.interpret f).Runs step s trace out s') :
    ∃ calls, p.Runs (fun s op r s' => ∃ trace, (f op).Runs step s trace r s') s calls out s' := by
  induction p generalizing s trace with
  | done r =>
    obtain ⟨rfl, rfl, rfl⟩ := runs_done.mp h
    exact ⟨[], .done⟩
  | call op k ih =>
    obtain ⟨r, s₁, trace₁, trace₂, rfl, hp, hk⟩ := runs_andThen.mp h
    obtain ⟨calls, hcalls⟩ := ih r hk
    exact ⟨⟨op, r⟩ :: calls, .call ⟨trace₁, hp⟩ hcalls⟩

/-! ## Runs that are under way -/

/-- Some calls of the program have been made, which led from a state to a state. -/
inductive Reaches (step : S → (op : σ.Op) → Except ε (σ.Res op) → S → Prop) :
    Prog σ ε α → S → List (Exchange σ ε) → S → Prop where
  | start {p : Prog σ ε α} {s : S} : Reaches step p s [] s
  | call {op : σ.Op} {k : Except ε (σ.Res op) → Prog σ ε α} {s s₁ s₂ : S} {r : Except ε (σ.Res op)}
      {trace : List (Exchange σ ε)} :
      step s op r s₁ → Reaches step (k r) s₁ trace s₂ → Reaches step (call op k) s (⟨op, r⟩ :: trace) s₂

/-- A run that has ended has come to its end. -/
theorem Runs.reaches {p : Prog σ ε α} {out : Except ε α} (h : p.Runs step s trace out s') : p.Reaches step s trace s' := by
  induction h with
  | done => exact .start
  | call hs _ ih => exact .call hs ih

/-- A program that has ended goes nowhere. -/
theorem reaches_done {r : Except ε α} (h : (done r : Prog σ ε α).Reaches step s trace s') : trace = [] ∧ s' = s := by
  cases h
  exact ⟨rfl, rfl⟩

/-- A program that makes a call is before it, or has gone on with an answer. -/
theorem reaches_call {op : σ.Op} {k : Except ε (σ.Res op) → Prog σ ε α} (h : (call op k).Reaches step s trace s') :
    trace = [] ∧ s' = s ∨ ∃ r s₁ rest, trace = ⟨op, r⟩ :: rest ∧ step s op r s₁ ∧ (k r).Reaches step s₁ rest s' := by
  cases h with
  | start => exact .inl ⟨rfl, rfl⟩
  | call hs hk => exact .inr ⟨_, _, _, rfl, hs, hk⟩

/-- Sequencing: the first program is under way, or it has ended and the second one is. -/
theorem reaches_andThen {p : Prog σ ε α} {f : Except ε α → Prog σ ε β} (h : (p.andThen f).Reaches step s trace s') :
    p.Reaches step s trace s' ∨
      ∃ r s₁ trace₁ trace₂, trace = trace₁ ++ trace₂ ∧ p.Runs step s trace₁ r s₁ ∧ (f r).Reaches step s₁ trace₂ s' := by
  induction p generalizing s trace with
  | done r => exact .inr ⟨r, s, [], trace, rfl, .done, h⟩
  | call op k ih =>
    rw [call_andThen] at h
    rcases reaches_call h with ⟨rfl, rfl⟩ | ⟨a, s₁, rest, rfl, hs, hk⟩
    · exact .inl .start
    · rcases ih a hk with hp | ⟨r, s₂, trace₁, trace₂, rfl, hp, hf⟩
      · exact .inl (.call hs hp)
      · exact .inr ⟨r, s₂, ⟨op, a⟩ :: trace₁, trace₂, rfl, .call hs hp, hf⟩

/-- The rule of `do`. -/
theorem reaches_bind {p : Prog σ ε α} {f : α → Prog σ ε β} (h : (p >>= f).Reaches step s trace s') :
    p.Reaches step s trace s' ∨
      ∃ a s₁ trace₁ trace₂, trace = trace₁ ++ trace₂ ∧ p.Runs step s trace₁ (.ok a) s₁ ∧ (f a).Reaches step s₁ trace₂ s' := by
  rcases reaches_andThen h with hp | ⟨r, s₁, trace₁, trace₂, rfl, hp, hf⟩
  · exact .inl hp
  · cases r with
    | error e =>
      obtain ⟨rfl, rfl⟩ := reaches_done hf
      rw [List.append_nil]
      exact .inl hp.reaches
    | ok a => exact .inr ⟨a, s₁, trace₁, trace₂, rfl, hp, hf⟩

/-- One call has been made or not. -/
theorem reaches_perform {op : σ.Op} (h : (perform op : Prog σ ε (σ.Res op)).Reaches step s trace s') :
    trace = [] ∧ s' = s ∨ ∃ r, trace = [⟨op, r⟩] ∧ step s op r s' := by
  rcases reaches_call h with hstart | ⟨r, s₁, rest, rfl, hs, hk⟩
  · exact .inl hstart
  · obtain ⟨rfl, rfl⟩ := reaches_done hk
    exact .inr ⟨r, rfl, hs⟩

/-- The runs of a program whose calls may answer anything: only their traces matter. -/
def Traces (p : Prog σ ε α) (trace : List (Exchange σ ε)) (out : Except ε α) : Prop :=
  p.Runs (fun (_ : Unit) _ _ _ => True) () trace out ()

/-- The trace of any run is one of the program. -/
theorem Runs.traces {p : Prog σ ε α} {out : Except ε α} (h : p.Runs step s trace out s') : p.Traces trace out := by
  unfold Traces
  induction h with
  | done => exact .done
  | call _ _ ih => exact .call trivial ih

section Traces

variable {out : Except ε β}

/-- A program that has ended has the empty trace. -/
theorem traces_done {r out : Except ε α} : (done r : Prog σ ε α).Traces trace out ↔ trace = [] ∧ out = r := by
  simp [Traces, runs_done]

/-- One call has the trace with any one answer. -/
theorem traces_perform {op : σ.Op} {out : Except ε (σ.Res op)} :
    (perform op : Prog σ ε (σ.Res op)).Traces trace out ↔ trace = [⟨op, out⟩] := by
  simp [Traces, runs_perform]

/-- A trace of a sequence is one of the first program and one of the second. -/
theorem traces_andThen {p : Prog σ ε α} {f : Except ε α → Prog σ ε β} :
    (p.andThen f).Traces trace out ↔ ∃ r trace₁ trace₂, trace = trace₁ ++ trace₂ ∧ p.Traces trace₁ r ∧ (f r).Traces trace₂ out := by
  rw [Traces, runs_andThen]
  exact exists_congr fun r => ⟨fun ⟨_, h⟩ => h, fun h => ⟨(), h⟩⟩

/-- The rule of `do` for traces. -/
theorem traces_bind {p : Prog σ ε α} {f : α → Prog σ ε β} :
    (p >>= f).Traces trace out ↔ (∃ e, out = .error e ∧ p.Traces trace (.error e)) ∨
      ∃ a trace₁ trace₂, trace = trace₁ ++ trace₂ ∧ p.Traces trace₁ (.ok a) ∧ (f a).Traces trace₂ out := by
  rw [Traces, runs_bind]
  exact or_congr Iff.rfl (exists_congr fun a => ⟨fun ⟨_, h⟩ => h, fun h => ⟨(), h⟩⟩)

end Traces

/-- A value goes on with what follows it. -/
theorem pure_bind (a : α) (f : α → Prog σ ε β) : (pure a : Prog σ ε α) >>= f = f a := rfl

/-- Values are passed on in any grouping. -/
theorem bind_assoc {γ : Type} (p : Prog σ ε α) (f : α → Prog σ ε β) (g : β → Prog σ ε γ) :
    (p >>= f) >>= g = p >>= fun a => f a >>= g := by
  simp only [bind_eq, bind, andThen_assoc]
  congr 1
  funext r
  cases r <;> rfl

/-- Interpreting a sequence: the parts are interpreted one after the other. -/
theorem interpret_andThen {f : (op : τ.Op) → Prog σ ε (τ.Res op)} (p : Prog τ ε α) (g : Except ε α → Prog τ ε β) :
    (p.andThen g).interpret f = (p.interpret f).andThen fun r => (g r).interpret f := by
  induction p with
  | done r => rfl
  | call op k ih => simp only [call_andThen, interpret, ih, andThen_assoc]

/-- A call by itself is replaced by its program. -/
theorem interpret_perform {f : (op : τ.Op) → Prog σ ε (τ.Res op)} (op : τ.Op) :
    (perform op : Prog τ ε (τ.Res op)).interpret f = f op := by
  have hdone : ∀ p : Prog σ ε (τ.Res op), (p.andThen fun r => done r) = p := by
    intro p
    induction p with
    | done r => rfl
    | call op k ih => simp only [call_andThen, ih]
  exact hdone (f op)

end Prog
end MtossBot
