import Mathlib.Logic.Function.Basic
import MtossBot.Library.Protocol

/-!
# Pools of programs

Any number of tasks run programs over a shared state. A call is two steps, the call and its answer, so that other tasks, the
environment and crashes can come between them; a task can crash at any moment. What calls, answers, ends and crashes do to the
shared state is a `System`, a relation for each, so that the environment may choose. A run keeps the list of its labels.

`Invariant` is the proof rule: an invariant of the shared state, the labels so far and the phases of the tasks, kept by every
step that the protocol allows, holds in every run of programs that follow the protocol. `Alone` is one task running by itself: the
way to build a run.
-/

namespace MtossBot

/-- What a step of a pool does: `T` names the tasks, `L` the steps of the environment. -/
inductive Label (σ : Sig) (ε α T L : Type) where
  | spawn (t : T)
  | call (t : T) (op : σ.Op)
  | answer (t : T) (op : σ.Op) (r : Except ε (σ.Res op))
  | finish (t : T) (r : Except ε α)
  | crash (t : T)
  | env (l : L)

/-- The task whose step it is. -/
def Label.task {σ : Sig} {ε α T L : Type} : Label σ ε α T L → Option T
  | .spawn t => some t
  | .call t _ => some t
  | .answer t _ _ => some t
  | .finish t _ => some t
  | .crash t => some t
  | .env _ => none

/-- The programs of the tasks, and what each kind of step may do to the shared state. -/
structure System (σ : Sig) (ε α T S L : Type) where
  init : S → Prop
  program : T → Prog σ ε α
  call : S → T → σ.Op → S → Prop
  answer : S → T → (op : σ.Op) → Except ε (σ.Res op) → S → Prop
  finish : S → T → Except ε α → S → Prop
  crash : S → T → S → Prop
  env : S → L → S → Prop

/-- A running task: about to go on, or waiting for the answer to a call. -/
inductive Task (σ : Sig) (ε α : Type) where
  | ready (p : Prog σ ε α)
  | waiting (op : σ.Op) (k : Except ε (σ.Res op) → Prog σ ε α)

/-- The shared state and the tasks. -/
structure Config (σ : Sig) (ε α T S : Type) where
  shared : S
  tasks : T → Option (Task σ ε α)

namespace System

variable {σ : Sig} {ε α T S L : Type} [DecidableEq T]

/-- One step of the pool. -/
inductive Step (sys : System σ ε α T S L) : Config σ ε α T S → Label σ ε α T L → Config σ ε α T S → Prop where
  | spawn {s : S} {tasks : T → Option (Task σ ε α)} {t : T} :
      tasks t = none →
      Step sys ⟨s, tasks⟩ (.spawn t) ⟨s, Function.update tasks t (some (.ready (sys.program t)))⟩
  | call {s s' : S} {tasks : T → Option (Task σ ε α)} {t : T} {op : σ.Op} {k : Except ε (σ.Res op) → Prog σ ε α} :
      tasks t = some (.ready (.call op k)) → sys.call s t op s' →
      Step sys ⟨s, tasks⟩ (.call t op) ⟨s', Function.update tasks t (some (.waiting op k))⟩
  | answer {s s' : S} {tasks : T → Option (Task σ ε α)} {t : T} {op : σ.Op} {k : Except ε (σ.Res op) → Prog σ ε α}
      {r : Except ε (σ.Res op)} :
      tasks t = some (.waiting op k) → sys.answer s t op r s' →
      Step sys ⟨s, tasks⟩ (.answer t op r) ⟨s', Function.update tasks t (some (.ready (k r)))⟩
  | finish {s s' : S} {tasks : T → Option (Task σ ε α)} {t : T} {r : Except ε α} :
      tasks t = some (.ready (.done r)) → sys.finish s t r s' →
      Step sys ⟨s, tasks⟩ (.finish t r) ⟨s', Function.update tasks t none⟩
  | crash {s s' : S} {tasks : T → Option (Task σ ε α)} {t : T} {τ : Task σ ε α} :
      tasks t = some τ → sys.crash s t s' →
      Step sys ⟨s, tasks⟩ (.crash t) ⟨s', Function.update tasks t none⟩
  | env {s s' : S} {tasks : T → Option (Task σ ε α)} {l : L} :
      sys.env s l s' → Step sys ⟨s, tasks⟩ (.env l) ⟨s', tasks⟩

/-- The runs from an empty pool, with the labels of the steps in order; `ok` says which label may follow which labels. -/
inductive Run (sys : System σ ε α T S L) (ok : List (Label σ ε α T L) → Label σ ε α T L → Prop) :
    Config σ ε α T S → List (Label σ ε α T L) → Prop where
  | init {s : S} : sys.init s → Run sys ok ⟨s, fun _ => none⟩ []
  | step {c c' : Config σ ε α T S} {ls : List (Label σ ε α T L)} {l : Label σ ε α T L} :
      Run sys ok c ls → Step sys c l c' → ok ls l → Run sys ok c' (ls ++ [l])

variable {sys : System σ ε α T S L} {ok : List (Label σ ε α T L) → Label σ ε α T L → Prop}

/-- An entry of a list with one more at its end is that one, or an entry of the list. -/
theorem append_singleton_cases {A : Type} {xs pre post : List A} {x y : A} (h : xs ++ [x] = pre ++ y :: post) :
    (post = [] ∧ xs = pre ∧ x = y) ∨ ∃ post', post = post' ++ [x] ∧ xs = pre ++ y :: post' := by
  rcases List.eq_nil_or_concat post with rfl | ⟨post', z, rfl⟩
  · obtain ⟨hxs, hx⟩ := List.append_inj' h rfl
    exact .inl ⟨rfl, hxs, (List.cons.inj hx).1⟩
  · rw [List.concat_eq_append, ← List.cons_append, ← List.append_assoc] at h
    obtain ⟨hxs, hx⟩ := List.append_inj' h rfl
    exact .inr ⟨post', by rw [(List.cons.inj hx).1, List.concat_eq_append], hxs⟩

/-- Every label of a run is one that may follow the labels before it. -/
theorem Run.all_ok {c : Config σ ε α T S} {ls : List (Label σ ε α T L)} (hr : Run sys ok c ls) :
    ∀ pre l post, ls = pre ++ l :: post → ok pre l := by
  induction hr with
  | init _ => intro pre l post h; simp at h
  | @step c c' ls l hr hst hl ih =>
    intro pre l' post h
    rcases append_singleton_cases h with ⟨_, rfl, rfl⟩ | ⟨post', _, rfl⟩
    · exact hl
    · exact ih pre l' post' rfl

/-- Every label of a run is that of a step after a run of the labels before it. -/
theorem Run.split {c : Config σ ε α T S} {ls : List (Label σ ε α T L)} (hr : Run sys ok c ls) :
    ∀ pre l post, ls = pre ++ l :: post → ∃ c₁ c₂, Run sys ok c₁ pre ∧ Step sys c₁ l c₂ := by
  induction hr with
  | init _ => intro pre l post h; simp at h
  | @step c c' ls l hr hst hl ih =>
    intro pre l' post h
    rcases append_singleton_cases h with ⟨_, rfl, rfl⟩ | ⟨post', _, rfl⟩
    · exact ⟨c, c', hr, hst⟩
    · exact ih pre l' post' rfl

/-- A run whose labels may all follow the labels before them. -/
theorem Run.of_all {c : Config σ ε α T S} {ls : List (Label σ ε α T L)} (hr : Run sys (fun _ _ => True) c ls)
    (h : ∀ pre l post, ls = pre ++ l :: post → ok pre l) : Run sys ok c ls := by
  induction hr with
  | init hs => exact Run.init hs
  | @step c c' ls l hr hst _ ih =>
    refine Run.step (ih ?_) hst (h ls l [] rfl)
    intro pre l' post hls
    exact h pre l' (post ++ [l]) (by rw [hls, List.append_assoc, List.cons_append])

/-- A task running by itself, from one program to what is left of it: what it does to the shared state, and its labels. -/
inductive Alone (sys : System σ ε α T S L) (t : T) {β : Type} :
    S → Prog σ ε β → List (Label σ ε α T L) → S → Prog σ ε β → Prop where
  | refl {s : S} {p : Prog σ ε β} : Alone sys t s p [] s p
  | call {s s₁ s₂ s' : S} {op : σ.Op} {k : Except ε (σ.Res op) → Prog σ ε β} {r : Except ε (σ.Res op)}
      {ls : List (Label σ ε α T L)} {p' : Prog σ ε β} :
      sys.call s t op s₁ → sys.answer s₁ t op r s₂ → Alone sys t s₂ (k r) ls s' p' →
      Alone sys t s (.call op k) (.call t op :: .answer t op r :: ls) s' p'

namespace Alone

variable {β γ : Type} {t : T} {s s₁ s₂ : S} {ls ls' : List (Label σ ε α T L)}

omit [DecidableEq T]

/-- A task that runs by itself may do so inside a longer program. -/
theorem andThen {p p' : Prog σ ε β} (h : Alone sys t s p ls s₁ p') (f : Except ε β → Prog σ ε γ) :
    Alone sys t s (p.andThen f) ls s₁ (p'.andThen f) := by
  induction h with
  | refl => exact .refl
  | call hcall hanswer _ ih => exact .call hcall hanswer ih

theorem trans {p p₁ p₂ : Prog σ ε β} (h : Alone sys t s p ls s₁ p₁) (h' : Alone sys t s₁ p₁ ls' s₂ p₂) :
    Alone sys t s p (ls ++ ls') s₂ p₂ := by
  induction h with
  | refl => exact h'
  | call hcall hanswer _ ih => exact .call hcall hanswer (ih h')

/-- Sequencing, once the first program has ended. -/
theorem seq {p : Prog σ ε β} {r : Except ε β} {f : Except ε β → Prog σ ε γ} {q : Prog σ ε γ}
    (h : Alone sys t s p ls s₁ (.done r)) (h' : Alone sys t s₁ (f r) ls' s₂ q) :
    Alone sys t s (p.andThen f) (ls ++ ls') s₂ q := (h.andThen f).trans h'

end Alone

/-- A task that is about to go on may run by itself. -/
theorem Run.alone {s s' : S} {tasks : T → Option (Task σ ε α)} {t : T} {p p' : Prog σ ε α} {ls more : List (Label σ ε α T L)}
    (h : Alone sys t s p more s' p') (hr : Run sys (fun _ _ => True) ⟨s, tasks⟩ ls) (ht : tasks t = some (.ready p)) :
    Run sys (fun _ _ => True) ⟨s', Function.update tasks t (some (.ready p'))⟩ (ls ++ more) := by
  induction h generalizing tasks ls with
  | refl =>
    rw [← ht, Function.update_eq_self, List.append_nil]
    exact hr
  | @call s s₁ s₂ s' op k r more p' hcall hanswer _ ih =>
    have h₁ := Run.step hr (.call ht hcall) trivial
    have h₂ := Run.step h₁ (.answer (Function.update_self t _ _) hanswer) trivial
    have h₃ := ih h₂ (Function.update_self t _ _)
    rw [Function.update_idem, Function.update_idem, List.append_assoc, List.append_assoc] at h₃
    exact h₃

/-- A new task may run by itself. -/
theorem Run.spawn_alone {s s' : S} {tasks : T → Option (Task σ ε α)} {t : T} {p : Prog σ ε α}
    {ls more : List (Label σ ε α T L)} (h : Alone sys t s (sys.program t) more s' p)
    (hr : Run sys (fun _ _ => True) ⟨s, tasks⟩ ls) (ht : tasks t = none) :
    Run sys (fun _ _ => True) ⟨s', Function.update tasks t (some (.ready p))⟩ (ls ++ .spawn t :: more) := by
  have h₁ := Run.alone h (Run.step hr (.spawn ht) trivial) (Function.update_self t _ _)
  rw [Function.update_idem, List.append_assoc] at h₁
  exact h₁

/-- A new task may run by itself to its end. -/
theorem Run.complete {s s₁ s' : S} {tasks : T → Option (Task σ ε α)} {t : T} {r : Except ε α}
    {ls more : List (Label σ ε α T L)} (h : Alone sys t s (sys.program t) more s₁ (.done r)) (hfin : sys.finish s₁ t r s')
    (hr : Run sys (fun _ _ => True) ⟨s, tasks⟩ ls) (ht : tasks t = none) :
    Run sys (fun _ _ => True) ⟨s', tasks⟩ (ls ++ .spawn t :: more ++ [.finish t r]) := by
  have h₁ := Run.step (Run.spawn_alone h hr ht) (.finish (Function.update_self t _ _) hfin) trivial
  rw [Function.update_idem, ← ht, Function.update_eq_self] at h₁
  exact h₁

/-! ## The proof rule -/

variable {P : Protocol σ ε T} {Φ : T → P.Phase → Except ε α → Prop}

/-- A task and its phase: a task about to go on follows the protocol, and a waiting one will, whatever the answer. -/
inductive Fits (P : Protocol σ ε T) (Φ : P.Phase → Except ε α → Prop) : Option (Task σ ε α) → Option P.Phase → Prop where
  | absent : Fits P Φ none none
  | ready {p : Prog σ ε α} {q : P.Phase} : p.Follows P Φ q → Fits P Φ (some (.ready p)) (some q)
  | waiting {op : σ.Op} {k : Except ε (σ.Res op) → Prog σ ε α} {q₀ q : P.Phase} :
      P.issue q₀ op q → (∀ r q', P.answer q op r q' → (k r).Follows P Φ q') →
      Fits P Φ (some (.waiting op k)) (some q)

section

omit [DecidableEq T]

theorem Fits.of_none {Φ : P.Phase → Except ε α → Prop} {o : Option (Task σ ε α)} {q : Option P.Phase}
    (h : Fits P Φ o q) (ho : o = none) : q = none := by
  subst ho
  cases h
  rfl

theorem Fits.of_some {Φ : P.Phase → Except ε α → Prop} {o : Option (Task σ ε α)} {τ : Task σ ε α} {q : Option P.Phase}
    (h : Fits P Φ o q) (ho : o = some τ) : ∃ q₁, q = some q₁ := by
  subst ho
  cases h with
  | ready _ => exact ⟨_, rfl⟩
  | waiting _ _ => exact ⟨_, rfl⟩

theorem Fits.of_ready {Φ : P.Phase → Except ε α → Prop} {o : Option (Task σ ε α)} {p : Prog σ ε α} {q : Option P.Phase}
    (h : Fits P Φ o q) (ho : o = some (.ready p)) : ∃ q₁, q = some q₁ ∧ p.Follows P Φ q₁ := by
  subst ho
  cases h with
  | ready hp => exact ⟨_, rfl, hp⟩

theorem Fits.of_waiting {Φ : P.Phase → Except ε α → Prop} {o : Option (Task σ ε α)} {op : σ.Op}
    {k : Except ε (σ.Res op) → Prog σ ε α} {q : Option P.Phase} (h : Fits P Φ o q) (ho : o = some (.waiting op k)) :
    ∃ q₀ q₁, q = some q₁ ∧ P.issue q₀ op q₁ ∧ ∀ r q', P.answer q₁ op r q' → (k r).Follows P Φ q' := by
  subst ho
  cases h with
  | waiting hi hk => exact ⟨_, _, rfl, hi, hk⟩

end

/-- A step of the system with phases in the place of programs: what a step does to the phases, if the protocol allows it. -/
inductive PhaseStep (sys : System σ ε α T S L) (P : Protocol σ ε T) (Φ : T → P.Phase → Except ε α → Prop) (s : S)
    (g : T → Option P.Phase) : Label σ ε α T L → S → (T → Option P.Phase) → Prop where
  | spawn {t : T} : g t = none → PhaseStep sys P Φ s g (.spawn t) s (Function.update g t (some (P.start t)))
  | call {s' : S} {t : T} {op : σ.Op} {q q' : P.Phase} :
      g t = some q → P.issue q op q' → sys.call s t op s' →
      PhaseStep sys P Φ s g (.call t op) s' (Function.update g t (some q'))
  | answer {s' : S} {t : T} {op : σ.Op} {r : Except ε (σ.Res op)} {q₀ q q' : P.Phase} :
      g t = some q → P.issue q₀ op q → P.answer q op r q' → sys.answer s t op r s' →
      PhaseStep sys P Φ s g (.answer t op r) s' (Function.update g t (some q'))
  | finish {s' : S} {t : T} {r : Except ε α} {q : P.Phase} :
      g t = some q → Φ t q r → sys.finish s t r s' →
      PhaseStep sys P Φ s g (.finish t r) s' (Function.update g t none)
  | crash {s' : S} {t : T} {q : P.Phase} :
      g t = some q → sys.crash s t s' → PhaseStep sys P Φ s g (.crash t) s' (Function.update g t none)
  | env {s' : S} {l : L} : sys.env s l s' → PhaseStep sys P Φ s g (.env l) s' g

/-- A step changes the phase of its own task only. -/
theorem PhaseStep.other {s s' : S} {g g' : T → Option P.Phase} {l : Label σ ε α T L}
    (h : PhaseStep sys P Φ s g l s' g') {u : T} (hu : l.task ≠ some u) : g' u = g u := by
  cases h with
  | env _ => rfl
  | _ => exact Function.update_of_ne (fun h => hu (congrArg some h.symm)) _ _

/-- Where the phase of a task comes from: it is the one before, or the task was started, or it made a call or was answered. -/
theorem PhaseStep.phase_cases {s s' : S} {g g' : T → Option P.Phase} {l : Label σ ε α T L}
    (h : PhaseStep sys P Φ s g l s' g') {u : T} {q' : P.Phase} (hq : g' u = some q') :
    (l.task ≠ some u ∧ g u = some q') ∨ (l = .spawn u ∧ q' = P.start u) ∨
      (∃ op q, l = .call u op ∧ g u = some q ∧ P.issue q op q') ∨
      ∃ op r q₀ q, l = .answer u op r ∧ g u = some q ∧ P.issue q₀ op q ∧ P.answer q op r q' := by
  by_cases hu : l.task = some u
  · refine .inr ?_
    cases h with
    | @spawn t _ =>
      obtain rfl : t = u := Option.some.inj hu
      rw [Function.update_self, Option.some.injEq] at hq
      exact .inl ⟨rfl, hq.symm⟩
    | @call _ t op q q₁ hg hi _ =>
      obtain rfl : t = u := Option.some.inj hu
      rw [Function.update_self, Option.some.injEq] at hq
      exact .inr (.inl ⟨op, q, rfl, hg, hq ▸ hi⟩)
    | @answer _ t op r q₀ q q₁ hg hi ha _ =>
      obtain rfl : t = u := Option.some.inj hu
      rw [Function.update_self, Option.some.injEq] at hq
      exact .inr (.inr ⟨op, r, q₀, q, rfl, hg, hi, hq ▸ ha⟩)
    | @finish _ t r q _ _ _ =>
      obtain rfl : t = u := Option.some.inj hu
      rw [Function.update_self] at hq
      cases hq
    | @crash _ t q _ _ =>
      obtain rfl : t = u := Option.some.inj hu
      rw [Function.update_self] at hq
      cases hq
    | env _ => cases hu
  · exact .inl ⟨hu, h.other hu ▸ hq⟩

/-- What it takes for `J` to hold in every run: the programs follow the protocol, the protocol has a phase for every answer there
can be, and every step the protocol allows keeps `J`, which speaks of the shared state, the labels so far and the phases. -/
structure Invariant (sys : System σ ε α T S L) (ok : List (Label σ ε α T L) → Label σ ε α T L → Prop) (P : Protocol σ ε T)
    (Φ : T → P.Phase → Except ε α → Prop) (J : S → List (Label σ ε α T L) → (T → Option P.Phase) → Prop) : Prop where
  follows : ∀ t, (sys.program t).Follows P (Φ t) (P.start t)
  answered : ∀ s ls g t op r s' q₀ q, J s ls g → g t = some q → P.issue q₀ op q → sys.answer s t op r s' →
    ok ls (.answer t op r) → ∃ q', P.answer q op r q'
  init : ∀ s, sys.init s → J s [] fun _ => none
  step : ∀ s ls g l s' g', J s ls g → PhaseStep sys P Φ s g l s' g' → ok ls l → J s' (ls ++ [l]) g'

/-- An invariant may be used to prove another one. -/
theorem Invariant.and {J K : S → List (Label σ ε α T L) → (T → Option P.Phase) → Prop} (hJ : Invariant sys ok P Φ J)
    (init : ∀ s, sys.init s → K s [] fun _ => none)
    (step : ∀ s ls g l s' g', J s ls g → J s' (ls ++ [l]) g' → K s ls g → PhaseStep sys P Φ s g l s' g' → ok ls l →
      K s' (ls ++ [l]) g') :
    Invariant sys ok P Φ fun s ls g => J s ls g ∧ K s ls g where
  follows := hJ.follows
  answered s ls g t op r s' q₀ q h := hJ.answered s ls g t op r s' q₀ q h.1
  init s hs := ⟨hJ.init s hs, init s hs⟩
  step s ls g l s' g' h hst hl := by
    have hJ' := hJ.step s ls g l s' g' h.1 hst hl
    exact ⟨hJ', step s ls g l s' g' h.1 hJ' h.2 hst hl⟩

/-- What a step leaves is kept by the steps after it: of every label of a run, `K` holds from there on, with the labels before it and
those since. -/
theorem Invariant.since {J : S → List (Label σ ε α T L) → (T → Option P.Phase) → Prop}
    {K : List (Label σ ε α T L) → Label σ ε α T L → List (Label σ ε α T L) → S → (T → Option P.Phase) → Prop}
    (hJ : Invariant sys ok P Φ J)
    (first : ∀ s ls g l s' g', J s ls g → J s' (ls ++ [l]) g' → PhaseStep sys P Φ s g l s' g' → K ls l [] s' g')
    (next : ∀ s ls g l s' g' pre l₀ post, J s ls g → K pre l₀ post s g → PhaseStep sys P Φ s g l s' g' →
      K pre l₀ (post ++ [l]) s' g') :
    Invariant sys ok P Φ fun s ls g => J s ls g ∧ ∀ pre l post, ls = pre ++ l :: post → K pre l post s g := by
  refine hJ.and ?_ ?_
  · intro s _ pre l post h
    simp at h
  · intro s ls g l s' g' h h' hK hst _ pre l₀ post hls
    rcases append_singleton_cases hls with ⟨rfl, rfl, rfl⟩ | ⟨post', rfl, rfl⟩
    · exact first s ls g l s' g' h h' hst
    · exact next s _ g l s' g' pre l₀ post' h (hK pre l₀ post' rfl) hst

/-- The tasks fit their phases after one task and its phase are replaced. -/
theorem fits_update {tasks : T → Option (Task σ ε α)} {g : T → Option P.Phase} (h : ∀ t, Fits P (Φ t) (tasks t) (g t))
    {t : T} {τ : Option (Task σ ε α)} {q : Option P.Phase} (ht : Fits P (Φ t) τ q) :
    ∀ u, Fits P (Φ u) (Function.update tasks t τ u) (Function.update g t q u) := by
  intro u
  by_cases hu : u = t
  · subst hu
    simpa using ht
  · simpa [Function.update_of_ne hu] using h u

/-- A step from tasks that fit their phases is a step of the phases, and leaves tasks that fit them. -/
theorem Invariant.phase_step {J : S → List (Label σ ε α T L) → (T → Option P.Phase) → Prop} (hJ : Invariant sys ok P Φ J)
    {c c' : Config σ ε α T S} {ls : List (Label σ ε α T L)} {l : Label σ ε α T L} {g : T → Option P.Phase}
    (hg : J c.shared ls g) (hfit : ∀ t, Fits P (Φ t) (c.tasks t) (g t)) (hst : Step sys c l c') (hl : ok ls l) :
    ∃ g', PhaseStep sys P Φ c.shared g l c'.shared g' ∧ ∀ t, Fits P (Φ t) (c'.tasks t) (g' t) := by
  cases hst with
  | @spawn s tasks t ht =>
    exact ⟨_, .spawn ((hfit t).of_none ht), fits_update hfit (.ready (hJ.follows t))⟩
  | @call s s' tasks t op k ht hc =>
    obtain ⟨q, hq, q', hi, hk⟩ := (hfit t).of_ready ht
    exact ⟨_, .call hq hi hc, fits_update hfit (.waiting hi hk)⟩
  | @answer s s' tasks t op k r ht ha =>
    obtain ⟨q₀, q, hq, hi, hk⟩ := (hfit t).of_waiting ht
    obtain ⟨q', hq'⟩ := hJ.answered _ _ g t op r _ q₀ q hg hq hi ha hl
    exact ⟨_, .answer hq hi hq' ha, fits_update hfit (.ready (hk r q' hq'))⟩
  | @finish s s' tasks t r ht hfin =>
    obtain ⟨q, hq, hp⟩ := (hfit t).of_ready ht
    exact ⟨_, .finish hq hp hfin, fits_update hfit .absent⟩
  | @crash s s' tasks t τ ht hcr =>
    obtain ⟨q, hq⟩ := (hfit t).of_some ht
    exact ⟨_, .crash hq hcr, fits_update hfit .absent⟩
  | env he => exact ⟨g, .env he, hfit⟩

/-- An invariant holds in every run, for phases that fit the tasks. -/
theorem Invariant.holds {J : S → List (Label σ ε α T L) → (T → Option P.Phase) → Prop}
    (hJ : Invariant sys ok P Φ J) {c : Config σ ε α T S} {ls : List (Label σ ε α T L)} (hr : Run sys ok c ls) :
    ∃ g, J c.shared ls g ∧ ∀ t, Fits P (Φ t) (c.tasks t) (g t) := by
  induction hr with
  | init hs => exact ⟨fun _ => none, hJ.init _ hs, fun _ => .absent⟩
  | step _ hst hl ih =>
    obtain ⟨g, hg, hfit⟩ := ih
    obtain ⟨g', hph, hfit'⟩ := hJ.phase_step hg hfit hst hl
    exact ⟨g', hJ.step _ _ _ _ _ _ hg hph hl, hfit'⟩

end System

end MtossBot
