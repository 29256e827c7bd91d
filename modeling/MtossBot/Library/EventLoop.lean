import Mathlib.Logic.Function.Basic
import Mathlib.Logic.Relation
import MtossBot.Library.Prog

/-!
# Event loops

Coroutines that take turns on one thread. A coroutine runs until a call suspends it, and nothing comes between: the calls that return
at once are made in one step with the code around them. `EventLoop` says which calls suspend and what an answer to them is and does.

`Keeps` is the proof rule for a part of a run: every coroutine that is resumed in a state of a set leaves a state of that set behind it
whenever it is suspended. `Awaits` says something of every call in a coroutine, and so of the call that a suspended one waits for.
`Makes` says which calls a coroutine may come to make when the answers are of a kind, and is the rule for what such calls preserve.
`Along` is the form in which a coroutine is walked through once for both.
-/

namespace MtossBot

/-- Coroutines over a shared state: what a call does that returns at once, what becomes of the state when one suspends, and what its
answers are and do. -/
structure EventLoop (σ : Sig) (ε α T S : Type) where
  init : S → Prop
  program : T → Prog σ ε α
  now : S → (op : σ.Op) → Option (Except ε (σ.Res op) × S)
  suspend : S → T → σ.Op → S
  resume : S → T → (op : σ.Op) → Except ε (σ.Res op) → S → Prop
  env : S → S → Prop

/-- A coroutine that waits for the answer to a call. -/
structure Suspended (σ : Sig) (ε α : Type) where
  op : σ.Op
  k : Except ε (σ.Res op) → Prog σ ε α

namespace EventLoop

variable {σ : Sig} {ε α T S : Type} (loop : EventLoop σ ε α T S)

/-- Run a coroutine until it is suspended or ends. -/
def advance (t : T) : Prog σ ε α → S → S × Option (Suspended σ ε α)
  | .done _, s => (s, none)
  | .call op k, s =>
    match loop.now s op with
    | some (r, s') => advance t (k r) s'
    | none => (loop.suspend s t op, some ⟨op, k⟩)

/-- The shared state and the suspended coroutines. -/
structure Config (σ : Sig) (ε α T S : Type) where
  shared : S
  tasks : T → Option (Suspended σ ε α)

/-- One turn: a coroutine starts or is resumed, and runs until it is suspended or ends; or the environment takes a step. -/
inductive Step [DecidableEq T] : Config σ ε α T S → Config σ ε α T S → Prop where
  | spawn {s : S} {tasks : T → Option (Suspended σ ε α)} {t : T} :
      tasks t = none →
      Step ⟨s, tasks⟩ ⟨(loop.advance t (loop.program t) s).1, Function.update tasks t (loop.advance t (loop.program t) s).2⟩
  | resume {s s₁ : S} {tasks : T → Option (Suspended σ ε α)} {t : T} {τ : Suspended σ ε α} {r : Except ε (σ.Res τ.op)} :
      tasks t = some τ → loop.resume s t τ.op r s₁ →
      Step ⟨s, tasks⟩ ⟨(loop.advance t (τ.k r) s₁).1, Function.update tasks t (loop.advance t (τ.k r) s₁).2⟩
  | env {s s' : S} {tasks : T → Option (Suspended σ ε α)} : loop.env s s' → Step ⟨s, tasks⟩ ⟨s', tasks⟩

/-- Any number of turns, each of which is allowed by `ok`. -/
abbrev Turns [DecidableEq T] (ok : Config σ ε α T S → Config σ ε α T S → Prop) : Config σ ε α T S → Config σ ε α T S → Prop :=
  Relation.ReflTransGen fun c c' => loop.Step c c' ∧ ok c c'

/-! ## What holds of every call -/

/-- Every call of a coroutine, with what comes after it, satisfies `Q`, whatever the answers are. -/
def Awaits (Q : (op : σ.Op) → (Except ε (σ.Res op) → Prog σ ε α) → Prop) : Prog σ ε α → Prop
  | .done _ => True
  | .call op k => Q op k ∧ ∀ r, Awaits Q (k r)

variable {loop} {Q : (op : σ.Op) → (Except ε (σ.Res op) → Prog σ ε α) → Prop}

/-- A coroutine suspended by one of the calls of which `Q` is said. -/
def Suspended.Awaits (loop : EventLoop σ ε α T S) (Q : (op : σ.Op) → (Except ε (σ.Res op) → Prog σ ε α) → Prop)
    (τ : Suspended σ ε α) : Prop :=
  (∃ s, loop.now s τ.op = none) ∧ Q τ.op τ.k ∧ ∀ r, EventLoop.Awaits Q (τ.k r)

theorem awaits_advance {t : T} {p : Prog σ ε α} {s : S} {τ : Suspended σ ε α} (hp : Awaits Q p) (h : (loop.advance t p s).2 = some τ) :
    Suspended.Awaits loop Q τ := by
  induction p generalizing s with
  | done r => cases h
  | call op k ih =>
    cases hnow : loop.now s op with
    | some answer =>
      simp only [advance, hnow] at h
      exact ih answer.1 (hp.2 answer.1) h
    | none =>
      simp only [advance, hnow] at h
      cases h
      exact ⟨⟨s, hnow⟩, hp⟩

/-- What holds of every call holds of the call that a suspended coroutine waits for. -/
theorem awaits_turns [DecidableEq T] {ok : Config σ ε α T S → Config σ ε α T S → Prop} {c₀ c : Config σ ε α T S}
    (hprogram : ∀ t, Awaits Q (loop.program t)) (h₀ : ∀ t, c₀.tasks t = none) (h : loop.Turns ok c₀ c) :
    ∀ t τ, c.tasks t = some τ → Suspended.Awaits loop Q τ := by
  induction h with
  | refl =>
    intro t τ hτ
    rw [h₀] at hτ
    cases hτ
  | tail _ hstep ih =>
    intro u τ hτ
    cases hstep.1 with
    | @spawn s tasks t ht =>
      dsimp only at hτ
      rw [Function.update_apply] at hτ
      split at hτ
      · exact awaits_advance (hprogram t) hτ
      · exact ih u τ hτ
    | @resume s s₁ tasks t τ₀ r ht hr =>
      dsimp only at hτ
      rw [Function.update_apply] at hτ
      split at hτ
      · exact awaits_advance ((ih t τ₀ ht).2.2 r) hτ
      · exact ih u τ hτ
    | env _ => exact ih u τ hτ

/-! ## A set of states that is not left -/

variable (loop)

/-- Run from a state, a coroutine leaves a state in `I` behind it whenever it is suspended or ends, it waits only for calls in `A`, and
this is so again when it is resumed in a state in `I`. -/
def Keeps (I : S → Prop) (A : σ.Op → Prop) : Prog σ ε α → S → Prop
  | .done _, s => I s
  | .call op k, s =>
    match loop.now s op with
    | some (r, s') => Keeps I A (k r) s'
    | none => (∀ t, I (loop.suspend s t op)) ∧ A op ∧ ∀ r s', I s' → Keeps I A (k r) s'

variable {loop} {I : S → Prop} {A : σ.Op → Prop}

/-- A suspended coroutine that keeps to `I`, however it is resumed. -/
def Suspended.Keeps (loop : EventLoop σ ε α T S) (I : S → Prop) (A : σ.Op → Prop) (τ : Suspended σ ε α) : Prop :=
  ∀ r s, I s → loop.Keeps I A (τ.k r) s

theorem keeps_advance {p : Prog σ ε α} {s : S} (t : T) (h : loop.Keeps I A p s) :
    I (loop.advance t p s).1 ∧
      ∀ τ, (loop.advance t p s).2 = some τ → A τ.op ∧ Suspended.Keeps loop I A τ := by
  induction p generalizing s with
  | done r => exact ⟨h, nofun⟩
  | call op k ih =>
    cases hnow : loop.now s op with
    | some answer =>
      simp only [EventLoop.Keeps, hnow] at h
      simp only [advance, hnow]
      exact ih answer.1 h
    | none =>
      simp only [EventLoop.Keeps, hnow] at h
      simp only [advance, hnow]
      refine ⟨h.1 t, fun τ hτ => ?_⟩
      cases hτ
      exact h.2

/-- The states in `I` are not left: it is enough that the coroutines, and the steps in between, keep to it. -/
theorem keeps_step [DecidableEq T] {c c' : Config σ ε α T S} (hprogram : ∀ t s, I s → loop.Keeps I A (loop.program t) s)
    (hresume : ∀ s t op r s', I s → loop.resume s t op r s' → I s') (henv : ∀ s s', I s → loop.env s s' → I s')
    (hI : I c.shared) (hkeeps : ∀ t τ, c.tasks t = some τ → Suspended.Keeps loop I A τ) (h : loop.Step c c') :
    I c'.shared ∧ ∀ t τ, c'.tasks t = some τ → Suspended.Keeps loop I A τ ∧ (c.tasks t = some τ ∨ A τ.op) := by
  have hturn : ∀ {s : S} {tasks : T → Option (Suspended σ ε α)} {t : T} {p : Prog σ ε α},
      (∀ t τ, tasks t = some τ → Suspended.Keeps loop I A τ) → loop.Keeps I A p s →
      I (loop.advance t p s).1 ∧ ∀ u τ, Function.update tasks t (loop.advance t p s).2 u = some τ →
        Suspended.Keeps loop I A τ ∧ (tasks u = some τ ∨ A τ.op) := by
    intro s tasks t p htasks hp
    refine ⟨(keeps_advance t hp).1, fun u τ hτ => ?_⟩
    rw [Function.update_apply] at hτ
    split at hτ
    · obtain ⟨hA, hk⟩ := (keeps_advance t hp).2 τ hτ
      exact ⟨hk, .inr hA⟩
    · exact ⟨htasks u τ hτ, .inl hτ⟩
  cases h with
  | @spawn s tasks t ht => exact hturn hkeeps (hprogram t s hI)
  | @resume s s₁ tasks t τ r ht hr => exact hturn hkeeps (hkeeps t τ ht r s₁ (hresume _ _ _ _ _ hI hr))
  | env he => exact ⟨henv _ _ hI he, fun t τ hτ => ⟨hkeeps t τ hτ, .inl hτ⟩⟩

/-! ## The calls that are made when the answers are of a kind -/

/-- A coroutine makes only calls in `A`, as long as every answer is one of `R`. -/
def Makes (R : (op : σ.Op) → Except ε (σ.Res op) → Prop) (A : σ.Op → Prop) : Prog σ ε α → Prop
  | .done _ => True
  | .call op k => A op ∧ ∀ r, R op r → Makes R A (k r)

/-- A step that does not resume a coroutine with an answer that is not one of `R`. -/
def Within [DecidableEq T] (loop : EventLoop σ ε α T S) (R : (op : σ.Op) → Except ε (σ.Res op) → Prop) (c c' : Config σ ε α T S) :
    Prop :=
  ∀ t τ r s₁, c.tasks t = some τ → loop.resume c.shared t τ.op r s₁ →
    c' = ⟨(loop.advance t (τ.k r) s₁).1, Function.update c.tasks t (loop.advance t (τ.k r) s₁).2⟩ → R τ.op r

variable {R : (op : σ.Op) → Except ε (σ.Res op) → Prop}

theorem makes_advance (hnow : ∀ s op r s', I s → A op → loop.now s op = some (r, s') → R op r ∧ I s')
    (hsuspend : ∀ s t op, I s → A op → I (loop.suspend s t op)) {t : T} {p : Prog σ ε α} {s : S} (hp : Makes R A p) (hI : I s) :
    I (loop.advance t p s).1 ∧ ∀ τ, (loop.advance t p s).2 = some τ → ∀ r, R τ.op r → Makes R A (τ.k r) := by
  induction p generalizing s with
  | done r => exact ⟨hI, nofun⟩
  | call op k ih =>
    cases h : loop.now s op with
    | some answer =>
      obtain ⟨hR, hI'⟩ := hnow s op answer.1 answer.2 hI hp.1 h
      simp only [advance, h]
      exact ih answer.1 (hp.2 answer.1 hR) hI'
    | none =>
      simp only [advance, h]
      refine ⟨hsuspend s t op hI hp.1, fun τ hτ => ?_⟩
      cases hτ
      exact hp.2

/-- What the calls in `A` preserve holds in every run whose answers are all in `R`, if the coroutines make no other calls then. -/
theorem makes_turns [DecidableEq T] {c₀ c : Config σ ε α T S} (hprogram : ∀ t, Makes R A (loop.program t))
    (hnow : ∀ s op r s', I s → A op → loop.now s op = some (r, s') → R op r ∧ I s')
    (hsuspend : ∀ s t op, I s → A op → I (loop.suspend s t op)) (hresume : ∀ s t op r s', I s → loop.resume s t op r s' → I s')
    (henv : ∀ s s', I s → loop.env s s' → I s') (hnone : ∀ t, c₀.tasks t = none) (hI : I c₀.shared)
    (h : loop.Turns (loop.Within R) c₀ c) : I c.shared := by
  suffices hall : I c.shared ∧ ∀ t τ, c.tasks t = some τ → ∀ r, R τ.op r → Makes R A (τ.k r) from hall.1
  have hturn : ∀ {s : S} {tasks : T → Option (Suspended σ ε α)} {t : T} {p : Prog σ ε α},
      (∀ t τ, tasks t = some τ → ∀ r, R τ.op r → Makes R A (τ.k r)) → Makes R A p → I s →
      I (loop.advance t p s).1 ∧ ∀ u τ, Function.update tasks t (loop.advance t p s).2 u = some τ →
        ∀ r, R τ.op r → Makes R A (τ.k r) := by
    intro s tasks t p htasks hp hs
    obtain ⟨hI', hsuspended⟩ := makes_advance (t := t) hnow hsuspend hp hs
    refine ⟨hI', fun u τ hτ => ?_⟩
    rw [Function.update_apply] at hτ
    split at hτ
    · exact hsuspended τ hτ
    · exact htasks u τ hτ
  induction h with
  | refl => exact ⟨hI, fun t τ hτ => by rw [hnone] at hτ; cases hτ⟩
  | tail _ hstep ih =>
    obtain ⟨hstep, hwithin⟩ := hstep
    cases hstep with
    | @spawn s tasks t ht => exact hturn ih.2 (hprogram t) ih.1
    | @resume s s₁ tasks t τ r ht hr =>
      have hR : R τ.op r := hwithin t τ r s₁ ht hr rfl
      exact hturn ih.2 (ih.2 t τ ht r hR) (hresume _ _ _ _ _ ih.1 hr)
    | env he => exact ⟨henv _ _ ih.1 he, ih.2⟩

/-! ## Both at once -/

/-- Every call that a coroutine may come to make when the answers are of a kind, with what comes after it, satisfies `Q`. -/
def Along (R : (op : σ.Op) → Except ε (σ.Res op) → Prop) (Q : (op : σ.Op) → (Except ε (σ.Res op) → Prog σ ε α) → Prop) :
    Prog σ ε α → Prop
  | .done _ => True
  | .call op k => Q op k ∧ ∀ r, R op r → Along R Q (k r)

theorem awaits_of_along {p : Prog σ ε α} (h : Along (fun _ _ => True) Q p) : Awaits Q p := by
  induction p with
  | done r => trivial
  | call op k ih => exact ⟨h.1, fun r => ih r (h.2 r trivial)⟩

theorem makes_of_along {p : Prog σ ε α} (h : Along R (fun op _ => A op) p) : Makes R A p := by
  induction p with
  | done r => trivial
  | call op k ih => exact ⟨h.1, fun r hr => ih r (h.2 r hr)⟩

end EventLoop
end MtossBot
