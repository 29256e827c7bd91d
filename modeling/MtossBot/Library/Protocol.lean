import MtossBot.Library.Prog

/-!
# Protocols of programs

A protocol says, for each phase a task may be in, which calls it may make and what it knows once the call is in flight and once
it is answered. `Follows P Φ q p` says the program `p`, started in phase `q`, makes only the calls `P` allows, whatever the
answers are, and ends only in phases and with outcomes that satisfy `Φ`. The rules below follow the shape of a program, so that
each helper coroutine gets one statement and its callers use that statement.
-/

namespace MtossBot

/-- A protocol over the calls of `σ`: a task `t` starts in phase `start t`; `issue q op q'` allows `op` in phase `q` and makes `q'` the
phase while it is in flight; `answer q op r q'` allows the answer `r` and makes `q'` the phase after it. -/
structure Protocol (σ : Sig) (ε T : Type) where
  Phase : Type
  start : T → Phase
  issue : Phase → σ.Op → Phase → Prop
  answer : Phase → (op : σ.Op) → Except ε (σ.Res op) → Phase → Prop

namespace Prog

variable {σ : Sig} {ε T α β : Type} {P : Protocol σ ε T}

/-- From phase `q` the program makes only calls the protocol allows, and ends as `Φ` says. -/
def Follows (P : Protocol σ ε T) (Φ : P.Phase → Except ε α → Prop) : P.Phase → Prog σ ε α → Prop
  | q, done r => Φ q r
  | q, call op k => ∃ q₁, P.issue q op q₁ ∧ ∀ r q₂, P.answer q₁ op r q₂ → (k r).Follows P Φ q₂

variable {Φ Ψ : P.Phase → Except ε α → Prop}

@[simp] theorem follows_done {q : P.Phase} {r : Except ε α} : (done r).Follows P Φ q ↔ Φ q r := Iff.rfl

/-- A weaker postcondition. -/
theorem Follows.mono {p : Prog σ ε α} (hΦ : ∀ q r, Φ q r → Ψ q r) :
    ∀ {q : P.Phase}, p.Follows P Φ q → p.Follows P Ψ q := by
  induction p with
  | done r => intro q h; exact hΦ q r h
  | call op k ih =>
    rintro q ⟨q₁, hi, hk⟩
    exact ⟨q₁, hi, fun r q₂ ha => ih r (hk r q₂ ha)⟩

/-- Sequencing: the second program starts in whatever phase the first one ends in, told its outcome. -/
theorem Follows.andThen {p : Prog σ ε α} {f : Except ε α → Prog σ ε β} {Θ : P.Phase → Except ε β → Prop} :
    ∀ {q : P.Phase}, p.Follows P (fun q' r => (f r).Follows P Θ q') q → (p.andThen f).Follows P Θ q := by
  induction p with
  | done r => intro q h; exact h
  | call op k ih =>
    rintro q ⟨q₁, hi, hk⟩
    exact ⟨q₁, hi, fun r q₂ ha => ih r (hk r q₂ ha)⟩

/-- Sequencing by way of a statement about the first program. -/
theorem Follows.seq {p : Prog σ ε α} {f : Except ε α → Prog σ ε β} {Θ : P.Phase → Except ε β → Prop} {q : P.Phase}
    (hp : p.Follows P Φ q) (hf : ∀ q' r, Φ q' r → (f r).Follows P Θ q') : (p.andThen f).Follows P Θ q :=
  Follows.andThen (hp.mono hf)

/-- The rule of `do`: values go on, exceptions end the program. -/
theorem Follows.bind {p : Prog σ ε α} {f : α → Prog σ ε β} {Θ : P.Phase → Except ε β → Prop} {q : P.Phase}
    (hp : p.Follows P Φ q) (hok : ∀ q' a, Φ q' (.ok a) → (f a).Follows P Θ q')
    (herr : ∀ q' e, Φ q' (.error e) → Θ q' (.error e)) : (p >>= f).Follows P Θ q := by
  refine Follows.seq hp ?_
  intro q' r h
  cases r with
  | ok a => exact hok q' a h
  | error e => exact herr q' e h

/-- The rule of `except`. -/
theorem Follows.tryExcept {p : Prog σ ε α} {handler : ε → Prog σ ε α} {Θ : P.Phase → Except ε α → Prop} {q : P.Phase}
    (hp : p.Follows P Φ q) (hok : ∀ q' a, Φ q' (.ok a) → Θ q' (.ok a))
    (herr : ∀ q' e, Φ q' (.error e) → (handler e).Follows P Θ q') : (p.tryExcept handler).Follows P Θ q := by
  refine Follows.seq hp ?_
  intro q' r h
  cases r with
  | ok a => exact hok q' a h
  | error e => exact herr q' e h

/-- The rule of `finally`: the finalizer starts in the phase the body ends in, and either keeps the outcome or replaces it. -/
theorem Follows.tryFinally {p : Prog σ ε α} {final : Except ε α → Prog σ ε Unit} {Θ : P.Phase → Except ε α → Prop}
    {q : P.Phase} (hp : p.Follows P Φ q)
    (hfin : ∀ q' r, Φ q' r → (final r).Follows P
      (fun q'' f => match f with | .ok _ => Θ q'' r | .error e => Θ q'' (.error e)) q') :
    (p.tryFinally final).Follows P Θ q := by
  refine Follows.seq hp fun q' r h => Follows.seq (hfin q' r h) ?_
  intro q'' f hf
  cases f with
  | ok _ => exact hf
  | error e => exact hf

/-- A computation without calls. -/
theorem Follows.ofExcept {r : Except ε α} {q : P.Phase} (h : Φ q r) : (Prog.ofExcept r).Follows P Φ q := h

end Prog

end MtossBot
