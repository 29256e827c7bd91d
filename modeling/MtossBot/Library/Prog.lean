import Mathlib.Tactic.Common

/-!
# Programs that call out

A coroutine awaits calls it does not control. `Prog` is such a coroutine as a tree: it ends with a value or an exception, or it
makes a call and goes on with whatever the call answers, a value or an exception. Nothing here says what the calls do; that is
the business of a handler (`Prog.eval`) or of a pool of tasks over a shared state (`Library.Pool`).
-/

namespace MtossBot

/-- The calls a program may make, and the type of the value each one answers with. -/
structure Sig where
  Op : Type
  Res : Op → Type

/-- A program over the calls of `σ`, with exceptions of type `ε` and a result of type `α`. -/
inductive Prog (σ : Sig) (ε α : Type) : Type where
  | done (r : Except ε α)
  | call (op : σ.Op) (k : Except ε (σ.Res op) → Prog σ ε α)

namespace Prog

variable {σ : Sig} {ε α β γ : Type}

/-- Go on with the outcome of a program, value or exception: the one way programs are sequenced. -/
def andThen : Prog σ ε α → (Except ε α → Prog σ ε β) → Prog σ ε β
  | done r, f => f r
  | call op k, f => call op fun r => (k r).andThen f

/-- Go on after a value; an exception ends the program. -/
def bind (p : Prog σ ε α) (f : α → Prog σ ε β) : Prog σ ε β :=
  p.andThen fun
    | .ok a => f a
    | .error e => done (.error e)

instance : Monad (Prog σ ε) where
  pure a := done (.ok a)
  bind := bind

/-- End with an exception. -/
def raise (e : ε) : Prog σ ε α := done (.error e)

/-- Make one call and end with its answer. -/
def perform (op : σ.Op) : Prog σ ε (σ.Res op) := call op done

/-- `try: p except: handler`: the handler is told the exception and may raise it again. -/
def tryExcept (p : Prog σ ε α) (handler : ε → Prog σ ε α) : Prog σ ε α :=
  p.andThen fun
    | .ok a => done (.ok a)
    | .error e => handler e

/-- `try: p finally: final`: the finalizer runs on every outcome, and its own exception replaces the outcome. -/
def tryFinally (p : Prog σ ε α) (final : Except ε α → Prog σ ε Unit) : Prog σ ε α :=
  p.andThen fun r => (final r).andThen fun
    | .ok _ => done r
    | .error e => done (.error e)

/-- A computation that makes no call. -/
def ofExcept (r : Except ε α) : Prog σ ε α := done r

/-- Run a program to its end against a handler that answers every call and keeps a state. -/
def eval {S : Type} (handler : S → (op : σ.Op) → Except ε (σ.Res op) × S) : Prog σ ε α → S → Except ε α × S
  | done r, s => (r, s)
  | call op k, s => (k (handler s op).1).eval handler (handler s op).2

/-- A program over other calls: each call is replaced by the program that makes it. -/
def interpret {τ : Sig} (f : (op : σ.Op) → Prog τ ε (σ.Res op)) : Prog σ ε α → Prog τ ε α
  | done r => done r
  | call op k => (f op).andThen fun r => (k r).interpret f

@[simp] theorem done_andThen (r : Except ε α) (f : Except ε α → Prog σ ε β) : (done r).andThen f = f r := rfl

@[simp] theorem call_andThen (op : σ.Op) (k : Except ε (σ.Res op) → Prog σ ε α) (f : Except ε α → Prog σ ε β) :
    (call op k).andThen f = call op fun r => (k r).andThen f := rfl

theorem bind_eq (p : Prog σ ε α) (f : α → Prog σ ε β) : p >>= f = p.bind f := rfl

/-- Running a sequence: the second program starts where the first one ends. -/
theorem eval_andThen {S : Type} (handler : S → (op : σ.Op) → Except ε (σ.Res op) × S) (p : Prog σ ε α)
    (f : Except ε α → Prog σ ε β) (s : S) :
    (p.andThen f).eval handler s = (f (p.eval handler s).1).eval handler (p.eval handler s).2 := by
  induction p generalizing s with
  | done r => rfl
  | call op k ih => exact ih _ _

theorem eval_bind {S : Type} (handler : S → (op : σ.Op) → Except ε (σ.Res op) × S) (p : Prog σ ε α) (f : α → Prog σ ε β)
    (s : S) : (p >>= f).eval handler s =
      match p.eval handler s with
      | (.ok a, s) => (f a).eval handler s
      | (.error e, s) => (.error e, s) := by
  rw [bind_eq, bind, eval_andThen]
  rcases p.eval handler s with ⟨_ | _, s⟩ <;> rfl

/-- Running an interpreted program: its calls are answered by running what they are replaced by. -/
theorem eval_interpret {τ : Sig} {S : Type} (f : (op : σ.Op) → Prog τ ε (σ.Res op))
    (handler : S → (op : τ.Op) → Except ε (τ.Res op) × S) (p : Prog σ ε α) (s : S) :
    (p.interpret f).eval handler s = p.eval (fun s op => (f op).eval handler s) s := by
  induction p generalizing s with
  | done r => rfl
  | call op k ih =>
    rw [interpret, eval_andThen, ih]
    rfl

theorem bind_pure (p : Prog σ ε α) : p >>= pure = p := by
  rw [bind_eq, bind]
  induction p with
  | done r => cases r <;> rfl
  | call op k ih => simp only [call_andThen, ih]

/-- Sequencing associates. -/
theorem andThen_assoc (p : Prog σ ε α) (f : Except ε α → Prog σ ε β) (g : Except ε β → Prog σ ε γ) :
    (p.andThen f).andThen g = p.andThen fun r => (f r).andThen g := by
  induction p with
  | done r => rfl
  | call op k ih => simp only [call_andThen, ih]

end Prog

end MtossBot
