import Mathlib.Data.Set.Finite.Basic
import Mathlib.Logic.Relation

/-!
# Following links

A loop visits an object, goes on to the one it is linked to, and ends when there is none or when the next one has been seen. The
links may lead back to any object, so what decreases is the number of objects that have not been seen. Where finitely many can be
reached, the loop ends, and unless a visit fails it has then seen exactly those.
-/

namespace MtossBot

variable {α σ ε : Type}

/-- The loop in at most so many rounds, `none` if they do not suffice. A visit changes a state and says where to go on, or fails. -/
def follow [DecidableEq α] (visit : α → σ → Except ε (σ × Option α)) : Nat → List α → σ → Option α → Option (Except ε σ)
  | 0, _, _, _ => none
  | _ + 1, _, s, none => some (.ok s)
  | n + 1, seen, s, some a =>
    if a ∈ seen then some (.ok s)
    else
      match visit a s with
      | .error e => some (.error e)
      | .ok (s', next) => follow visit n (a :: seen) s' next

section

variable [DecidableEq α] {visit : α → σ → Except ε (σ × Option α)}

theorem follow_none (n : Nat) (seen : List α) (s : σ) : follow visit (n + 1) seen s none = some (.ok s) := rfl

theorem follow_seen {seen : List α} {a : α} (h : a ∈ seen) (n : Nat) (s : σ) :
    follow visit (n + 1) seen s (some a) = some (.ok s) := by
  simp [follow, h]

theorem follow_error {seen : List α} {a : α} {s : σ} {e : ε} (h : a ∉ seen) (hv : visit a s = .error e) (n : Nat) :
    follow visit (n + 1) seen s (some a) = some (.error e) := by
  simp [follow, h, hv]

theorem follow_visit {seen : List α} {a : α} {s s' : σ} {next : Option α} (h : a ∉ seen) (hv : visit a s = .ok (s', next)) (n : Nat) :
    follow visit (n + 1) seen s (some a) = follow visit n (a :: seen) s' next := by
  simp [follow, h, hv]

/-- More rounds change nothing once they suffice. -/
theorem follow_mono {n m : Nat} {seen : List α} {s : σ} {current : Option α} {r : Except ε σ} (hnm : n ≤ m)
    (h : follow visit n seen s current = some r) : follow visit m seen s current = some r := by
  induction n generalizing m seen s current with
  | zero => cases h
  | succ n ih =>
    obtain ⟨m, rfl⟩ : ∃ m', m = m' + 1 := ⟨m - 1, by omega⟩
    cases current with
    | none => exact h
    | some a =>
      by_cases ha : a ∈ seen
      · rw [follow_seen ha] at h ⊢
        exact h
      · cases hv : visit a s with
        | error e =>
          rw [follow_error ha hv] at h ⊢
          exact h
        | ok out =>
          rw [follow_visit ha hv] at h ⊢
          exact ih (by omega) h

end

section

variable {link : α → α → Prop} {origin : α}

/-- What has been seen on the way from an object, and where the loop stands: everything is reached from there, and a link out of what
has been seen leads into it or to where the loop stands. -/
structure Trail (link : α → α → Prop) (origin : α) (seen : List α) (current : Option α) : Prop where
  reached : ∀ x ∈ seen, Relation.ReflTransGen link origin x
  stands : ∀ x, current = some x → Relation.ReflTransGen link origin x
  closed : ∀ x ∈ seen, ∀ y, link x y → y ∈ seen ∨ current = some y
  begins : origin ∈ seen ∨ current = some origin

theorem Trail.start (link : α → α → Prop) (origin : α) : Trail link origin [] (some origin) where
  reached := by simp
  stands := by
    intro x h
    cases h
    exact .refl
  closed := by simp
  begins := .inr rfl

theorem Trail.next {seen : List α} {a : α} {next : Option α} (h : Trail link origin seen (some a))
    (hnext : ∀ y, next = some y ↔ link a y) : Trail link origin (a :: seen) next where
  reached := by
    intro x hx
    rcases List.mem_cons.mp hx with rfl | hx
    · exact h.stands x rfl
    · exact h.reached x hx
  stands := by
    intro x hx
    exact (h.stands a rfl).tail ((hnext x).mp hx)
  closed := by
    intro x hx y hy
    rcases List.mem_cons.mp hx with rfl | hx
    · exact .inr ((hnext y).mpr hy)
    · rcases h.closed x hx y hy with hs | hs
      · exact .inl (List.mem_cons_of_mem _ hs)
      · cases hs
        exact .inl List.mem_cons_self
  begins := by
    rcases h.begins with hs | hs
    · exact .inl (List.mem_cons_of_mem _ hs)
    · cases hs
      exact .inl List.mem_cons_self

/-- Where there is nothing new to go on to, everything has been seen that can be reached. -/
theorem Trail.mem_iff {seen : List α} {current : Option α} (h : Trail link origin seen current)
    (hend : ∀ x, current = some x → x ∈ seen) (x : α) : x ∈ seen ↔ Relation.ReflTransGen link origin x := by
  constructor
  · exact h.reached x
  · intro hx
    induction hx with
    | refl => exact h.begins.elim id (hend origin)
    | tail _ hyz ih => exact (h.closed _ ih _ hyz).elim id (hend _)

variable [DecidableEq α] {visit : α → σ → Except ε (σ × Option α)}

/-- An invariant of the state and of what has been seen, kept by each visit, holds at the end, and all has been seen by then. -/
theorem follow_ok {Inv : List α → σ → Prop} (hlink : ∀ a s s' next, visit a s = .ok (s', next) → ∀ y, next = some y ↔ link a y)
    (hinv : ∀ seen s a s' next, Inv seen s → visit a s = .ok (s', next) → Inv (a :: seen) s')
    {n : Nat} {seen : List α} {s s' : σ} {current : Option α} (ht : Trail link origin seen current) (hs : Inv seen s)
    (h : follow visit n seen s current = some (.ok s')) :
    ∃ all, Inv all s' ∧ ∀ x, x ∈ all ↔ Relation.ReflTransGen link origin x := by
  induction n generalizing seen s current with
  | zero => cases h
  | succ n ih =>
    cases current with
    | none =>
      cases h
      exact ⟨seen, hs, ht.mem_iff (by simp)⟩
    | some a =>
      by_cases ha : a ∈ seen
      · rw [follow_seen ha] at h
        cases h
        refine ⟨seen, hs, ht.mem_iff ?_⟩
        intro x hx
        cases hx
        exact ha
      · cases hv : visit a s with
        | error e =>
          rw [follow_error ha hv] at h
          cases h
        | ok out =>
          rw [follow_visit ha hv] at h
          exact ih (ht.next (hlink a s _ _ hv)) (hinv seen s a _ _ hs hv) h

/-- If the loop fails, so does a visit of an object that it has reached. -/
theorem follow_fails (hlink : ∀ a s s' next, visit a s = .ok (s', next) → ∀ y, next = some y ↔ link a y)
    {n : Nat} {seen : List α} {s : σ} {current : Option α} {e : ε} (ht : Trail link origin seen current)
    (h : follow visit n seen s current = some (.error e)) :
    ∃ a s', Relation.ReflTransGen link origin a ∧ visit a s' = .error e := by
  induction n generalizing seen s current with
  | zero => cases h
  | succ n ih =>
    cases current with
    | none => cases h
    | some a =>
      by_cases ha : a ∈ seen
      · rw [follow_seen ha] at h
        cases h
      · cases hv : visit a s with
        | error e' =>
          rw [follow_error ha hv] at h
          cases h
          exact ⟨a, s, ht.stands a rfl, hv⟩
        | ok out =>
          rw [follow_visit ha hv] at h
          exact ih (ht.next (hlink a s _ _ hv)) h

/-- The loop ends in as many rounds as there are objects it has not seen, and one more. -/
theorem follow_ends_within (hlink : ∀ a s s' next, visit a s = .ok (s', next) → ∀ y, next = some y ↔ link a y) {all : Finset α}
    (hall : ∀ x, Relation.ReflTransGen link origin x → x ∈ all) {n : Nat} {seen : List α} {current : Option α}
    (ht : Trail link origin seen current) (hn : (all.filter (· ∉ seen)).card < n) (s : σ) :
    ∃ r, follow visit n seen s current = some r := by
  induction n generalizing seen s current with
  | zero => omega
  | succ n ih =>
    cases current with
    | none => exact ⟨_, follow_none n seen s⟩
    | some a =>
      by_cases ha : a ∈ seen
      · exact ⟨_, follow_seen ha n s⟩
      · cases hv : visit a s with
        | error e => exact ⟨_, follow_error ha hv n⟩
        | ok out =>
          rw [follow_visit ha hv]
          have hlt : (all.filter (· ∉ a :: seen)).card < (all.filter (· ∉ seen)).card := by
            apply Finset.card_lt_card
            refine Finset.ssubset_iff_of_subset ?_ |>.mpr ⟨a, ?_, ?_⟩
            · intro x hx
              simp only [Finset.mem_filter, List.mem_cons, not_or] at hx ⊢
              exact ⟨hx.1, hx.2.2⟩
            · simp [hall a (ht.stands a rfl), ha]
            · simp
          exact ih (ht.next (hlink a s _ _ hv)) (by omega) out.1

/-- From an object that finitely many can be reached from, the loop ends. -/
theorem follow_ends (hlink : ∀ a s s' next, visit a s = .ok (s', next) → ∀ y, next = some y ↔ link a y)
    (hfin : {x | Relation.ReflTransGen link origin x}.Finite) (s : σ) :
    ∃ n r, ∀ m, n ≤ m → follow visit m [] s (some origin) = some r := by
  have ht : Trail link origin [] (some origin) := Trail.start link origin
  obtain ⟨r, hr⟩ := follow_ends_within hlink (fun x hx => hfin.mem_toFinset.mpr hx) ht (Nat.lt_succ_self _) s
  exact ⟨_, r, fun m hm => follow_mono hm hr⟩

end
end MtossBot
