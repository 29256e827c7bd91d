import Mathlib.Data.List.Induction

/-!
# Counting between resets

In a log some entries are resets. An entry occurs at most once per period when no stretch of the log without a reset holds two of
it. What a program keeps track of is the count since the last reset, so the statement about all stretches is brought to one about
that count at every beginning of the log.
-/

namespace MtossBot

variable {α : Type} (reset p : α → Bool)

/-- How many entries satisfy `p` since the last reset. -/
def countSince (log : List α) : Nat := log.foldl (fun n a => if reset a then 0 else if p a then n + 1 else n) 0

/-- At no moment have there been two since the last reset. -/
def AtMostOncePer (log : List α) : Prop := ∀ pre, pre <+: log → countSince reset p pre ≤ 1

variable {reset p}

theorem countSince_append {log l : List α} (h : ∀ a ∈ l, reset a = false) :
    countSince reset p (log ++ l) = countSince reset p log + l.countP p := by
  induction l using List.reverseRecOn with
  | nil => simp
  | append_singleton l a ih =>
    have hl := ih fun b hb => h b (by simp [hb])
    have ha := h a (by simp)
    rw [← List.append_assoc, countSince, List.foldl_append, ← countSince, hl, List.countP_append]
    by_cases hp : p a = true
    · simp [ha, hp, Nat.add_assoc]
    · simp [ha, hp]

theorem countSince_reset {log : List α} {a : α} (h : reset a = true) : countSince reset p (log ++ [a]) = 0 := by
  simp [countSince, h]

theorem AtMostOncePer.nil : AtMostOncePer reset p [] := by
  intro pre h
  rw [List.prefix_nil.mp h]
  exact Nat.zero_le _

/-- The count at the end is one of the counts. -/
theorem AtMostOncePer.countSince_le {log : List α} (h : AtMostOncePer reset p log) : countSince reset p log ≤ 1 :=
  h log (List.prefix_refl _)

/-- Entries without a reset may follow as long as the count stays at most one. -/
theorem AtMostOncePer.append {log l : List α} (h : AtMostOncePer reset p log) (hl : ∀ a ∈ l, reset a = false)
    (hc : countSince reset p log + l.countP p ≤ 1) : AtMostOncePer reset p (log ++ l) := by
  rintro pre ⟨post, hpre⟩
  rcases List.append_eq_append_iff.mp hpre with ⟨mid, hlog, _⟩ | ⟨mid, hp, hmid⟩
  · exact h pre ⟨mid, hlog.symm⟩
  · have hsub : ∀ a ∈ mid, reset a = false := fun a ha => hl a (by rw [hmid]; simp [ha])
    have hle : mid.countP p ≤ l.countP p := by rw [hmid, List.countP_append]; omega
    rw [hp, countSince_append hsub]
    omega

/-- A reset may always follow. -/
theorem AtMostOncePer.append_reset {log : List α} (h : AtMostOncePer reset p log) {a : α} (ha : reset a = true) :
    AtMostOncePer reset p (log ++ [a]) := by
  intro pre hpre
  rcases List.prefix_concat_iff.mp hpre with rfl | hpre
  · rw [countSince_reset ha]
    exact Nat.zero_le _
  · exact h pre hpre

/-- No stretch without a reset holds two. -/
theorem AtMostOncePer.stretch {log : List α} (h : AtMostOncePer reset p log) {pre seg post : List α}
    (hlog : log = pre ++ seg ++ post) (hseg : ∀ a ∈ seg, reset a = false) : seg.countP p ≤ 1 := by
  have hle := h (pre ++ seg) ⟨post, hlog.symm⟩
  rw [countSince_append hseg] at hle
  omega

end MtossBot
