import Mathlib.Data.List.Induction

/-!
# Delimited texts

Fields joined by a separator can be told apart when at most one of them contains the separator: the fields before it are read from
the left, the fields after it from the right.
-/

namespace MtossBot
namespace Delimited

variable {α : Type} {sep : α}

/-- A front without the separator ends where the first separator stands. -/
theorem front_inj {a b s t : List α} (ha : sep ∉ a) (hb : sep ∉ b) (h : a ++ sep :: s = b ++ sep :: t) : a = b ∧ s = t := by
  induction a generalizing b with
  | nil =>
    cases b with
    | nil => exact ⟨rfl, (List.cons.inj h).2⟩
    | cons y b => exact absurd (List.cons.inj h).1 fun hy => hb (hy ▸ List.mem_cons_self)
  | cons x a ih =>
    cases b with
    | nil => exact absurd (List.cons.inj h).1 fun hx => ha (hx ▸ List.mem_cons_self)
    | cons y b =>
      obtain ⟨rfl, htail⟩ := List.cons.inj h
      obtain ⟨rfl, rfl⟩ := ih (fun hm => ha (List.mem_cons_of_mem _ hm)) (fun hm => hb (List.mem_cons_of_mem _ hm)) htail
      exact ⟨rfl, rfl⟩

/-- A back without the separator starts where the last separator stands. -/
theorem back_inj {a b s t : List α} (ha : sep ∉ a) (hb : sep ∉ b) (h : s ++ sep :: a = t ++ sep :: b) : s = t ∧ a = b := by
  have hrev : a.reverse ++ sep :: s.reverse = b.reverse ++ sep :: t.reverse := by
    simpa using congrArg List.reverse h
  obtain ⟨hab, hst⟩ := front_inj (by simpa using ha) (by simpa using hb) hrev
  exact ⟨List.reverse_inj.mp hst, List.reverse_inj.mp hab⟩

/-- Joining the fields of a nonempty list, one more in front. -/
theorem intercalate_cons (f : List α) {fields : List (List α)} (h : fields ≠ []) :
    List.intercalate [sep] (f :: fields) = f ++ sep :: List.intercalate [sep] fields := by
  cases fields with
  | nil => exact absurd rfl h
  | cons g fields => simp [List.intercalate]

/-- Joining the fields of a nonempty list, one more at the end. -/
theorem intercalate_concat (f : List α) {fields : List (List α)} (h : fields ≠ []) :
    List.intercalate [sep] (fields ++ [f]) = List.intercalate [sep] fields ++ sep :: f := by
  induction fields with
  | nil => exact absurd rfl h
  | cons g fields ih =>
    cases fields with
    | nil => simp [List.intercalate]
    | cons g' fields =>
      rw [List.cons_append, intercalate_cons g (by simp), ih (by simp), intercalate_cons g (by simp), List.append_assoc,
        List.cons_append]

/-- Joined fields determine each field, when only the field in the middle may contain the separator. -/
theorem fields_inj {pre pre' : List (List α)} {mid mid' : List α} {post post' : List (List α)}
    (hpre : ∀ f ∈ pre, sep ∉ f) (hpre' : ∀ f ∈ pre', sep ∉ f) (hpost : ∀ f ∈ post, sep ∉ f) (hpost' : ∀ f ∈ post', sep ∉ f)
    (hl : pre.length = pre'.length) (hr : post.length = post'.length)
    (h : List.intercalate [sep] (pre ++ mid :: post) = List.intercalate [sep] (pre' ++ mid' :: post')) :
    pre = pre' ∧ mid = mid' ∧ post = post' := by
  induction pre generalizing pre' with
  | cons f pre ih =>
    cases pre' with
    | nil => cases hl
    | cons f' pre' =>
      rw [List.cons_append, List.cons_append, intercalate_cons f (by simp), intercalate_cons f' (by simp)] at h
      obtain ⟨rfl, htail⟩ := front_inj (hpre f (by simp)) (hpre' f' (by simp)) h
      obtain ⟨rfl, hrest⟩ := ih (fun g hg => hpre g (List.mem_cons_of_mem _ hg))
        (fun g hg => hpre' g (List.mem_cons_of_mem _ hg)) (Nat.succ.inj hl) htail
      exact ⟨rfl, hrest⟩
  | nil =>
    obtain rfl : pre' = [] := List.length_eq_zero_iff.mp hl.symm
    refine ⟨rfl, ?_⟩
    rw [List.nil_append, List.nil_append] at h
    -- the fields after the middle one are read from the right
    induction post using List.reverseRecOn generalizing post' with
    | nil =>
      obtain rfl : post' = [] := List.length_eq_zero_iff.mp hr.symm
      simpa [List.intercalate] using h
    | append_singleton post f ih =>
      rcases List.eq_nil_or_concat post' with rfl | ⟨post', f', rfl⟩
      · simp at hr
      · rw [List.concat_eq_append] at *
        rw [← List.cons_append, ← List.cons_append, intercalate_concat f (by simp), intercalate_concat f' (by simp)] at h
        obtain ⟨hfront, rfl⟩ := back_inj (hpost f (by simp)) (hpost' f' (by simp)) h
        obtain ⟨rfl, rfl⟩ := ih (fun g hg => hpost g (List.mem_append_left _ hg))
          (fun g hg => hpost' g (List.mem_append_left _ hg)) (by simpa using hr) hfront
        exact ⟨rfl, rfl⟩

end Delimited
end MtossBot
