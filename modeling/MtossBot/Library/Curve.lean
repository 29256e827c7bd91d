import Mathlib.Algebra.Order.Field.Basic
import Mathlib.Data.List.Induction
import Mathlib.Order.Bounds.Basic
import Mathlib.Tactic.Linarith

/-!
# Curves and their falls

The highest value of a sequence and its largest fall from the highest value so far, kept up as the sequence grows at its end.
-/

namespace MtossBot

variable {K : Type} [AddCommGroup K] [LinearOrder K]

/-- How far each value of a sequence lies below the highest value up to it. -/
def falls (es : List K) : Set K :=
  {d | ∃ pre e post m, es = pre ++ e :: post ∧ IsGreatest {x | x ∈ pre ++ [e]} m ∧ d = m - e}

/-- The highest value of a sequence, and its largest fall. -/
structure Curve (es : List K) (peak drawdown : K) : Prop where
  peak : IsGreatest {x | x ∈ es} peak
  drawdown : IsGreatest (falls es) drawdown

namespace Curve

variable {es : List K} {e peak drawdown d : K}

omit [AddCommGroup K] in
/-- The highest value of a longer sequence. -/
theorem isGreatest_snoc (h : IsGreatest {x | x ∈ es} peak) : IsGreatest {x | x ∈ es ++ [e]} (max peak e) := by
  have hset : {x | x ∈ es ++ [e]} = insert e {x | x ∈ es} := by
    ext x
    simp [or_comm]
  rw [hset, max_comm]
  exact h.insert e

/-- The falls of a longer sequence: those there were, and that of the new value. -/
theorem mem_falls_snoc {m : K} (hm : IsGreatest {x | x ∈ es ++ [e]} m) : d ∈ falls (es ++ [e]) ↔ d ∈ falls es ∨ d = m - e := by
  constructor
  · rintro ⟨pre, x, post, m', hes, hm', rfl⟩
    rcases List.eq_nil_or_concat post with rfl | ⟨post, y, rfl⟩
    · obtain ⟨rfl, hx⟩ := List.append_inj' hes rfl
      obtain rfl : e = x := List.singleton_inj.mp hx
      exact .inr (by rw [hm'.unique hm])
    · rw [List.concat_eq_append, ← List.cons_append, ← List.append_assoc] at hes
      exact .inl ⟨pre, x, post, m', List.append_inj_left' hes rfl, hm', rfl⟩
  · rintro (⟨pre, x, post, m', rfl, hm', rfl⟩ | rfl)
    · exact ⟨pre, x, post ++ [e], m', by simp, hm', rfl⟩
    · exact ⟨es, e, [], m, rfl, hm, rfl⟩

theorem singleton (e : K) : Curve [e] e 0 := by
  have hpeak : IsGreatest {x | x ∈ [] ++ [e]} e := by simp
  refine ⟨hpeak, ⟨[], e, [], e, rfl, hpeak, (sub_self e).symm⟩, ?_⟩
  intro d hd
  rcases (mem_falls_snoc hpeak).mp hd with ⟨pre, x, post, m, hes, _⟩ | rfl
  · simp at hes
  · exact (sub_self e).le

/-- A value is added at the end. -/
theorem snoc (h : Curve es peak drawdown) (e : K) : Curve (es ++ [e]) (max peak e) (max drawdown (max peak e - e)) := by
  have hpeak : IsGreatest {x | x ∈ es ++ [e]} (max peak e) := isGreatest_snoc h.peak
  have hset : falls (es ++ [e]) = insert (max peak e - e) (falls es) := by
    ext d
    rw [mem_falls_snoc hpeak, Set.mem_insert_iff, or_comm]
  refine ⟨hpeak, ?_⟩
  rw [hset, max_comm drawdown]
  exact h.drawdown.insert _

end Curve

/-! ## Falls in percent -/

/-- A value of a sequence, and the highest value up to it. -/
def Moment {K : Type} [LinearOrder K] (es : List K) (m e : K) : Prop :=
  ∃ pre post, es = pre ++ e :: post ∧ IsGreatest {x | x ∈ pre ++ [e]} m

/-- How far each value of a sequence lies below the highest value up to it, in percent of that. -/
def percentFalls {K : Type} [Field K] [LinearOrder K] (es : List K) : Set K := {x | ∃ m e, Moment es m e ∧ x = 100 * (m - e) / m}

namespace Moment

variable {K : Type} [LinearOrder K] {es : List K} {m e : K}

theorem mem (h : Moment es m e) : m ∈ es := by
  obtain ⟨pre, post, rfl, hm⟩ := h
  rcases List.mem_append.mp hm.1 with hpre | hlast
  · exact List.mem_append_left _ hpre
  · exact List.mem_append_right _ (List.mem_singleton.mp hlast ▸ List.mem_cons_self)

theorem le (h : Moment es m e) : e ≤ m := by
  obtain ⟨pre, post, _, hm⟩ := h
  exact hm.2 (List.mem_append_right _ (List.mem_singleton_self e))

/-- The highest value is at least the first. -/
theorem first_le {first : K} {rest : List K} (h : Moment (first :: rest) m e) : first ≤ m := by
  obtain ⟨pre, post, hes, hm⟩ := h
  cases pre with
  | nil =>
    obtain ⟨rfl, _⟩ := List.cons.inj hes
    exact hm.2 (List.mem_singleton_self _)
  | cons x pre =>
    obtain ⟨rfl, _⟩ := List.cons.inj hes
    exact hm.2 List.mem_cons_self

/-- When the highest value is reached. -/
theorem of_peak {peak : K} (h : IsGreatest {x | x ∈ es} peak) : Moment es peak peak := by
  obtain ⟨pre, post, hes⟩ := List.append_of_mem h.1
  refine ⟨pre, post, hes, by simp, fun x hx => h.2 ?_⟩
  subst hes
  rcases List.mem_append.mp hx with hpre | hlast
  · exact List.mem_append_left _ hpre
  · exact List.mem_append_right _ (List.mem_singleton.mp hlast ▸ List.mem_cons_self)

end Moment

namespace Curve

variable {K : Type} [Field K] [LinearOrder K] {es : List K} {peak drawdown d : K}

theorem mem_falls_iff : d ∈ falls es ↔ ∃ m e, Moment es m e ∧ d = m - e := by
  constructor
  · rintro ⟨pre, e, post, m, hes, hm, rfl⟩
    exact ⟨m, e, ⟨pre, post, hes, hm⟩, rfl⟩
  · rintro ⟨m, e, ⟨pre, post, hes, hm⟩, rfl⟩
    exact ⟨pre, e, post, m, hes, hm, rfl⟩

variable [IsStrictOrderedRing K]

/-- The largest fall in percent of the highest value of all is the largest percentage if and only if the largest percentage is met
where the highest value so far is the highest of all. -/
theorem percent_iff (h : Curve es peak drawdown) (hpos : ∀ m e, Moment es m e → 0 < m) :
    IsGreatest (percentFalls es) (drawdown / peak * 100) ↔
      ∃ e, Moment es peak e ∧ ∀ m' e', Moment es m' e' → (m' - e') / m' ≤ (peak - e) / peak := by
  have hpeak : 0 < peak := hpos peak peak (.of_peak h.peak)
  obtain ⟨m, e, hmoment, hfall⟩ := mem_falls_iff.mp h.drawdown.1
  have hm : 0 < m := hpos m e hmoment
  have hle : m ≤ peak := h.peak.2 hmoment.mem
  have hnonneg : 0 ≤ drawdown := hfall ▸ sub_nonneg.mpr hmoment.le
  constructor
  · intro hgreatest
    have hbound : ∀ m' e', Moment es m' e' → (m' - e') / m' ≤ drawdown / peak := by
      intro m' e' h'
      have := hgreatest.2 ⟨m', e', h', rfl⟩
      rw [mul_div_assoc] at this
      linarith
    rcases hnonneg.eq_or_lt with hzero | hpositive
    · refine ⟨peak, Moment.of_peak h.peak, ?_⟩
      intro m' e' h'
      have := hbound m' e' h'
      rwa [← hzero, zero_div, ← zero_div peak, ← sub_self peak] at this
    · have hratio := hbound m e hmoment
      rw [← hfall, div_le_div_iff_of_pos_left hpositive hm hpeak] at hratio
      obtain rfl : m = peak := le_antisymm hle hratio
      exact ⟨e, hmoment, hfall ▸ hbound⟩
  · rintro ⟨e₀, hmoment₀, hbound⟩
    have hsame : drawdown = peak - e₀ := by
      refine le_antisymm ?_ (h.drawdown.2 (mem_falls_iff.mpr ⟨peak, e₀, hmoment₀, rfl⟩))
      have hratio : drawdown / peak ≤ (peak - e₀) / peak := by
        calc drawdown / peak ≤ drawdown / m := div_le_div_of_nonneg_left hnonneg hm hle
          _ = (m - e) / m := by rw [hfall]
          _ ≤ (peak - e₀) / peak := hbound m e hmoment
      exact (div_le_div_iff_of_pos_right hpeak).mp hratio
    refine ⟨⟨peak, e₀, hmoment₀, by rw [hsame, mul_comm, mul_div_assoc]⟩, ?_⟩
    rintro x ⟨m', e', h', rfl⟩
    have := hbound m' e' h'
    rw [mul_div_assoc, hsame]
    linarith

end Curve
end MtossBot
