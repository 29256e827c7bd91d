import Mathlib.Algebra.BigOperators.Intervals
import Mathlib.Algebra.BigOperators.Ring.Finset
import Mathlib.Algebra.Order.BigOperators.Group.Finset
import Mathlib.Algebra.Order.Field.Basic
import Mathlib.Tactic.Linarith
import Mathlib.Tactic.Ring

/-!
# Runs and smoothing

A series with gaps falls into runs of values. Exponential smoothing from a seed is a weighted sum of the seed and the values after it,
and the weights add up to one, so the result stays between bounds the seed and the values share.
-/

namespace MtossBot

/-! ## Runs -/

section Runs

variable {α : Type*} {xs : List (Option α)} {s s' i : Nat}

/-- The maximal run of values that ends at an index starts at `s`; it is empty when there is no value at the index. -/
structure RunEndsAt (xs : List (Option α)) (s i : Nat) : Prop where
  start_le : s ≤ i + 1
  value : ∀ j, s ≤ j → j ≤ i → ∃ v, xs[j]? = some (some v)
  maximal : s = 0 ∨ xs[s - 1]? = some none

namespace RunEndsAt

/-- A gap ends no values. -/
theorem gap (h : xs[i]? = some none) : RunEndsAt xs (i + 1) i where
  start_le := le_rfl
  value j hj hji := by omega
  maximal := Or.inr h

/-- A value at the start of a series is a run. -/
theorem zero {v : α} (h : xs[0]? = some (some v)) : RunEndsAt xs 0 0 where
  start_le := Nat.zero_le _
  value j _ hj := ⟨v, by rwa [Nat.le_zero.mp hj]⟩
  maximal := Or.inl rfl

/-- A value makes the run before it longer. -/
theorem succ {v : α} (h : RunEndsAt xs s i) (hv : xs[i + 1]? = some (some v)) : RunEndsAt xs s (i + 1) where
  start_le := h.start_le.trans (Nat.le_succ _)
  value j hj hji := by
    rcases Nat.lt_or_ge i j with hlt | hle
    · exact ⟨v, by rwa [show j = i + 1 by omega]⟩
    · exact h.value j hj hle
  maximal := h.maximal

/-- Every index ends a run. -/
theorem exists_start (hi : i < xs.length) : ∃ s, RunEndsAt xs s i := by
  induction i with
  | zero =>
    cases h : xs[0] with
    | none => exact ⟨1, gap (List.getElem?_eq_some_iff.mpr ⟨hi, h⟩)⟩
    | some v => exact ⟨0, zero (List.getElem?_eq_some_iff.mpr ⟨hi, h⟩)⟩
  | succ i ih =>
    cases h : xs[i + 1] with
    | none => exact ⟨i + 2, gap (List.getElem?_eq_some_iff.mpr ⟨hi, h⟩)⟩
    | some v =>
      obtain ⟨s, hs⟩ := ih (by omega)
      exact ⟨s, hs.succ (List.getElem?_eq_some_iff.mpr ⟨hi, h⟩)⟩

/-- Of two runs that end at one place none begins before the other. -/
theorem start_le_start (h : RunEndsAt xs s i) (h' : RunEndsAt xs s' i) : s ≤ s' := by
  by_contra hlt
  rcases h.maximal with hzero | hgap
  · omega
  · obtain ⟨v, hv⟩ := h'.value (s - 1) (by omega) (by have := h.start_le; omega)
    rw [hgap] at hv
    cases hv

/-- And only one. -/
theorem unique (h : RunEndsAt xs s i) (h' : RunEndsAt xs s' i) : s = s' :=
  le_antisymm (h.start_le_start h') (h'.start_le_start h)

/-- At a gap, no value. -/
theorem start_eq_of_gap (h : RunEndsAt xs s i) (hgap : xs[i]? = some none) : s = i + 1 := h.unique (gap hgap)

/-- A run ends within the list. -/
theorem lt_length (h : RunEndsAt xs s i) : i < xs.length := by
  have hget : ∃ x, xs[i]? = some x := by
    rcases Nat.lt_or_ge i s with hlt | hle
    · rcases h.maximal with hzero | hgap
      · omega
      · exact ⟨none, by rwa [show s - 1 = i by have := h.start_le; omega] at hgap⟩
    · obtain ⟨v, hv⟩ := h.value i hle le_rfl
      exact ⟨some v, hv⟩
  obtain ⟨x, hx⟩ := hget
  exact (List.getElem?_eq_some_iff.mp hx).1

end RunEndsAt

end Runs

/-! ## Smoothing -/

variable {K : Type*}

/-- Exponential smoothing: each of the first `n` values moves the result a share `a` of the way to itself. -/
def smooth [Ring K] (a seed : K) (x : Nat → K) : Nat → K
  | 0 => seed
  | n + 1 => a * x n + (1 - a) * smooth a seed x n

/-- The smoothing looks at the values it is over only. -/
theorem smooth_congr [Ring K] {a seed : K} {x y : Nat → K} {n : Nat} (h : ∀ k < n, x k = y k) :
    smooth a seed x n = smooth a seed y n := by
  induction n with
  | zero => rfl
  | succ n ih =>
    have hprevious := ih fun k hk => h k (by omega)
    simp only [smooth]
    rw [h n (by omega), hprevious]

/-- The seed and every value, each with the weight that is left of it. -/
theorem smooth_eq_sum [CommRing K] (a seed : K) (x : Nat → K) (n : Nat) :
    smooth a seed x n = (1 - a) ^ n * seed + ∑ k ∈ Finset.range n, a * (1 - a) ^ (n - 1 - k) * x k := by
  induction n with
  | zero => simp [smooth]
  | succ n ih =>
    -- Each older value keeps a share `1 - a` of its weight; the new one has the weight `a`.
    have hshrink : ∑ k ∈ Finset.range n, a * (1 - a) ^ (n - k) * x k =
        (1 - a) * ∑ k ∈ Finset.range n, a * (1 - a) ^ (n - 1 - k) * x k := by
      rw [Finset.mul_sum]
      refine Finset.sum_congr rfl ?_
      intro k hk
      have hk := Finset.mem_range.mp hk
      rw [show n - k = n - 1 - k + 1 by omega]
      ring
    rw [Finset.sum_range_succ, Nat.add_sub_cancel, hshrink, Nat.sub_self, smooth, ih]
    ring

section Bounds

variable [Field K] [LinearOrder K] [IsStrictOrderedRing K] {a seed bound : K} {x : Nat → K} {n : Nat}

/-- It stays below a bound of the values. -/
theorem smooth_le (h0 : 0 ≤ a) (h1 : a ≤ 1) (hseed : seed ≤ bound) (hx : ∀ k < n, x k ≤ bound) :
    smooth a seed x n ≤ bound := by
  induction n with
  | zero => exact hseed
  | succ n ih =>
    have hprevious := ih fun k hk => hx k (by omega)
    calc smooth a seed x (n + 1)
        = a * x n + (1 - a) * smooth a seed x n := rfl
      _ ≤ a * bound + (1 - a) * bound := by
        have ha : 0 ≤ 1 - a := sub_nonneg.mpr h1
        exact add_le_add (mul_le_mul_of_nonneg_left (hx n (by omega)) h0) (mul_le_mul_of_nonneg_left hprevious ha)
      _ = bound := by ring

/-- And above one. -/
theorem le_smooth (h0 : 0 ≤ a) (h1 : a ≤ 1) (hseed : bound ≤ seed) (hx : ∀ k < n, bound ≤ x k) :
    bound ≤ smooth a seed x n := by
  induction n with
  | zero => exact hseed
  | succ n ih =>
    have hprevious := ih fun k hk => hx k (by omega)
    calc bound
        = a * bound + (1 - a) * bound := by ring
      _ ≤ a * x n + (1 - a) * smooth a seed x n := by
        have ha : 0 ≤ 1 - a := sub_nonneg.mpr h1
        exact add_le_add (mul_le_mul_of_nonneg_left (hx n (by omega)) h0) (mul_le_mul_of_nonneg_left hprevious ha)
      _ = smooth a seed x (n + 1) := rfl

/-! ## Means -/

/-- The mean of the first `n` values. -/
def mean (x : Nat → K) (n : Nat) : K := (∑ k ∈ Finset.range n, x k) / n

/-- A mean stays below a bound of the values. -/
theorem mean_le (hn : 0 < n) (hx : ∀ k < n, x k ≤ bound) : mean x n ≤ bound := by
  have hcast : (0 : K) < n := Nat.cast_pos.mpr hn
  have hsum : ∑ k ∈ Finset.range n, x k ≤ n * bound := by
    simpa using Finset.sum_le_card_nsmul (Finset.range n) x bound fun k hk => hx k (Finset.mem_range.mp hk)
  rw [mean, div_le_iff₀ hcast, mul_comm]
  exact hsum

/-- And above one. -/
theorem le_mean (hn : 0 < n) (hx : ∀ k < n, bound ≤ x k) : bound ≤ mean x n := by
  have hcast : (0 : K) < n := Nat.cast_pos.mpr hn
  have hsum : n * bound ≤ ∑ k ∈ Finset.range n, x k := by
    simpa using Finset.card_nsmul_le_sum (Finset.range n) x bound fun k hk => hx k (Finset.mem_range.mp hk)
  rw [mean, le_div_iff₀ hcast, mul_comm]
  exact hsum

end Bounds

end MtossBot
