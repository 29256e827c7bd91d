import Mathlib.Algebra.Order.Floor.Ring
import Mathlib.Algebra.Order.Field.Basic
import Mathlib.Order.Bounds.Basic

/-!
# Rounding down to a grid

The multiples of a positive step, and the largest of them that does not exceed a value.
-/

namespace MtossBot

variable {K : Type} [Field K] [LinearOrder K] [IsStrictOrderedRing K] [FloorRing K]

/-- The integer multiples of a step. -/
def multiplesOf (step : K) : Set K := {y | ∃ n : ℤ, y = n * step}

/-- A value rounded down to a multiple of a step. -/
def floorTo (step value : K) : K := ⌊value / step⌋ * step

namespace Grid

variable {step value y : K}

omit [IsStrictOrderedRing K] in
theorem floorTo_mem (step value : K) : floorTo step value ∈ multiplesOf step := ⟨_, rfl⟩

theorem floorTo_le (h : 0 < step) : floorTo step value ≤ value := by
  have hfloor : (⌊value / step⌋ : K) ≤ value / step := Int.floor_le _
  calc floorTo step value = ⌊value / step⌋ * step := rfl
    _ ≤ value / step * step := mul_le_mul_of_nonneg_right hfloor h.le
    _ = value := div_mul_cancel₀ value h.ne'

/-- A multiple that does not exceed a value does not exceed the value rounded down. -/
theorem le_floorTo (h : 0 < step) (hy : y ∈ multiplesOf step) (hle : y ≤ value) : y ≤ floorTo step value := by
  obtain ⟨n, rfl⟩ := hy
  have hn : n ≤ ⌊value / step⌋ := Int.le_floor.mpr ((le_div_iff₀ h).mpr hle)
  exact mul_le_mul_of_nonneg_right (Int.cast_le.mpr hn) h.le

theorem floorTo_mono (h : 0 < step) {a b : K} (hab : a ≤ b) : floorTo step a ≤ floorTo step b :=
  le_floorTo h (floorTo_mem step a) ((floorTo_le h).trans hab)

/-- Rounding down gives the largest multiple that does not exceed the value. -/
theorem isGreatest_floorTo (h : 0 < step) : IsGreatest {y | y ∈ multiplesOf step ∧ y ≤ value} (floorTo step value) :=
  ⟨⟨floorTo_mem step value, floorTo_le h⟩, fun _ hy => le_floorTo h hy.1 hy.2⟩

/-- A positive multiple is a positive integer times the step. -/
theorem pos_multiple (h : 0 < step) (hy : y ∈ multiplesOf step) (hpos : 0 < y) : ∃ n : ℕ, 0 < n ∧ y = n * step := by
  obtain ⟨n, rfl⟩ := hy
  have hn : 0 < n := by
    have hcast : (0 : K) < n := (mul_pos_iff_of_pos_right h).mp hpos
    exact_mod_cast hcast
  obtain ⟨m, rfl⟩ := Int.eq_ofNat_of_zero_le hn.le
  exact ⟨m, by exact_mod_cast hn, by push_cast; rfl⟩

end Grid
end MtossBot
