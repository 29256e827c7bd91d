import Mathlib.Algebra.Order.Ring.Abs
import Mathlib.Data.Rat.Floor
import MtossBot.Exc

/-!
# The arithmetic of the strategy

The strategy calculates with `Decimal`s and its indicators with floats. What it asks of the two is written down here as
interfaces, and the strategy is modelled over any types that have them. Exact arithmetic is the instance on the rationals.
-/

namespace MtossBot

/-- What the code asks of `Decimal`s. -/
class PyDecimal (D : Type) extends Zero D, Add D, Sub D, Mul D, Div D, LE D, LT D where
  decidableLE : DecidableLE D
  decidableLT : DecidableLT D
  /-- `Decimal(n)`. -/
  ofInt : Int → D
  /-- `abs(d)`. -/
  abs : D → D
  /-- `d.copy_abs()`. -/
  copy_abs : D → D
  /-- `d.to_integral_value(rounding=ROUND_FLOOR)`. -/
  floor : D → D
  /-- `d.normalize()`. -/
  normalize : D → D
  /-- `int(d)`. -/
  toInt : D → Int
  /-- Whether `validate_order_decimal_input` accepts the value. -/
  fitsOrderNumeric : D → Bool

/-- What the indicators ask of floats. -/
class PyFloat (F : Type) extends Add F, Sub F, Mul F, Div F, LE F, LT F, OfScientific F where
  decidableLE : DecidableLE F
  decidableLT : DecidableLT F
  /-- `float(n)`. -/
  ofInt : Int → F
  /-- `abs(x)`. -/
  abs : F → F
  /-- `math.floor(x)`. -/
  floor : F → Int
  /-- `math.ceil(x)`. -/
  ceil : F → Int
  /-- `math.sqrt(x)`. -/
  sqrt : F → F

instance instDecidableLEDecimal {D : Type} [PyDecimal D] : DecidableLE D := fun a b => PyDecimal.decidableLE a b

instance instDecidableLTDecimal {D : Type} [PyDecimal D] : DecidableLT D := fun a b => PyDecimal.decidableLT a b

instance instDecidableLEFloat {F : Type} [PyFloat F] : DecidableLE F := fun a b => PyFloat.decidableLE a b

instance instDecidableLTFloat {F : Type} [PyFloat F] : DecidableLT F := fun a b => PyFloat.decidableLT a b

/-- The two conversions between them. -/
class Boundary (F D : Type) where
  /-- `float(d)`. -/
  ofDecimal : D → F
  /-- Raises on what is not finite, and on what has too many digits. -/
  to_order_decimal : F → Except Exc D

/-- Python's `max` of two: the first, unless the second is greater. -/
def py_max {α : Type} [LT α] [DecidableLT α] (a b : α) : α := if a < b then b else a

/-- Python's `min` of two: the first, unless the second is smaller. -/
def py_min {α : Type} [LT α] [DecidableLT α] (a b : α) : α := if b < a then b else a

/-- `a / b` on decimals: dividing by zero raises. -/
def py_div {D : Type} [PyDecimal D] (a b : D) : Except Exc D :=
  if b ≤ 0 ∧ 0 ≤ b then .error .divisionByZero else .ok (a / b)

theorem py_div_error {D : Type} [PyDecimal D] {a b : D} {e : Exc} (h : py_div a b = .error e) : e = .divisionByZero := by
  unfold py_div at h
  split at h
  · exact (Except.error.inj h).symm
  · cases h

/-- Exact arithmetic. -/
instance : PyDecimal ℚ where
  decidableLE := inferInstance
  decidableLT := inferInstance
  ofInt n := n
  abs q := |q|
  copy_abs q := |q|
  floor q := ⌊q⌋
  normalize q := q
  toInt q := if 0 ≤ q then ⌊q⌋ else ⌈q⌉
  fitsOrderNumeric q := (q * 10 ^ 10).den = 1 ∧ (q * 10 ^ 10).num.natAbs < 10 ^ 28

/-- Exact arithmetic in the place of floats, with the whole part of a root. -/
@[reducible] def PyFloat.exact : PyFloat ℚ where
  decidableLE := inferInstance
  decidableLT := inferInstance
  ofInt n := n
  abs q := |q|
  floor q := ⌊q⌋
  ceil q := ⌈q⌉
  sqrt q := Nat.sqrt ⌊q⌋.toNat

/-- On exact numbers, whatever decides their order. -/
theorem py_max_eq {decidable : DecidableLT ℚ} (a b : ℚ) : @py_max ℚ _ decidable a b = max a b := by
  unfold py_max
  split
  · exact (max_eq_right (le_of_lt ‹_›)).symm
  · exact (max_eq_left (not_lt.mp ‹_›)).symm

theorem py_min_eq {decidable : DecidableLT ℚ} (a b : ℚ) : @py_min ℚ _ decidable a b = min a b := by
  unfold py_min
  split
  · exact (min_eq_right (le_of_lt ‹_›)).symm
  · exact (min_eq_left (not_lt.mp ‹_›)).symm

/-- The conversions between exact numbers. -/
@[reducible] def Boundary.exact : Boundary ℚ ℚ := ⟨fun q => q, fun q => .ok q⟩

end MtossBot
