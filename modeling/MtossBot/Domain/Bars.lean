import MtossBot.Domain.Decimal
import MtossBot.Domain.Numeric

/-!
# Bars

The model of `domain/bars.py`, over any arithmetic.
-/

namespace MtossBot

/-- The keyword arguments of `Bar`. -/
structure BarFields (D : Type) where
  symbol : String
  timeframe : String
  open_time : Datetime
  open_ : D
  high : D
  low : D
  close : D
  tick_volume : Int := 0
  spread : Int := 0

namespace BarFields

variable {D : Type} [PyDecimal D]

/-- The checks of one price. -/
def price_errors (field : String) (value : D) : List (String × String) :=
  if !PyDecimal.fitsOrderNumeric value then [(field, "bar price must fit PostgreSQL NUMERIC(28,10) exactly")]
  else if value ≤ 0 then [(field, "bar prices must be positive")]
  else []

def counter_errors (field : String) (value : Int) : List (String × String) :=
  if value < 0 then [(field, "bar counters must be non-negative")] else []

/-- The errors of the field validators, in the order of the fields. -/
def field_errors (f : BarFields D) : List (String × String) :=
  (match f.open_time with
    | .naive _ => [("open_time", "open_time must be timezone-aware")]
    | .aware _ _ => []) ++
  price_errors "open" f.open_ ++ price_errors "high" f.high ++ price_errors "low" f.low ++ price_errors "close" f.close ++
  counter_errors "tick_volume" f.tick_volume ++ counter_errors "spread" f.spread

def require_consistent_range (f : BarFields D) : List (String × String) :=
  if f.high < f.low then [("", "high must not be below low")]
  else if f.high < py_max f.open_ f.close then [("", "high must cover open and close")]
  else if py_min f.open_ f.close < f.low then [("", "low must cover open and close")]
  else []

/-- All errors: the model validator runs on a bar whose fields are valid. -/
def errors (f : BarFields D) : List (String × String) :=
  if f.field_errors = [] then f.require_consistent_range else f.field_errors

end BarFields

/-- A closed bar that the model accepts, its time in UTC. -/
structure Bar (D : Type) [PyDecimal D] extends BarFields D where
  accepted : toBarFields.errors = []
  utc : ∃ t, open_time = .aware t 0

theorem Bar.close_pos {D : Type} [PyDecimal D] (bar : Bar D) : ¬bar.close ≤ 0 := by
  intro hle
  have h := bar.accepted
  unfold BarFields.errors at h
  split at h
  · rename_i hfields
    simp only [BarFields.field_errors, List.append_eq_nil_iff] at hfields
    have hprice := hfields.1.1.2
    rw [BarFields.price_errors, if_pos hle] at hprice
    split at hprice <;> cases hprice
  · contradiction

end MtossBot
