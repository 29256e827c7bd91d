import Mathlib.Data.Int.Basic

/-!
# The calendar

The date and the time of day of an instant in UTC, and the fields that `strftime` writes of them.
-/

namespace MtossBot
namespace Calendar

/-- The microseconds of a day. -/
def DAY : Int := 86400 * 1000000

/-- Year, month and day of the day with a number: days are counted from the first of January 1970. The years are counted from March, in
eras of four hundred. -/
def civil (day : Int) : Int × Nat × Nat :=
  let shifted := day + 719468
  let era := shifted / 146097
  let dayOfEra := (shifted % 146097).toNat
  let yearOfEra := (dayOfEra - dayOfEra / 1460 + dayOfEra / 36524 - dayOfEra / 146096) / 365
  let dayOfYear := dayOfEra - (365 * yearOfEra + yearOfEra / 4 - yearOfEra / 100)
  let month := (5 * dayOfYear + 2) / 153
  let dayOfMonth := dayOfYear - (153 * month + 2) / 5 + 1
  let monthOfYear := if month < 10 then month + 3 else month - 9
  (era * 400 + yearOfEra + (if monthOfYear ≤ 2 then 1 else 0), monthOfYear, dayOfMonth)

/-- The second of the day. -/
def secondOfDay (instant : Int) : Nat := (instant % DAY / 1000000).toNat

/-- Two digits. -/
def two (n : Nat) : String := String.ofList [Nat.digitChar (n / 10 % 10), Nat.digitChar (n % 10)]

/-- `%Y-%m-%d` -/
def date (instant : Int) : String :=
  let (year, month, day) := civil (instant / DAY)
  toString year ++ "-" ++ two month ++ "-" ++ two day

/-- `%H:%M` -/
def hourMinute (instant : Int) : String := two (secondOfDay instant / 3600) ++ ":" ++ two (secondOfDay instant / 60 % 60)

/-- `%H:%M:%S` -/
def time (instant : Int) : String := hourMinute instant ++ ":" ++ two (secondOfDay instant % 60)

example : civil 20689 = (2026, 8, 24) := by decide

end Calendar
end MtossBot
