import PoolControl.Text.Digits

/-! # Timestamps

A `Timestamp` counts seconds since the start of 1970 in universal time, and nanoseconds within the
second. `civil` gives the calendar date of a day number by counting years from March in eras of 400
years, and `Timestamp.text` writes date and time of day, with as few of 0, 3, 6 or 9 fractional
digits as are exact and the given mark for the zone. -/

namespace PoolControl

/-- A moment in universal time. From one thousand million on, `nanos` counts into a leap second. -/
structure Timestamp where
  secs : Int
  nanos : Nat := 0
  deriving DecidableEq, Repr, Inhabited

/-- A calendar date. -/
structure Date where
  year : Int
  month : Nat
  day : Nat
  deriving DecidableEq, Repr

/-- The date of the day that lies `days` after the first of January 1970. -/
def Date.ofDays (days : Int) : Date :=
  let z := days + 719468
  let era := z.fdiv 146097
  let dayOfEra := (z.fmod 146097).toNat
  let yearOfEra :=
    (dayOfEra - dayOfEra / 1460 + dayOfEra / 36524 - dayOfEra / 146096) / 365
  let dayOfYear := dayOfEra - (365 * yearOfEra + yearOfEra / 4 - yearOfEra / 100)
  let marchMonth := (5 * dayOfYear + 2) / 153
  let month := if marchMonth < 10 then marchMonth + 3 else marchMonth - 9
  { year := era * 400 + yearOfEra + (if month ≤ 2 then 1 else 0)
    month
    day := dayOfYear - (153 * marchMonth + 2) / 5 + 1 }

/-- A year in four digits, and outside the years 0 to 9999 with its sign. -/
def yearText (y : Int) : String :=
  if 0 ≤ y ∧ y ≤ 9999 then Text.padded 4 y.toNat
  else (if y < 0 then "-" else "+") ++ Text.padded 4 y.natAbs

/-- The fraction of a second with the fewest of 0, 3, 6 or 9 digits that are exact. -/
def fractionOfSecond (nanos : Nat) : String :=
  if nanos = 0 then ""
  else if nanos % 1000000 = 0 then "." ++ Text.padded 3 (nanos / 1000000)
  else if nanos % 1000 = 0 then "." ++ Text.padded 6 (nanos / 1000)
  else "." ++ Text.padded 9 nanos

namespace Timestamp

/-- The moment that lies so many milliseconds after the start of 1970. -/
def ofMillis (ms : Nat) : Timestamp := { secs := ms / 1000, nanos := ms % 1000 * 1000000 }

/-- The moment as date, time of day and the given zone mark. -/
def text (t : Timestamp) (zone : String) : String :=
  let date := Date.ofDays (t.secs.fdiv 86400)
  let ofDay := (t.secs.fmod 86400).toNat
  let (second, nanos) :=
    if t.nanos < 1000000000 then (ofDay % 60, t.nanos) else (ofDay % 60 + 1, t.nanos - 1000000000)
  yearText date.year ++ "-" ++ Text.padded 2 date.month ++ "-" ++ Text.padded 2 date.day ++ "T" ++
    Text.padded 2 (ofDay / 3600) ++ ":" ++ Text.padded 2 (ofDay / 60 % 60) ++ ":" ++
    Text.padded 2 second ++ fractionOfSecond nanos ++ zone

/-- The years that a calendar date can be written for. -/
def inRange (t : Timestamp) : Bool :=
  let year := (Date.ofDays (t.secs.fdiv 86400)).year
  decide (-262143 ≤ year ∧ year ≤ 262142) &&
    decide (t.nanos < 1000000000 ∨ t.nanos < 2000000000 ∧ t.secs.fmod 60 = 59)

end Timestamp
end PoolControl
