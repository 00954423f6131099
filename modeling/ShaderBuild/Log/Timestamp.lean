/-!
# Time Stamps

A moment is counted in nanoseconds from the start of 1970, in either direction,
and shown as a date of the Gregorian calendar with the time of day to the
millisecond. Every division rounds towards the past, so moments before 1970
need no case of their own.

The calendar is easiest in years that start with March: the leap day is then
the last day of a year, the months from March on have the lengths of a fixed
pattern, and 400 years make a cycle of a whole number of days.

## Main definitions

* `CivilDate`, `CivilDate.ofDays`: The date of a day.
* `Timestamp.render`: The text of a moment.
-/

namespace ShaderBuild

/-- A date of the Gregorian calendar, extended over all years. -/
structure CivilDate where
  year : Int
  month : Nat
  day : Nat
  deriving DecidableEq, Repr

namespace CivilDate

/-- The days in the 400 years of a cycle. -/
def cycleDays : Int := 146097

/-- The days from the first of March of the year 0 to the start of 1970. -/
def epochOffset : Int := 719468

/-- The date of a day, counted from the start of 1970. -/
def ofDays (days : Int) : CivilDate :=
  let shifted := days + epochOffset
  let cycle := shifted / cycleDays
  let dayOfCycle := (shifted % cycleDays).toNat
  let yearOfCycle :=
    (dayOfCycle - dayOfCycle / 1460 + dayOfCycle / 36524 - dayOfCycle / 146096) / 365
  let dayOfYear := dayOfCycle - (365 * yearOfCycle + yearOfCycle / 4 - yearOfCycle / 100)
  -- Months counted from March, in runs of five with 153 days.
  let march := (5 * dayOfYear + 2) / 153
  let month := if march < 10 then march + 3 else march - 9
  { year := yearOfCycle + cycle * 400 + if month ≤ 2 then 1 else 0
    month
    day := dayOfYear - (153 * march + 2) / 5 + 1 }

end CivilDate

namespace Timestamp

/-- A number with zeros in front, to at least `width` digits. -/
def padded (width n : Nat) : String :=
  let digits := (toString n).toList
  String.ofList (List.replicate (width - digits.length) '0' ++ digits)

/-- A year in four digits, with a sign where four digits without one would not
    do. -/
def yearText (year : Int) : String :=
  if year < 0 then "-" ++ padded 4 year.natAbs
  else if 9999 < year then "+" ++ padded 4 year.natAbs
  else padded 4 year.natAbs

/-- The nanoseconds of a millisecond. -/
def nanosPerMilli : Int := 1000000

/-- The milliseconds of a day. -/
def millisPerDay : Int := 86400000

/-- The text of a moment, given in nanoseconds from the start of 1970. -/
def render (nanos : Int) : String :=
  let millis := nanos / nanosPerMilli
  let date := CivilDate.ofDays (millis / millisPerDay)
  let ofDay := (millis % millisPerDay).toNat
  let clock := padded 2 (ofDay / 3600000) ++ ":" ++ padded 2 (ofDay / 60000 % 60) ++ ":" ++
    padded 2 (ofDay / 1000 % 60) ++ "." ++ padded 3 (ofDay % 1000)
  yearText date.year ++ "-" ++ padded 2 date.month ++ "-" ++ padded 2 date.day ++ " " ++ clock

end Timestamp

end ShaderBuild
