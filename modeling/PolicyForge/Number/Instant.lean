import PolicyForge.Text.Basic

namespace PolicyForge.Number

/-- A point in time: whole seconds since the start of 1970, and nanoseconds on top of them. A
thousand million nanoseconds or more count into a leap second that follows the whole second. -/
structure Instant where
  seconds : Int
  nanoseconds : Nat
  deriving Repr, DecidableEq

/-- A day of the calendar. -/
structure CivilDate where
  year : Int
  month : Nat
  day : Nat
  deriving Repr, DecidableEq

/-- The date of the day that lies `days` after the first of January 1970. Years are counted from
March, so that a leap day is the last day of its year. The calendar repeats every 146097 days, which
are 400 years. -/
def CivilDate.ofDays (days : Int) : CivilDate :=
  let shifted := days + 719468
  let era := Int.fdiv shifted 146097
  let dayOfEra := (Int.fmod shifted 146097).toNat
  let yearOfEra := (dayOfEra - dayOfEra / 1460 + dayOfEra / 36524 - dayOfEra / 146096) / 365
  let dayOfYear := dayOfEra - (365 * yearOfEra + yearOfEra / 4 - yearOfEra / 100)
  let monthFromMarch := (5 * dayOfYear + 2) / 153
  let day := dayOfYear - (153 * monthFromMarch + 2) / 5 + 1
  let month := if monthFromMarch < 10 then monthFromMarch + 3 else monthFromMarch - 9
  { year := era * 400 + yearOfEra + if month ≤ 2 then 1 else 0, month, day }

/-- A year has four digits. Outside of these it has a sign and at least four digits. -/
def yearText (year : Int) : String :=
  if 0 ≤ year && year ≤ 9999 then Text.padded 4 year.toNat
  else (if year < 0 then "-" else "+") ++ Text.padded 4 year.natAbs

namespace Instant

/-- The instant as date and time with milliseconds, the rest cut off. A leap second is second 60. -/
def text (instant : Instant) : String :=
  let date := CivilDate.ofDays (Int.fdiv instant.seconds 86400)
  let ofDay := (Int.fmod instant.seconds 86400).toNat
  let leap := instant.nanoseconds / 1000000000
  let milliseconds := instant.nanoseconds % 1000000000 / 1000000
  yearText date.year ++ "-" ++ Text.padded 2 date.month ++ "-" ++ Text.padded 2 date.day ++ "T" ++
    Text.padded 2 (ofDay / 3600) ++ ":" ++ Text.padded 2 (ofDay / 60 % 60) ++ ":" ++
    Text.padded 2 (ofDay % 60 + leap) ++ "." ++ Text.padded 3 milliseconds ++ "Z"

end Instant

end PolicyForge.Number
