/-! Points in time and their text.

    An instant is a number of seconds since the first day of 1970 and a number of nanoseconds. Its
    text has the date of the Gregorian calendar, the time of day, as many digits of a fraction as
    are needed in groups of three, and a `Z`:

        1970-01-01T00:00:00Z     2023-11-14T22:13:20.500Z

    Years before 0 or after 9999 have a sign. A number of nanoseconds past one second is the
    sixty-first second of its minute. -/

namespace WindowedMean

/-- A day of the Gregorian calendar. -/
structure Date where
  year : Int
  month : Nat
  day : Nat
  deriving DecidableEq, Repr

/-- The date of a day, counted from the first of January 1970. The count is moved to a first of
    March, so a leap day is the last of its year, and split into spans of 400 years. -/
def Date.ofDay (day : Int) : Date :=
  let z := day + 719468
  let era := z / 146097
  let dayOfEra := (z % 146097).toNat
  let yearOfEra := (dayOfEra - dayOfEra / 1460 + dayOfEra / 36524 - dayOfEra / 146096) / 365
  let dayOfYear := dayOfEra - (365 * yearOfEra + yearOfEra / 4 - yearOfEra / 100)
  let monthFromMarch := (5 * dayOfYear + 2) / 153
  let month := if monthFromMarch < 10 then monthFromMarch + 3 else monthFromMarch - 9
  { year := yearOfEra + era * 400 + (if month ≤ 2 then 1 else 0)
    month := month
    day := dayOfYear - (153 * monthFromMarch + 2) / 5 + 1 }

/-- A number with at least `width` digits, zeros in front. -/
def padded (width n : Nat) : List Char :=
  let ds := Nat.toDigits 10 n
  List.replicate (width - ds.length) '0' ++ ds

/-- A point in time. -/
structure Instant where
  seconds : Int
  nanos : Nat
  deriving DecidableEq, Repr

namespace Instant

/-- The characters of a year; outside 0 to 9999 it has a sign. -/
def yearChars (year : Int) : List Char :=
  if 0 ≤ year ∧ year ≤ 9999 then padded 4 year.toNat
  else (if year < 0 then '-' else '+') :: padded 4 year.natAbs

/-- The fraction of a second in three, six or nine digits, the fewest that are exact; none if it is
    zero. -/
def fractionChars (nanos : Nat) : List Char :=
  if nanos = 0 then []
  else if nanos % 1000000 = 0 then '.' :: padded 3 (nanos / 1000000)
  else if nanos % 1000 = 0 then '.' :: padded 6 (nanos / 1000)
  else '.' :: padded 9 nanos

/-- The text of an instant. -/
def text (t : Instant) : String :=
  let date := Date.ofDay (t.seconds / 86400)
  let second := (t.seconds % 86400).toNat
  .ofList <| yearChars date.year ++ '-' :: padded 2 date.month ++ '-' :: padded 2 date.day
    ++ 'T' :: padded 2 (second / 3600) ++ ':' :: padded 2 (second / 60 % 60)
    ++ ':' :: padded 2 (second % 60 + t.nanos / 1000000000)
    ++ fractionChars (t.nanos % 1000000000) ++ ['Z']

end Instant

/-- What a wall clock shows a number of milliseconds after the start. It need not go as evenly as the
    milliseconds do. -/
abbrev Clock := Nat → Instant

end WindowedMean
