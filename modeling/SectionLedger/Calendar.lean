/-!
# Instants and dates

An instant is a number of seconds since the beginning of 1970 and a part of a second.  Its date in
the Gregorian calendar is found by counting from a first of March, so that a leap day comes last in
its year, and by eras of 400 years, all of which have the same number of days.
-/

namespace SectionLedger

/-- Whether a year has a leap day. -/
def isLeapYear (year : Int) : Bool := year % 4 == 0 && (year % 100 != 0 || year % 400 == 0)

/-- The number of days of a month of a year; a number that is no month counts as a long one. -/
def daysInMonth (year : Int) (month : Nat) : Nat :=
  if month = 2 then if isLeapYear year then 29 else 28
  else if month = 4 ∨ month = 6 ∨ month = 9 ∨ month = 11 then 30
  else 31

/-- A day of the Gregorian calendar. -/
structure Date where
  year : Int
  month : Nat
  day : Nat
  deriving DecidableEq, Repr

namespace Date

/-- The days of an era. -/
def daysPerEra : Int := 146097

/-- The days from the first of March of year zero to the first of January 1970. -/
def daysBefore1970 : Int := 719468

/-- The year of an era that a day of the era lies in, when years begin in March: days are counted as
if every year had 365, after the leap days so far have been taken off. -/
def yearOfEra (dayOfEra : Nat) : Nat :=
  (dayOfEra - dayOfEra / 1460 + dayOfEra / 36524 - dayOfEra / 146096) / 365

/-- The first day of a year of an era. -/
def firstDayOfYear (yearOfEra : Nat) : Nat := 365 * yearOfEra + yearOfEra / 4 - yearOfEra / 100

/-- The date of a day of an era.  Five months from March have 153 days, and so have the next
five. -/
def ofEra (era : Int) (dayOfEra : Nat) : Date :=
  let year := yearOfEra dayOfEra
  let dayOfYear := dayOfEra - firstDayOfYear year
  let monthFromMarch := (5 * dayOfYear + 2) / 153
  let day := dayOfYear - (153 * monthFromMarch + 2) / 5 + 1
  let month := if monthFromMarch < 10 then monthFromMarch + 3 else monthFromMarch - 9
  ⟨400 * era + year + (if month ≤ 2 then 1 else 0), month, day⟩

/-- The date a number of days after the first of January 1970. -/
def ofDays (days : Int) : Date :=
  let day := days + daysBefore1970
  ofEra (day / daysPerEra) (day % daysPerEra).toNat

end Date

/-- A number in decimal digits, with zeros in front up to a width. -/
def zeroPadded (width n : Nat) : String :=
  let digits := Nat.toDigits 10 n
  String.ofList (List.replicate (width - digits.length) '0' ++ digits)

namespace Date

/-- A year of four digits, or with a sign if it has more or is negative. -/
def yearText (year : Int) : String :=
  if 0 ≤ year ∧ year ≤ 9999 then zeroPadded 4 year.toNat
  else (if year < 0 then "-" else "+") ++ zeroPadded 4 year.natAbs

/-- Year, month and day. -/
def toText (d : Date) : String :=
  yearText d.year ++ "-" ++ zeroPadded 2 d.month ++ "-" ++ zeroPadded 2 d.day

end Date

/-- A point in time. -/
structure Instant where
  /-- Seconds since the beginning of 1970. -/
  seconds : Int
  /-- The part of a second.  From one second on it stands for a leap second, which follows second 59
  and is called second 60. -/
  nanos : Nat
  deriving DecidableEq, Repr

namespace Instant

/-- The date of an instant. -/
def date (t : Instant) : Date := .ofDays (t.seconds / 86400)

/-- The seconds since midnight. -/
def secondOfDay (t : Instant) : Nat := (t.seconds % 86400).toNat

/-- The number of the second in its minute. -/
def second (t : Instant) : Nat := t.secondOfDay % 60 + t.nanos / 1000000000

/-- Hour, minute and second. -/
def clockText (t : Instant) : String :=
  zeroPadded 2 (t.secondOfDay / 3600) ++ ":" ++ zeroPadded 2 (t.secondOfDay / 60 % 60) ++ ":" ++
    zeroPadded 2 t.second

/-- The part of a second in three, six or nine digits, as few as are exact, or in none. -/
def fractionText (t : Instant) : String :=
  let nanos := t.nanos % 1000000000
  if nanos = 0 then ""
  else if nanos % 1000000 = 0 then "." ++ zeroPadded 3 (nanos / 1000000)
  else if nanos % 1000 = 0 then "." ++ zeroPadded 6 (nanos / 1000)
  else "." ++ zeroPadded 9 nanos

/-- An instant as it is shown. -/
def shown (t : Instant) : String := t.date.toText ++ " " ++ t.clockText ++ " UTC"

/-- An instant as it is stored. -/
def stored (t : Instant) : String := t.date.toText ++ "T" ++ t.clockText ++ t.fractionText ++ "Z"

end Instant

end SectionLedger
