/-!
# SchemaMigration.Time.Instant

Instants of universal time and the proleptic Gregorian calendar.

* `Instant` : seconds since the start of 1970 and the nanoseconds after that second.
* `Instant.ofMicros?`, `Instant.micros` : the count of microseconds, as databases hold it.
* `Date` : a calendar day, with `Date.days` and `Date.ofDays` between days and day numbers.
* `Instant.text` : the instant as messages show it.
-/

namespace SchemaMigration

/-- A moment of universal time. `nanos` is below one billion, except inside a leap second, which
is the second billion after the second it follows. -/
structure Instant where
  seconds : Int
  nanos : Nat
deriving DecidableEq, Repr, Inhabited

/-- A day of the proleptic Gregorian calendar; year 0 is the one before year 1. -/
structure Date where
  year : Int
  month : Nat
  day : Nat
deriving DecidableEq, Repr

namespace Date

def isLeapYear (year : Int) : Bool :=
  (year % 4 == 0 && year % 100 != 0) || year % 400 == 0

/-- The number of days of a month; 0 for a month that does not exist. -/
def daysInMonth (year : Int) : (month : Nat) → Nat
  | 1 | 3 | 5 | 7 | 8 | 10 | 12 => 31
  | 4 | 6 | 9 | 11 => 30
  | 2 => if isLeapYear year then 29 else 28
  | _ => 0

/-- The first and the last year whose days are instants. -/
def yearRange : Int × Int := (-262143, 262142)

/-- Whether the calendar has the day and its year is in range. -/
def isValid (date : Date) : Bool :=
  yearRange.1 ≤ date.year && date.year ≤ yearRange.2 &&
    1 ≤ date.day && date.day ≤ daysInMonth date.year date.month

/-- The day's number, counted from 1970-01-01. The year is taken to begin in March, so that the
leap day is its last one; a cycle of 400 years has 146097 days. -/
def days (date : Date) : Int :=
  let year := if date.month ≤ 2 then date.year - 1 else date.year
  let month : Int := (date.month + 9) % 12
  let dayOfYear := (153 * month + 2) / 5 + date.day - 1
  let cycle := year.fdiv 400
  let yearOfCycle := year.fmod 400
  cycle * 146097 + yearOfCycle * 365 + yearOfCycle / 4 - yearOfCycle / 100 + dayOfYear - 719468

def ofDays (n : Int) : Date :=
  let shifted := n + 719468
  let cycle := shifted.fdiv 146097
  let dayOfCycle := shifted.fmod 146097
  let yearOfCycle :=
    (dayOfCycle - dayOfCycle / 1460 + dayOfCycle / 36524 - dayOfCycle / 146096) / 365
  let dayOfYear := dayOfCycle - (365 * yearOfCycle + yearOfCycle / 4 - yearOfCycle / 100)
  let month := (5 * dayOfYear + 2) / 153
  let day := dayOfYear - (153 * month + 2) / 5 + 1
  let civilMonth := if month < 10 then month + 3 else month - 9
  let year := yearOfCycle + cycle * 400
  ⟨if civilMonth ≤ 2 then year + 1 else year, civilMonth.toNat, day.toNat⟩

end Date

namespace Instant

/-- The first second of year -262143. -/
def firstSecond : Int := -8334601228800

/-- The last second of year 262142. -/
def lastSecond : Int := 8210266876799

/-- Whether the second lies in the years that have instants. -/
def inRange (seconds : Int) : Bool := firstSecond ≤ seconds && seconds ≤ lastSecond

/-- The instant with a count of microseconds since the start of 1970, if it is in range. -/
def ofMicros? (micros : Int) : Option Instant :=
  let seconds := micros.fdiv 1000000
  if inRange seconds then some ⟨seconds, (micros.fmod 1000000).toNat * 1000⟩ else none

def micros (instant : Instant) : Int := instant.seconds * 1000000 + instant.nanos / 1000

/-- The decimal digits of `n`, with zeros in front up to `width`. -/
def padded (width n : Nat) : String :=
  let digits := (toString n).toList
  String.ofList (List.replicate (width - digits.length) '0' ++ digits)

/-- Four digits for the years 0 to 9999; a sign and at least four digits for the others. -/
def yearText (year : Int) : String :=
  if 0 ≤ year ∧ year ≤ 9999 then padded 4 year.toNat
  else (if year < 0 then "-" else "+") ++ padded 4 year.natAbs

/-- The fraction of a second with three, six or nine places, whichever suffices first; nothing
for a whole second. -/
def fractionText (nanos : Nat) : String :=
  if nanos = 0 then ""
  else if nanos % 1000000 = 0 then "." ++ padded 3 (nanos / 1000000)
  else if nanos % 1000 = 0 then "." ++ padded 6 (nanos / 1000)
  else "." ++ padded 9 nanos

/-- Date, time and the zone: `2024-05-01 12:30:00 UTC`. A leap second is second 60. -/
def text (instant : Instant) : String :=
  let date := Date.ofDays (instant.seconds.fdiv 86400)
  let time := (instant.seconds.fmod 86400).toNat
  let isLeap := 1000000000 ≤ instant.nanos
  let second := time % 60 + if isLeap then 1 else 0
  let nanos := if isLeap then instant.nanos - 1000000000 else instant.nanos
  yearText date.year ++ "-" ++ padded 2 date.month ++ "-" ++ padded 2 date.day ++ " " ++
    padded 2 (time / 3600) ++ ":" ++ padded 2 (time / 60 % 60) ++ ":" ++ padded 2 second ++
    fractionText nanos ++ " UTC"

end Instant
end SchemaMigration
