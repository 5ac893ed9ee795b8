import SiteSafety.Decimal.Text

/-!
# Calendar — Instant

Points of time in universal time, to the second, and days of the Gregorian calendar extended to
all years.  Years are cut into eras of 400, **which all have the same 146097 days**, and a year is
counted from March, so that the leap day ends it.
-/

namespace SiteSafety.Calendar

/-- A day by year, month and day of the month. -/
structure Date where
  year : Int
  month : Nat
  day : Nat
  deriving Repr, DecidableEq

/-- Seconds since the first of January 1970. -/
structure Instant where
  seconds : Int
  deriving Repr, DecidableEq

def isLeap (year : Int) : Bool :=
  year.emod 4 = 0 && (year.emod 100 != 0 || year.emod 400 = 0)

def monthLength (year : Int) (month : Nat) : Nat :=
  match month with
  | 2 => if isLeap year then 29 else 28
  | 4 | 6 | 9 | 11 => 30
  | _ => 31

/-- The years that a date may have. -/
def firstYear : Int := -262143

def lastYear : Int := 262142

/-- A date that exists. -/
def Date.isValid (d : Date) : Bool :=
  firstYear ≤ d.year && d.year ≤ lastYear && 1 ≤ d.month && d.month ≤ 12 &&
    1 ≤ d.day && d.day ≤ monthLength d.year d.month

/-- Days since the first of January 1970. -/
def Date.toDays (d : Date) : Int :=
  let year := if d.month ≤ 2 then d.year - 1 else d.year
  let era := year.fdiv 400
  let yearOfEra := year - era * 400
  let month : Int := if d.month ≤ 2 then d.month + 9 else d.month - 3
  let dayOfYear := (153 * month + 2).fdiv 5 + d.day - 1
  era * 146097 + (yearOfEra * 365 + yearOfEra.fdiv 4 - yearOfEra.fdiv 100 + dayOfYear) - 719468

/-- The day so many days after the first of January 1970. -/
def Date.ofDays (days : Int) : Date :=
  let shifted := days + 719468
  let era := shifted.fdiv 146097
  let dayOfEra := shifted - era * 146097
  let yearOfEra :=
    (dayOfEra - dayOfEra.fdiv 1460 + dayOfEra.fdiv 36524 - dayOfEra.fdiv 146096).fdiv 365
  let dayOfYear := dayOfEra - (365 * yearOfEra + yearOfEra.fdiv 4 - yearOfEra.fdiv 100)
  let month := (5 * dayOfYear + 2).fdiv 153
  let day := dayOfYear - (153 * month + 2).fdiv 5 + 1
  let civil := if month < 10 then month + 3 else month - 9
  let year := yearOfEra + era * 400
  ⟨if civil ≤ 2 then year + 1 else year, civil.toNat, day.toNat⟩

/-- The instant of a time of day. -/
def Instant.ofDate (d : Date) (hour minute second : Nat) : Instant :=
  ⟨d.toDays * 86400 + (hour * 3600 + minute * 60 + second : Nat)⟩

def Instant.date (t : Instant) : Date := Date.ofDays (t.seconds.fdiv 86400)

/-- Seconds since midnight. -/
def Instant.secondOfDay (t : Instant) : Nat := (t.seconds.fmod 86400).toNat

/-- The start of the minute. -/
def Instant.toMinute (t : Instant) : Instant := ⟨t.seconds - t.seconds.fmod 60⟩

/-! ### Written forms -/

/-- A year in four digits; outside these with a sign and at least four digits. -/
def yearText (year : Int) : String :=
  if 0 ≤ year ∧ year ≤ 9999 then Decimal.padded 4 year.toNat
  else (if year < 0 then "-" else "+") ++ Decimal.padded 4 year.natAbs

def Date.text (d : Date) : String :=
  yearText d.year ++ "-" ++ Decimal.padded 2 d.month ++ "-" ++ Decimal.padded 2 d.day

/-- Date, hour and minute: `2020-01-02 03:04`. -/
def Instant.minuteText (t : Instant) : String :=
  t.date.text ++ " " ++ Decimal.padded 2 (t.secondOfDay / 3600) ++ ":" ++
    Decimal.padded 2 (t.secondOfDay / 60 % 60)

/-- The time of day to the second. -/
def Instant.clockText (t : Instant) : String :=
  Decimal.padded 2 (t.secondOfDay / 3600) ++ ":" ++ Decimal.padded 2 (t.secondOfDay / 60 % 60) ++
    ":" ++ Decimal.padded 2 (t.secondOfDay % 60)

/-- The form of data documents: `2020-01-02T03:04:05Z`. -/
def Instant.text (t : Instant) : String := t.date.text ++ "T" ++ t.clockText ++ "Z"

/-- The form with a numeric offset: `2020-01-02T03:04:05+00:00`. -/
def Instant.offsetText (t : Instant) : String := t.date.text ++ "T" ++ t.clockText ++ "+00:00"

end SiteSafety.Calendar
