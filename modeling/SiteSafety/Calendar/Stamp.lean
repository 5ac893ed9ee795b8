import SiteSafety.Calendar.Instant
import SiteSafety.Decimal.Numeral
import SiteSafety.Text.Words

/-!
# Calendar — Stamp

Reading of written dates and times against a pattern.  A pattern is a list of parts; each numeric
part skips blanks, takes at most so many digits and is checked against its range at once, so **the
leftmost fault is the one reported**.
-/

namespace SiteSafety.Calendar

/-- Why a text is no date or time. -/
inductive StampError where
  | outOfRange
  | invalid
  | tooShort
  | tooLong
  deriving Repr, DecidableEq

def StampError.message : StampError → String
  | .outOfRange => "input is out of range"
  | .invalid => "input contains invalid characters"
  | .tooShort => "premature end of input"
  | .tooLong => "trailing input"

/-- A part of a pattern. -/
inductive Part where
  | year | month | day | hour | minute
  | mark (c : Char)
  | blanks

/-- What the numeric parts of a text said. -/
structure Fields where
  year : Int := 0
  month : Nat := 1
  day : Nat := 1
  hour : Nat := 0
  minute : Nat := 0

/-- The largest number that a numeric part may hold while it is read. -/
def maxNumber : Nat := 9223372036854775807

/-- At most `limit` digits off the front of a text. -/
def readNumber (limit : Nat) (cs : List Char) : Except StampError (Nat × List Char) :=
  match cs with
  | [] => .error .tooShort
  | _ =>
    let ds := (cs.take limit).takeWhile Char.isDigit
    if ds.isEmpty then .error .invalid
    else if maxNumber < Decimal.ofDigits ds then .error .outOfRange
    else .ok (Decimal.ofDigits ds, cs.drop ds.length)

/-- A number of at most two digits within bounds. -/
def readPair (low high : Nat) (cs : List Char) : Except StampError (Nat × List Char) :=
  match readNumber 2 (Text.trimStart cs) with
  | .error e => .error e
  | .ok (n, rest) => if low ≤ n ∧ n ≤ high then .ok (n, rest) else .error .outOfRange

/-- The numbers that a year may hold while it is read. -/
def yearRange : Int × Int := (-2147483648, 2147483647)

/-- A year of at most four digits, or with a sign and any number of digits. -/
def readYear (cs : List Char) : Except StampError (Int × List Char) :=
  let result : Except StampError (Int × List Char) := match Text.trimStart cs with
    | '-' :: rest => (readNumber rest.length rest).map fun (n, more) => (-(n : Int), more)
    | '+' :: rest => (readNumber rest.length rest).map fun (n, more) => ((n : Int), more)
    | rest => (readNumber 4 rest).map fun (n, more) => ((n : Int), more)
  match result with
  | .error e => .error e
  | .ok (n, rest) =>
    if yearRange.1 ≤ n ∧ n ≤ yearRange.2 then .ok (n, rest) else .error .outOfRange

/-- One part of a pattern off the front of a text. -/
def Part.read (f : Fields) (cs : List Char) : Part → Except StampError (Fields × List Char)
  | .year => (readYear cs).map fun (n, rest) => ({ f with year := n }, rest)
  | .month => (readPair 1 12 cs).map fun (n, rest) => ({ f with month := n }, rest)
  | .day => (readPair 1 31 cs).map fun (n, rest) => ({ f with day := n }, rest)
  | .hour => (readPair 0 23 cs).map fun (n, rest) => ({ f with hour := n }, rest)
  | .minute => (readPair 0 59 cs).map fun (n, rest) => ({ f with minute := n }, rest)
  | .mark c => match cs with
    | [] => .error .tooShort
    | d :: rest => if c = d then .ok (f, rest) else .error .invalid
  | .blanks => .ok (f, Text.trimStart cs)

/-- All parts of a pattern, and then the end of the text. -/
def readParts (f : Fields) (cs : List Char) : List Part → Except StampError Fields
  | [] => if cs.isEmpty then .ok f else .error .tooLong
  | part :: parts =>
    match part.read f cs with
    | .error e => .error e
    | .ok (f, rest) => readParts f rest parts

/-- The pattern of a date: `2020-01-02`. -/
def datePattern : List Part := [.year, .mark '-', .month, .mark '-', .day]

/-- The pattern of a date with hour and minute: `2020-01-02 03:04`. -/
def minutePattern : List Part := datePattern ++ [.blanks, .hour, .mark ':', .minute]

/-- The date that a text names, which has to exist. -/
def Fields.date (f : Fields) : Except StampError Date :=
  let d : Date := ⟨f.year, f.month, f.day⟩
  if d.isValid then .ok d else .error .outOfRange

/-- A date in the form `2020-01-02`. -/
def readDate (cs : List Char) : Except StampError Date := do
  (← readParts {} cs datePattern).date

/-- A minute in the form `2020-01-02 03:04`. -/
def readMinute (cs : List Char) : Except StampError Instant := do
  let f ← readParts {} cs minutePattern
  return Instant.ofDate (← f.date) f.hour f.minute 0

/-- An instant in the form `2020-01-02T03:04:05Z`. -/
def Instant.read? (cs : List Char) : Option Instant :=
  let number (from_ n : Nat) := Decimal.ofDigits ((cs.drop from_).take n)
  if cs.length < 20 then none
  else
    let d : Date := ⟨number 0 4, number 5 2, number 8 2⟩
    if d.isValid then some (Instant.ofDate d (number 11 2) (number 14 2) (number 17 2)) else none

end SiteSafety.Calendar
