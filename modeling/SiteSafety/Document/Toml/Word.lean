import SiteSafety.Calendar.Instant
import SiteSafety.Document.Toml

/-!
# Document — Toml — Word

Values that are written without quotes or brackets: truth values, numbers, dates and times.  **A
word is one value as a whole or none**; digits may be parted by single underscores.
-/

namespace SiteSafety.Document.Toml

/-! ### Numbers -/

/-- The digits of a numeral whose underscores each stand between two digits. -/
def ungrouped? (isDigit : Char → Bool) : List Char → Option (List Char)
  | [] => none
  | [c] => if isDigit c then some [c] else none
  | c :: '_' :: d :: rest =>
    if isDigit c && d != '_' then (ungrouped? isDigit (d :: rest)).map (c :: ·) else none
  | c :: rest => if isDigit c then (ungrouped? isDigit rest).map (c :: ·) else none

/-- Decimal digits. -/
def decimals? (cs : List Char) : Option (List Char) := ungrouped? Char.isDigit cs

/-- The digits of a whole number, which start with zero only where they are zero. -/
def wholeDigits? (cs : List Char) : Option (List Char) :=
  match cs with
  | '0' :: _ :: _ => none
  | _ => decimals? cs

/-- An integer in the range of 64 bits. -/
def inRange? (n : Int) : Option Toml :=
  if -9223372036854775808 ≤ n ∧ n ≤ 9223372036854775807 then some (.integer n) else none

/-- An integer in a base whose digits are given by their values. -/
def integerIn? (base : Nat) (cs : List Char) : Option Toml := do
  let value? (c : Char) : Option Nat :=
    if c.isDigit then some (c.toNat - '0'.toNat)
    else if 'a' ≤ c ∧ c ≤ 'f' then some (c.toNat - 'a'.toNat + 10)
    else if 'A' ≤ c ∧ c ≤ 'F' then some (c.toNat - 'A'.toNat + 10)
    else none
  let ds ← ungrouped? (fun c => (value? c).any (· < base)) cs
  inRange? (ds.foldl (fun n c => base * n + (value? c).getD 0) 0)

/-- An integer; only a decimal one has a sign. -/
def integer? : List Char → Option Toml
  | '0' :: 'x' :: cs => integerIn? 16 cs
  | '0' :: 'o' :: cs => integerIn? 8 cs
  | '0' :: 'b' :: cs => integerIn? 2 cs
  | cs => do
    let (minus, rest) := Decimal.readSign cs
    let n : Int := Decimal.ofDigits (← wholeDigits? rest)
    inRange? (if minus then -n else n)

/-- The exponent of a number. -/
def exponent? (cs : List Char) : Option Int := do
  let (minus, rest) := Decimal.readSign cs
  let n : Int := Decimal.ofDigits (← decimals? rest)
  return if minus then -n else n

def isExponentMark (c : Char) : Bool := c == 'e' || c == 'E'

/-- The magnitude of a number: whole digits with places, with an exponent, or with both. -/
def magnitude? (cs : List Char) : Option Float := do
  let (mantissa, rest) := cs.span fun c => !isExponentMark c
  let (whole, places) := mantissa.span (· != '.')
  if rest.isEmpty && places.isEmpty then none
  else
    let ws ← wholeDigits? whole
    let ps ← if places.isEmpty then some [] else decimals? (places.drop 1)
    let e ← if rest.isEmpty then some 0 else exponent? (rest.drop 1)
    return Decimal.nearest (Decimal.ofDigits (ws ++ ps)) (e - ps.length)

/-- A number that is no integer; one that is too large is none. -/
def number? (cs : List Char) : Option Toml := do
  let (minus, rest) := Decimal.readSign cs
  let signed (x : Float) : Float := if minus then -x else x
  match String.ofList rest with
  | "inf" => return .float (signed Decimal.infinity)
  | "nan" => return .float (signed Decimal.notNumber)
  | _ =>
    let x := signed (← magnitude? rest)
    if x == Decimal.infinity then none else return .float x

/-! ### Dates and times -/

/-- Two digits in a range, and what follows. -/
def pair? (low high : Nat) : List Char → Option (Nat × List Char)
  | a :: b :: rest =>
    let n := Decimal.ofDigits [a, b]
    if a.isDigit && b.isDigit && low ≤ n && n ≤ high then some (n, rest) else none
  | _ => none

/-- What follows a mark. -/
def after? (mark : Char) : List Char → Option (List Char)
  | c :: rest => if c = mark then some rest else none
  | [] => none

/-- What follows a date. -/
def afterDate? (cs : List Char) : Option (List Char) := do
  let year := cs.take 4
  if year.length = 4 ∧ year.all Char.isDigit then
    let (month, rest) ← pair? 1 12 (← after? '-' (cs.drop 4))
    let (day, rest) ← pair? 1 31 (← after? '-' rest)
    if day ≤ Calendar.monthLength (Decimal.ofDigits year) month then some rest else none
  else none

/-- What follows a time of day. -/
def afterTime? (cs : List Char) : Option (List Char) := do
  let (_, rest) ← pair? 0 23 cs
  let (_, rest) ← pair? 0 59 (← after? ':' rest)
  let (_, rest) ← pair? 0 60 (← after? ':' rest)
  match rest with
  | '.' :: more =>
    let (ds, rest) := more.span Char.isDigit
    if ds.isEmpty then none else some rest
  | _ => some rest

/-- Whether a text is empty or an offset from universal time. -/
def isOffset : List Char → Bool
  | [] => true
  | ['Z'] => true
  | ['z'] => true
  | c :: rest =>
    (c == '+' || c == '-') &&
      ((pair? 0 23 rest).bind fun (_, rest) =>
        (after? ':' rest).bind (pair? 0 59)).any (·.2.isEmpty)

/-- Whether a text is a time of day, perhaps with an offset. -/
def isClock (cs : List Char) : Bool := (afterTime? cs).any isOffset

/-- Whether a text is a date. -/
def isDate (cs : List Char) : Bool := (afterDate? cs).any (·.isEmpty)

/-- A date, a time of day, or a date with a time and perhaps an offset. -/
def time? (cs : List Char) : Option Toml :=
  let whole : Bool :=
    match afterDate? cs with
    | some [] => true
    | some (c :: rest) => (c == 'T' || c == 't' || c == ' ') && isClock rest
    | none => (afterTime? cs).any (·.isEmpty)
  if whole then some (.time (String.ofList cs)) else none

/-! ### Words -/

def isWordChar (c : Char) : Bool :=
  c.isAlphanum || c == '_' || c == '-' || c == '+' || c == '.' || c == ':'

/-- The value of a word. -/
def word? (cs : List Char) : Option Toml :=
  match String.ofList cs with
  | "true" => some (.bool true)
  | "false" => some (.bool false)
  | _ => (time? cs).orElse fun _ => (integer? cs).orElse fun _ => number? cs

/-- The word at the head of a text, and what follows; a time may stand behind a date and a blank. -/
def spanWord (cs : List Char) : List Char × List Char :=
  let (word, rest) := cs.span isWordChar
  match rest with
  | ' ' :: more =>
    let (clock, rest') := more.span isWordChar
    if isDate word && isClock clock then (word ++ ' ' :: clock, rest') else (word, rest)
  | _ => (word, rest)

end SiteSafety.Document.Toml
