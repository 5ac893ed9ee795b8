import SiteSafety.Decimal.Binary
import SiteSafety.Text.Case

/-!
# Decimal — Numeral

Reading of numerals.  **A numeral is read as the number nearest to its exact decimal value**, with
overflow to infinity and underflow to zero.
-/

namespace SiteSafety.Decimal

/-- The natural that a list of decimal digits writes. -/
def ofDigits (cs : List Char) : Nat := cs.foldl (fun n c => 10 * n + (c.toNat - '0'.toNat)) 0

/-- The number nearest to `coefficient · 10 ^ exponent`.  Outside the decades that hold finite
numbers the result is known without computing the power. -/
def nearest (coefficient : Nat) (exponent : Int) : Float :=
  let decades : Int := (Nat.toDigits 10 coefficient).length + exponent
  if coefficient = 0 then 0.0
  else if 400 < decades then infinity
  else if decades < -400 then 0.0
  else Float.ofScientific coefficient (exponent < 0) exponent.natAbs

/-- A run of decimal digits and the text after it. -/
def spanDigits (cs : List Char) : List Char × List Char := cs.span Char.isDigit

/-- An optional sign, and the text after it; true for minus. -/
def readSign : List Char → Bool × List Char
  | '-' :: cs => (true, cs)
  | '+' :: cs => (false, cs)
  | cs => (false, cs)

/-- The exponent part `e`, sign, digits; zero where the text is empty. -/
def readExponent? : List Char → Option Int
  | [] => some 0
  | c :: cs =>
    if c = 'e' ∨ c = 'E' then
      let (minus, rest) := readSign cs
      if rest.isEmpty || !rest.all Char.isDigit then none
      else some (if minus then -(ofDigits rest : Int) else ofDigits rest)
    else none

/-- A numeral without sign: digits with at most one point, at least one digit, and perhaps an
exponent. -/
def readMagnitude? (cs : List Char) : Option Float :=
  let (whole, rest) := spanDigits cs
  let (part, rest) := match rest with
    | '.' :: more => spanDigits more
    | _ => ([], rest)
  if whole.isEmpty && part.isEmpty then none
  else (readExponent? rest).map fun e => nearest (ofDigits (whole ++ part)) (e - part.length)

/-- A number as people and programs write it: a numeral, `inf`, `infinity` or `nan` in any case,
with an optional sign and nothing around it. -/
def read? (cs : List Char) : Option Float :=
  let (minus, rest) := readSign cs
  let magnitude := match String.ofList (Text.asciiLower rest) with
    | "inf" => some infinity
    | "infinity" => some infinity
    | "nan" => some notNumber
    | _ => readMagnitude? rest
  magnitude.map fun x => if minus then -x else x

end SiteSafety.Decimal
