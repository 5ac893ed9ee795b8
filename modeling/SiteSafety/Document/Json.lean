import SiteSafety.Decimal.Numeral

/-!
# Document — Json

Values of data documents.  A number keeps its exact decimal value and an object keeps its members
in order, repeated names included; **of members with one name the last one counts**.  A string
whose escapes name half a pair has no text, though it is a string.
-/

namespace SiteSafety.Document

inductive Json where
  | null
  | bool (b : Bool)
  /-- `± coefficient · 10 ^ exponent`. -/
  | number (negative : Bool) (coefficient : Nat) (exponent : Int)
  | string (text? : Option String)
  | array (items : List Json)
  | object (members : List (String × Json))
  deriving Repr

namespace Json

/-- A string with text. -/
def text (s : String) : Json := .string (some s)

def ofNat (n : Nat) : Json := .number false n 0

/-- The member of an object with a name. -/
def get? (name : String) : Json → Option Json
  | .object members => members.reverse.lookup name
  | _ => none

def text? : Json → Option String
  | .string t => t
  | _ => none

def bool? : Json → Option Bool
  | .bool b => some b
  | _ => none

def array? : Json → Option (List Json)
  | .array items => some items
  | _ => none

def object? : Json → Option (List (String × Json))
  | .object members => some members
  | _ => none

def isNull : Json → Bool
  | .null => true
  | _ => false

/-- A number as the nearest floating one, unless it is too large for any.  A reader that multiplies
floating numbers by powers of ten finds the nearest one as a rule, but only a number close to it
where there are more than 19 digits or a large exponent; here it is always the nearest. -/
def float? : Json → Option Float
  | .number negative coefficient exponent =>
    let x := Decimal.nearest coefficient exponent
    if Decimal.isFinite x then some (if negative then -x else x) else none
  | _ => none

/-- A number that is written as a natural. -/
def nat? : Json → Option Nat
  | .number false n 0 => some n
  | _ => none

end Json

end SiteSafety.Document
