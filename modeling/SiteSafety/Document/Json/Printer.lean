import SiteSafety.Decimal.Text
import SiteSafety.Document.Json

/-!
# Document — Json — Printer

Written forms of values for output: on one line without blanks, or spread over lines with two
blanks for each level.  The values are trees of their own, since what is printed knows its numbers
as floating ones and naturals.
-/

namespace SiteSafety.Document

/-- A value to be written. -/
inductive Output where
  | null
  | bool (b : Bool)
  | nat (n : Nat)
  | float (x : Float)
  | string (s : String)
  | array (items : List Output)
  | object (members : List (String × Output))

namespace Output

/-- The string, or null where there is none. -/
def string? : Option String → Output
  | some s => .string s
  | none => .null

/-- Two hexadecimal digits of a small code point. -/
def hexPair (n : Nat) : List Char :=
  let digit (d : Nat) : Char := Char.ofNat (if d < 10 then '0'.toNat + d else 'a'.toNat + (d - 10))
  [digit (n / 16), digit (n % 16)]

/-- How a character stands in a written string. -/
def escape (c : Char) : List Char :=
  match c with
  | '"' => ['\\', '"']
  | '\\' => ['\\', '\\']
  | '\n' => ['\\', 'n']
  | '\r' => ['\\', 'r']
  | '\t' => ['\\', 't']
  | _ =>
    if c.toNat = 8 then ['\\', 'b']
    else if c.toNat = 12 then ['\\', 'f']
    else if c.toNat < 0x20 then '\\' :: 'u' :: '0' :: '0' :: hexPair c.toNat
    else [c]

def quote (s : String) : String := "\"" ++ String.ofList (s.toList.flatMap escape) ++ "\""

/-- The written form of a value that has no parts. -/
def atomText : Output → String
  | .null => "null"
  | .bool b => if b then "true" else "false"
  | .nat n => Decimal.digits n
  | .float x => if Decimal.isFinite x then Decimal.documented x else "null"
  | .string s => quote s
  | .array _ => "[]"
  | .object _ => "\x7b\x7d"

mutual
/-- The form on one line. -/
def compact : Output → String
  | .array items => "[" ++ String.intercalate "," (compactItems items) ++ "]"
  | .object members => "\x7b" ++ String.intercalate "," (compactMembers members) ++ "\x7d"
  | j => j.atomText

def compactItems : List Output → List String
  | [] => []
  | j :: rest => compact j :: compactItems rest

def compactMembers : List (String × Output) → List String
  | [] => []
  | (name, j) :: rest => (quote name ++ ":" ++ compact j) :: compactMembers rest
end

/-- Lines between brackets, each at the level inside them. -/
def spread (level : Nat) (first last : String) (lines : List String) : String :=
  let blanks (n : Nat) : String := String.ofList (List.replicate (2 * n) ' ')
  if lines.isEmpty then first ++ last
  else
    first ++ "\n" ++ String.intercalate ",\n" (lines.map (blanks (level + 1) ++ ·)) ++ "\n"
      ++ blanks level ++ last

mutual
/-- The form over several lines, at a level. -/
def pretty (level : Nat) : Output → String
  | .array items => spread level "[" "]" (prettyItems (level + 1) items)
  | .object members => spread level "\x7b" "\x7d" (prettyMembers (level + 1) members)
  | j => j.atomText

def prettyItems (level : Nat) : List Output → List String
  | [] => []
  | j :: rest => pretty level j :: prettyItems level rest

def prettyMembers (level : Nat) : List (String × Output) → List String
  | [] => []
  | (name, j) :: rest => (quote name ++ ": " ++ pretty level j) :: prettyMembers level rest
end

end Output

end SiteSafety.Document
