import SiteSafety.Decimal.Numeral

/-!
# Document — Toml

Values of settings documents.  **A table has no two members of one name**; the order of its
members means nothing.
-/

namespace SiteSafety.Document

inductive Toml where
  | string (s : String)
  | integer (n : Int)
  | float (x : Float)
  | bool (b : Bool)
  /-- A date, a time of day or both, as written. -/
  | time (written : String)
  | array (items : List Toml)
  | table (members : List (String × Toml))
  deriving Repr

namespace Toml

/-- The member of a table with a name. -/
def get? (name : String) : Toml → Option Toml
  | .table members => members.lookup name
  | _ => none

def text? : Toml → Option String
  | .string s => some s
  | _ => none

def bool? : Toml → Option Bool
  | .bool b => some b
  | _ => none

/-- A number; an integer counts as one too. -/
def float? : Toml → Option Float
  | .float x => some x
  | .integer n => some (Float.ofInt n)
  | _ => none

/-- An integer from zero up to a largest one. -/
def nat? (largest : Nat) : Toml → Option Nat
  | .integer n => if 0 ≤ n ∧ n ≤ largest then some n.toNat else none
  | _ => none

end Toml

end SiteSafety.Document
