import SiteSafety.Document.Toml

/-!
# Document — Toml — Outline

How headers and dotted keys make up the tables of a document.  **Nothing is defined twice**: a
value is never replaced, a header opens a table once, and a dotted key extends only tables that
dotted keys made.
-/

namespace SiteSafety.Document.Toml

/-- How a table came about. -/
inductive Origin where
  /-- By its own header. -/
  | header
  /-- On the way of a longer header. -/
  | implied
  /-- By a dotted key. -/
  | dotted
  deriving Repr, DecidableEq

/-- A part of a document while it is being made up. -/
inductive Node where
  | value (v : Toml)
  | table (origin : Origin) (members : List (String × Node))
  /-- Tables of one name, the latest first. -/
  | tables (items : List (List (String × Node)))

abbrev Members := List (String × Node)

/-- Puts a node under a name, in the stead of what was there. -/
def Members.put (ms : Members) (name : String) (n : Node) : Members :=
  (name, n) :: ms.filter (·.1 != name)

/-- Sets a value under a dotted key. -/
def assign (v : Toml) : List String → Members → Option Members
  | [], _ => none
  | [name], ms => if (ms.lookup name).isSome then none else some (ms.put name (.value v))
  | name :: next :: rest, ms =>
    match ms.lookup name with
    | none => (assign v (next :: rest) []).map fun inner => ms.put name (.table .dotted inner)
    | some (.table origin inner) =>
      if origin = .header ∨ (rest = [] ∧ origin ≠ .dotted) then none
      else (assign v (next :: rest) inner).map fun inner => ms.put name (.table origin inner)
    | some (.tables (inner :: others)) =>
      if rest = [] then none
      else (assign v (next :: rest) inner).map fun inner => ms.put name (.tables (inner :: others))
    | some _ => none

/-- Sets values under dotted keys, one after the other. -/
def assignAll (ms : Members) (pairs : List (List String × Toml)) : Option Members :=
  pairs.foldlM (fun ms (path, v) => assign v path ms) ms

/-! ### Headers -/

/-- A header with the pairs below it. -/
structure Section where
  /-- Whether the header starts another table of its name. -/
  repeated : Bool
  path : List String
  pairs : List (List String × Toml)

/-- Opens the table of a header and sets its pairs. -/
def Section.enter (s : Section) : List String → Members → Option Members
  | [], _ => none
  | [name], ms =>
    match s.repeated, ms.lookup name with
    | false, none => (assignAll [] s.pairs).map fun inner => ms.put name (.table .header inner)
    | false, some (.table .implied inner) =>
      (assignAll inner s.pairs).map fun inner => ms.put name (.table .header inner)
    | true, none => (assignAll [] s.pairs).map fun inner => ms.put name (.tables [inner])
    | true, some (.tables others) =>
      (assignAll [] s.pairs).map fun inner => ms.put name (.tables (inner :: others))
    | _, some _ => none
  | name :: next :: rest, ms =>
    match ms.lookup name with
    | none => (s.enter (next :: rest) []).map fun inner => ms.put name (.table .implied inner)
    | some (.table origin inner) =>
      (s.enter (next :: rest) inner).map fun inner => ms.put name (.table origin inner)
    | some (.tables (inner :: others)) =>
      (s.enter (next :: rest) inner).map fun inner => ms.put name (.tables (inner :: others))
    | some _ => none

/-! ### Values -/

mutual
/-- The value that a node makes up. -/
def Node.toToml : Node → Toml
  | .value v => v
  | .table _ ms => .table (memberValues ms)
  | .tables items => .array (tableValues items).reverse

def memberValues : List (String × Node) → List (String × Toml)
  | [] => []
  | (name, n) :: rest => (name, n.toToml) :: memberValues rest

def tableValues : List (List (String × Node)) → List Toml
  | [] => []
  | ms :: rest => .table (memberValues ms) :: tableValues rest
end

/-- The value of a document: pairs before any header, and sections. -/
def ofSections (pairs : List (List String × Toml)) (sections : List Section) : Option Toml := do
  let root ← assignAll [] pairs
  let root ← sections.foldlM (fun root s => s.enter s.path root) root
  return .table (memberValues root)

/-- The value of an inline table. -/
def ofPairs (pairs : List (List String × Toml)) : Option Toml := ofSections pairs []

end SiteSafety.Document.Toml
