import SiteSafety.Document.Toml.Outline
import SiteSafety.Document.Toml.Quoted
import SiteSafety.Document.Toml.Word

/-!
# Document — Toml — Reader

Documents line by line: a header, a key with its value, or nothing but a comment.  **A document is
read as a whole or not at all.**
-/

namespace SiteSafety.Document.Toml

/-! ### Blanks and comments -/

def skipBlanks (cs : List Char) : List Char := cs.dropWhile isBlank

/-- What follows a comment, if there is one. -/
def skipComment : List Char → List Char
  | '#' :: cs => cs.dropWhile isPlain
  | cs => cs

/-- What follows the end of a line. -/
def endLine? (cs : List Char) : Option (List Char) :=
  match skipComment (skipBlanks cs) with
  | [] => some []
  | '\n' :: rest => some rest
  | _ => none

/-- What follows blanks, comments and line breaks. -/
def skipFiller : List Char → List Char
  | [] => []
  | c :: rest =>
    if c = '#' then skipFiller (rest.dropWhile isPlain)
    else if isBlank c || c == '\n' then skipFiller rest
    else c :: rest
termination_by cs => cs.length
decreasing_by
  · have := (List.dropWhile_suffix isPlain (l := rest)).length_le
    simp only [List.length_cons]; omega
  · simp

/-! ### Keys -/

/-- How many levels keys, arrays and inline tables may have; a further one is refused. -/
def maxLevels : Nat := 79

def isBareChar (c : Char) : Bool := c.isAlphanum || c == '_' || c == '-'

/-- One name of a key, and what follows. -/
def name? (cs : List Char) : Option (String × List Char) :=
  match quotedLine? cs with
  | some (text, rest) => some (String.ofList text, rest)
  | none =>
    let (bare, rest) := cs.span isBareChar
    if bare.isEmpty then none else some (String.ofList bare, rest)

/-- Names parted by points with blanks around them, up to so many, and what follows. -/
def key? : Nat → List Char → Option (List String × List Char)
  | 0, _ => none
  | levels + 1, cs => do
    let (name, rest) ← name? (skipBlanks cs)
    match skipBlanks rest with
    | '.' :: rest =>
      let (names, rest) ← key? levels rest
      return (name :: names, rest)
    | rest => return ([name], rest)

/-! ### Values -/

/-- A reader takes a value off the front of a text. -/
abbrev Reader := List Char → Option (Toml × List Char)

/-- The items of an array behind its bracket, and what follows. -/
def items? (item : Reader) (cs : List Char) : Option (List Toml × List Char) :=
  match skipFiller cs with
  | ']' :: rest => some ([], rest)
  | cs' =>
    match item cs' with
    | none => none
    | some (v, rest) =>
      match skipFiller rest with
      | ']' :: rest => some ([v], rest)
      | ',' :: rest =>
        if rest.length < cs.length then
          (items? item rest).map fun (vs, rest) => (v :: vs, rest)
        else none
      | _ => none
termination_by cs.length

/-- A key with its value, and what follows. -/
def pair (item : Reader) (cs : List Char) : Option ((List String × Toml) × List Char) := do
  let (path, rest) ← key? maxLevels cs
  let (v, rest) ← item (skipBlanks (← after? '=' rest))
  return ((path, v), skipBlanks rest)

/-- The pairs of an inline table, of which there is at least one, and what follows. -/
def pairs? (item : Reader) (cs : List Char) :
    Option (List (List String × Toml) × List Char) :=
  match pair item cs with
  | none => none
  | some (p, '\x7d' :: rest) => some ([p], rest)
  | some (p, ',' :: rest) =>
    if rest.length < cs.length then
      (pairs? item rest).map fun (ps, rest) => (p :: ps, rest)
    else none
  | some _ => none
termination_by cs.length

/-- An inline table behind its brace, and what follows. -/
def inline? (item : Reader) (cs : List Char) : Option (Toml × List Char) :=
  match skipBlanks cs with
  | '\x7d' :: rest => some (.table [], rest)
  | cs => do
    let (ps, rest) ← pairs? item cs
    return (← ofPairs ps, rest)

/-- A value with so many levels, and what follows. -/
def value? : Nat → Reader
  | levels, cs =>
    match cs with
    | '"' :: _ => (quoted? cs).map fun (text, rest) => (.string (String.ofList text), rest)
    | '\'' :: _ => (quoted? cs).map fun (text, rest) => (.string (String.ofList text), rest)
    | '[' :: rest =>
      match levels with
      | 0 => none
      | levels + 1 => (items? (value? levels) rest).map fun (vs, rest) => (.array vs, rest)
    | '\x7b' :: rest =>
      match levels with
      | 0 => none
      | levels + 1 => inline? (value? levels) rest
    | _ =>
      let (word, rest) := spanWord cs
      (word? word).map (·, rest)

/-! ### Lines -/

inductive Line where
  | blank
  | header (repeated : Bool) (path : List String)
  | pair (path : List String) (v : Toml)

/-- What stands on a line, and what follows the line. -/
def line? (cs : List Char) : Option (Line × List Char) := do
  match skipBlanks cs with
  | '[' :: '[' :: rest =>
    let (path, rest) ← key? maxLevels rest
    let rest ← after? ']' (← after? ']' rest)
    return (.header true path, ← endLine? rest)
  | '[' :: rest =>
    let (path, rest) ← key? maxLevels rest
    return (.header false path, ← endLine? (← after? ']' rest))
  | cs =>
    match endLine? cs with
    | some rest => return (.blank, rest)
    | none =>
      let ((path, v), rest) ← pair (value? maxLevels) cs
      return (.pair path v, ← endLine? rest)

/-- The lines of a text. -/
def lines? (cs : List Char) : Option (List Line) :=
  if cs.isEmpty then some []
  else
    match line? cs with
    | none => none
    | some (l, rest) =>
      if rest.length < cs.length then (lines? rest).map (l :: ·) else none
termination_by cs.length

/-- Lines as the pairs before any header, and sections. -/
def collect : List Line → List (List String × Toml) × List Section
  | [] => ([], [])
  | .blank :: rest => collect rest
  | .pair path v :: rest =>
    let (pairs, sections) := collect rest
    ((path, v) :: pairs, sections)
  | .header repeated path :: rest =>
    let (pairs, sections) := collect rest
    ([], ⟨repeated, path, pairs⟩ :: sections)

/-- The text without a byte order mark at its head. -/
def dropMark : List Char → List Char
  | '\ufeff' :: cs => cs
  | cs => cs

/-- The value of a document. -/
def read? (text : String) : Option Toml := do
  let lines ← lines? (Text.replace ['\r', '\n'] ['\n'] (dropMark text.toList))
  let (pairs, sections) := collect lines
  ofSections pairs sections

end SiteSafety.Document.Toml
