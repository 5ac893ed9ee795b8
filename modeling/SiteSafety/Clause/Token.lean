import SiteSafety.Decimal.Numeral
import SiteSafety.Measurement.Metric

/-!
# Clause — Token

Rule text as words, numbers, comparison signs and boundaries.  **A token is read from the
characters that start it and at most the one before them**; what it leaves out (blanks, brackets,
dashes) separates tokens and is no token itself.  Positions count characters.
-/

namespace SiteSafety.Clause
open Measurement (Comparator)

inductive Kind where
  | word (w : String)
  | number (value : Float)
  | symbol (c : Comparator)
  | boundary
  deriving Repr, DecidableEq

structure Token where
  kind : Kind
  start : Nat
  stop : Nat
  deriving Repr, DecidableEq

def Token.word? (t : Token) : Option String :=
  match t.kind with
  | .word w => some w
  | _ => none

def Token.isBoundary (t : Token) : Bool :=
  match t.kind with
  | .boundary => true
  | _ => false

/-! ### Numbers -/

/-- Exactly three digits stand at the head of a text, as behind a thousands separator. -/
def startsThousands (cs : List Char) : Bool :=
  (cs.take 3).length = 3 && (cs.take 3).all Char.isDigit && !(cs.drop 3).head?.any Char.isDigit

/-- The digits of the number at the head of a text, with its point and without its thousands
separators, and how many characters it takes. -/
def numberSpan (pointed : Bool) : List Char → List Char × Nat
  | [] => ([], 0)
  | c :: rest =>
    if c.isDigit then
      let (ds, n) := numberSpan pointed rest
      (c :: ds, n + 1)
    else if c = '.' && !pointed && rest.head?.any Char.isDigit then
      let (ds, n) := numberSpan true rest
      ('.' :: ds, n + 1)
    else if c = ',' && startsThousands rest then
      let (ds, n) := numberSpan pointed rest
      (ds, n + 1)
    else ([], 0)

/-- Whether a dash behind `previous` and before `rest` is the sign of a number. -/
def isSign (previous : Option Char) (rest : List Char) : Bool :=
  rest.head?.any Char.isDigit &&
    previous.all fun c => Text.isBlank c || c == '>' || c == '<' || c == '=' || c == '('

/-! ### Words -/

def isWordStart (c : Char) : Bool := Text.isAlphabetic c || c == '°'

/-- How many characters continue a word: letters, degree signs, apostrophes, and a slash before a
letter. -/
def wordSpan : List Char → Nat
  | [] => 0
  | c :: rest =>
    if isWordStart c || c == '\'' || (c == '/' && rest.head?.any Text.isAlphabetic) then
      wordSpan rest + 1
    else 0

/-! ### Signs -/

/-- The comparison that starts with `c`, and how many further characters it takes. -/
def symbol? (c : Char) (rest : List Char) : Option (Comparator × Nat) :=
  match c, rest.head? with
  | '>', some '=' => some (.ge, 1)
  | '=', some '>' => some (.ge, 1)
  | '<', some '=' => some (.le, 1)
  | '=', some '<' => some (.le, 1)
  | '=', some '=' => some (.eq, 1)
  | '>', _ => some (.gt, 0)
  | '<', _ => some (.lt, 0)
  | '=', _ => some (.eq, 0)
  | '≥', _ => some (.ge, 0)
  | '≤', _ => some (.le, 0)
  | _, _ => none

/-- Characters that end a clause. -/
def isBoundaryChar (c : Char) : Bool :=
  c == '.' || c == ';' || c == ',' || c == ':' || c == '!' || c == '?' || c == '\n' || c == '\r'

/-! ### Scanning -/

/-- The token that starts with `c`, if one does, and how many characters of `rest` go with `c`. -/
def Kind.first (previous : Option Char) (c : Char) (rest : List Char) : Option Kind × Nat :=
  if c.isDigit then
    let (ds, n) := numberSpan false (c :: rest)
    ((Decimal.readMagnitude? ds).map .number, n - 1)
  else if c == '-' && isSign previous rest then
    let (ds, n) := numberSpan false rest
    ((Decimal.readMagnitude? ds).map fun x => .number (-x), n)
  else if isWordStart c then
    let n := wordSpan rest
    (some (.word (String.ofList ((c :: rest.take n).flatMap Text.lowerChar))), n)
  else match symbol? c rest with
    | some (comparator, n) => (some (.symbol comparator), n)
    | none => (if isBoundaryChar c then some .boundary else none, 0)

/-- The tokens of a text that starts at a position, behind the character `previous`. -/
def tokensFrom (previous : Option Char) (start : Nat) : List Char → List Token
  | [] => []
  | c :: rest =>
    let (kind?, n) := Kind.first previous c rest
    let stop := start + 1 + (rest.take n).length
    let more := tokensFrom (c :: rest.take n).getLast? stop (rest.drop n)
    match kind? with
    | some kind => ⟨kind, start, stop⟩ :: more
    | none => more
termination_by cs => cs.length
decreasing_by simp only [List.length_drop, List.length_cons]; omega

/-- The tokens of a text. -/
def tokens (cs : List Char) : List Token := tokensFrom none 0 cs

end SiteSafety.Clause
