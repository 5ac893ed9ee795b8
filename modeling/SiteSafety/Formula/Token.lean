import SiteSafety.Decimal.Numeral
import SiteSafety.Decimal.Text
import SiteSafety.Formula.Error
import SiteSafety.Text.Words

/-!
# Formula — Token

The closed alphabet of formulas and the scan of a text into tokens.  **Each token keeps its own
text and its byte offset**, so a scanned text is its tokens in order with ASCII blanks between
them.  A token is found from the characters at hand alone: the scan looks at the head of the text,
asks how many of the following characters belong to it, and goes on behind them.
-/

namespace SiteSafety.Formula

inductive Token where
  | number (value : Float)
  | ident (name : String)
  | plus | minus | star | slash
  | lt | le | gt | ge | eq | ne
  | lparen | rparen
  deriving Repr

/-- A token with the text it was read from and where that text starts, in bytes. -/
structure Lexeme where
  token : Token
  text : List Char
  offset : Nat
  deriving Repr

/-- How a token is named in a message. -/
def Token.describe : Token → String
  | .number value => Decimal.plain value
  | .ident name => name
  | .plus => "+"
  | .minus => "-"
  | .star => "*"
  | .slash => "/"
  | .lt => "<"
  | .le => "<="
  | .gt => ">"
  | .ge => ">="
  | .eq => "=="
  | .ne => "!="
  | .lparen => "("
  | .rparen => ")"

/-- Words that no variable may be called, in any case. -/
def reserved : List String := [
  "and", "as", "assert", "async", "await", "break", "class", "continue", "def", "del", "elif",
  "else", "eval", "except", "exec", "false", "finally", "for", "from", "global", "if", "import",
  "in", "is", "lambda", "none", "nonlocal", "not", "or", "pass", "raise", "return", "true", "try",
  "while", "with", "yield"]

/-! ### Names -/

def isNameStart (c : Char) : Bool := c.isAlpha || c == '_'

def isNameChar (c : Char) : Bool := c.isAlphanum || c == '_'

/-- Whether a word is kept from being a variable: reserved, or with two underscores in front. -/
def isForbidden (word : List Char) : Bool :=
  reserved.contains (String.ofList (Text.asciiLower word)) || ['_', '_'].isPrefixOf word

/-! ### Numerals -/

/-- How many characters of a text belong to the numeral at its head: digits, a point with digits,
an exponent.  None where an exponent mark has no digits. -/
def numeralLength? (cs : List Char) : Option Nat :=
  let whole := cs.takeWhile Char.isDigit
  let part := match cs.drop whole.length with
    | '.' :: rest => 1 + (rest.takeWhile Char.isDigit).length
    | _ => 0
  match cs.drop (whole.length + part) with
  | c :: rest =>
    if c = 'e' ∨ c = 'E' then
      let sign := match rest with
        | '+' :: _ => 1
        | '-' :: _ => 1
        | _ => 0
      let digits := (rest.drop sign).takeWhile Char.isDigit
      if digits.isEmpty then none else some (whole.length + part + 1 + sign + digits.length)
    else some (whole.length + part)
  | [] => some (whole.length + part)

/-- The numeral at the head of a text and its length.  What may not follow a numeral is a further
point, a letter, a digit or an underscore; a point is reported where it stands. -/
def numeral (cs : List Char) : Except (Violation × Nat) (Float × Nat) :=
  match numeralLength? cs with
  | none => .error (.invalidNumber, 0)
  | some n =>
    match cs.drop n with
    | '.' :: _ => .error (.attributeAccess, n)
    | rest =>
      if rest.head?.any isNameChar then .error (.invalidNumber, 0)
      else match Decimal.read? (cs.take n) with
        | some x => if Decimal.isFinite x then .ok (x, n) else .error (.invalidNumber, 0)
        | none => .error (.invalidNumber, 0)

/-! ### Symbols -/

/-- The symbol that starts with `c`, and how many further characters it takes. -/
def symbol? (c : Char) (rest : List Char) : Option (Token × Nat) :=
  let equals := rest.head? == some '='
  match c with
  | '<' => some (if equals then (.le, 1) else (.lt, 0))
  | '>' => some (if equals then (.ge, 1) else (.gt, 0))
  | '=' => if equals then some (.eq, 1) else none
  | '!' => if equals then some (.ne, 1) else none
  | '+' => some (.plus, 0)
  | '-' => some (.minus, 0)
  | '*' => some (.star, 0)
  | '/' => some (.slash, 0)
  | '(' => some (.lparen, 0)
  | ')' => some (.rparen, 0)
  | _ => none

/-- What a character outside the alphabet would have begun. -/
def foreign (c : Char) : Violation :=
  match c with
  | '.' => .attributeAccess
  | '[' | ']' => .indexAccess
  | '{' | '}' | ',' => .collection
  | '=' => .assignment
  | '"' | '\'' | '`' => .stringLiteral
  | _ => .unexpectedCharacter c

/-! ### Scanning -/

/-- The token at the head of `c :: rest` and how many characters of `rest` it takes, or a violation
and how many characters behind `c` it stands. -/
def Token.first (c : Char) (rest : List Char) : Except (Violation × Nat) (Token × Nat) :=
  if c.isDigit || (c == '.' && rest.head?.any Char.isDigit) then
    (numeral (c :: rest)).map fun (value, n) => (.number value, n - 1)
  else if isNameStart c then
    let tail := rest.takeWhile isNameChar
    let word := c :: tail
    if isForbidden word then .error (.keyword (String.ofList word), 0)
    else .ok (.ident (String.ofList word), tail.length)
  else match symbol? c rest with
    | some found => .ok found
    | none => .error (foreign c, 0)

/-- The tokens of a text that starts at byte `offset`. -/
def scanFrom (offset : Nat) : List Char → Except Error (List Lexeme)
  | [] => .ok []
  | c :: rest =>
    if Text.isAsciiBlank c then scanFrom (offset + c.utf8Size) rest
    else match Token.first c rest with
      | .error (kind, n) => .error (.rejected kind (offset + n))
      | .ok (token, n) =>
        let text := c :: rest.take n
        match scanFrom (offset + Text.width text) (rest.drop n) with
        | .ok more => .ok (⟨token, text, offset⟩ :: more)
        | .error e => .error e
termination_by cs => cs.length
decreasing_by all_goals simp only [List.length_drop, List.length_cons]; omega

/-- The tokens of a text. -/
def scan (cs : List Char) : Except Error (List Lexeme) := scanFrom 0 cs

end SiteSafety.Formula
