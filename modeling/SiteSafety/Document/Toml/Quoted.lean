import SiteSafety.Document.Json.Reader
import SiteSafety.Text.Words

/-!
# Document — Toml — Quoted

The four kinds of quoted text: between double quotes, where a backslash escapes, and between
single ones, where it does not; on one line, or between tripled quotes over several lines.  **A
line break in a text is a line feed.**
-/

namespace SiteSafety.Document.Toml

def isBlank (c : Char) : Bool := c == ' ' || c == '\t'

/-- What may stand in comments and quoted text: anything but control characters; a tab is none. -/
def isPlain (c : Char) : Bool := c == '\t' || (0x20 ≤ c.toNat && c.toNat != 0x7f)

/-- The character with a code point of so many hexadecimal digits. -/
def codePoint? (digits : Nat) (cs : List Char) : Option Char := do
  let ds ← (cs.take digits).mapM Json.hexDigit?
  let n := ds.foldl (fun n d => 16 * n + d) 0
  if ds.length = digits ∧ n.isValidChar then some (Char.ofNat n) else none

/-- The character that an escape behind its backslash stands for, and the escape's length. -/
def escaped? : List Char → Option (Char × Nat)
  | 'b' :: _ => some (Char.ofNat 8, 1)
  | 't' :: _ => some ('\t', 1)
  | 'n' :: _ => some ('\n', 1)
  | 'f' :: _ => some (Char.ofNat 12, 1)
  | 'r' :: _ => some ('\r', 1)
  | '"' :: _ => some ('"', 1)
  | '\\' :: _ => some ('\\', 1)
  | 'u' :: cs => (codePoint? 4 cs).map (·, 5)
  | 'U' :: cs => (codePoint? 8 cs).map (·, 9)
  | _ => none

/-- Puts a character in front of a text that was read. -/
def push (c : Char) : List Char × List Char → List Char × List Char
  | (text, rest) => (c :: text, rest)

/-! ### Double quotes -/

/-- A text up to its double quote, and what follows. -/
def escapedText? : List Char → Option (List Char × List Char)
  | [] => none
  | '"' :: rest => some ([], rest)
  | '\\' :: rest =>
    match escaped? rest with
    | some (c, n) => (escapedText? (rest.drop n)).map (push c)
    | none => none
  | c :: rest => if isPlain c then (escapedText? rest).map (push c) else none
termination_by cs => cs.length
decreasing_by all_goals simp only [List.length_drop, List.length_cons]; omega

/-- How many characters an escaped line break takes behind its backslash, with the blanks and line
breaks around it. -/
def escapedBreak? (cs : List Char) : Option Nat :=
  let rest := cs.dropWhile isBlank
  match rest with
  | '\n' :: _ => some (cs.length - (rest.dropWhile fun c => isBlank c || c == '\n').length)
  | _ => none

/-- What follows tripled quotes: up to two more of them belong to the text. -/
def closing (quote : Char) (rest : List Char) : List Char × List Char :=
  let more := (rest.takeWhile (· == quote)).take 2
  (more, rest.drop more.length)

/-- A text over several lines up to its three double quotes, and what follows. -/
def escapedLines? : List Char → Option (List Char × List Char)
  | [] => none
  | '"' :: '"' :: '"' :: rest => some (closing '"' rest)
  | '\\' :: rest =>
    match escapedBreak? rest with
    | some n => escapedLines? (rest.drop n)
    | none =>
      match escaped? rest with
      | some (c, n) => (escapedLines? (rest.drop n)).map (push c)
      | none => none
  | c :: rest => if isPlain c || c == '\n' then (escapedLines? rest).map (push c) else none
termination_by cs => cs.length
decreasing_by all_goals simp only [List.length_drop, List.length_cons]; omega

/-! ### Single quotes -/

/-- A text up to its single quote, and what follows. -/
def literalText? (cs : List Char) : Option (List Char × List Char) :=
  match cs.span fun c => isPlain c && c != '\'' with
  | (text, '\'' :: rest) => some (text, rest)
  | _ => none

/-- A text over several lines up to its three single quotes, and what follows. -/
def literalLines? : List Char → Option (List Char × List Char)
  | [] => none
  | '\'' :: '\'' :: '\'' :: rest => some (closing '\'' rest)
  | c :: rest => if isPlain c || c == '\n' then (literalLines? rest).map (push c) else none

/-! ### All kinds -/

/-- The text without a line break at its head. -/
def dropBreak : List Char → List Char
  | '\n' :: cs => cs
  | cs => cs

/-- A quoted text on one line, and what follows. -/
def quotedLine? : List Char → Option (List Char × List Char)
  | '"' :: rest => escapedText? rest
  | '\'' :: rest => literalText? rest
  | _ => none

/-- A quoted text, and what follows. -/
def quoted? : List Char → Option (List Char × List Char)
  | '"' :: '"' :: '"' :: rest => escapedLines? (dropBreak rest)
  | '\'' :: '\'' :: '\'' :: rest => literalLines? (dropBreak rest)
  | cs => quotedLine? cs

end SiteSafety.Document.Toml
