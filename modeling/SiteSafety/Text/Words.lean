import SiteSafety.Text.Letter

/-!
# Text — Words

Trimming, splitting and searching of texts, on lists of characters.  **Nothing here looks past the
text it is given**: a trimmed text, a word and a piece are contiguous parts of it.
-/

namespace SiteSafety.Text

/-! ### Trimming -/

/-- The text without its leading blanks. -/
def trimStart (cs : List Char) : List Char := cs.dropWhile isBlank

/-- The text without the trailing characters in a class. -/
def dropEndWhile (p : Char → Bool) (cs : List Char) : List Char := (cs.reverse.dropWhile p).reverse

/-- The text without its trailing blanks. -/
def trimEnd (cs : List Char) : List Char := dropEndWhile isBlank cs

/-- The text without the blanks at its two ends. -/
def trim (cs : List Char) : List Char := trimEnd (trimStart cs)

/-- The string without the blanks at its two ends. -/
def trimmed (s : String) : String := String.ofList (trim s.toList)

/-- Whether a string holds nothing but blanks. -/
def isBlankText (s : String) : Bool := s.toList.all isBlank

/-! ### Splitting -/

/-- The pieces between the characters of a class, empty pieces dropped. -/
def fields (sep : Char → Bool) (cs : List Char) : List (List Char) :=
  (cs.splitOnP sep).filter (!·.isEmpty)

/-- The words of a text: its maximal runs without a blank. -/
def words (cs : List Char) : List (List Char) := fields isBlank cs

/-- Pieces laid end to end with a separator between each two. -/
def join (sep : List Char) : List (List Char) → List Char
  | [] => []
  | [p] => p
  | p :: q :: rest => p ++ sep ++ join sep (q :: rest)

/-- A line without the carriage return that belongs to its line break. -/
def dropReturn (cs : List Char) : List Char :=
  match cs.getLast? with
  | some '\r' => cs.dropLast
  | _ => cs

/-- The lines of a text, line breaks left out; what follows the last break is a line unless it is
empty. -/
def lines (cs : List Char) : List (List Char) :=
  let pieces := cs.splitOnP (· == '\n')
  pieces.dropLast.map dropReturn ++ pieces.getLast?.toList.filter (!·.isEmpty)

/-! ### Searching -/

/-- The text before the first occurrence of a pattern and the text after that occurrence. -/
def cut? (pat : List Char) : List Char → Option (List Char × List Char)
  | [] => if pat.isEmpty then some ([], []) else none
  | c :: cs =>
    if pat.isPrefixOf (c :: cs) then some ([], (c :: cs).drop pat.length)
    else (cut? pat cs).map fun (before, after) => (c :: before, after)

/-- Whether a pattern occurs in a text. -/
def contains (pat cs : List Char) : Bool := (cut? pat cs).isSome

/-- The text with every occurrence of a pattern replaced, from left to right. -/
def replace (pat new : List Char) (cs : List Char) : List Char :=
  match cs with
  | [] => []
  | c :: rest =>
    if pat.isPrefixOf (c :: rest) then new ++ replace pat new (rest.drop (pat.length - 1))
    else c :: replace pat new rest
termination_by cs.length
decreasing_by all_goals simp only [List.length_drop, List.length_cons]; omega

/-- The pieces between the occurrences of a pattern; one piece, the text itself, where the pattern
does not occur. -/
def splitAt (pat : List Char) (cs : List Char) : List (List Char) :=
  go [] cs
where
  /-- The pieces of `seen.reverse ++ rest`, where no occurrence starts in `seen`. -/
  go (seen : List Char) (rest : List Char) : List (List Char) :=
    match rest with
    | [] => [seen.reverse]
    | c :: more =>
      if pat.isPrefixOf (c :: more) then seen.reverse :: go [] (more.drop (pat.length - 1))
      else go (c :: seen) more
  termination_by rest.length
  decreasing_by all_goals simp only [List.length_drop, List.length_cons]; omega

/-- The text up to the last occurrence of a character, and the text after it. -/
def cutLast? (c : Char) (cs : List Char) : Option (List Char × List Char) :=
  let after := (cs.reverse.takeWhile (· != c)).reverse
  let before := (cs.reverse.dropWhile (· != c)).drop 1
  if cs.contains c then some (before.reverse, after) else none

/-- The word for a truth value. -/
def flag (b : Bool) : String := if b then "true" else "false"

/-! ### Widths -/

/-- The bytes of a text in UTF-8. -/
def width (cs : List Char) : Nat := cs.foldr (fun c n => c.utf8Size + n) 0

end SiteSafety.Text
