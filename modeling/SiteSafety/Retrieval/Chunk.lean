import SiteSafety.Text.Words

/-!
# Retrieval — Chunk

Documents cut into pieces that can be quoted: paragraphs, and the sentences of a paragraph that is
too long packed into as few pieces as fit one after the other.  **Cuts lose nothing but blanks.**
-/

namespace SiteSafety.Retrieval

/-- The most characters in a piece of several sentences. -/
def maxChunk : Nat := 1000

/-- Blank lines part paragraphs; a line break of two characters counts as one. -/
def paragraphs (cs : List Char) : List (List Char) :=
  ((Text.splitAt ['\n', '\n'] (Text.replace ['\r', '\n'] ['\n'] cs)).map Text.trim).filter
    (!·.isEmpty)

/-- The sentences of a paragraph, each up to a point with a blank and with both of them. -/
def sentences : List Char → List (List Char)
  | [] => []
  | '.' :: ' ' :: rest => ['.', ' '] :: sentences rest
  | c :: rest =>
    match sentences rest with
    | [] => [[c]]
    | s :: more => (c :: s) :: more

/-- Sentences packed behind those of the current piece. -/
def pack (current : List Char) : List (List Char) → List (List Char)
  | [] => if (Text.trim current).isEmpty then [] else [Text.trim current]
  | s :: rest =>
    if !current.isEmpty && maxChunk < current.length + s.length then
      Text.trim current :: pack s rest
    else pack (current ++ s) rest

/-- The pieces of a paragraph. -/
def chunksOf (paragraph : List Char) : List (List Char) :=
  if paragraph.length ≤ maxChunk then [paragraph] else pack [] (sentences paragraph)

/-- The pieces of a text. -/
def chunks (text : String) : List String :=
  ((paragraphs text.toList).flatMap chunksOf).map String.ofList

end SiteSafety.Retrieval
