import SiteSafety.Text.Case
import SiteSafety.Text.Words

/-!
# Clause — Condition

Inline conditions `[condition: …]` in rule text.  **A condition is blanked out before the text is
read for clauses**, character by character, so positions in the masked text are positions in the
text.
-/

namespace SiteSafety.Clause

/-- A condition with the span of its brackets. -/
structure Condition where
  start : Nat
  stop : Nat
  expression : String
  deriving Repr

/-- What opens a condition, in any case. -/
def conditionTag : List Char := "[condition:".toList

/-- The text in the brackets that open at the head of a text, if they close. -/
def conditionBody? (cs : List Char) : Option (List Char) :=
  if conditionTag.isPrefixOf (Text.asciiLower (cs.take conditionTag.length)) then
    let body := cs.drop conditionTag.length
    if body.contains ']' then some (body.takeWhile (· != ']')) else none
  else none

/-- The text with its conditions blanked out, and the conditions in order, for a text that starts
at a position. -/
def maskFrom (start : Nat) : List Char → List Char × List Condition
  | [] => ([], [])
  | c :: rest =>
    match conditionBody? (c :: rest) with
    | some body =>
      let length := conditionTag.length + body.length
      let (masked, more) := maskFrom (start + 1 + length) (rest.drop length)
      (List.replicate (1 + length) ' ' ++ masked,
        ⟨start, start + 1 + length, String.ofList (Text.trim body)⟩ :: more)
    | none =>
      let (masked, more) := maskFrom (start + 1) rest
      (c :: masked, more)
termination_by cs => cs.length
decreasing_by all_goals simp only [List.length_drop, List.length_cons]; omega

/-- The text with its conditions blanked out, and the conditions in order. -/
def mask (cs : List Char) : List Char × List Condition := maskFrom 0 cs

end SiteSafety.Clause
