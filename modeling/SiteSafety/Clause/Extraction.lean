import SiteSafety.Clause.Condition
import SiteSafety.Clause.Scan
import SiteSafety.Rule.Threshold

/-!
# Clause — Extraction

Thresholds of rule snippets.  **Snippets are read one by one**, and what one says has no influence
on another.  A clause is quoted as it stands in the text; the first condition between a clause and
the next token is that clause's own.
-/

namespace SiteSafety.Clause
open Rule

/-- A clause that named a metric and compared it with nothing. -/
structure Skipped where
  clause : String
  sourceIndex : Nat
  reason : String
  deriving Repr

def Skipped.message (s : Skipped) : String :=
  s!"could not build a threshold from `{s.clause}` (source {Decimal.digits s.sourceIndex}): "
    ++ s!"{s.reason}"

/-- What was read from snippets. -/
structure Extraction where
  thresholds : List Threshold := []
  skipped : List Skipped := []
  deriving Repr

/-- The part of a text between two positions, trimmed. -/
def excerpt (cs : List Char) (start stop : Nat) : String :=
  String.ofList (Text.trim ((cs.drop start).take (stop - start)))

/-- The condition of a clause: the first one that lies between its end and the next token, unless
that one is empty. -/
def conditionOf? (conditions : List Condition) (stop next : Nat) : Option String :=
  match conditions.find? fun c => stop ≤ c.start && c.stop ≤ next with
  | some c => if c.expression.isEmpty then none else some c.expression
  | none => none

/-- The threshold that a clause of a text sets. -/
def Found.threshold (citation : Citation) (cs : List Char) (conditions : List Condition)
    (f : Found) : Threshold :=
  let q := Measurement.canonicalize f.metric f.value f.unit
  { metric := f.metric
    operator := f.operator
    value := q.value
    unit := q.unit
    unitVerified := q.verified
    citation := citation
    clause := excerpt cs f.start f.stop
    condition := conditionOf? conditions f.stop (f.next.getD cs.length) }

/-- The threshold of a finding, if it is a clause. -/
def Finding.threshold? (citation : Citation) (cs : List Char) (conditions : List Condition) :
    Finding → Option Threshold
  | .found f => some (f.threshold citation cs conditions)
  | .skipped _ _ => none

/-- The notice of a finding, if it is no clause. -/
def Finding.skipped? (citation : Citation) (cs : List Char) : Finding → Option Skipped
  | .found _ => none
  | .skipped start stop =>
    some ⟨excerpt cs start stop, citation.sourceIndex, "no numeric limit follows the comparator"⟩

/-- What is read from one snippet. -/
def ofSnippet (s : Snippet) : Extraction :=
  let cs := s.text.toList
  let (masked, conditions) := mask cs
  let fs := findings [] (tokens masked)
  { thresholds := fs.filterMap (·.threshold? s.citation cs conditions)
    skipped := fs.filterMap (·.skipped? s.citation cs) }

/-- What is read from snippets. -/
def ofSnippets (ss : List Snippet) : Extraction where
  thresholds := ss.flatMap fun s => (ofSnippet s).thresholds
  skipped := ss.flatMap fun s => (ofSnippet s).skipped

end SiteSafety.Clause
