import SiteSafety.Compliance.Report
import SiteSafety.Memory.Entry

/-!
# Decision — Recall

Which remembered facts a decision shows, and which new ones it hands on.  **Known issues of a site
are always shown**; other facts are shown when they share a keyword with the site or the operation,
the first few of them.
-/

namespace SiteSafety.Decision
open Compliance Memory

/-- Words that say nothing about what a fact is about. -/
def commonWords : List String := [
  "the", "and", "for", "with", "site", "from", "into", "onto", "at", "of", "on", "in", "to"]

/-- The words of a text that say what it is about: its runs of letters and numerals in lower case
that are more than one byte long and not common. -/
def keywords (text : String) : List String :=
  ((contentWords text.toList).map fun w => String.ofList (Text.lower w)).filter fun w =>
    1 < w.utf8ByteSize && !commonWords.contains w

theorem mem_keywords_iff {w text : String} : w ∈ keywords text ↔
    (∃ run ∈ contentWords text.toList, String.ofList (Text.lower run) = w) ∧
      1 < w.utf8ByteSize ∧ w ∉ commonWords := by
  simp [keywords]

/-- Whether a content shares a keyword with a query. -/
def sharesKeyword (query : List String) (content : String) : Bool :=
  (keywords content).any query.contains

/-- The facts to show, where so many more that are no site issues may be shown. -/
def surfaceFrom (query : List String) : Nat → List Entry → List Entry
  | _, [] => []
  | left, e :: rest =>
    if e.category = .siteIssue then e :: surfaceFrom query left rest
    else match left with
      | 0 => surfaceFrom query 0 rest
      | left + 1 =>
        if sharesKeyword query e.content then e :: surfaceFrom query left rest
        else surfaceFrom query (left + 1) rest

/-- The facts to show for an operation at a site. -/
def surface (limit : Nat) (site operation : String) (memories : List Entry) : List Entry :=
  surfaceFrom (keywords (site ++ " " ++ operation)) limit memories

/-! ### New facts -/

/-- How sure a pause is remembered. -/
def pauseConfidence : Float := 0.9

/-- The first candidate of each category. -/
def onePerCategory (cs : List Candidate) : List Candidate :=
  cs.foldl (fun kept c => if kept.any (·.category = c.category) then kept else kept ++ [c]) []

/-- The fact that an operation was paused because of violations. -/
def pause (site operation : String) (violations : List Result) : Candidate where
  content :=
    let labels := (violations.map (·.threshold.metric.label)).eraseDups
    s!"Safety pause at {site} for {operation} due to " ++ String.intercalate ", " labels
  category := .decisionLog
  confidence := pauseConfidence
  reasoning := "operation blocked by threshold violations"
  scope := .organization

/-- The facts to remember: one of each category, and a pause where operations are blocked and no
decision is among them. -/
def toRemember (site operation : String) (candidates : List Candidate)
    (violations : List Result) : List Candidate :=
  let kept := onePerCategory candidates
  if violations.isEmpty || kept.any (·.category = .decisionLog) then kept
  else kept ++ [pause site operation violations]

end SiteSafety.Decision
