import SiteSafety.Compliance.Report

/-!
# Decision — Sources

The citations behind a decision: of every threshold that was checked or could not be, each source
once, in the order in which the snippets name the sources.
-/

namespace SiteSafety.Decision
open Compliance Rule

/-- The citations of the thresholds in a report that a reading was held against. -/
def referenced (r : Report) : List Citation :=
  r.results.map (·.threshold.citation) ++ r.unresolved.map (·.threshold.citation)

/-- The first citation of each source. -/
def onePerSource (cs : List Citation) : List Citation :=
  cs.foldl (fun kept c => if kept.any (·.sourceIndex = c.sourceIndex) then kept else kept ++ [c]) []

/-- The place of a source among the snippets; behind all of them where none names it. -/
def rank (snippets : List Snippet) (c : Citation) : Nat :=
  snippets.findIdx fun s => s.citation.sourceIndex = c.sourceIndex

/-- Whether one citation stands before another or beside it. -/
def citedBefore (snippets : List Snippet) (a b : Citation) : Bool :=
  rank snippets a < rank snippets b ||
    (rank snippets a = rank snippets b && a.sourceIndex ≤ b.sourceIndex)

/-- The citations behind a decision. -/
def sources (snippets : List Snippet) (r : Report) : List Citation :=
  (onePerSource (referenced r)).mergeSort (citedBefore snippets)

end SiteSafety.Decision
