import SiteSafety.Decision.Advice
import SiteSafety.Decision.Reasoning
import SiteSafety.Decision.Sources

/-!
# Decision — Synthesis

The decision whether an operation may proceed, from rules, readings and memories.  **Go is given
only on evidence**: something was checked and nothing was violated.
-/

namespace SiteSafety.Decision
open Compliance Measurement Memory Rule

/-- What a decision is made from. -/
structure Input where
  site : String
  operation : String
  snippets : List Snippet := []
  memories : List Entry := []
  readings : List Reading := []
  candidates : List Candidate := []
  degradations : List Degradation := []

end SiteSafety.Decision

namespace SiteSafety
open Compliance Measurement Memory Rule

structure Decision where
  site : String
  operation : String
  canProceed : Bool
  reasoning : String
  recommendations : List String
  citations : List Citation
  results : List Result
  unresolved : List Unresolved
  surfaced : List Entry
  newMemories : List Candidate
  degradations : List Degradation
  decidedAt : Calendar.Instant
  deriving Repr

def Decision.violations (d : Decision) : List Result := d.results.filter (!·.satisfied)

def Decision.isDegraded (d : Decision) : Bool := !d.degradations.isEmpty

/-- Whether a decision refers to the source of a citation. -/
def Decision.cites (d : Decision) (c : Citation) : Bool :=
  d.citations.any (·.sourceIndex = c.sourceIndex)

end SiteSafety

namespace SiteSafety.Decision
open Compliance Measurement Memory Rule

/-- How many facts that are no site issues a decision shows. -/
def defaultSurfaced : Nat := 5

/-- What well-formed snippets say. -/
def extract (snippets : List Snippet) : Clause.Extraction :=
  Clause.ofSnippets (snippets.filter (·.isWellFormed))

/-- The decision on an extraction and a report that were made from the input. -/
def synthesize (maxSurfaced : Nat) (i : Input) (x : Clause.Extraction) (r : Report)
    (now : Calendar.Instant) : Decision :=
  let surfaced := surface maxSurfaced i.site i.operation i.memories
  let insufficient := r.violations.isEmpty && !r.hasResolved
  { site := i.site
    operation := i.operation
    canProceed := r.violations.isEmpty && r.hasResolved
    reasoning := account i.site i.operation x r surfaced i.degradations
    recommendations := recommend r.violations surfaced r.missingMetrics insufficient
    citations := sources i.snippets r
    results := r.results
    unresolved := r.unresolved
    surfaced := surfaced
    newMemories := toRemember i.site i.operation i.candidates r.violations
    degradations := i.degradations
    decidedAt := now }

/-- The decision on an input. -/
def make (maxSurfaced : Nat) (i : Input) (now : Calendar.Instant) : Decision :=
  let x := extract i.snippets
  synthesize maxSurfaced i x (evaluate x.thresholds i.readings) now

end SiteSafety.Decision
