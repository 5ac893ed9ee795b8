import SiteSafety.Clause.Extraction
import SiteSafety.Collaborator
import SiteSafety.Decision.Recall

/-!
# Decision — Reasoning

The account of a decision, line by line: the verdict, each check, what could not be checked, what
is missing, and what is remembered.
-/

namespace SiteSafety.Decision
open Compliance Measurement Memory Rule

/-- A text with its first character in upper case. -/
def capitalize (s : String) : String :=
  match s.toList with
  | [] => ""
  | c :: rest => String.ofList (Text.upperChar c ++ rest)

/-- The verdict of a report. -/
inductive Verdict where
  | blocked (violations : Nat)
  | insufficient
  | clear (checked : Nat)
  deriving Repr, DecidableEq

/-- Operations are blocked by any violation; without one they are clear if anything was checked. -/
def verdict (r : Report) : Verdict :=
  if !r.violations.isEmpty then .blocked r.violations.length
  else if r.hasResolved then .clear r.results.length
  else .insufficient

def Verdict.text (site operation : String) : Verdict → String
  | .blocked n =>
    s!"Operations must not proceed: {Decimal.digits n} safety threshold(s) violated for "
      ++ s!"{operation} at {site}."
  | .insufficient =>
    s!"Insufficient data to verify that {operation} at {site} is safe; "
      ++ s!"operations must not proceed."
  | .clear n =>
    s!"Operations may proceed: {Decimal.digits n} checked threshold(s) satisfied for "
      ++ s!"{operation} at {site}."

/-- The account of one check. -/
def resultText (r : Result) : String :=
  let t := r.threshold
  let label := capitalize t.metric.label
  let observed := formatQuantity (t.value + r.margin) t.unit
  if r.satisfied then
    s!"- {label} at {observed} is within the limit ({t.describe}) {t.citation.marker}"
  else
    s!"- {label} at {observed} violates the limit ({t.describe}) by "
      ++ s!"{formatQuantity r.margin.abs t.unit}: \"{t.clause}\" {t.citation.marker}"

/-- The account of a threshold that could not be checked. -/
def unresolvedText (u : Unresolved) : String :=
  s!"- Could not verify \"{u.threshold.clause}\" {u.threshold.citation.marker}: {u.reason}"

/-- The account of a remembered fact. -/
def memoryText (e : Entry) : String :=
  if e.category = .siteIssue then s!"- Known site issue: {e.content}"
  else s!"- Remembered ({e.category.name}, {e.scope.name}): {e.content}"

/-- The account of a decision. -/
def account (site operation : String) (x : Clause.Extraction) (r : Report)
    (surfaced : List Entry) (degradations : List Degradation) : String :=
  String.intercalate "\n" <|
    [(verdict r).text site operation]
      ++ r.results.map resultText
      ++ r.unresolved.map unresolvedText
      ++ (if x.thresholds.isEmpty then
        ["- No numeric safety thresholds were found in the retrieved rules."] else [])
      ++ r.missingMetrics.map (fun m => s!"- Weather data unavailable for {m.label}.")
      ++ degradations.map (fun d => s!"- Degraded input: {d.text}.")
      ++ surfaced.map memoryText

end SiteSafety.Decision
