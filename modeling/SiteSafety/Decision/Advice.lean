import SiteSafety.Decision.Recall

/-!
# Decision — Advice

What to do about a decision: the violated metrics first, each by its worst violation, then the
known issues of the site, then the readings that are missing where nothing could be checked.
-/

namespace SiteSafety.Decision
open Compliance Measurement Memory

/-- The first of the worst violations in a list. -/
def worst? : List Result → Option Result
  | [] => none
  | r :: rest => some (rest.foldl (fun w c => if c.severity > w.severity then c else w) r)

/-- The advice on a violation. -/
def postpone (r : Result) : String :=
  let limit := formatQuantity r.threshold.value r.threshold.unit
  let label := r.threshold.metric.label
  match r.threshold.operator with
  | .gt | .ge => s!"Postpone operations until {label} drops below {limit}"
  | .lt | .le => s!"Postpone operations until {label} rises above {limit}"
  | .eq => s!"Postpone operations until {label} moves away from {limit}"

/-- The metrics that are violated, in order of their first violation. -/
def violatedMetrics (violations : List Result) : List Metric :=
  (violations.map (·.threshold.metric)).eraseDups

/-- The violations of one metric. -/
def violationsOf (violations : List Result) (m : Metric) : List Result :=
  violations.filter fun r => decide (r.threshold.metric = m)

/-- The advice on a decision. -/
def recommend (violations : List Result) (surfaced : List Entry) (missing : List Metric)
    (insufficient : Bool) : List String :=
  (violatedMetrics violations).filterMap
      (fun m => (worst? (violationsOf violations m)).map postpone)
    ++ (surfaced.filter (·.category = .siteIssue)).map
      (fun e => s!"Address known site issue before proceeding: {e.content}")
    ++ (if insufficient then
      missing.map fun m => s!"Obtain current {m.label} readings before proceeding" else [])

end SiteSafety.Decision
