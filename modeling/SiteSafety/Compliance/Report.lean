import SiteSafety.Compliance.Check

/-!
# Compliance — Report

All thresholds against all readings.  **Each pair is checked by itself**: the report on a list of
thresholds is the reports on its members one after the other.
-/

namespace SiteSafety.Compliance
open Measurement Rule

structure Report where
  results : List Result := []
  unresolved : List Unresolved := []
  /-- Thresholds without a reading of their metric. -/
  unmatched : List Threshold := []
  deriving Repr

/-- The readings of the metric of a threshold. -/
def readingsFor (t : Threshold) (readings : List Reading) : List Reading :=
  readings.filter fun r => decide (r.metric = t.metric)

/-- The results of a threshold. -/
def resultsFor (readings : List Reading) (t : Threshold) : List Result :=
  (readingsFor t readings).filterMap fun r => (check t r).toOption

/-- Why a reading could not be checked. -/
def failure? (t : Threshold) (r : Reading) : Option String :=
  match check t r with
  | .error reason => some reason
  | .ok _ => none

/-- The reason of the first reading that a threshold could not be checked against. -/
def unresolvedFor? (readings : List Reading) (t : Threshold) : Option Unresolved :=
  ((readingsFor t readings).findSome? (failure? t)).map fun reason => ⟨t, reason⟩

/-- All thresholds against all readings. -/
def evaluate (thresholds : List Threshold) (readings : List Reading) : Report where
  results := thresholds.flatMap (resultsFor readings)
  unresolved := thresholds.filterMap (unresolvedFor? readings)
  unmatched := thresholds.filter fun t => (readingsFor t readings).isEmpty

def Report.violations (r : Report) : List Result := r.results.filter (!·.satisfied)

def Report.hasResolved (r : Report) : Bool := !r.results.isEmpty

/-- The metrics that thresholds set limits for and no reading was given of. -/
def Report.missingMetrics (r : Report) : List Metric := (r.unmatched.map (·.metric)).eraseDups

end SiteSafety.Compliance
