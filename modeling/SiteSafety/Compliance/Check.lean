import SiteSafety.Formula.Eval
import SiteSafety.Rule.Threshold

/-!
# Compliance — Check

One threshold against one reading of its metric.  The reading is first brought to the unit of the
threshold; the expression of the threshold is then evaluated with `reading`, `limit` and the
identifier of the metric bound.  **Whatever cannot be checked is said to be unresolved, with the
reason**, and never taken to be satisfied.
-/

namespace SiteSafety.Compliance
open Measurement Rule

/-- A reading that was checked against a threshold. -/
structure Result where
  threshold : Threshold
  reading : Reading
  satisfied : Bool
  /-- The reading less the limit, in the unit of the threshold. -/
  margin : Float
  deriving Repr

/-- How far the reading is from the limit. -/
def Result.severity (r : Result) : Float := r.margin.abs

/-- A threshold that a reading of its metric could not be checked against. -/
structure Unresolved where
  threshold : Threshold
  reason : String
  deriving Repr

/-- Whether two units are written alike, case of ASCII letters aside. -/
def sameUnit (a b : String) : Bool :=
  Text.asciiLower (Text.trim a.toList) == Text.asciiLower (Text.trim b.toList)

/-- The value of a reading in the unit of a threshold, or why there is none. -/
def comparableValue (t : Threshold) (r : Reading) : Except String Float :=
  let unit := Text.trimmed r.unit
  if t.unitVerified then
    let q := canonicalize t.metric r.value unit
    if q.verified && q.unit == t.unit then .ok q.value
    else .error s!"reading unit `{unit}` is incompatible with threshold unit `{t.unit}`"
  else if sameUnit unit t.unit then .ok r.value
  else .error s!"threshold unit `{t.unit}` is unverified and the reading is in `{unit}`"

/-- What the expression of a threshold may refer to. -/
def bindings (t : Threshold) (value : Float) : Formula.Bindings :=
  Formula.Bindings.bind t.metric.identifier value
    (Formula.Bindings.bind "limit" t.value (Formula.Bindings.bind "reading" value []))

/-- One threshold against one reading. -/
def check (t : Threshold) (r : Reading) : Except String Result :=
  if !Decimal.isFinite r.value then .error s!"{t.metric.label} reading is not a finite number"
  else match comparableValue t r with
    | .error reason => .error reason
    | .ok value =>
      match Formula.evaluateCondition t.violationExpression (bindings t value) with
      | .error e => .error s!"rule could not be verified: {e.message}"
      | .ok violated => .ok ⟨t, r, !violated, value - t.value⟩

end SiteSafety.Compliance
