import SiteSafety.Measurement.Unit
import SiteSafety.Rule.Snippet

/-!
# Rule — Threshold

Numeric limits of safety rules.  **A threshold describes what is prohibited**: operations are
blocked while its expression holds of a reading.
-/

namespace SiteSafety.Rule
open Measurement

/-- A limit read from a rule.  Value and unit are those of the metric's family where the unit was
verified, and as written otherwise. -/
structure Threshold where
  metric : Metric
  operator : Comparator
  value : Float
  unit : String
  unitVerified : Bool
  citation : Citation
  /-- The words of the rule, quoted in prose. -/
  clause : String
  /-- An expression given in place of the plain comparison. -/
  condition : Option String := none
  deriving Repr

/-- The expression that holds of a reading which violates the threshold. -/
def Threshold.violationExpression (t : Threshold) : String :=
  t.condition.getD s!"reading {t.operator.symbol} limit"

def Threshold.describe (t : Threshold) : String :=
  s!"{t.metric.label} {t.operator.symbol} {formatQuantity t.value t.unit}"

end SiteSafety.Rule
