import SiteSafety.Text.Case
import SiteSafety.Text.Words

/-!
# Measurement — Metric

What can be measured on a site.  Four metrics are built in; any other is named by its rule or
reading.  **Every metric has an identifier**, the variable that stands for its reading in a
condition, and a label, its name in prose.
-/

namespace SiteSafety.Measurement

/-- What the units of a metric measure. -/
inductive Family where
  | speed | depth | temperature | distance
  deriving Repr, DecidableEq

/-- The unit to which all units of a family are converted. -/
def Family.unit : Family → String
  | .speed => "mph"
  | .depth => "mm"
  | .temperature => "°F"
  | .distance => "mi"

inductive Metric where
  | windSpeed | precipitation | temperature | visibility
  | custom (name : String)
  deriving Repr, DecidableEq

/-- A letter, digit or underscore of a name; an underscore for anything else. -/
def identifierChar (c : Char) : Char := if c.isAlphanum then c else '_'

/-- A name made of lower-case letters, digits and underscores that starts with no digit. -/
def customIdentifier (name : List Char) : List Char :=
  let cs := (Text.asciiLower (Text.trim name)).map identifierChar
  if cs.head?.all Char.isDigit then "metric_".toList ++ cs else cs

/-- The variable that stands for a reading of the metric. -/
def Metric.identifier : Metric → String
  | .windSpeed => "wind_speed"
  | .precipitation => "precipitation"
  | .temperature => "temperature"
  | .visibility => "visibility"
  | .custom name => String.ofList (customIdentifier name.toList)

/-- The name of the metric in prose. -/
def Metric.label : Metric → String
  | .windSpeed => "wind speed"
  | .precipitation => "precipitation"
  | .temperature => "temperature"
  | .visibility => "visibility"
  | .custom name => String.ofList (name.toList.map fun c => if c = '_' then ' ' else c)

/-- The family of the metric's units, where it is known. -/
def Metric.family? : Metric → Option Family
  | .windSpeed => some .speed
  | .precipitation => some .depth
  | .temperature => some .temperature
  | .visibility => some .distance
  | .custom _ => none

/-- How a reading stands to a limit when operations are blocked. -/
inductive Comparator where
  | lt | le | gt | ge | eq
  deriving Repr, DecidableEq

def Comparator.symbol : Comparator → String
  | .lt => "<"
  | .le => "<="
  | .gt => ">"
  | .ge => ">="
  | .eq => "=="

def Comparator.describe : Comparator → String
  | .lt => "below"
  | .le => "at or below"
  | .gt => "above"
  | .ge => "at or above"
  | .eq => "equal to"

/-- Whether what is blocked lies under the limit. -/
def Comparator.isLowerBound : Comparator → Bool
  | .lt | .le => true
  | _ => false

end SiteSafety.Measurement
