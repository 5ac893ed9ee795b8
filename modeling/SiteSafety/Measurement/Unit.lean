import SiteSafety.Calendar.Instant
import SiteSafety.Measurement.Metric

/-!
# Measurement — Unit

Units of measurement, their conversion, and how a quantity is written.  **A value is converted
only where its unit is recognised and belongs to the metric**; otherwise value and unit stay as
they were given and the quantity counts as unverified.
-/

namespace SiteSafety.Measurement

/-- `value * scale + shift` is the value in the unit of the family. -/
structure Conversion where
  family : Family
  scale : Float
  shift : Float := 0.0

/-- Spellings of units, with their conversions. -/
def units : List (List String × Conversion) := [
  (["mph", "mi/h", "mi/hr"], { family := .speed, scale := 1.0 }),
  (["km/h", "kmh", "kph", "km/hr", "kmph"], { family := .speed, scale := 0.621371 }),
  (["m/s", "mps"], { family := .speed, scale := 2.236936 }),
  (["knot", "knots", "kt", "kts", "kn"], { family := .speed, scale := 1.150779 }),
  (["mm", "millimeter", "millimeters", "millimetre", "millimetres"],
    { family := .depth, scale := 1.0 }),
  (["cm", "centimeter", "centimeters", "centimetre", "centimetres"],
    { family := .depth, scale := 10.0 }),
  (["inch", "inches"], { family := .depth, scale := 25.4 }),
  (["°f", "f", "degf", "fahrenheit"], { family := .temperature, scale := 1.0 }),
  (["°c", "c", "degc", "celsius"], { family := .temperature, scale := 9.0 / 5.0, shift := 32.0 }),
  (["mi", "mile", "miles"], { family := .distance, scale := 1.0 }),
  (["km", "kilometer", "kilometers", "kilometre", "kilometres"],
    { family := .distance, scale := 0.621371 }),
  (["m", "meter", "meters", "metre", "metres"], { family := .distance, scale := 0.000621371 }),
  (["ft", "foot", "feet"], { family := .distance, scale := 1.0 / 5280.0 })]

/-- The spelling under which a unit is looked up: trimmed, without points at its end, in lower
case. -/
def unitKey (unit : String) : String :=
  String.ofList (Text.lower (Text.dropEndWhile (· == '.') (Text.trim unit.toList)))

/-- The conversion of a recognised unit. -/
def conversion? (unit : String) : Option Conversion :=
  (units.find? fun (spellings, _) => spellings.contains (unitKey unit)).map (·.2)

/-- The family of a recognised unit. -/
def unitFamily? (unit : String) : Option Family := (conversion? unit).map (·.family)

/-- A value with its unit, and whether the unit was recognised as one of the metric. -/
structure Quantity where
  value : Float
  unit : String
  verified : Bool
  deriving Repr

/-- A quantity that is kept as given.  A missing unit is taken to be that of the metric. -/
def unverified (m : Metric) (value : Float) (unit : String) : Quantity where
  value := value
  unit := if Text.isBlankText unit then (m.family?.map Family.unit).getD "" else Text.trimmed unit
  verified := false

/-- A value in a unit, converted to the unit of the metric's family; a metric that is not built in
takes the family of the unit. -/
def canonicalize (m : Metric) (value : Float) (unit : String) : Quantity :=
  match conversion? unit with
  | some c =>
    if m.family?.all (· = c.family) then ⟨value * c.scale + c.shift, c.family.unit, true⟩
    else unverified m value unit
  | none => unverified m value unit

/-- A reading of a metric at a time. -/
structure Reading where
  metric : Metric
  value : Float
  unit : String
  time : Calendar.Instant
  deriving Repr

/-- A quantity in prose: at most two places, a whole number in all its digits, the unit behind a
space or, where it is of degrees, directly behind the number. -/
def formatQuantity (value : Float) (unit : String) : String :=
  let rounded := (value * 100.0).round / 100.0
  let number := if Decimal.isWhole rounded then Decimal.fixed 0 rounded else Decimal.plain rounded
  if unit.isEmpty then number
  else if unit.toList.head? = some '°' then number ++ unit
  else number ++ " " ++ unit

end SiteSafety.Measurement
