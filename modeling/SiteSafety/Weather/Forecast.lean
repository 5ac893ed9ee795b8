import SiteSafety.Calendar.Stamp
import SiteSafety.Collaborator
import SiteSafety.Document.Json
import SiteSafety.Measurement.Unit

/-!
# Weather — Forecast

Readings from a forecast document.  Its `daily` block holds one list for each field and a list of
days beside them; **a value keeps the day at its own place in the list**, whatever stands in the
places before it.
-/

namespace SiteSafety.Weather
open Document Measurement

/-- A field of the daily block: its name, its metric, and its unit where the document names none. -/
structure Field where
  name : String
  metric : Metric
  unit : String
  deriving Repr

def dailyFields : List Field := [
  ⟨"wind_speed_10m_max", .windSpeed, "km/h"⟩,
  ⟨"wind_gusts_10m_max", .custom "wind_gust", "km/h"⟩,
  ⟨"precipitation_sum", .precipitation, "mm"⟩,
  ⟨"temperature_2m_max", .temperature, "°C"⟩,
  ⟨"temperature_2m_min", .temperature, "°C"⟩]

/-- The start of the day that a value names; the present time where it names none. -/
def dayStart (now : Calendar.Instant) (j : Json) : Calendar.Instant :=
  match j.text? with
  | none => now
  | some s => match Calendar.readDate s.toList with
    | .ok d => Calendar.Instant.ofDate d 0 0 0
    | .error _ => now

/-- The items of the array under a name, none where there is no array. -/
def itemsOf (j : Json) (name : String) : List Json := ((j.get? name).bind Json.array?).getD []

/-- The unit of a field: the one reported, else that of the table. -/
def unitOf (body : Json) (f : Field) : String :=
  (((body.get? "daily_units").bind (·.get? f.name)).bind Json.text?).getD f.unit

/-- The readings of a field, one for each number in its list. -/
def fieldReadings (now : Calendar.Instant) (body daily : Json) (f : Field) : List Reading :=
  let days := (itemsOf daily "time").map (dayStart now)
  (itemsOf daily f.name).zipIdx.filterMap fun (value, i) =>
    value.float?.map fun x => ⟨f.metric, x, unitOf body f, days.getD i now⟩

/-- The readings of a forecast, field by field. -/
def readForecast (now : Calendar.Instant) (body : Json) :
    Except CollaboratorError (List Reading) :=
  match body.get? "daily" with
  | some (.object members) =>
    .ok (dailyFields.flatMap (fieldReadings now body (.object members)))
  | _ => .error (.invalidResponse .weather "forecast has no daily block")

end SiteSafety.Weather
