import SiteSafety.Decimal.Text
import SiteSafety.Journal
import SiteSafety.Weather.Forecast
import SiteSafety.Weather.Geocode

/-!
# Weather — Service

Asking a weather service: the site is looked up under one name after the other until one is found,
and the forecast is asked for that place.
-/

namespace SiteSafety.Weather
open Document Measurement

/-- What came back for a request. -/
inductive Reply where
  /-- The request was not answered. -/
  | failed (cause : String)
  /-- The request was refused with a status. -/
  | refused (status : String)
  /-- The request was answered, perhaps with something that cannot be read. -/
  | answered (body : Option Json)

/-- A service that finds places by name and forecasts by place. -/
structure Service where
  geocode : String → Reply
  forecast : Float → Float → Reply

/-- The service that cannot be reached. -/
def Service.unreachable : Service where
  geocode _ := .failed "builder error"
  forecast _ _ := .failed "builder error"

/-- The place of the first result in an answer. -/
def firstPlace? (body : Json) : Option (Float × Float) := do
  let place ← ((← body.get? "results").array?).bind List.head?
  return (← (← place.get? "latitude").float?, ← (← place.get? "longitude").float?)

/-- Looks names up until one is found. -/
def Service.locate (s : Service) : List String → Noted (Option (Float × Float))
  | [] => pure none
  | query :: rest => do
    match s.geocode query with
    | .failed cause =>
      note {
        level := .debug, speaker := .weather, event := "weather.geocode.failed"
        message := "geocoding request failed", fields := [("query", query), ("error", cause)] }
      s.locate rest
    | .refused status =>
      note {
        level := .debug, speaker := .weather, event := "weather.geocode.rejected"
        message := "geocoding request rejected"
        fields := [("query", query), ("status", status)] }
      s.locate rest
    | .answered body => match body.bind firstPlace? with
      | some place => return some place
      | none => s.locate rest

/-- The readings forecast for a site. -/
def Service.fetch (s : Service) (now : Calendar.Instant) (location : String) :
    Noted (Except CollaboratorError (List Reading)) := do
  match ← s.locate (geocodeQueries location) with
  | none => return .error (.failure .weather s!"could not geocode `{location}`")
  | some (latitude, longitude) =>
    match s.forecast latitude longitude with
    | .failed cause => return .error (.failure .weather s!"forecast request failed: {cause}")
    | .refused status => return .error (.failure .weather s!"forecast returned {status}")
    | .answered none => return .error (.invalidResponse .weather "forecast cannot be read")
    | .answered (some body) => return readForecast now body

end SiteSafety.Weather
