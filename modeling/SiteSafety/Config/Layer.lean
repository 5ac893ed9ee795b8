import SiteSafety.Config.Settings

/-!
# Config — Layer

A layer of settings sets some fields and leaves others alone.  Layers are put over each other,
**and of each field the value of the uppermost layer that sets it holds**.
-/

namespace SiteSafety.Config

/-- Values for some of the fields. -/
structure Layer where
  userPath : Option String := none
  organizationPath : Option String := none
  minConfidence : Option Float := none
  judge : Option JudgeKind := none
  provider : Option Provider := none
  apiKey : Option String := none
  baseUrl : Option String := none
  model : Option String := none
  timeoutSecs : Option Nat := none
  weatherEnabled : Option Bool := none
  forecastUrl : Option String := none
  geocodingUrl : Option String := none
  forecastDays : Option Nat := none
  retrievalK : Option Nat := none
  retrievalMs : Option Nat := none
  recallMs : Option Nat := none
  weatherMs : Option Nat := none
  deadlineMs : Option Nat := none
  logLevel : Option String := none
  logFormat : Option LogFormat := none
  deriving Repr

/-- The settings under a layer, with its values put over theirs. -/
def Layer.over (l : Layer) (c : Config) : Config where
  memory := {
    userPath := l.userPath.getD c.memory.userPath
    organizationPath := l.organizationPath.getD c.memory.organizationPath
    minConfidence := l.minConfidence.getD c.memory.minConfidence
    judge := l.judge.getD c.memory.judge }
  llm := {
    provider := l.provider.getD c.llm.provider
    apiKey := l.apiKey.or c.llm.apiKey
    baseUrl := l.baseUrl.or c.llm.baseUrl
    model := l.model.getD c.llm.model
    timeoutSecs := l.timeoutSecs.getD c.llm.timeoutSecs }
  weather := {
    enabled := l.weatherEnabled.getD c.weather.enabled
    forecastUrl := l.forecastUrl.getD c.weather.forecastUrl
    geocodingUrl := l.geocodingUrl.getD c.weather.geocodingUrl
    forecastDays := l.forecastDays.getD c.weather.forecastDays }
  workflow := {
    retrievalK := l.retrievalK.getD c.workflow.retrievalK
    retrievalMs := l.retrievalMs.getD c.workflow.retrievalMs
    recallMs := l.recallMs.getD c.workflow.recallMs
    weatherMs := l.weatherMs.getD c.workflow.weatherMs
    deadlineMs := l.deadlineMs.getD c.workflow.deadlineMs }
  logging := {
    level := l.logLevel.getD c.logging.level
    format := l.logFormat.getD c.logging.format }

@[simp] theorem empty_over (c : Config) : ({} : Layer).over c = c := by
  simp [Layer.over]

end SiteSafety.Config
