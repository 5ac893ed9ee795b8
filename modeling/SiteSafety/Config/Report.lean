import SiteSafety.Config.Load

/-!
# Config — Report

The effective configuration as text, one line for each field with the layer it is taken to come
from.  **Of the key only the part before its first hyphen is shown.**
-/

namespace SiteSafety.Config
open Document

def JudgeKind.title : JudgeKind → String
  | .heuristic => "Heuristic"
  | .llm => "Llm"

def Provider.title : Provider → String
  | .openAi => "OpenAi"
  | .nvidia => "Nvidia"
  | .ollama => "Ollama"

def LogFormat.title : LogFormat → String
  | .compact => "Compact"
  | .pretty => "Pretty"
  | .json => "Json"

/-- What is shown of a key. -/
def redact (key : String) : String :=
  let cs := Text.trim key.toList
  if cs.isEmpty then "<empty>"
  else match Text.cut? ['-'] cs with
    | some (head, _) => String.ofList head ++ "-***"
    | none => "<redacted>"

/-- A line of the report: a section and its field, the name of the field's variable, and the
value. -/
structure Line where
  group : String
  name : String
  field : String
  value : String

def lines (c : Config) : List Line := [
  ⟨"memory", "user_path", "MEMORY_USER_PATH", c.memory.userPath⟩,
  ⟨"memory", "organization_path", "MEMORY_ORGANIZATION_PATH", c.memory.organizationPath⟩,
  ⟨"memory", "min_confidence", "MEMORY_MIN_CONFIDENCE", Decimal.plain c.memory.minConfidence⟩,
  ⟨"memory", "judge", "MEMORY_JUDGE", c.memory.judge.title⟩,
  ⟨"llm", "provider", "LLM_PROVIDER", c.llm.provider.title⟩,
  ⟨"llm", "model", "LLM_MODEL", c.llm.model⟩,
  ⟨"llm", "base_url", "LLM_BASE_URL", c.llm.address⟩,
  ⟨"llm", "api_key", "LLM_API_KEY", (c.llm.apiKey.map redact).getD "<unset>"⟩,
  ⟨"llm", "timeout_secs", "LLM_TIMEOUT_SECS", Decimal.digits c.llm.timeoutSecs⟩,
  ⟨"weather", "enabled", "WEATHER_ENABLED", Text.flag c.weather.enabled⟩,
  ⟨"weather", "forecast_url", "WEATHER_FORECAST_URL", c.weather.forecastUrl⟩,
  ⟨"weather", "geocoding_url", "WEATHER_GEOCODING_URL", c.weather.geocodingUrl⟩,
  ⟨"weather", "forecast_days", "WEATHER_FORECAST_DAYS", Decimal.digits c.weather.forecastDays⟩,
  ⟨"workflow", "retrieval_k", "WORKFLOW_RETRIEVAL_K", Decimal.digits c.workflow.retrievalK⟩,
  ⟨"workflow", "retrieval_timeout_ms", "WORKFLOW_RETRIEVAL_TIMEOUT_MS",
    Decimal.digits c.workflow.retrievalMs⟩,
  ⟨"workflow", "recall_timeout_ms", "WORKFLOW_RECALL_TIMEOUT_MS",
    Decimal.digits c.workflow.recallMs⟩,
  ⟨"workflow", "weather_timeout_ms", "WORKFLOW_WEATHER_TIMEOUT_MS",
    Decimal.digits c.workflow.weatherMs⟩,
  ⟨"workflow", "deadline_ms", "WORKFLOW_DEADLINE_MS", Decimal.digits c.workflow.deadlineMs⟩,
  ⟨"logging", "level", "LOGGING_LEVEL", c.logging.level⟩,
  ⟨"logging", "format", "LOGGING_FORMAT", c.logging.format.title⟩]

/-- Where a line's value is taken to come from: the environment if its variable is there at all,
else the file if the document as written has a value in its place. -/
def Line.source (l : Line) (env : Environment) (file : Option (String × Toml)) : String :=
  let name := variableOf l.field
  if (env.lookup name).isSome then s!"env ({name})"
  else match file with
    | some (path, document) =>
      if ((document.get? l.group).bind (·.get? l.name)).isSome then s!"file ({path})"
      else "default"
    | none => "default"

def Line.text (l : Line) (env : Environment) (file : Option (String × Toml)) : String :=
  s!"- {l.group}.{l.name} = {l.value} (source: {l.source env file})"

/-- The settings file as it is written, if it can be read. -/
def writtenFile? (o : Options) (tree : Files.Tree) : Option (String × Toml) := do
  let path ← o.file? tree
  let document ← Toml.read? (← (tree.readText path).toOption)
  return (path, document)

/-- The report on the configuration that would be loaded. -/
def report (o : Options) (tree : Files.Tree) (env : Environment) : String :=
  match load o tree env with
  | .error e => s!"config validation failed: {e.message}"
  | .ok c =>
    let file := writtenFile? o tree
    String.intercalate "\n" ("effective config (source precedence: env > file > default):"
      :: (lines c).map (·.text env file))

end SiteSafety.Config
