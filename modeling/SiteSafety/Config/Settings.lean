import SiteSafety.Check.Gathering
import SiteSafety.Files.Tree
import SiteSafety.Memory.Screening

/-!
# Config — Settings

What can be set, with the values that hold where nothing is set, and what has to hold of a whole
configuration.  **A configuration that is accepted satisfies every constraint**, whichever layer
its values come from.
-/

namespace SiteSafety.Config

/-! ### Choices -/

/-- Who judges messages: a list of cues, or a language model. -/
inductive JudgeKind where
  | heuristic | llm
  deriving Repr, DecidableEq

/-- Who runs the language model. -/
inductive Provider where
  | openAi | nvidia | ollama
  deriving Repr, DecidableEq

inductive LogFormat where
  | compact | pretty | json
  deriving Repr, DecidableEq

def JudgeKind.name : JudgeKind → String
  | .heuristic => "heuristic"
  | .llm => "llm"

def Provider.name : Provider → String
  | .openAi => "open_ai"
  | .nvidia => "nvidia"
  | .ollama => "ollama"

def LogFormat.name : LogFormat → String
  | .compact => "compact"
  | .pretty => "pretty"
  | .json => "json"

/-- Choices by their names. -/
def judgeKinds : List (String × JudgeKind) := [JudgeKind.heuristic, .llm].map fun k => (k.name, k)

def providers : List (String × Provider) :=
  [Provider.openAi, .nvidia, .ollama].map fun p => (p.name, p)

def logFormats : List (String × LogFormat) :=
  [LogFormat.compact, .pretty, .json].map fun f => (f.name, f)

/-- The address that a provider answers under. -/
def Provider.address : Provider → String
  | .openAi => "https://api.openai.com/v1"
  | .nvidia => "https://integrate.api.nvidia.com/v1"
  | .ollama => "http://localhost:11434/v1"

/-- Whether a provider asks for a key. -/
def Provider.needsKey : Provider → Bool
  | .ollama => false
  | _ => true

/-! ### Sections -/

structure MemorySettings where
  userPath : String := "USER_MEMORY.md"
  organizationPath : String := "COMPANY_MEMORY.md"
  minConfidence : Float := Memory.minConfidenceFloor
  judge : JudgeKind := .heuristic
  deriving Repr

structure ModelSettings where
  provider : Provider := .nvidia
  apiKey : Option String := none
  baseUrl : Option String := none
  model : String := "meta/llama-3.1-70b-instruct"
  timeoutSecs : Nat := 30
  deriving Repr

structure WeatherSettings where
  enabled : Bool := true
  forecastUrl : String := "https://api.open-meteo.com/v1/forecast"
  geocodingUrl : String := "https://geocoding-api.open-meteo.com/v1/search"
  forecastDays : Nat := 1
  deriving Repr

structure LoggingSettings where
  level : String := "info"
  format : LogFormat := .compact
  deriving Repr

/-- The address of the model: the one that is set, else that of its provider. -/
def ModelSettings.address (s : ModelSettings) : String := s.baseUrl.getD s.provider.address

end SiteSafety.Config

namespace SiteSafety

structure Config where
  memory : Config.MemorySettings := {}
  llm : Config.ModelSettings := {}
  weather : Config.WeatherSettings := {}
  workflow : Check.Settings := {}
  logging : Config.LoggingSettings := {}
  deriving Repr

end SiteSafety

namespace SiteSafety.Config

/-! ### Constraints -/

/-- A constraint that values break, or a choice that is none. -/
inductive Fault where
  | confidence
  | emptyPath
  | samePath
  | timeout
  | emptyModel
  | missingKey
  | baseUrl
  | weatherUrls
  | forecastDays
  | retrievalK
  | waits
  | level
  | unknownProvider (word : String)
  | unknownJudge (word : String)
  | unknownFormat (word : String)
  deriving Repr, DecidableEq

def Fault.message : Fault → String
  | .confidence =>
    s!"memory.min_confidence must be in range {Decimal.plain Memory.minConfidenceFloor}..=1.0"
  | .emptyPath => "memory.user_path and memory.organization_path must not be empty"
  | .samePath => "memory.user_path and memory.organization_path must point to different files"
  | .timeout => "llm.timeout_secs must be in range 1..=300"
  | .emptyModel => "llm.model must not be empty"
  | .missingKey =>
    "llm.api_key is required for openai/nvidia providers (set SITEGUARD_LLM_API_KEY)"
  | .baseUrl => "llm.base_url must start with http:// or https://"
  | .weatherUrls =>
    "weather.forecast_url and weather.geocoding_url must start with http:// or https://"
  | .forecastDays => "weather.forecast_days must be in range 1..=16"
  | .retrievalK => "workflow.retrieval_k must be greater than zero"
  | .waits => "workflow timeouts and deadline must be greater than zero"
  | .level => "logging.level must be one of trace|debug|info|warn|error"
  | .unknownProvider word =>
    s!"unsupported llm provider `{word}` (expected openai|nvidia|ollama)"
  | .unknownJudge word => s!"unsupported memory judge `{word}` (expected heuristic|llm)"
  | .unknownFormat word => s!"unsupported log format `{word}` (expected compact|pretty|json)"

def isHttpUrl (url : String) : Bool :=
  "http://".toList.isPrefixOf url.toList || "https://".toList.isPrefixOf url.toList

def logLevels : List String := ["trace", "debug", "info", "warn", "error"]

/-- The constraints that settings break, in order. -/
def MemorySettings.faults (s : MemorySettings) : List Fault :=
  let confident := Decimal.isFinite s.minConfidence &&
    !(s.minConfidence < Memory.minConfidenceFloor) && !(1.0 < s.minConfidence)
  (if confident then [] else [.confidence])
    ++ (if s.userPath.isEmpty || s.organizationPath.isEmpty then [.emptyPath] else [])
    ++ (if Files.samePath s.userPath s.organizationPath then [.samePath] else [])

def ModelSettings.faults (s : ModelSettings) : List Fault :=
  (if 1 ≤ s.timeoutSecs ∧ s.timeoutSecs ≤ 300 then [] else [.timeout])
    ++ (if Text.isBlankText s.model then [.emptyModel] else [])
    ++ (if s.provider.needsKey && s.apiKey.all Text.isBlankText then [.missingKey] else [])
    ++ (if isHttpUrl s.address then [] else [.baseUrl])

def WeatherSettings.faults (s : WeatherSettings) : List Fault :=
  (if isHttpUrl s.forecastUrl && isHttpUrl s.geocodingUrl then [] else [.weatherUrls])
    ++ (if 1 ≤ s.forecastDays ∧ s.forecastDays ≤ 16 then [] else [.forecastDays])

def workflowFaults (s : Check.Settings) : List Fault :=
  (if s.retrievalK = 0 then [.retrievalK] else [])
    ++ (if [s.deadlineMs, s.retrievalMs, s.recallMs, s.weatherMs].contains 0 then [.waits] else [])

def LoggingSettings.faults (s : LoggingSettings) : List Fault :=
  if logLevels.contains (String.ofList (Text.asciiLower (Text.trim s.level.toList))) then []
  else [.level]

end SiteSafety.Config

namespace SiteSafety
open Config

/-- All constraints that a configuration breaks, in order.  The model's settings matter only where
the model judges, those of the weather only where the weather is asked for. -/
def Config.faults (c : Config) : List Fault :=
  c.memory.faults
    ++ (if c.memory.judge = .llm then c.llm.faults else [])
    ++ (if c.weather.enabled then c.weather.faults else [])
    ++ workflowFaults c.workflow
    ++ c.logging.faults

end SiteSafety
