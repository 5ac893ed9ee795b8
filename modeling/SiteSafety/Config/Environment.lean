import SiteSafety.Config.Error
import SiteSafety.Config.Layer
import SiteSafety.Decimal.Numeral

/-!
# Config — Environment

The layer of the environment: one variable for each field, and two for those of the log.  **A
variable that is blank sets nothing**, and the first one that cannot be read is an error.
-/

namespace SiteSafety.Config

/-- Variables with their values. -/
abbrev Environment := List (String × String)

/-- The value of a variable, unless it is blank. -/
def Environment.set? (env : Environment) (name : String) : Option String :=
  (env.lookup name).filter fun value => !Text.isBlankText value

/-! ### Values -/

/-- The largest numbers of 8 and of 64 bits. -/
def maxByte : Nat := 255

def maxWord : Nat := 18446744073709551615

/-- A natural up to a largest one: digits with perhaps a plus in front. -/
def readNat? (largest : Nat) (value : String) : Option Nat :=
  let cs := match value.toList with
    | '+' :: rest => rest
    | cs => cs
  if !cs.isEmpty && cs.all Char.isDigit && Decimal.ofDigits cs ≤ largest then
    some (Decimal.ofDigits cs)
  else none

def readBool? : String → Option Bool
  | "true" => some true
  | "false" => some false
  | _ => none

/-- What a variable sets, read by `read?`. -/
def Environment.read (env : Environment) {α : Type} (read? : String → Option α) (name : String) :
    Except ConfigError (Option α) :=
  match env.set? name with
  | none => .ok none
  | some value => match read? value with
    | some a => .ok (some a)
    | none => .error (.badVariable name value)

/-- What a variable chooses. -/
def Environment.choose (env : Environment) {α : Type} (ofName : String → Except ConfigError α)
    (name : String) : Except ConfigError (Option α) :=
  match env.set? name with
  | none => .ok none
  | some value => (ofName value).map some

/-! ### The layer -/

/-- The name of the variable for a field. -/
def variableOf (field : String) : String := "SITEGUARD_" ++ field

/-- The fields of all layers, by the names of their variables; those of the log have two. -/
def fieldNames : List String := [
  "MEMORY_USER_PATH", "MEMORY_ORGANIZATION_PATH", "MEMORY_MIN_CONFIDENCE", "MEMORY_JUDGE",
  "LLM_PROVIDER", "LLM_API_KEY", "LLM_BASE_URL", "LLM_MODEL", "LLM_TIMEOUT_SECS",
  "WEATHER_ENABLED", "WEATHER_FORECAST_URL", "WEATHER_GEOCODING_URL", "WEATHER_FORECAST_DAYS",
  "WORKFLOW_RETRIEVAL_K", "WORKFLOW_RETRIEVAL_TIMEOUT_MS", "WORKFLOW_RECALL_TIMEOUT_MS",
  "WORKFLOW_WEATHER_TIMEOUT_MS", "WORKFLOW_DEADLINE_MS",
  "LOGGING_LEVEL", "LOG_LEVEL", "LOGGING_FORMAT", "LOG_FORMAT"]

/-- What the environment sets. -/
def Layer.ofEnvironment (env : Environment) : Except ConfigError Layer := do
  let text (field : String) : Option String := env.set? (variableOf field)
  let natural (field : String) : Except ConfigError (Option Nat) :=
    env.read (readNat? maxWord) (variableOf field)
  let minConfidence ←
    env.read (fun s => Decimal.read? s.toList) (variableOf "MEMORY_MIN_CONFIDENCE")
  let judge ← env.choose JudgeKind.ofName (variableOf "MEMORY_JUDGE")
  let provider ← env.choose Provider.ofName (variableOf "LLM_PROVIDER")
  let timeoutSecs ← natural "LLM_TIMEOUT_SECS"
  let weatherEnabled ← env.read readBool? (variableOf "WEATHER_ENABLED")
  let forecastDays ← env.read (readNat? maxByte) (variableOf "WEATHER_FORECAST_DAYS")
  let retrievalK ← natural "WORKFLOW_RETRIEVAL_K"
  let deadlineMs ← natural "WORKFLOW_DEADLINE_MS"
  let retrievalMs ← natural "WORKFLOW_RETRIEVAL_TIMEOUT_MS"
  let recallMs ← natural "WORKFLOW_RECALL_TIMEOUT_MS"
  let weatherMs ← natural "WORKFLOW_WEATHER_TIMEOUT_MS"
  let format := if (text "LOGGING_FORMAT").isSome then "LOGGING_FORMAT" else "LOG_FORMAT"
  let logFormat ← env.choose LogFormat.ofName (variableOf format)
  return {
    userPath := text "MEMORY_USER_PATH"
    organizationPath := text "MEMORY_ORGANIZATION_PATH"
    minConfidence, judge, provider
    apiKey := text "LLM_API_KEY"
    baseUrl := text "LLM_BASE_URL"
    model := text "LLM_MODEL"
    timeoutSecs, weatherEnabled
    forecastUrl := text "WEATHER_FORECAST_URL"
    geocodingUrl := text "WEATHER_GEOCODING_URL"
    forecastDays, retrievalK, retrievalMs, recallMs, weatherMs, deadlineMs
    logLevel := (text "LOGGING_LEVEL").or (text "LOG_LEVEL")
    logFormat }

/-! ### Interpolation -/

/-- A text with each `$` and name in braces replaced by the variable of that name.  What was put in
is not looked at again. -/
def Environment.interpolate (env : Environment) : List Char → Except ConfigError (List Char)
  | [] => .ok []
  | '$' :: '\x7b' :: rest =>
    let name := rest.takeWhile (· != '\x7d')
    let after := rest.dropWhile (· != '\x7d')
    if after.isEmpty then .error .unterminated
    else match env.lookup (String.ofList name) with
      | none => .error (.missingVariable (String.ofList name))
      | some value => (env.interpolate (after.drop 1)).map (value.toList ++ ·)
  | c :: rest => (env.interpolate rest).map (c :: ·)
termination_by cs => cs.length
decreasing_by
  · have := (List.dropWhile_suffix (· != '\x7d') (l := rest)).length_le
    simp only [List.length_drop, List.length_cons]
    omega
  · simp

end SiteSafety.Config
