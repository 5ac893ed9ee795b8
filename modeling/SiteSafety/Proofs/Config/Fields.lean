import Mathlib.Data.List.Nodup
import Mathlib.Data.List.Pairwise
import SiteSafety.Config.Report

/-!
# Proofs — Config — Fields

The settings field by field.  A `Field` names one value of the configuration; a layer and a
configuration are both read at it by `get`, so that what holds of every field is said once.

* `get_over`: **at each field a layer put over settings shows its own value, else theirs**.
* `ext_get`: a configuration is its fields and nothing besides.
* `allNames`, `eq_of_mem_names`: every variable of a layer belongs to one field.
* `lines_eq`: the report has one line for each field, and each shows its field's value.
-/

namespace SiteSafety.Config

/-- The fields that can be set, section by section. -/
inductive Field where
  | userPath | organizationPath | minConfidence | judge
  | provider | apiKey | baseUrl | model | timeoutSecs
  | weatherEnabled | forecastUrl | geocodingUrl | forecastDays
  | retrievalK | retrievalMs | recallMs | weatherMs | deadlineMs
  | logLevel | logFormat
  deriving Repr, DecidableEq

namespace Field

def all : List Field := [
  .userPath, .organizationPath, .minConfidence, .judge,
  .provider, .apiKey, .baseUrl, .model, .timeoutSecs,
  .weatherEnabled, .forecastUrl, .geocodingUrl, .forecastDays,
  .retrievalK, .retrievalMs, .recallMs, .weatherMs, .deadlineMs,
  .logLevel, .logFormat]

@[simp] theorem mem_all (f : Field) : f ∈ all := by cases f <;> decide

/-- The type of a field's values. -/
@[reducible] def Value : Field → Type
  | .minConfidence => Float
  | .judge => JudgeKind
  | .provider => Provider
  | .weatherEnabled => Bool
  | .timeoutSecs | .forecastDays => Nat
  | .retrievalK | .retrievalMs | .recallMs | .weatherMs | .deadlineMs => Nat
  | .logFormat => LogFormat
  | _ => String

end Field

/-! ### Layers and configurations at a field -/

/-- What a layer sets a field to. -/
def Layer.get (l : Layer) : (f : Field) → Option f.Value
  | .userPath => l.userPath
  | .organizationPath => l.organizationPath
  | .minConfidence => l.minConfidence
  | .judge => l.judge
  | .provider => l.provider
  | .apiKey => l.apiKey
  | .baseUrl => l.baseUrl
  | .model => l.model
  | .timeoutSecs => l.timeoutSecs
  | .weatherEnabled => l.weatherEnabled
  | .forecastUrl => l.forecastUrl
  | .geocodingUrl => l.geocodingUrl
  | .forecastDays => l.forecastDays
  | .retrievalK => l.retrievalK
  | .retrievalMs => l.retrievalMs
  | .recallMs => l.recallMs
  | .weatherMs => l.weatherMs
  | .deadlineMs => l.deadlineMs
  | .logLevel => l.logLevel
  | .logFormat => l.logFormat

/-- The value of a field, which only the key and the address of the model can be without. -/
def get (c : Config) : (f : Field) → Option f.Value
  | .userPath => some c.memory.userPath
  | .organizationPath => some c.memory.organizationPath
  | .minConfidence => some c.memory.minConfidence
  | .judge => some c.memory.judge
  | .provider => some c.llm.provider
  | .apiKey => c.llm.apiKey
  | .baseUrl => c.llm.baseUrl
  | .model => some c.llm.model
  | .timeoutSecs => some c.llm.timeoutSecs
  | .weatherEnabled => some c.weather.enabled
  | .forecastUrl => some c.weather.forecastUrl
  | .geocodingUrl => some c.weather.geocodingUrl
  | .forecastDays => some c.weather.forecastDays
  | .retrievalK => some c.workflow.retrievalK
  | .retrievalMs => some c.workflow.retrievalMs
  | .recallMs => some c.workflow.recallMs
  | .weatherMs => some c.workflow.weatherMs
  | .deadlineMs => some c.workflow.deadlineMs
  | .logLevel => some c.logging.level
  | .logFormat => some c.logging.format

@[simp] theorem Layer.get_empty (f : Field) : ({} : Layer).get f = none := by cases f <;> rfl

/-- The field of a layer over settings is the layer's where it sets one, else theirs. -/
theorem get_over (l : Layer) (c : Config) (f : Field) :
    (l.over c).get f = (l.get f).or (c.get f) := by
  cases f <;> simp only [get, Layer.get, Layer.over, Option.or_some]

/-- Two configurations with the same fields are the same. -/
theorem ext_get {c c' : Config} (h : ∀ f, c.get f = c'.get f) : c = c' := by
  obtain ⟨⟨_, _, _, _⟩, ⟨_, _, _, _, _⟩, ⟨_, _, _, _⟩, ⟨_, _, _, _, _⟩, ⟨_, _⟩⟩ := c
  obtain ⟨⟨_, _, _, _⟩, ⟨_, _, _, _, _⟩, ⟨_, _, _, _⟩, ⟨_, _, _, _, _⟩, ⟨_, _⟩⟩ := c'
  have hfields : ∀ f ∈ Field.all, get _ f = get _ f := fun f _ => h f
  simpa [Field.all, get, and_assoc] using hfields

/-! ### Names of a field -/

@[simp] theorem variableOf_inj {m n : String} : variableOf m = variableOf n ↔ m = n :=
  String.append_right_inj "SITEGUARD_"

namespace Field

/-- The section of a field. -/
def group : Field → String
  | .userPath | .organizationPath | .minConfidence | .judge => "memory"
  | .provider | .apiKey | .baseUrl | .model | .timeoutSecs => "llm"
  | .weatherEnabled | .forecastUrl | .geocodingUrl | .forecastDays => "weather"
  | .retrievalK | .retrievalMs | .recallMs | .weatherMs | .deadlineMs => "workflow"
  | .logLevel | .logFormat => "logging"

/-- The name of a field in its section. -/
def key : Field → String
  | .userPath => "user_path"
  | .organizationPath => "organization_path"
  | .minConfidence => "min_confidence"
  | .judge => "judge"
  | .provider => "provider"
  | .apiKey => "api_key"
  | .baseUrl => "base_url"
  | .model => "model"
  | .timeoutSecs => "timeout_secs"
  | .weatherEnabled => "enabled"
  | .forecastUrl => "forecast_url"
  | .geocodingUrl => "geocoding_url"
  | .forecastDays => "forecast_days"
  | .retrievalK => "retrieval_k"
  | .retrievalMs => "retrieval_timeout_ms"
  | .recallMs => "recall_timeout_ms"
  | .weatherMs => "weather_timeout_ms"
  | .deadlineMs => "deadline_ms"
  | .logLevel => "level"
  | .logFormat => "format"

/-- The names of all fields in a field's section, in order. -/
def keys (f : Field) : List String := (all.filter (·.group = f.group)).map (·.key)

/-- The name of a field's variable. -/
def name : Field → String
  | .userPath => "MEMORY_USER_PATH"
  | .organizationPath => "MEMORY_ORGANIZATION_PATH"
  | .minConfidence => "MEMORY_MIN_CONFIDENCE"
  | .judge => "MEMORY_JUDGE"
  | .provider => "LLM_PROVIDER"
  | .apiKey => "LLM_API_KEY"
  | .baseUrl => "LLM_BASE_URL"
  | .model => "LLM_MODEL"
  | .timeoutSecs => "LLM_TIMEOUT_SECS"
  | .weatherEnabled => "WEATHER_ENABLED"
  | .forecastUrl => "WEATHER_FORECAST_URL"
  | .geocodingUrl => "WEATHER_GEOCODING_URL"
  | .forecastDays => "WEATHER_FORECAST_DAYS"
  | .retrievalK => "WORKFLOW_RETRIEVAL_K"
  | .retrievalMs => "WORKFLOW_RETRIEVAL_TIMEOUT_MS"
  | .recallMs => "WORKFLOW_RECALL_TIMEOUT_MS"
  | .weatherMs => "WORKFLOW_WEATHER_TIMEOUT_MS"
  | .deadlineMs => "WORKFLOW_DEADLINE_MS"
  | .logLevel => "LOGGING_LEVEL"
  | .logFormat => "LOGGING_FORMAT"

/-- The second name that the fields of the log have. -/
def alias? : Field → Option String
  | .logLevel => some "LOG_LEVEL"
  | .logFormat => some "LOG_FORMAT"
  | _ => none

/-- The names of a field's variables, in the order they are looked at. -/
def names (f : Field) : List String := f.name :: f.alias?.toList

/-- The variables of all fields are those that are looked at. -/
theorem allNames : all.flatMap names = fieldNames := by decide

/-- A variable belongs to one field. -/
theorem eq_of_mem_names {f g : Field} {n : String} (hf : n ∈ f.names) (hg : n ∈ g.names) :
    f = g := by
  have hpairs : (all.flatMap names).Nodup := by
    rw [allNames]
    decide
  have hsymm : Std.Symm (Function.onFun List.Disjoint names) := ⟨fun _ _ h _ hg hf => h hf hg⟩
  by_contra hne
  exact (List.nodup_flatMap.mp hpairs).2.forall (mem_all f) (mem_all g) hne hf hg

end Field

/-! ### The lines of the report -/

/-- How a value of a field is shown. -/
def Field.display : (f : Field) → f.Value → String
  | .minConfidence, x => Decimal.plain x
  | .judge, k => k.title
  | .provider, p => p.title
  | .apiKey, key => redact key
  | .weatherEnabled, b => Text.flag b
  | .timeoutSecs, n | .forecastDays, n => Decimal.digits n
  | .retrievalK, n | .retrievalMs, n | .recallMs, n | .weatherMs, n | .deadlineMs, n =>
    Decimal.digits n
  | .logFormat, k => k.title
  | .userPath, s | .organizationPath, s | .baseUrl, s | .model, s => s
  | .forecastUrl, s | .geocodingUrl, s | .logLevel, s => s

/-- How a configuration shows a field: by its value, or by what stands for a key or an address
that is not set. -/
def shown (c : Config) (f : Field) : String :=
  ((c.get f).map f.display).getD (if f = .apiKey then "<unset>" else c.llm.provider.address)

/-- The line of a field. -/
def line (c : Config) (f : Field) : Line := ⟨f.group, f.key, f.name, c.shown f⟩

/-- The fields in the order of the report, which tells the model before its address and key. -/
def Field.reported : List Field :=
  [.userPath, .organizationPath, .minConfidence, .judge,
    .provider, .model, .baseUrl, .apiKey, .timeoutSecs,
    .weatherEnabled, .forecastUrl, .geocodingUrl, .forecastDays,
    .retrievalK, .retrievalMs, .recallMs, .weatherMs, .deadlineMs,
    .logLevel, .logFormat]

/-- The report leaves no field out and has none twice. -/
theorem Field.reported_perm : Field.reported.Perm Field.all := by decide

/-- The report has one line for each field. -/
theorem lines_eq (c : Config) : lines c = Field.reported.map c.line := by
  have haddress : c.shown .baseUrl = c.llm.address := by
    cases h : c.llm.baseUrl <;> simp [shown, get, Field.display, ModelSettings.address, h]
  have hkey : c.shown .apiKey = (c.llm.apiKey.map redact).getD "<unset>" := rfl
  simp only [lines, ← haddress, ← hkey]
  rfl

end SiteSafety.Config
