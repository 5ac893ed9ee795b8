import SiteSafety.Config.Environment
import SiteSafety.Document.Toml.Reader

/-!
# Config — File

The layer of the settings file.  It is a document of five tables, each with values for some of the
fields; names that are no fields are passed over.  **A value of the wrong kind makes the whole file
unreadable.**
-/

namespace SiteSafety.Config
open Document

/-! ### Tables -/

/-- The members of a section.  A list stands for a table if it has a value for each field in
order. -/
def sectionMembers? (fields : List String) : Toml → Option (List (String × Toml))
  | .table members => some members
  | .array items => if fields.length ≤ items.length then some (fields.zip items) else none
  | .time _ => some []
  | _ => none

/-- The members of the section under a name, none where there is no such section. -/
def sectionOf (document : Toml) (name : String) (fields : List String) :
    Option (List (String × Toml)) :=
  match document.get? name with
  | none => some []
  | some t => sectionMembers? fields t

/-- What a section sets a field to, read by `read?`. -/
def fieldOf (members : List (String × Toml)) {α : Type} (name : String)
    (read? : Toml → Option α) : Option (Option α) :=
  match members.lookup name with
  | none => some none
  | some t => (read? t).map some

/-! ### Choices -/

/-- Whether a value is a table or list of nothing. -/
def isEmptyValue : Toml → Bool
  | .table [] => true
  | .array [] => true
  | _ => false

/-- A choice by its exact name, which may also be the one name in a table, set to nothing. -/
def choice? {α : Type} (choices : List (String × α)) : Toml → Option α
  | .string name => choices.lookup name
  | .table [(name, t)] => if isEmptyValue t then choices.lookup name else none
  | _ => none

/-! ### The layer -/

/-- What a document sets. -/
def Layer.ofDocument (document : Toml) : Option Layer := do
  let memory ← sectionOf document "memory"
    ["user_path", "organization_path", "min_confidence", "judge"]
  let llm ← sectionOf document "llm"
    ["provider", "api_key", "base_url", "model", "timeout_secs"]
  let weather ← sectionOf document "weather"
    ["enabled", "forecast_url", "geocoding_url", "forecast_days"]
  let workflow ← sectionOf document "workflow"
    ["retrieval_k", "retrieval_timeout_ms", "recall_timeout_ms", "weather_timeout_ms",
      "deadline_ms"]
  let logging ← sectionOf document "logging" ["level", "format"]
  let natural (name : String) : Option (Option Nat) := fieldOf workflow name (Toml.nat? maxWord)
  return {
    userPath := ← fieldOf memory "user_path" Toml.text?
    organizationPath := ← fieldOf memory "organization_path" Toml.text?
    minConfidence := ← fieldOf memory "min_confidence" Toml.float?
    judge := ← fieldOf memory "judge" (choice? judgeKinds)
    provider := ← fieldOf llm "provider" (choice? providers)
    apiKey := ← fieldOf llm "api_key" Toml.text?
    baseUrl := ← fieldOf llm "base_url" Toml.text?
    model := ← fieldOf llm "model" Toml.text?
    timeoutSecs := ← fieldOf llm "timeout_secs" (Toml.nat? maxWord)
    weatherEnabled := ← fieldOf weather "enabled" Toml.bool?
    forecastUrl := ← fieldOf weather "forecast_url" Toml.text?
    geocodingUrl := ← fieldOf weather "geocoding_url" Toml.text?
    forecastDays := ← fieldOf weather "forecast_days" (Toml.nat? maxByte)
    retrievalK := ← natural "retrieval_k"
    retrievalMs := ← natural "retrieval_timeout_ms"
    recallMs := ← natural "recall_timeout_ms"
    weatherMs := ← natural "weather_timeout_ms"
    deadlineMs := ← natural "deadline_ms"
    logLevel := ← fieldOf logging "level" Toml.text?
    logFormat := ← fieldOf logging "format" (choice? logFormats) }

end SiteSafety.Config
