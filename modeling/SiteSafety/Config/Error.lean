import SiteSafety.Config.Settings

/-!
# Config — Error

Why no configuration was loaded.
-/

namespace SiteSafety.Config

inductive ConfigError where
  | unreadable (path : String) (cause : Files.Failure)
  | unparsable (path : String)
  | missingFile (path : String)
  | missingVariable (name : String)
  | unterminated
  | badVariable (name value : String)
  | invalid (fault : Fault)
  deriving Repr, DecidableEq

def ConfigError.message : ConfigError → String
  | .unreadable path cause => s!"could not read config file `{path}`: {cause.message}"
  | .unparsable path => s!"could not parse config file `{path}`: not a document of settings"
  | .missingFile path => s!"required config file was not found: `{path}`"
  | .missingVariable name => s!"environment variable interpolation failed for `{name}`"
  | .unterminated => "unterminated environment interpolation expression"
  | .badVariable name value => s!"invalid environment override for `{name}`: `{value}`"
  | .invalid fault => s!"configuration validation failed: {fault.message}"

/-! ### Choices by name -/

/-- A name as it is compared: trimmed and in lower case. -/
def choiceWord (name : String) : String :=
  String.ofList (Text.asciiLower (Text.trim name.toList))

def Provider.ofName (name : String) : Except ConfigError Provider :=
  match choiceWord name with
  | "openai" | "open_ai" => .ok .openAi
  | "nvidia" => .ok .nvidia
  | "ollama" => .ok .ollama
  | word => .error (.invalid (.unknownProvider word))

def JudgeKind.ofName (name : String) : Except ConfigError JudgeKind :=
  match choiceWord name with
  | "heuristic" => .ok .heuristic
  | "llm" => .ok .llm
  | word => .error (.invalid (.unknownJudge word))

def LogFormat.ofName (name : String) : Except ConfigError LogFormat :=
  match choiceWord name with
  | "compact" => .ok .compact
  | "pretty" => .ok .pretty
  | "json" => .ok .json
  | word => .error (.invalid (.unknownFormat word))

end SiteSafety.Config
