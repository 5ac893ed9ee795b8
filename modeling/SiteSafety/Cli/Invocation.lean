import SiteSafety.Cli.Grammar
import SiteSafety.Config.Settings
import SiteSafety.Memory.Entry

/-!
# Cli — Invocation

What the program is told to do: a command with its arguments, and the options that all commands
share.  **An option for all commands may stand before or behind the command**; behind it counts.
-/

namespace SiteSafety.Cli

/-- What a check is asked for. -/
structure CheckArguments where
  site : String
  operation : String
  /-- The directory of the rule documents. -/
  rules : String
  message : Option String := none
  noWeather : Bool := false
  json : Bool := false
  deriving Repr, DecidableEq

inductive Command where
  | check (a : CheckArguments)
  | eval (expression : String) (bindings : List String)
  | memory (scope : Option Memory.Scope)
  | config
  deriving Repr, DecidableEq

def Command.name : Command → String
  | .check _ => "check"
  | .eval _ _ => "eval"
  | .memory _ => "memory"
  | .config => "config"

structure Invocation where
  configPath : Option String := none
  logFormat : Option Config.LogFormat := none
  command : Command
  deriving Repr, DecidableEq

/-! ### Options -/

def scopeNames : List (String × Memory.Scope) :=
  Memory.Scope.all.map fun s => (s.name, s)

/-- The options of all commands.  A path may not be empty. -/
def sharedOptions : List Opt := [
  ⟨"config", .once, fun s => !s.isEmpty⟩,
  ⟨"log-format", .once, fun s => (Config.logFormats.lookup s).isSome⟩]

def commandNames : List String := ["check", "eval", "memory", "config", "help"]

def rootGrammar : Grammar := { options := sharedOptions, commands := commandNames }

def checkGrammar : Grammar where
  options := sharedOptions ++ [
    { name := "site", kind := .once }, { name := "operation", kind := .once },
    ⟨"rules", .once, fun s => !s.isEmpty⟩, { name := "message", kind := .once },
    { name := "no-weather", kind := .switch }, { name := "json", kind := .switch }]

def evalGrammar : Grammar where
  options := sharedOptions ++ [{ name := "bind", kind := .many }]
  takesWord := true

def memoryGrammar : Grammar where
  options := sharedOptions ++ [⟨"scope", .once, fun s => (scopeNames.lookup s).isSome⟩]

def configGrammar : Grammar := { options := sharedOptions }

/-! ### Commands -/

/-- Reads the words behind a command. -/
def readBelow (g : Grammar) (words : List String) : Except UsageError Reading :=
  match readWords g {} words with
  | .error e => .error e
  | .ok (r, _) => r.settle

def checkOf (r : Reading) : Except UsageError Command :=
  match r.value? "site", r.value? "operation", r.value? "rules" with
  | some site, some operation, some rules =>
    .ok (.check ⟨site, operation, rules, r.value? "message", r.has "no-weather", r.has "json"⟩)
  | _, _, _ => .error .missingArgument

def evalOf (r : Reading) : Except UsageError Command :=
  match r.word with
  | some expression => .ok (.eval expression (r.values "bind"))
  | none => .error .missingArgument

/-- The help command, which names at most one command. -/
def askHelp : List String → UsageError
  | [] => .help
  | [name] => if commandNames.contains name then .help else .unknownCommand
  | _ => .unknownCommand

/-- A command by its name and the words behind it. -/
def readCommand (name : String) (words : List String) : Except UsageError (Reading × Command) :=
  let read (g : Grammar) (command : Reading → Except UsageError Command) := do
    let r ← readBelow g words
    return (r, ← command r)
  match name with
  | "check" => read checkGrammar checkOf
  | "eval" => read evalGrammar evalOf
  | "memory" =>
    read memoryGrammar fun r => .ok (.memory ((r.value? "scope").bind fun s => scopeNames.lookup s))
  | "config" => read configGrammar fun _ => .ok .config
  | _ => .error (askHelp words)

/-- What a command line tells the program to do. -/
def Invocation.ofWords (words : List String) : Except UsageError Invocation := do
  match ← readWords rootGrammar {} words with
  | (r, none) =>
    let r ← r.settle
    throw (if r.found.isEmpty then .nothingGiven else .noCommand)
  | (r, some (name, rest)) =>
    let (below, command) ← readCommand name rest
    let r ← r.settle
    let shared (option : String) : Option String :=
      (below.value? option).or (r.value? option)
    let logFormat := (shared "log-format").bind fun s => Config.logFormats.lookup s
    return ⟨shared "config", logFormat, command⟩

end SiteSafety.Cli
