import SiteSafety.Check.Run
import SiteSafety.Cli.Eval
import SiteSafety.Cli.Invocation
import SiteSafety.Cli.Render
import SiteSafety.Config.Report
import SiteSafety.Judge.Cue
import SiteSafety.Judge.Model
import SiteSafety.Memory.Logbook
import SiteSafety.Retrieval.Index
import SiteSafety.Weather.Service

/-!
# Cli — Run

The commands.  What they find and change outside of them is a value: files, variables, the present
time, and the services that answer.  **A check ends with status 0 only if the operation may
proceed.**
-/

namespace SiteSafety.Cli
open Memory

/-- What the commands find. -/
structure World where
  tree : Files.Tree
  environment : Config.Environment
  clock : Calendar.Instant
  weather : Weather.Service := .unreachable
  model : String → Judge.Completion := fun _ => Judge.unsent

/-- The logbook of a configuration. -/
def logbookOf (w : World) (c : Config) : Logbook :=
  ⟨c.memory.userPath, c.memory.organizationPath, w.tree, w.clock⟩

/-! ### Memory -/

/-- The line of a fact in a listing. -/
def entryLine (e : Entry) : String :=
  s!"- [{e.createdAt.minuteText}] [{e.scope.name}] [{e.category.name}] {e.content}"

/-- Lists the facts of the scopes given. -/
def listMemory (w : World) (c : Config) (scopes : List Scope) : Noted Cli.Outcome := do
  match ← readScopes (logbookOf w c) scopes with
  | .error e => return .failure "memory" "memory_store" e.message 2
  | .ok [] => return ⟨0, "no memories recorded"⟩
  | .ok entries => return ⟨0, String.intercalate "\n" (entries.map entryLine)⟩

/-! ### Check -/

/-- The judge that a configuration asks for. -/
def judgeOf (w : World) (c : Config) : Judge := fun interaction known =>
  match c.memory.judge with
  | .heuristic => Judge.cues interaction known
  | .llm => Id.run (Judge.askModel (fun prompt => pure (w.model prompt)) interaction known)

/-- Whom a check asks. -/
def partiesOf (w : World) (c : Config) (index : Retrieval.Index) (noWeather : Bool) :
    Check.Parties where
  retriever query k := ⟨.ok (index.search query k), 0⟩
  weather :=
    if c.weather.enabled && !noWeather then
      some fun site => do return ⟨← w.weather.fetch w.clock site, 0⟩
    else none
  judge := judgeOf w c

/-- The lines of the facts that were remembered. -/
def rememberedLines (commits : List Commit) : List String :=
  commits.filterMap fun
    | .committed e => some s!"[{e.scope.name}] [{e.category.name}] {e.content}"
    | .rejected _ => none

/-- The outcome of a check that was run. -/
def outcomeOf (json : Bool) : Except Check.CheckError Check.Outcome → Cli.Outcome
  | .ok o =>
    let remembered := rememberedLines o.commits
    ⟨if o.decision.canProceed then 0 else 1,
      if json then dataText o.decision remembered else decisionText o.decision remembered⟩
  | .error (.unusableRules n) =>
    .failure "check" "workflow_fatal"
      s!"{Decimal.digits n} rule snippets retrieved, none well formed" 3
  | .error e => .failure "check" "workflow" e.message 3

/-- Runs a check, and returns the files as it leaves them. -/
def check (w : World) (c : Config) (a : CheckArguments) : Noted (Cli.Outcome × Files.Tree) := do
  match ← Retrieval.Index.ofDirectory w.tree a.rules with
  | .error cause =>
    return (.failure "check" "rules_unavailable"
      s!"could not read rules from `{a.rules}`: {cause.message}" 2, w.tree)
  | .ok [] =>
    return (.failure "check" "rules_unavailable" s!"no rule documents found in `{a.rules}`" 2,
      w.tree)
  | .ok index =>
    let setting : Check.Setting := {
      sink := .told
      settings := c.workflow
      policy := Policy.new c.memory.minConfidence
      parties := partiesOf w c index a.noWeather }
    let request : Check.Request :=
      { id := "check", site := a.site, operation := a.operation, interaction := a.message }
    let run ← Check.run setting w.clock request (logbookOf w c)
    return (outcomeOf a.json run.outcome, run.store.tree)

/-! ### Commands -/

/-- What an invocation asks of the configuration. -/
def Invocation.options (i : Invocation) : Config.Options where
  path := i.configPath
  overrides := { logFormat := i.logFormat }

/-- Runs a command, and returns the files as it leaves them. -/
def run (w : World) (i : Invocation) : Noted (Cli.Outcome × Files.Tree) :=
  match i.command with
  | .config => pure (⟨0, Config.report i.options w.tree w.environment⟩, w.tree)
  | .eval expression bindings => pure (eval expression bindings, w.tree)
  | .check a =>
    match Config.load i.options w.tree w.environment with
    | .error e => pure (.failure "check" "config_validation" e.message 2, w.tree)
    | .ok c => check w c a
  | .memory scope =>
    match Config.load i.options w.tree w.environment with
    | .error e => pure (.failure "memory" "config_validation" e.message 2, w.tree)
    | .ok c => do
      return (← listMemory w c (scope.elim Scope.all (fun s => [s])), w.tree)

end SiteSafety.Cli
