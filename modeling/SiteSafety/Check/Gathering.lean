import SiteSafety.Check.Branch
import SiteSafety.Measurement.Unit
import SiteSafety.Memory.Learning
import SiteSafety.Rule.Snippet

/-!
# Check — Gathering

What a check is asked, whom it asks, and what it gathers from them.  Rules, memories and weather
are asked for side by side, each up to its own limit; the judge then has what is left of the time
for the whole check.  **Whatever is missing is listed as a degradation**, in a fixed order.
-/

namespace SiteSafety.Check
open Measurement Memory Rule

/-- How much a check asks for and how long it waits, in milliseconds. -/
structure Settings where
  retrievalK : Nat := 5
  retrievalMs : Nat := 5000
  recallMs : Nat := 2000
  weatherMs : Nat := 8000
  deadlineMs : Nat := 15000
  deriving Repr, DecidableEq

structure Request where
  id : String
  site : String
  operation : String
  /-- What the operator said, which may be worth remembering. -/
  interaction : Option String := none
  actor : String := "operator"
  deriving Repr, DecidableEq

/-- What rules are searched for. -/
def Request.query (r : Request) : String :=
  s!"{r.operation} safety limits at {r.site}: wind speed, gusts, rain, temperature, visibility"

/-- Whom a check asks. -/
structure Parties where
  /-- The best rule snippets for a query, up to a number of them. -/
  retriever : String → Nat → Answer (List Snippet)
  /-- The readings at a site; none where the weather is not asked for. -/
  weather : Option (String → Noted (Answer (List Reading))) := none
  judge : Judge
  /-- How long the judge takes. -/
  judgeDelayMs : Nat := 0
  /-- How long the store takes to read one scope. -/
  readDelayMs : Nat := 0

structure Gathered where
  snippets : List Snippet
  memories : List Entry
  readings : List Reading
  candidates : List Candidate
  degradations : List Degradation

/-! ### Branches -/

variable {σ : Type} [Store σ]

/-- The failure of a store as that of a branch. -/
def recallFailed (e : StoreError) : CollaboratorError := .failure .memoryRecall e.message

/-- The facts of both scopes, one after the other, with the time that it takes to read them. -/
def recollect (readDelayMs : Nat) (s : σ) : Noted (Answer (List Entry)) := do
  match ← Store.read .user s with
  | .error e => return ⟨.error (recallFailed e), readDelayMs⟩
  | .ok user =>
    match ← Store.read .organization s with
    | .error e => return ⟨.error (recallFailed e), 2 * readDelayMs⟩
    | .ok organization => return ⟨.ok (user ++ organization), 2 * readDelayMs⟩

/-- The snippets that were found; to find none is a degradation too. -/
def receivedRules (requestId : String) (r : Except CollaboratorError (List Snippet)) :
    Noted (List Snippet × List Degradation) :=
  match r with
  | .ok [] => pure ([], [⟨.retrieval, .failed, "no rule snippets matched"⟩])
  | r => received requestId r

/-- The readings that came in; not to ask for the weather is a degradation too. -/
def receivedWeather (requestId : String) (limitMs : Nat) :
    Option (Answer (List Reading)) → Noted (List Reading × List Degradation)
  | none => pure ([], [⟨.weather, .disabled, "weather checks are turned off"⟩])
  | some answer => received requestId (answer.within .weather limitMs)

/-- How long the judge takes over a message. -/
def Parties.judgingMs (p : Parties) (interaction : String) : Nat :=
  if isJudged interaction then p.judgeDelayMs else 0

/-- What the judge finds in a message within a limit. -/
def judged (p : Parties) (requestId : String) (limitMs : Nat) (interaction : String)
    (memories : List Entry) : Noted (List Candidate × List Degradation) := do
  let delayMs := p.judgingMs interaction
  let result ←
    if delayMs = 0 || delayMs < limitMs then learn p.judge interaction memories
    else pure (.error (.timeout .judge limitMs))
  received requestId (result.map Option.toList)

/-! ### All of them -/

/-- Asks all parties: what they delivered, and after how many milliseconds. -/
def gather (settings : Settings) (p : Parties) (r : Request) (s : σ) : Noted (Gathered × Nat) := do
  let rulesMs := min settings.retrievalMs settings.deadlineMs
  let recallMs := min settings.recallMs settings.deadlineMs
  let weatherMs := min settings.weatherMs settings.deadlineMs
  let rules := p.retriever r.query settings.retrievalK
  let weather ← match p.weather with
    | some ask => pure (some (← ask r.site))
    | none => pure none
  let recalled ← recollect p.readDelayMs s
  let waited := max (rules.waitedMs rulesMs)
    (max (recalled.waitedMs recallMs) ((weather.map (·.waitedMs weatherMs)).getD 0))
  let (snippets, noRules) ← receivedRules r.id (rules.within .retrieval rulesMs)
  let (memories, noMemories) ← received r.id (recalled.within .memoryRecall recallMs)
  let (readings, noReadings) ← receivedWeather r.id weatherMs weather
  let known := noRules ++ noMemories ++ noReadings
  match r.interaction with
  | none => return (⟨snippets, memories, readings, [], known⟩, waited)
  | some interaction =>
    let left := settings.deadlineMs - waited
    let (candidates, noJudge) ← judged p r.id left interaction memories
    return (⟨snippets, memories, readings, candidates, known ++ noJudge⟩,
      waited + min (p.judgingMs interaction) left)

end SiteSafety.Check
