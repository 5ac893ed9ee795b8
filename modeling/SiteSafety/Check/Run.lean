import SiteSafety.Check.Gathering
import SiteSafety.Decision.Synthesis
import SiteSafety.Workflow.Audit

/-!
# Check — Run

A check from its request to its decision.  Every step is an event put to the workflow and leaves a
record.  **A check fails only where rules were found and none of them can be used**; the decision
is made before anything is remembered, and a store that fails does not change it.
-/

namespace SiteSafety.Check
open Memory Workflow

/-- Why a check came to no decision. -/
inductive CheckError where
  | unusableRules (retrieved : Nat)
  | misstep (e : TransitionError)
  deriving Repr, DecidableEq

def CheckError.message : CheckError → String
  | .unusableRules retrieved =>
    s!"rule retrieval input is structurally invalid: "
      ++ s!"{Decimal.digits retrieved} rule snippets retrieved, none well formed"
  | .misstep e => e.message

structure Outcome where
  decision : Decision
  trace : List Transition
  commits : List Commit
  deriving Repr

/-- The stage that a check ended in. -/
def Outcome.finalState? (o : Outcome) : Option State := o.trace.getLast?.map (·.target)

/-- How far a check has come. -/
structure Progress (σ : Type) where
  store : σ
  state : State := .start
  trace : List Transition := []
  records : List Record := []
  elapsedMs : Nat := 0

/-- A part of a check. -/
abbrev Course (σ : Type) := ExceptT CheckError (StateT (Progress σ) Noted)

variable {σ : Type}

/-! ### Steps -/

/-- Makes a note. -/
def tell (n : Note) : Course σ Unit := liftM (SiteSafety.note n)

/-- Keeps a record, or tells it as a note. -/
def file : Sink → Record → Course σ Unit
  | .kept, r => modify fun p => { p with records := p.records ++ [r] }
  | .told, r => tell r.note

/-- What all steps of a check share. -/
structure Setting where
  sink : Sink := .kept
  settings : Settings := {}
  policy : Policy := {}
  parties : Parties

/-- Puts an event to the workflow. -/
def advance (sink : Sink) (r : Request) (c : Context) (e : Event) : Course σ Unit := do
  let p ← get
  let (result, record) := apply ⟨r.id, some r.site, r.actor⟩ c p.state e
  file sink record
  match result with
  | .ok t => set { p with
      state := t.target
      trace := p.trace ++ [t]
      records := (← get).records }
  | .error err => throw (.misstep err)

/-- What is known of the rules and branches that were gathered. -/
def Gathered.context (g : Gathered) : Context where
  retrieved := g.snippets.length
  wellFormed := (g.snippets.filter (·.isWellFormed)).length
  degradations := g.degradations.length

/-- What was gathered, as the input of a decision. -/
def Gathered.input (g : Gathered) (r : Request) : Decision.Input where
  site := r.site
  operation := r.operation
  snippets := g.snippets
  memories := g.memories
  readings := g.readings
  candidates := g.candidates
  degradations := g.degradations

/-- Notes that some snippets are left out. -/
def tellDropped (requestId : String) (dropped : Nat) : Course σ Unit :=
  tell {
    level := .warn, speaker := .check, event := "workflow.rules.malformed_dropped"
    message := "dropping malformed rule snippets"
    fields := [("request_id", requestId), ("dropped", Decimal.digits dropped)] }

/-- Notes the clauses that set no threshold. -/
def tellSkipped (requestId : String) : List Clause.Skipped → Course σ Unit
  | [] => pure ()
  | s :: rest => do
    tell {
      level := .debug, speaker := .check, event := "extract.clause_skipped"
      message := "clause skipped"
      fields := [("request_id", requestId), ("source_index", Decimal.digits s.sourceIndex),
        ("reason", s.reason)] }
    tellSkipped requestId rest

/-- Gives up on the rules that were found. -/
def abort (sink : Sink) (r : Request) (c : Context) : Course σ Unit := do
  advance sink r c .rulesInvalid
  tell {
    level := .warn, speaker := .check, event := "workflow.request.fatal"
    message := "no retrieved rule snippet is structurally valid"
    fields := [("request_id", r.id), ("retrieved", Decimal.digits c.retrieved)] }
  throw (.unusableRules c.retrieved)

variable [Store σ]

/-- Commits candidates one after the other; a commit that fails is noted and passed over. -/
def persist (policy : Policy) (now : Calendar.Instant) (requestId : String) :
    List Candidate → Course σ (List Commit)
  | [] => pure []
  | c :: rest => do
    let p ← get
    let (result, store) ← liftM (policy.commit now c p.store)
    set { p with store := store }
    match result with
    | .ok commit => return commit :: (← persist policy now requestId rest)
    | .error e =>
      tell {
        level := .warn, speaker := .check, event := "memory.commit.failed"
        message := "memory commit failed; decision unaffected"
        fields := [("request_id", requestId), ("scope", c.scope.name), ("error", e.message)] }
      persist policy now requestId rest

/-- The record of a decision. -/
def issuedRecord (r : Request) (d : Decision) : Record where
  subject := ⟨r.id, some r.site, r.actor⟩
  event := "decision.issued"
  category := .decision
  outcome := if d.isDegraded then .degraded else .success
  metadata := [
    ("can_proceed", Text.flag d.canProceed),
    ("citations", Decimal.digits d.citations.length),
    ("violations", Decimal.digits d.violations.length)]

/-- The note of a decision. -/
def issuedNote (r : Request) (d : Decision) : Note where
  level := .info
  speaker := .check
  event := "workflow.decision.issued"
  message := "safety decision issued"
  fields := [
    ("request_id", r.id), ("site", d.site), ("can_proceed", Text.flag d.canProceed),
    ("violations", Decimal.digits d.violations.length), ("degraded", Text.flag d.isDegraded)]

/-- Everything that a check gathers, with the time it took. -/
def collect (s : Setting) (r : Request) : Course σ Gathered := do
  let p ← get
  let (g, elapsedMs) ← liftM (gather s.settings s.parties r p.store)
  set { p with elapsedMs := elapsedMs }
  return g

/-- A check, step by step. -/
def course (s : Setting) (now : Calendar.Instant) (r : Request) : Course σ Outcome := do
  advance s.sink r {} .dispatched
  let g ← collect s r
  let c := g.context
  let step (e : Event) : Course σ Unit := advance s.sink r c e
  step .branchesJoined
  if !g.degradations.isEmpty then step .branchDegraded
  if c.rulesInvalid then abort s.sink r c
  if c.wellFormed < c.retrieved then tellDropped r.id (c.retrieved - c.wellFormed)
  step .rulesAccepted
  let extraction := Decision.extract g.snippets
  tellSkipped r.id extraction.skipped
  step .thresholdsExtracted
  let report := Compliance.evaluate extraction.thresholds g.readings
  step .complianceEvaluated
  let decision :=
    Decision.synthesize Decision.defaultSurfaced (g.input r) extraction report now
  step .decisionSynthesized
  let commits ← persist s.policy now r.id decision.newMemories
  step .memoryPersisted
  file s.sink (issuedRecord r decision)
  tell (issuedNote r decision)
  return ⟨decision, (← get).trace, commits⟩

/-- What a check led to. -/
structure Run (σ : Type) where
  outcome : Except CheckError Outcome
  /-- The records that were kept. -/
  records : List Record
  elapsedMs : Nat
  store : σ

/-- A check of a request with a store. -/
def run (s : Setting) (now : Calendar.Instant) (r : Request) (store : σ) : Noted (Run σ) := do
  let (outcome, p) ← ((course s now r).run).run ⟨store, .start, [], [], 0⟩
  return ⟨outcome, p.records, p.elapsedMs, p.store⟩

end SiteSafety.Check
