import SiteSafety.Document.Json.Printer
import SiteSafety.Journal
import SiteSafety.Workflow.Transition

/-!
# Workflow — Audit

The record of what a check did.  **Every event that is put to the workflow leaves one record**,
whether it applied or not.
-/

namespace SiteSafety.Workflow

inductive Category where
  | workflow | retrieval | memory | weather | decision
  deriving Repr, DecidableEq

def Category.name : Category → String
  | .workflow => "Workflow"
  | .retrieval => "Retrieval"
  | .memory => "Memory"
  | .weather => "Weather"
  | .decision => "Decision"

inductive Outcome where
  | success | degraded | rejected | failed
  deriving Repr, DecidableEq

def Outcome.name : Outcome → String
  | .success => "Success"
  | .degraded => "Degraded"
  | .rejected => "Rejected"
  | .failed => "Failed"

/-- Which request is on record. -/
structure Subject where
  requestId : String
  site : Option String
  actor : String
  deriving Repr, DecidableEq

structure Record where
  subject : Subject
  event : String
  category : Category
  outcome : Outcome
  /-- Further facts by name, in order of the names. -/
  metadata : List (String × String)
  deriving Repr, DecidableEq

/-- How a move is recorded by the stage it leads to. -/
def outcomeOf : State → Outcome
  | .degraded => .degraded
  | .fatal => .failed
  | _ => .success

/-- The record of an event that was put to the workflow. -/
def recordOf (subject : Subject) : Except TransitionError Transition → Record
  | .ok t =>
    ⟨subject, "workflow.transition_applied", .workflow, outcomeOf t.target,
      [("event", t.event.name), ("from", t.source.name), ("to", t.target.name)]⟩
  | .error e =>
    ⟨subject, "workflow.transition_rejected", .workflow, .rejected, [("error", e.message)]⟩

/-- An event put to the workflow, with its record. -/
def apply (subject : Subject) (c : Context) (s : State) (e : Event) :
    Except TransitionError Transition × Record :=
  let result := transition c s e
  (result, recordOf subject result)

/-- The stage after an event; an event that does not apply leaves it as it is. -/
def stateAfter (s : State) : Except TransitionError Transition → State
  | .ok t => t.target
  | .error _ => s

/-- Events with their contexts put to the workflow one after the other: what each of them did, the
stage after it, and its record. -/
def run (subject : Subject) (s : State) :
    List (Event × Context) → List (Except TransitionError Transition × State × Record)
  | [] => []
  | (e, c) :: rest =>
    let (result, record) := apply subject c s e
    let s' := stateAfter s result
    (result, s', record) :: run subject s' rest

/-- Where a record goes: it is kept, or told as a note. -/
inductive Sink where
  | kept
  | told
  deriving Repr, DecidableEq

/-- A record as a note. -/
def Record.note (r : Record) : Note where
  level := if r.outcome = .success then .info else .warn
  speaker := .audit
  event := r.event
  message := "audit event"
  fields :=
    [("request_id", r.subject.requestId), ("site", r.subject.site.getD ""),
      ("category", r.category.name), ("actor", r.subject.actor)]
    ++ (if r.outcome = .success then [] else [("outcome", r.outcome.name)])
    ++ [("metadata",
        (Document.Output.object (r.metadata.map fun (k, v) => (k, .string v))).compact)]

end SiteSafety.Workflow
