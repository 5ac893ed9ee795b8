import SiteSafety.Decimal.Text
import SiteSafety.Workflow.State

/-!
# Workflow — Transition

Which event moves which stage on.  Every stage has its own events; accepting rules and giving up
on them are guarded by what was found, **so a check is aborted exactly when it has to be**.
-/

namespace SiteSafety.Workflow

/-- A move that was made. -/
structure Transition where
  source : State
  target : State
  event : Event
  actions : List Action
  deriving Repr, DecidableEq

/-- Why an event does not apply. -/
inductive TransitionError where
  | rulesInvalid (state : State) (retrieved : Nat)
  | rulesUsable (state : State) (event : Event)
  | invalid (state : State) (event : Event)
  deriving Repr, DecidableEq

def TransitionError.message : TransitionError → String
  | .rulesInvalid state retrieved =>
    s!"retrieved rules are structurally invalid in {state.name} "
      ++ s!"({Decimal.digits retrieved} snippets, none well formed)"
  | .rulesUsable state event =>
    s!"rules are usable in {state.name}; {event.name} does not apply"
  | .invalid state event =>
    s!"invalid transition from {state.name} using event {event.name}"

/-- Going on with the rules that were found. -/
def acceptRules (s : State) (c : Context) : Except TransitionError (State × List Action) :=
  if c.rulesInvalid then .error (.rulesInvalid s c.retrieved)
  else .ok (.extract, [.extractThresholds])

/-- Giving up on the rules that were found. -/
def refuseRules (s : State) (c : Context) : Except TransitionError (State × List Action) :=
  if c.rulesInvalid then .ok (.fatal, [.abortRequest])
  else .error (.rulesUsable s .rulesInvalid)

/-- The next stage and what to do. -/
def next (c : Context) (s : State) (e : Event) : Except TransitionError (State × List Action) :=
  match s, e with
  | .start, .dispatched => .ok (.fanOut, [.fanOutReads])
  | .fanOut, .branchesJoined => .ok (.join, [])
  | .join, .branchDegraded => .ok (.degraded, [.recordDegradations])
  | .join, .rulesAccepted => acceptRules .join c
  | .degraded, .rulesAccepted => acceptRules .degraded c
  | .join, .rulesInvalid => refuseRules .join c
  | .degraded, .rulesInvalid => refuseRules .degraded c
  | .extract, .thresholdsExtracted => .ok (.evaluate, [.evaluateCompliance])
  | .evaluate, .complianceEvaluated => .ok (.decide, [.synthesizeDecision])
  | .decide, .decisionSynthesized => .ok (.persist, [.commitMemories])
  | .persist, .memoryPersisted => .ok (.done, [])
  | s, e => .error (.invalid s e)

/-- The move that an event makes. -/
def transition (c : Context) (s : State) (e : Event) : Except TransitionError Transition :=
  (next c s e).map fun (target, actions) => ⟨s, target, e, actions⟩

end SiteSafety.Workflow
