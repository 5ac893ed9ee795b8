/-!
# Workflow — State

The stages of a check, what moves it from one to the next, and what it is told to do on the way.
-/

namespace SiteSafety.Workflow

inductive State where
  | start | fanOut | join | degraded | extract | evaluate | decide | persist | done | fatal
  deriving Repr, DecidableEq

/-- All stages, in the order in which a check can come to them. -/
def State.all : List State :=
  [.start, .fanOut, .join, .degraded, .extract, .evaluate, .decide, .persist, .done, .fatal]

def State.name : State → String
  | .start => "Start"
  | .fanOut => "FanOut"
  | .join => "Join"
  | .degraded => "Degraded"
  | .extract => "Extract"
  | .evaluate => "Evaluate"
  | .decide => "Decide"
  | .persist => "Persist"
  | .done => "Done"
  | .fatal => "Fatal"

def State.isTerminal : State → Bool
  | .done | .fatal => true
  | _ => false

inductive Event where
  | dispatched | branchesJoined | branchDegraded | rulesAccepted | rulesInvalid
  | thresholdsExtracted | complianceEvaluated | decisionSynthesized | memoryPersisted
  deriving Repr, DecidableEq

def Event.all : List Event :=
  [.dispatched, .branchesJoined, .branchDegraded, .rulesAccepted, .rulesInvalid,
    .thresholdsExtracted, .complianceEvaluated, .decisionSynthesized, .memoryPersisted]

def Event.name : Event → String
  | .dispatched => "Dispatched"
  | .branchesJoined => "BranchesJoined"
  | .branchDegraded => "BranchDegraded"
  | .rulesAccepted => "RulesAccepted"
  | .rulesInvalid => "RulesInvalid"
  | .thresholdsExtracted => "ThresholdsExtracted"
  | .complianceEvaluated => "ComplianceEvaluated"
  | .decisionSynthesized => "DecisionSynthesized"
  | .memoryPersisted => "MemoryPersisted"

inductive Action where
  | fanOutReads | recordDegradations | extractThresholds | evaluateCompliance
  | synthesizeDecision | commitMemories | abortRequest
  deriving Repr, DecidableEq

def Action.name : Action → String
  | .fanOutReads => "FanOutReads"
  | .recordDegradations => "RecordDegradations"
  | .extractThresholds => "ExtractThresholds"
  | .evaluateCompliance => "EvaluateCompliance"
  | .synthesizeDecision => "SynthesizeDecision"
  | .commitMemories => "CommitMemories"
  | .abortRequest => "AbortRequest"

/-- What is known when the branches have been joined. -/
structure Context where
  retrieved : Nat := 0
  wellFormed : Nat := 0
  degradations : Nat := 0
  deriving Repr, DecidableEq

/-- Rules were found and none of them can be used. -/
def Context.rulesInvalid (c : Context) : Bool := 0 < c.retrieved && c.wellFormed = 0

end SiteSafety.Workflow
