import SiteSafety.Decimal.Text

/-!
# Collaborator

The parties that a check asks for input, how they fail, and what a check notes when it has to do
without one of them.
-/

namespace SiteSafety

inductive Collaborator where
  | retrieval | memoryRecall | weather | judge
  deriving Repr, DecidableEq

def Collaborator.name : Collaborator → String
  | .retrieval => "retrieval"
  | .memoryRecall => "memory recall"
  | .weather => "weather"
  | .judge => "memory judge"

/-- How a collaborator failed. -/
inductive CollaboratorError where
  | timeout (who : Collaborator) (afterMs : Nat)
  | failure (who : Collaborator) (text : String)
  | invalidResponse (who : Collaborator) (text : String)
  deriving Repr, DecidableEq

def CollaboratorError.message : CollaboratorError → String
  | .timeout who afterMs => s!"{who.name} timed out after {Decimal.digits afterMs}ms"
  | .failure who text => s!"{who.name} failed: {text}"
  | .invalidResponse who text => s!"{who.name} returned an invalid response: {text}"

def CollaboratorError.who : CollaboratorError → Collaborator
  | .timeout who _ => who
  | .failure who _ => who
  | .invalidResponse who _ => who

def CollaboratorError.isTimeout : CollaboratorError → Bool
  | .timeout _ _ => true
  | _ => false

inductive DegradationKind where
  | timedOut | failed | disabled
  deriving Repr, DecidableEq

/-- An input that a decision was made without. -/
structure Degradation where
  source : Collaborator
  kind : DegradationKind
  detail : String
  deriving Repr, DecidableEq

def Degradation.text (d : Degradation) : String :=
  match d.kind with
  | .timedOut => s!"{d.source.name} timed out ({d.detail})"
  | .failed => s!"{d.source.name} failed ({d.detail})"
  | .disabled => s!"{d.source.name} disabled ({d.detail})"

/-- The degradation that a failure leads to. -/
def CollaboratorError.degradation : CollaboratorError → Degradation
  | .timeout who afterMs => ⟨who, .timedOut, s!"after {Decimal.digits afterMs}ms"⟩
  | .failure who text => ⟨who, .failed, text⟩
  | .invalidResponse who text => ⟨who, .failed, text⟩

end SiteSafety
