import SiteSafety.Collaborator
import SiteSafety.Journal

/-!
# Check — Branch

The branches of a check: what a collaborator comes back with and after how long, and how long it
is waited for.  **A branch that comes late counts as not there**, and the check goes on without it.
-/

namespace SiteSafety.Check

/-- What a collaborator comes back with, and after how many milliseconds. -/
structure Answer (α : Type) where
  result : Except CollaboratorError α
  delayMs : Nat := 0

variable {α : Type}

/-- Whether an answer comes before a limit; one that is there at once always does. -/
def Answer.inTime (limitMs : Nat) (a : Answer α) : Bool := a.delayMs = 0 || a.delayMs < limitMs

/-- An answer that is waited for up to a limit. -/
def Answer.within (who : Collaborator) (limitMs : Nat) (a : Answer α) :
    Except CollaboratorError α :=
  if a.inTime limitMs then a.result else .error (.timeout who limitMs)

/-- How long an answer is waited for under a limit. -/
def Answer.waitedMs (limitMs : Nat) (a : Answer α) : Nat := min a.delayMs limitMs

/-- The name under which the failure of a branch is noted. -/
def branchEvent (e : CollaboratorError) : String :=
  if e.isTimeout then "workflow.branch.timed_out" else "workflow.branch.failed"

/-- What a branch delivered; a branch that failed delivers nothing, and a note and a degradation
say so. -/
def received (requestId : String) : Except CollaboratorError (List α) →
    Noted (List α × List Degradation)
  | .ok items => pure (items, [])
  | .error e => do
    note {
      level := .warn, speaker := .check, event := branchEvent e
      message := "collaborator degraded"
      fields := [("request_id", requestId), ("collaborator", e.who.name), ("error", e.message)] }
    return ([], [e.degradation])

end SiteSafety.Check
