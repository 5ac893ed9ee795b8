import SiteSafety.Collaborator
import SiteSafety.Memory.Store

/-!
# Memory — Learning

What is learnt from a message.  Small talk is not judged at all, and what a judge says is put in
order before it is used: **a candidate has a confidence from 0 to 1 and content that is trimmed and
not empty**.
-/

namespace SiteSafety.Memory

/-- What a judge says about a message, given the facts that are known. -/
abbrev Judge := String → List Entry → Except CollaboratorError (Option Candidate)

/-- Whether a message is put to a judge. -/
def isJudged (interaction : String) : Bool := !isSmallTalk (Text.trimmed interaction)

/-- A judge's candidate with its confidence in range and its content trimmed, unless one of them is
of no use. -/
def settle (c : Candidate) : Noted (Option Candidate) := do
  if !Decimal.isFinite c.confidence then
    note {
      level := .debug, speaker := .memory, event := "memory.judge.discarded"
      message := "discarding judged candidate", fields := [("reason", "non-finite confidence")] }
    return none
  let content := Text.trimmed c.content
  if content.isEmpty then return none
  return some { c with content := content, confidence := clamp 0.0 1.0 c.confidence }

/-- What is made of a judge's word. -/
def heed : Except CollaboratorError (Option Candidate) →
    Noted (Except CollaboratorError (Option Candidate))
  | .error e => pure (.error e)
  | .ok none => pure (.ok none)
  | .ok (some c) => do return .ok (← settle c)

/-- What a message comes to that is not put to a judge. -/
def passOver : Noted (Except CollaboratorError (Option Candidate)) := do
  note {
    level := .debug, speaker := .memory, event := "memory.judge.skipped"
    message := "interaction is small talk" }
  return .ok none

/-- The candidate in a message, where `ask` puts the message to a judge and waits for its word. -/
def learnFrom {m : Type → Type} [Monad m]
    (ask : String → List Entry → m (Except CollaboratorError (Option Candidate)))
    (interaction : String) (existing : List Entry) :
    m (Noted (Except CollaboratorError (Option Candidate))) := do
  if isJudged interaction then
    return heed (← ask (Text.trimmed interaction) existing)
  else return passOver

/-- The candidate in a message, given what a judge says. -/
def learn (judge : Judge) (interaction : String) (existing : List Entry) :
    Noted (Except CollaboratorError (Option Candidate)) :=
  Id.run (learnFrom (fun message known => pure (judge message known)) interaction existing)

end SiteSafety.Memory
