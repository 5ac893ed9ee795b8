import SiteSafety.Document.Json.Printer

/-!
# Cli — Outcome

What a command comes to: a status and a text.  Failures and plain results are told as one line of
data.
-/

namespace SiteSafety.Cli
open Document

structure Outcome where
  exitCode : Nat
  output : String
  deriving Repr, DecidableEq

/-- The line of data on a command. -/
def told (command status : String) (errorClass : Option String) (message : String) : String :=
  (Output.object [
    ("command", .string command), ("status", .string status),
    ("error_class", Output.string? errorClass), ("message", .string message)]).compact

def Outcome.success (command message : String) : Outcome := ⟨0, told command "ok" none message⟩

def Outcome.failure (command errorClass message : String) (exitCode : Nat) : Outcome :=
  ⟨exitCode, told command "error" (some errorClass) message⟩

end SiteSafety.Cli
