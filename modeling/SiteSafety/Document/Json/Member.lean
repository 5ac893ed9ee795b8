import SiteSafety.Document.Json

/-!
# Document — Json — Member

Reading records from objects: members that have to be there, that may be missing, or that have a
value of their own where they are missing.  **A member that is there and cannot be read is never
passed over.**
-/

namespace SiteSafety.Document.Json

variable {α : Type}

/-- A member that has to be there. -/
def need (j : Json) (name : String) (read : Json → Option α) : Option α := (j.get? name).bind read

/-- A member, or a value where it is missing. -/
def field (j : Json) (name : String) (read : Json → Option α) (missing : α) : Option α :=
  match j.get? name with
  | some v => read v
  | none => some missing

/-- A member that may be missing or null. -/
def maybe (j : Json) (name : String) (read : Json → Option α) : Option (Option α) :=
  match j.get? name with
  | some .null => some none
  | some v => (read v).map some
  | none => some none

/-- The items of an array, each read by itself. -/
def items (read : Json → Option α) (j : Json) : Option (List α) :=
  j.array?.bind fun xs => xs.mapM read

/-- The items of an array, each read with its position counted from 1. -/
def numbered (read : Nat → Json → Option α) (j : Json) : Option (List α) :=
  j.array?.bind fun xs => xs.zipIdx.mapM fun (x, i) => read (i + 1) x

/-- One of some values, by its name. -/
def named (choices : List (String × α)) (j : Json) : Option α :=
  j.text?.bind fun s => choices.lookup s

end SiteSafety.Document.Json
