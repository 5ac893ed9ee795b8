import SiteSafety.Journal
import SiteSafety.Memory.Screening

/-!
# Memory — Store

Where facts are kept, and how a candidate becomes a fact.  A store reads the facts of a scope and
appends a fact unless one with its key is there.  **A commit screens first**, so a store never sees
a candidate that the policy rejects.
-/

namespace SiteSafety.Memory

/-- A failure of the files behind a store. -/
structure StoreError where
  path : String
  cause : String
  deriving Repr, DecidableEq

def StoreError.message (e : StoreError) : String :=
  s!"memory store I/O failure on `{e.path}`: {e.cause}"

inductive Appended where
  | appended
  | duplicate
  deriving Repr, DecidableEq

/-- A kind of store, with its states. -/
class Store (σ : Type) where
  /-- The facts of a scope, oldest first. -/
  read : Scope → σ → Noted (Except StoreError (List Entry))
  /-- Appends a fact whose key is new. -/
  append : Entry → σ → Noted (Except StoreError Appended × σ)

variable {σ : Type} [Store σ]

/-- The facts of the scopes given, one scope after the other. -/
def readScopes (s : σ) : List Scope → Noted (Except StoreError (List Entry))
  | [] => pure (.ok [])
  | scope :: rest => do
    match ← Store.read scope s with
    | .error e => return .error e
    | .ok entries =>
      match ← readScopes s rest with
      | .error e => return .error e
      | .ok more => return .ok (entries ++ more)

/-- All facts, those of the user first. -/
def readAll (s : σ) : Noted (Except StoreError (List Entry)) := readScopes s Scope.all

/-! ### Commits -/

/-- What came of a candidate. -/
inductive Commit where
  | committed (e : Entry)
  | rejected (r : Rejection)
  deriving Repr

/-- Screens a candidate and appends it, as a fact of the time given. -/
def Policy.commit (p : Policy) (now : Calendar.Instant) (c : Candidate) (s : σ) :
    Noted (Except StoreError Commit × σ) := do
  match p.screen c with
  | some reason =>
    note {
      level := .debug, speaker := .memory, event := "memory.commit.rejected"
      message := "memory candidate rejected"
      fields := [("scope", c.scope.name), ("category", c.category.name),
        ("reason", reason.message)] }
    return (.ok (.rejected reason), s)
  | none =>
    let entry := Entry.ofCandidate c now
    match ← Store.append entry s with
    | (.error e, s) => return (.error e, s)
    | (.ok .appended, s) =>
      note {
        level := .info, speaker := .memory, event := "memory.commit.accepted"
        message := "memory committed"
        fields := [("scope", entry.scope.name), ("category", entry.category.name)] }
      return (.ok (.committed entry), s)
    | (.ok .duplicate, s) =>
      note {
        level := .debug, speaker := .memory, event := "memory.commit.duplicate"
        message := "memory already present"
        fields := [("scope", entry.scope.name), ("key", entry.key)] }
      return (.ok (.rejected .duplicate), s)

end SiteSafety.Memory
