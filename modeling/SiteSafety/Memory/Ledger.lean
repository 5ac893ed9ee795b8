import SiteSafety.Memory.Store

/-!
# Memory — Ledger

The store that keeps its facts in two lists, one for each scope.
-/

namespace SiteSafety.Memory

structure Ledger where
  user : List Entry := []
  organization : List Entry := []
  deriving Repr

/-- The facts of a scope. -/
def Ledger.entries (l : Ledger) : Scope → List Entry
  | .user => l.user
  | .organization => l.organization

/-- Adds a fact at the end of its scope. -/
def Ledger.push (l : Ledger) (e : Entry) : Ledger :=
  match e.scope with
  | .user => { l with user := l.user ++ [e] }
  | .organization => { l with organization := l.organization ++ [e] }

@[simp] theorem entries_push (l : Ledger) (e : Entry) (s : Scope) :
    (l.push e).entries s = if s = e.scope then l.entries s ++ [e] else l.entries s := by
  cases h : e.scope <;> cases s <;> simp [Ledger.push, Ledger.entries, h]

/-- A ledger of given facts, which are not checked for keys that repeat. -/
def Ledger.ofEntries (es : List Entry) : Ledger := es.foldl Ledger.push {}

/-- Whether a scope has a fact with a key. -/
def Ledger.has (l : Ledger) (scope : Scope) (key : String) : Bool :=
  (l.entries scope).any (·.key == key)

/-- Adds a fact unless its scope has one with its key. -/
def Ledger.append (l : Ledger) (e : Entry) : Appended × Ledger :=
  if l.has e.scope e.key then (.duplicate, l) else (.appended, l.push e)

instance : Store Ledger where
  read scope l := pure (.ok (l.entries scope))
  append e l :=
    let (outcome, l) := l.append e
    pure (.ok outcome, l)

end SiteSafety.Memory
