import SiteSafety.Calendar.Instant
import SiteSafety.Text.Case
import SiteSafety.Text.Words

/-!
# Memory — Entry

Remembered facts.  A fact belongs to a user or to the organization and has a category.  **Two
facts are the same when their keys are**: the key keeps the words of the content in lower case and
nothing between them.
-/

namespace SiteSafety.Memory

inductive Category where
  | location | preference | siteIssue | decisionLog | other
  deriving Repr, DecidableEq

def Category.name : Category → String
  | .location => "location"
  | .preference => "preference"
  | .siteIssue => "site_issue"
  | .decisionLog => "decision_log"
  | .other => "other"

/-- The category of a label; a label that is not known is of the category `other`. -/
def Category.ofLabel (label : String) : Category :=
  let cs := (Text.asciiLower (Text.trim label.toList)).map fun c =>
    if c = '-' ∨ c = ' ' then '_' else c
  match String.ofList cs with
  | "location" => .location
  | "preference" | "workflow" => .preference
  | "site_issue" | "issue" | "safety" => .siteIssue
  | "decision_log" | "decision" => .decisionLog
  | _ => .other

/-- Whose memory a fact is kept in. -/
inductive Scope where
  | user | organization
  deriving Repr, DecidableEq

def Scope.all : List Scope := [.user, .organization]

def Scope.name : Scope → String
  | .user => "user"
  | .organization => "organization"

def Scope.ofLabel? (label : String) : Option Scope :=
  match String.ofList (Text.asciiLower (Text.trim label.toList)) with
  | "user" => some .user
  | "organization" | "organisation" | "org" | "company" => some .organization
  | _ => none

/-- The words of a content: its runs of letters and numerals. -/
def contentWords (cs : List Char) : List (List Char) :=
  Text.fields (fun c => !Text.isAlphanumeric c) cs

/-- The key of a content: its words in lower case with single spaces between them. -/
def normalizeKey (content : String) : String :=
  String.ofList (Text.join [' '] ((contentWords content.toList).map Text.lower))

/-- A fact that was judged worth remembering. -/
structure Candidate where
  content : String
  category : Category
  confidence : Float
  reasoning : String
  scope : Scope
  deriving Repr

structure Entry where
  content : String
  category : Category
  scope : Scope
  createdAt : Calendar.Instant
  key : String
  deriving Repr, DecidableEq

/-- An entry with trimmed content and the key of that content. -/
def Entry.new (content : String) (category : Category) (scope : Scope)
    (createdAt : Calendar.Instant) : Entry :=
  let content := Text.trimmed content
  ⟨content, category, scope, createdAt, normalizeKey content⟩

def Entry.ofCandidate (c : Candidate) (createdAt : Calendar.Instant) : Entry :=
  Entry.new c.content c.category c.scope createdAt

end SiteSafety.Memory
