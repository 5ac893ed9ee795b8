import SiteSafety.Collaborator
import SiteSafety.Document.Json.Reader
import SiteSafety.Memory.Store

/-!
# Judge — Reply

The judge that asks a language model: the prompt it sends and how it reads the reply.  A reply is
untrusted text; **what is read from it is the object between its outermost braces**, strictly, and
anything else is an invalid response.
-/

namespace SiteSafety.Judge
open Memory Document

/-! ### Prompt -/

/-- The most known facts that are told to the model. -/
def maxKnown : Nat := 20

def instructions : String :=
  "You maintain durable memory for a construction site safety assistant.\n"
    ++ "Decide whether the interaction below contains one high-signal, reusable fact.\n"
    ++ "User memory holds the user's sites, role and working preferences.\n"
    ++ "Organization memory holds site issues, recurring operational problems and decision logs.\n"
    ++ "Never store credentials, API keys or personal identifiers. Do not repeat known facts.\n"
    ++ "Do not transcribe the conversation; write one short statement.\n\n"
    ++ "Respond with JSON only:\n"
    ++ "\x7b\"should_write\": true|false, \"content\": \"...\", "
    ++ "\"category\": \"location|preference|site_issue|decision_log|other\", "
    ++ "\"scope\": \"user|organization\", \"confidence\": 0.0-1.0, \"reasoning\": \"...\"\x7d\n\n"

/-- What the model is asked about a message. -/
def prompt (interaction : String) (existing : List Entry) : String :=
  let known :=
    if existing.isEmpty then ""
    else
      "Known facts:\n"
        ++ String.join ((existing.take maxKnown).map fun e =>
          s!"- [{e.category.name}] {e.content}\n")
        ++ "\n"
  instructions ++ known ++ "Interaction:\n" ++ Text.trimmed interaction

/-! ### Reply -/

/-- What the model judged. -/
structure Judgement where
  shouldWrite : Bool := false
  content : String := ""
  category : String := ""
  scope : Option String := none
  confidence : Float := 0.0
  reasoning : String := ""
  deriving Repr

/-- One member of the reply.  Names that are not known are passed over. -/
def Judgement.read (name : String) (j : Json) (r : Judgement) : Option Judgement :=
  match name with
  | "should_write" => j.bool?.map fun b => { r with shouldWrite := b }
  | "content" => j.text?.map fun s => { r with content := s }
  | "category" => j.text?.map fun s => { r with category := s }
  | "scope" =>
    if j.isNull then some { r with scope := none }
    else j.text?.map fun s => { r with scope := some s }
  | "confidence" => j.float?.map fun x => { r with confidence := x }
  | "reasoning" => j.text?.map fun s => { r with reasoning := s }
  | _ => some r

/-- The names that may not be repeated. -/
def judgementNames : List String :=
  ["should_write", "content", "category", "scope", "confidence", "reasoning"]

/-- All members of the reply, where `seen` holds the names of those before. -/
def Judgement.readAll (r : Judgement) (seen : List String) :
    List (String × Json) → Option Judgement
  | [] => some r
  | (name, j) :: rest =>
    if judgementNames.contains name && seen.contains name then none
    else match r.read name j with
      | none => none
      | some r => r.readAll (name :: seen) rest

/-- The text from the first opening brace to the last closing one. -/
def braced? (cs : List Char) : Option (List Char) :=
  let fromOpen := cs.dropWhile (· != '\x7b')
  let body := Text.dropEndWhile (· != '\x7d') fromOpen
  if body.isEmpty then none else some body

/-- The scope of a judgement: the one it names, else that of its category. -/
def Judgement.scopeFor (r : Judgement) (category : Category) : Scope :=
  (r.scope.bind Scope.ofLabel?).getD <|
    match category with
    | .siteIssue | .decisionLog => .organization
    | _ => .user

/-- The candidate of a judgement, if it says that there is one. -/
def Judgement.candidate? (r : Judgement) : Option Candidate :=
  if r.shouldWrite then
    let category := Category.ofLabel r.category
    some ⟨r.content, category, r.confidence, r.reasoning, r.scopeFor category⟩
  else none

/-- The candidate in a reply. -/
def readReply (raw : String) : Except CollaboratorError (Option Candidate) :=
  match braced? raw.toList with
  | none => .error (.invalidResponse .judge "reply does not contain a JSON object")
  | some body =>
    match (Json.read? body).bind Json.object? with
    | none => .error (.invalidResponse .judge "reply is not a judgement")
    | some members =>
      match ({} : Judgement).readAll [] members with
      | none => .error (.invalidResponse .judge "reply is not a judgement")
      | some r => .ok r.candidate?

end SiteSafety.Judge
