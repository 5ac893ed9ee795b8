import SiteSafety.Judge.Reply

/-!
# Judge — Model

The language model behind the judge that asks one: where its requests go, and what a judgement is
when the model answers or does not.
-/

namespace SiteSafety.Judge
open Memory

/-- The path under which chat completions are asked for. -/
def completionsPath : String := "/chat/completions"

/-- Where chat completions are asked for, by the address of the service. -/
def chatEndpoint (baseUrl : String) : String :=
  let cs := Text.dropEndWhile (· == '/') (Text.trim baseUrl.toList)
  let url := String.ofList cs
  if completionsPath.toList.isSuffixOf cs then url else url ++ completionsPath

/-- The model's answer to a prompt, or why there is none, outermost cause first. -/
abbrev Completion := Except (List String) String

/-- A request that could not be sent. -/
def unsent : Completion := .error ["LLM request failed", "builder error"]

/-- The judgement in an answer. -/
def judgeAnswer : Completion → Except CollaboratorError (Option Candidate)
  | .ok reply => readReply reply
  | .error causes => .error (.failure .judge (String.intercalate ": " causes))

/-- Puts a message to a model, where `complete` sends a prompt and waits for the answer. -/
def askModel {m : Type → Type} [Monad m] (complete : String → m Completion)
    (interaction : String) (known : List Entry) :
    m (Except CollaboratorError (Option Candidate)) := do
  return judgeAnswer (← complete (prompt interaction known))

end SiteSafety.Judge
