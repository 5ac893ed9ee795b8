import SiteSafety.Decimal.Text
import SiteSafety.Memory.Entry

/-!
# Memory — Screening

What is not worth remembering and what must not be remembered.  Screening sees the candidate
alone; whether the fact is already known is a question for the store.
-/

namespace SiteSafety.Memory

/-! ### Small talk -/

def smallTalk : List String := [
  "hi", "hello", "hey", "thanks", "thank", "you", "ok", "okay", "bye", "goodbye", "yes", "no",
  "sure", "cool", "great", "good", "morning", "afternoon", "evening", "please", "cheers", "yep",
  "nope", "fine", "thx"]

/-- Fewer than three words, or none but words of small talk. -/
def isSmallTalk (interaction : String) : Bool :=
  let words := (contentWords interaction.toList).map fun w => String.ofList (Text.lower w)
  words.length < 3 || words.all smallTalk.contains

/-! ### Secrets -/

def sensitivePhrases : List String := [
  "password", "passwd", "passcode", "api key", "api_key", "apikey", "secret", "token",
  "private key", "ssn", "social security", "credit card", "card number"]

def secretPrefixes : List String :=
  ["sk-", "xoxb-", "xoxp-", "xapp-", "nvapi-", "ghp_", "akia"]

/-- Three groups of three, two and four digits between dashes. -/
def isIdentityNumber (word : List Char) : Bool :=
  let groups := word.splitOnP (· == '-')
  groups.map List.length == [3, 2, 4] && groups.all (·.all Char.isDigit)

/-- A word without what is neither letter, numeral, dash nor underscore at its ends. -/
def bareWord (word : List Char) : List Char :=
  let outer (c : Char) : Bool := !Text.isAlphanumeric c && c != '-' && c != '_'
  Text.dropEndWhile outer (word.dropWhile outer)

/-- A word of at least twelve bytes that starts like an access key, or an identity number. -/
def isSecretWord (word : List Char) : Bool :=
  (12 ≤ Text.width word && secretPrefixes.any fun p => p.toList.isPrefixOf word) ||
    isIdentityNumber word

/-- Whether a content speaks of secrets or looks like one. -/
def looksSensitive (content : String) : Bool :=
  let cs := Text.lower content.toList
  sensitivePhrases.any (fun p => Text.contains p.toList cs) ||
    (Text.words cs).any fun w => isSecretWord (bareWord w)

/-! ### Rejection -/

/-- The least confidence that any policy may ask for. -/
def minConfidenceFloor : Float := 0.70

/-- Why a candidate is not remembered. -/
inductive Rejection where
  | lowConfidence (confidence floor : Float)
  | invalidConfidence
  | duplicate
  | sensitiveContent
  | emptyContent
  deriving Repr

def Rejection.message : Rejection → String
  | .lowConfidence confidence floor =>
    s!"confidence {Decimal.fixed 2 confidence} is below the {Decimal.fixed 2 floor} floor"
  | .invalidConfidence => "confidence is not a finite number"
  | .duplicate => "an equivalent memory already exists"
  | .sensitiveContent => "content looks like a secret or personal identifier"
  | .emptyContent => "content is empty"

/-- How sure a judgement has to be. -/
structure Policy where
  minConfidence : Float := minConfidenceFloor
  deriving Repr

/-- A number moved into the range from `low` to `high`. -/
def clamp (low high x : Float) : Float := if x < low then low else if high < x then high else x

/-- A policy with a floor that is raised to the least one and is at most 1. -/
def Policy.new (minConfidence : Float) : Policy :=
  ⟨if Decimal.isFinite minConfidence then clamp minConfidenceFloor 1.0 minConfidence
   else minConfidenceFloor⟩

/-- The first reason against a candidate that needs no store. -/
def Policy.screen (p : Policy) (c : Candidate) : Option Rejection :=
  if (normalizeKey c.content).isEmpty then some .emptyContent
  else if !Decimal.isFinite c.confidence then some .invalidConfidence
  else if c.confidence < p.minConfidence then some (.lowConfidence c.confidence p.minConfidence)
  else if looksSensitive c.content then some .sensitiveContent
  else none

end SiteSafety.Memory
