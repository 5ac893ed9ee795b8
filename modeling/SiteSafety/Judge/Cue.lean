import SiteSafety.Memory.Learning

/-!
# Judge — Cue

The judge that needs no model: the first sentence of a message that carries a cue is the fact.
Cues for site issues have to stand as whole words.
-/

namespace SiteSafety.Judge
open Memory

def issueCues : List String := [
  "leak", "leaking", "broken", "damaged", "crack", "cracked", "flooded", "flooding", "unstable",
  "hazard", "collapsed", "out of service", "blocked", "exposed wiring", "unsecured",
  "missing guardrail", "faulty", "malfunction"]

def locationCues : List String := [
  "i manage", "i oversee", "i supervise", "i run", "i'm responsible for", "i am responsible for",
  "i work at", "i'm based at", "i am based at", "my site is"]

def preferenceCues : List String := [
  "i prefer", "please always", "always send", "remind me", "notify me", "i like to", "i'd like"]

/-- Whether a phrase occurs in a text behind the character `before` with neither letter nor numeral
at its sides, among the occurrences met from left to right that do not overlap. -/
def occursAlone (phrase : List Char) (before : Option Char) : List Char → Bool
  | [] => false
  | c :: rest =>
    if phrase.isPrefixOf (c :: rest) then
      let more := rest.drop (phrase.length - 1)
      let last := (rest.take (phrase.length - 1)).getLast?.getD c
      (!before.any Text.isAlphanumeric && !more.head?.any Text.isAlphanumeric) ||
        occursAlone phrase (some last) more
    else occursAlone phrase (some c) rest
termination_by cs => cs.length
decreasing_by all_goals simp only [List.length_drop, List.length_cons]; omega

/-- Whether a phrase occurs in a text as whole words. -/
def containsPhrase (phrase text : List Char) : Bool := occursAlone phrase none text

def endsSentence (c : Char) : Bool := c == '.' || c == '!' || c == '?' || c == '\n'

/-- The sentences of a message, trimmed. -/
def sentences (cs : List Char) : List (List Char) :=
  ((cs.splitOnP endsSentence).map Text.trim).filter (!·.isEmpty)

/-- The fact in a sentence, if it carries a cue. -/
def classifySentence (sentence : List Char) : Option Candidate :=
  let lowered := Text.lower sentence
  let content := String.ofList sentence
  if issueCues.any fun p => containsPhrase p.toList lowered then
    some ⟨content, .siteIssue, 0.85, "reported site condition", .organization⟩
  else if locationCues.any fun p => Text.contains p.toList lowered then
    some ⟨content, .location, 0.8, "site the user is responsible for", .user⟩
  else if preferenceCues.any fun p => Text.contains p.toList lowered then
    some ⟨content, .preference, 0.75, "stated working preference", .user⟩
  else none

/-- The fact in a message. -/
def classify (interaction : String) : Option Candidate :=
  (sentences interaction.toList).findSome? classifySentence

/-- The fact in a message, unless one with its key is known. -/
def byCues (interaction : String) (existing : List Entry) : Option Candidate :=
  match classify interaction with
  | some c => if existing.any (·.key == normalizeKey c.content) then none else some c
  | none => none

/-- The judge that needs no model.  It never fails. -/
def cues : Memory.Judge := fun interaction existing => .ok (byCues interaction existing)

end SiteSafety.Judge
