import SiteSafety.Calendar.Stamp
import SiteSafety.Document.Json.Member
import SiteSafety.Exchange.Encode

/-!
# Exchange — Decode

Records from data.  A record needs the members without which it says nothing; the others have
values of their own where they are missing.  **Names of choices are read exactly as they are
written.**
-/

namespace SiteSafety
open Document Json

/-! ### Numbers and times -/

/-- A number, which may be written as a text. -/
def Decimal.ofData? : Json → Option Float
  | .string (some s) => Decimal.read? s.toList
  | j => j.float?

/-- The time that is meant where none is given. -/
def Calendar.Instant.unstated : Calendar.Instant := Calendar.Instant.ofDate ⟨2020, 1, 2⟩ 3 4 5

def Calendar.Instant.ofData? (j : Json) : Option Calendar.Instant :=
  j.text?.bind fun s => Calendar.Instant.read? s.toList

/-! ### Choices -/

def Measurement.Metric.ofData? (j : Json) : Option Measurement.Metric :=
  match j.get? "custom" with
  | some name => name.text?.map .custom
  | none => named [("wind_speed", .windSpeed), ("precipitation", .precipitation),
      ("temperature", .temperature), ("visibility", .visibility)] j

def Measurement.Comparator.ofData? : Json → Option Measurement.Comparator :=
  named ([Measurement.Comparator.lt, .le, .gt, .ge, .eq].map fun c => (c.key, c))

def Memory.Category.ofData? : Json → Option Memory.Category :=
  named ([Memory.Category.location, .preference, .siteIssue, .decisionLog, .other].map fun c =>
    (c.name, c))

def Memory.Scope.ofData? : Json → Option Memory.Scope :=
  named (Memory.Scope.all.map fun s => (s.name, s))

def Collaborator.ofData? : Json → Option Collaborator :=
  named ([Collaborator.retrieval, .memoryRecall, .weather, .judge].map fun c => (c.key, c))

def DegradationKind.ofData? : Json → Option DegradationKind :=
  named ([DegradationKind.timedOut, .failed, .disabled].map fun k => (k.key, k))

/-! ### Records -/

/-- The citation of the source at a position. -/
def Rule.Citation.ofData? (position : Nat) (j : Json) : Option Rule.Citation := do
  let i ← j.field "source_index" nat? position
  return {
    sourceIndex := i
    documentId := ← j.field "document_id" text? s!"doc-{Decimal.digits i}.md"
    excerpt := ← j.field "excerpt" text? ""
    relevance := ← j.field "relevance" Decimal.ofData? 0.5 }

def Rule.Snippet.ofData? (position : Nat) (j : Json) : Option Rule.Snippet := do
  return ⟨← j.need "text" text?, ← Rule.Citation.ofData? position j⟩

def Rule.Threshold.ofData? (position : Nat) (j : Json) : Option Rule.Threshold := do
  return {
    metric := ← j.need "metric" Measurement.Metric.ofData?
    operator := ← j.need "operator" Measurement.Comparator.ofData?
    value := ← j.need "value" Decimal.ofData?
    unit := ← j.field "unit" text? ""
    unitVerified := ← j.field "unit_verified" bool? true
    citation := ← Rule.Citation.ofData? position j
    clause := ← j.field "clause" text? ""
    condition := ← j.maybe "condition" text? }

def Measurement.Reading.ofData? (j : Json) : Option Measurement.Reading := do
  return {
    metric := ← j.need "metric" Measurement.Metric.ofData?
    value := ← j.need "value" Decimal.ofData?
    unit := ← j.field "unit" text? ""
    time := ← j.field "timestamp" Calendar.Instant.ofData? Calendar.Instant.unstated }

def Memory.Candidate.ofData? (j : Json) : Option Memory.Candidate := do
  return {
    content := ← j.need "content" text?
    category := ← j.need "category" Memory.Category.ofData?
    confidence := ← j.field "confidence" Decimal.ofData? 0.9
    reasoning := ← j.field "reasoning" text? ""
    scope := ← j.need "scope" Memory.Scope.ofData? }

def Memory.Entry.ofData? (j : Json) : Option Memory.Entry := do
  return Memory.Entry.new (← j.need "content" text?)
    (← j.need "category" Memory.Category.ofData?) (← j.need "scope" Memory.Scope.ofData?)
    (← j.field "created_at" Calendar.Instant.ofData? Calendar.Instant.unstated)

def Degradation.ofData? (j : Json) : Option Degradation := do
  return ⟨← j.need "source" Collaborator.ofData?, ← j.need "kind" DegradationKind.ofData?,
    ← j.field "detail" text? ""⟩

end SiteSafety
