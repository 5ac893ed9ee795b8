import SiteSafety.Collaborator
import SiteSafety.Decision.Synthesis
import SiteSafety.Document.Json.Printer

/-!
# Exchange — Encode

Records as data.  **Members keep the order in which the record lists them**, and a value that is
missing is null.
-/

namespace SiteSafety
open Document

/-! ### Names -/

def Measurement.Metric.data : Measurement.Metric → Output
  | .windSpeed => .string "wind_speed"
  | .precipitation => .string "precipitation"
  | .temperature => .string "temperature"
  | .visibility => .string "visibility"
  | .custom name => .object [("custom", .string name)]

def Measurement.Comparator.key : Measurement.Comparator → String
  | .lt => "lt"
  | .le => "le"
  | .gt => "gt"
  | .ge => "ge"
  | .eq => "eq"

def Collaborator.key : Collaborator → String
  | .retrieval => "retrieval"
  | .memoryRecall => "memory_recall"
  | .weather => "weather"
  | .judge => "judge"

def DegradationKind.key : DegradationKind → String
  | .timedOut => "timed_out"
  | .failed => "failed"
  | .disabled => "disabled"

/-! ### Records -/

def Rule.Citation.data (c : Rule.Citation) : Output := .object [
  ("source_index", .nat c.sourceIndex), ("document_id", .string c.documentId),
  ("excerpt", .string c.excerpt), ("relevance", .float c.relevance)]

def Rule.Threshold.data (t : Rule.Threshold) : Output := .object [
  ("metric", t.metric.data), ("operator", .string t.operator.key), ("value", .float t.value),
  ("unit", .string t.unit), ("unit_verified", .bool t.unitVerified),
  ("source_citation", t.citation.data), ("clause", .string t.clause),
  ("condition", Output.string? t.condition)]

def Measurement.Reading.data (r : Measurement.Reading) : Output := .object [
  ("metric", r.metric.data), ("value", .float r.value), ("unit", .string r.unit),
  ("timestamp", .string r.time.text)]

def Compliance.Result.data (r : Compliance.Result) : Output := .object [
  ("threshold", r.threshold.data), ("reading", r.reading.data), ("satisfied", .bool r.satisfied),
  ("margin", .float r.margin)]

def Compliance.Unresolved.data (u : Compliance.Unresolved) : Output := .object [
  ("threshold", u.threshold.data), ("reason", .string u.reason)]

def Memory.Entry.data (e : Memory.Entry) : Output := .object [
  ("content", .string e.content), ("category", .string e.category.name),
  ("scope", .string e.scope.name), ("created_at", .string e.createdAt.text),
  ("normalized_key", .string e.key)]

def Memory.Candidate.data (c : Memory.Candidate) : Output := .object [
  ("content", .string c.content), ("category", .string c.category.name),
  ("confidence", .float c.confidence), ("reasoning", .string c.reasoning),
  ("scope", .string c.scope.name)]

def Degradation.data (d : Degradation) : Output := .object [
  ("source", .string d.source.key), ("kind", .string d.kind.key), ("detail", .string d.detail)]

def Decision.data (d : Decision) : Output := .object [
  ("site", .string d.site), ("operation", .string d.operation),
  ("can_proceed", .bool d.canProceed), ("reasoning", .string d.reasoning),
  ("recommendations", .array (d.recommendations.map .string)),
  ("citations", .array (d.citations.map (·.data))),
  ("compliance_results", .array (d.results.map (·.data))),
  ("unresolved", .array (d.unresolved.map (·.data))),
  ("surfaced_memories", .array (d.surfaced.map (·.data))),
  ("new_memories", .array (d.newMemories.map (·.data))),
  ("degradations", .array (d.degradations.map (·.data))),
  ("decided_at", .string d.decidedAt.text)]

end SiteSafety
