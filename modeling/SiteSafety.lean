import SiteSafety.Calendar.Instant
import SiteSafety.Calendar.Stamp
import SiteSafety.Check.Branch
import SiteSafety.Check.Gathering
import SiteSafety.Check.Run
import SiteSafety.Clause.Condition
import SiteSafety.Clause.Extraction
import SiteSafety.Clause.Phrase
import SiteSafety.Clause.Scan
import SiteSafety.Clause.Token
import SiteSafety.Cli.Eval
import SiteSafety.Cli.Grammar
import SiteSafety.Cli.Invocation
import SiteSafety.Cli.Outcome
import SiteSafety.Cli.Render
import SiteSafety.Cli.Run
import SiteSafety.Collaborator
import SiteSafety.Compliance.Check
import SiteSafety.Compliance.Report
import SiteSafety.Config.Environment
import SiteSafety.Config.Error
import SiteSafety.Config.File
import SiteSafety.Config.Layer
import SiteSafety.Config.Load
import SiteSafety.Config.Report
import SiteSafety.Config.Settings
import SiteSafety.Decimal.Binary
import SiteSafety.Decimal.Numeral
import SiteSafety.Decimal.Shortest
import SiteSafety.Decimal.Text
import SiteSafety.Decision.Advice
import SiteSafety.Decision.Reasoning
import SiteSafety.Decision.Recall
import SiteSafety.Decision.Sources
import SiteSafety.Decision.Synthesis
import SiteSafety.Document.Json
import SiteSafety.Document.Json.Member
import SiteSafety.Document.Json.Printer
import SiteSafety.Document.Json.Reader
import SiteSafety.Document.Toml
import SiteSafety.Document.Toml.Outline
import SiteSafety.Document.Toml.Quoted
import SiteSafety.Document.Toml.Reader
import SiteSafety.Document.Toml.Word
import SiteSafety.Exchange.Decode
import SiteSafety.Exchange.Encode
import SiteSafety.Files.Path
import SiteSafety.Files.Tree
import SiteSafety.Formula.Error
import SiteSafety.Formula.Eval
import SiteSafety.Formula.Token
import SiteSafety.Formula.Tree
import SiteSafety.Journal
import SiteSafety.Judge.Cue
import SiteSafety.Judge.Model
import SiteSafety.Judge.Reply
import SiteSafety.Main
import SiteSafety.Measurement.Metric
import SiteSafety.Measurement.Unit
import SiteSafety.Memory.Entry
import SiteSafety.Memory.Learning
import SiteSafety.Memory.Ledger
import SiteSafety.Memory.Logbook
import SiteSafety.Memory.Screening
import SiteSafety.Memory.Store
import SiteSafety.Proofs.Calendar.Days
import SiteSafety.Proofs.Calendar.Minute
import SiteSafety.Proofs.Check.Audit
import SiteSafety.Proofs.Check.Conclusion
import SiteSafety.Proofs.Check.Course
import SiteSafety.Proofs.Check.Evidence
import SiteSafety.Proofs.Check.Independence
import SiteSafety.Proofs.Clause.Amounts
import SiteSafety.Proofs.Clause.Blanks
import SiteSafety.Proofs.Clause.Breaks
import SiteSafety.Proofs.Clause.Direction
import SiteSafety.Proofs.Clause.Extent
import SiteSafety.Proofs.Clause.Keywords
import SiteSafety.Proofs.Clause.Locality
import SiteSafety.Proofs.Clause.Masking
import SiteSafety.Proofs.Clause.Offsets
import SiteSafety.Proofs.Clause.Parts
import SiteSafety.Proofs.Clause.Passage
import SiteSafety.Proofs.Clause.Slices
import SiteSafety.Proofs.Clause.Starts
import SiteSafety.Proofs.Clause.Window
import SiteSafety.Proofs.Compliance.Margins
import SiteSafety.Proofs.Compliance.Placement
import SiteSafety.Proofs.Compliance.Units
import SiteSafety.Proofs.Compliance.Variables
import SiteSafety.Proofs.Compliance.Verdict
import SiteSafety.Proofs.Config.Attribution
import SiteSafety.Proofs.Config.Fields
import SiteSafety.Proofs.Config.Interpolation
import SiteSafety.Proofs.Config.Layers
import SiteSafety.Proofs.Config.Redaction
import SiteSafety.Proofs.Decimal.Difference
import SiteSafety.Proofs.Decimal.Finite
import SiteSafety.Proofs.Decimal.Order
import SiteSafety.Proofs.Decimal.Quotient
import SiteSafety.Proofs.Decimal.Rounding
import SiteSafety.Proofs.Decision.Blockers
import SiteSafety.Proofs.Decision.Citations
import SiteSafety.Proofs.Decision.Malformed
import SiteSafety.Proofs.Decision.Memories
import SiteSafety.Proofs.Decision.Mentions
import SiteSafety.Proofs.Decision.Monotone
import SiteSafety.Proofs.Files.Agreement
import SiteSafety.Proofs.Files.Frame
import SiteSafety.Proofs.Files.Room
import SiteSafety.Proofs.Files.Spelling
import SiteSafety.Proofs.Files.Tree
import SiteSafety.Proofs.Firsts
import SiteSafety.Proofs.Formula.Acceptance
import SiteSafety.Proofs.Formula.Evaluation
import SiteSafety.Proofs.Formula.Grammar
import SiteSafety.Proofs.Formula.Lexemes
import SiteSafety.Proofs.Formula.Reader
import SiteSafety.Proofs.Formula.Scanning
import SiteSafety.Proofs.Formula.Scope
import SiteSafety.Proofs.Judge.Cues
import SiteSafety.Proofs.Judge.Replies
import SiteSafety.Proofs.Judge.WholeWords
import SiteSafety.Proofs.Measurement.Identifiers
import SiteSafety.Proofs.Measurement.Units
import SiteSafety.Proofs.Memory.Append
import SiteSafety.Proofs.Memory.Facts
import SiteSafety.Proofs.Memory.Failures
import SiteSafety.Proofs.Memory.Keys
import SiteSafety.Proofs.Memory.Learning
import SiteSafety.Proofs.Memory.Mirror
import SiteSafety.Proofs.Memory.Preservation
import SiteSafety.Proofs.Memory.Record
import SiteSafety.Proofs.Memory.Refinement
import SiteSafety.Proofs.Memory.Repetition
import SiteSafety.Proofs.Memory.Scopes
import SiteSafety.Proofs.Memory.Screening
import SiteSafety.Proofs.Memory.Secrets
import SiteSafety.Proofs.Memory.Texts
import SiteSafety.Proofs.Outcome
import SiteSafety.Proofs.Retrieval.Chunks
import SiteSafety.Proofs.Retrieval.Packing
import SiteSafety.Proofs.Retrieval.Ranking
import SiteSafety.Proofs.Retrieval.Rules
import SiteSafety.Proofs.Text.Lower
import SiteSafety.Proofs.Text.Phrases
import SiteSafety.Proofs.Text.Runs
import SiteSafety.Proofs.Text.Search
import SiteSafety.Proofs.Text.Width
import SiteSafety.Proofs.Text.Words
import SiteSafety.Proofs.Weather.Forecast
import SiteSafety.Proofs.Weather.Geocode
import SiteSafety.Proofs.Workflow.Runs
import SiteSafety.Retrieval.Chunk
import SiteSafety.Retrieval.Index
import SiteSafety.Rule.Snippet
import SiteSafety.Rule.Threshold
import SiteSafety.Text.Bytes
import SiteSafety.Text.Case
import SiteSafety.Text.Letter
import SiteSafety.Text.Words
import SiteSafety.Weather.Forecast
import SiteSafety.Weather.Geocode
import SiteSafety.Weather.Service
import SiteSafety.Workflow.Audit
import SiteSafety.Workflow.State
import SiteSafety.Workflow.Transition
