import SiteSafety.Calendar.Stamp
import SiteSafety.Files.Tree
import SiteSafety.Memory.Store

/-!
# Memory — Logbook

The store that keeps its facts in two text files, one for each scope, a line for each fact:

    - [2020-01-02 03:04] [site_issue] Roof leak over the east stairwell

**Lines are only ever added at the end.**  A line that starts like a record and cannot be read as
one is passed over with a note, and any other line is text for people.  Whoever appends holds a
lock file beside the log, which stays behind.
-/

namespace SiteSafety.Memory
open Files

/-! ### Records -/

/-- What every record starts with. -/
def recordMark : List Char := "- [".toList

/-- A content on one line: its lines, trimmed, with single spaces between them. -/
def oneLine (content : String) : String :=
  String.ofList (Text.join [' '] ((Text.lines content.toList).map Text.trim))

/-- The line of a fact. -/
def formatRecord (e : Entry) : String :=
  s!"- [{e.createdAt.minuteText}] [{e.category.name}] {oneLine e.content}\n"

/-- Why a line that starts like a record is none. -/
inductive RecordError where
  | unclosedStamp
  | badStamp (stamp : String) (cause : Calendar.StampError)
  | noContent
  deriving Repr, DecidableEq

def RecordError.message : RecordError → String
  | .unclosedStamp => "missing `]` after the timestamp"
  | .badStamp stamp cause => s!"invalid timestamp `{stamp}`: {cause.message}"
  | .noContent => "record has no content"

/-- The category in brackets at the head of a text, and the text behind it; a text without such
brackets is of the category `other`. -/
def readTag (cs : List Char) : Category × List Char :=
  match cs with
  | '[' :: tagged =>
    match Text.cut? [']'] tagged with
    | some (tag, content) => (Category.ofLabel (String.ofList tag), content)
    | none => (.other, cs)
  | _ => (.other, cs)

/-- The fact on a line, given without the mark at its start. -/
def readRecord (scope : Scope) (cs : List Char) : Except RecordError Entry :=
  match Text.cut? [']'] cs with
  | none => .error .unclosedStamp
  | some (stamp, rest) =>
    match Calendar.readMinute (Text.trim stamp) with
    | .error cause => .error (.badStamp (String.ofList stamp) cause)
    | .ok createdAt =>
      let (category, content) := readTag (Text.trimStart rest)
      let content := Text.trim content
      if content.isEmpty then .error .noContent
      else .ok (Entry.new (String.ofList content) category scope createdAt)

/-- The record on a line, if the line starts like one. -/
def recordOn? (scope : Scope) (line : List Char) : Option (Except RecordError Entry) :=
  let line := Text.trim line
  if recordMark.isPrefixOf line then some (readRecord scope (line.drop recordMark.length)) else none

/-- The facts on lines counted from `number`, with a note for each record that cannot be read. -/
def readLines (path : String) (scope : Scope) (number : Nat) :
    List (List Char) → Noted (List Entry)
  | [] => pure []
  | line :: rest =>
    match recordOn? scope line with
    | none => readLines path scope (number + 1) rest
    | some (.ok e) => do return e :: (← readLines path scope (number + 1) rest)
    | some (.error reason) => do
      note {
        level := .warn, speaker := .logbook, event := "memory.record.skipped"
        message := "skipping unreadable memory record"
        fields := [("path", path), ("line", Decimal.digits number), ("reason", reason.message)] }
      readLines path scope (number + 1) rest

/-! ### Files -/

/-- A logbook: the paths of its two files, the tree they lie in, and the present time, which a new
file is dated with. -/
structure Logbook where
  userPath : String
  organizationPath : String
  tree : Tree
  clock : Calendar.Instant

def Logbook.path (l : Logbook) : Scope → String
  | .user => l.userPath
  | .organization => l.organizationPath

/-- The path of the lock beside a file. -/
def lockPath (path : String) : String := withFileName path ((fileName? path).getD "" ++ ".lock")

/-- The title of a log file, with the time at which it was made. -/
def header (now : Calendar.Instant) : String :=
  s!"# Memory Log\n\nGenerated: {now.offsetText}\n\n"

/-- The facts in a file, none where there is no file. -/
def Logbook.load (l : Logbook) (scope : Scope) : Noted (Except StoreError (List Entry)) :=
  let path := l.path scope
  match l.tree.readText path with
  | .error .notFound => pure (.ok [])
  | .error cause => pure (.error ⟨path, cause.message⟩)
  | .ok text => do return .ok (← readLines path scope 1 (Text.lines text.toList))

/-- Takes the lock of a file, which makes the directory of the file and the lock file; directories
that were made stay where the lock file cannot be made. -/
def Logbook.lock (l : Logbook) (scope : Scope) : Except (StoreError × Logbook) Logbook :=
  let path := lockPath (l.path scope)
  match l.tree.makeParent path with
  | .error (cause, tree) => .error (⟨path, cause.message⟩, { l with tree := tree })
  | .ok tree => match tree.touch path with
    | .error cause => .error (⟨path, cause.message⟩, { l with tree := tree })
    | .ok tree => .ok { l with tree := tree }

/-- What is written for a fact into a file with given bytes: a file without a byte gets its title
first. -/
def payload (now : Calendar.Instant) (e : Entry) (bytes : ByteArray) : ByteArray :=
  ((if bytes.isEmpty then header now else "") ++ formatRecord e).toUTF8

/-- Writes a fact at the end of its file. -/
def Logbook.write (l : Logbook) (e : Entry) :
    Noted (Except StoreError Unit × Logbook) := do
  let path := l.path e.scope
  match l.tree.makeParent path with
  | .error (cause, tree) => return (.error ⟨path, cause.message⟩, { l with tree := tree })
  | .ok tree =>
    match tree.append path (payload l.clock e) with
    | .error cause => return (.error ⟨path, cause.message⟩, { l with tree := tree })
    | .ok written =>
      let isNew := match tree.readBytes path with
        | .ok bytes => bytes.isEmpty
        | .error _ => true
      if isNew then
        note {
          level := .debug, speaker := .logbook, event := "memory.store.created"
          message := "creating memory log", fields := [("path", path)] }
      return (.ok (), { l with tree := written })

/-- Takes the lock, looks for the key among the facts there are, and writes. -/
def Logbook.append (e : Entry) (l : Logbook) :
    Noted (Except StoreError Appended × Logbook) := do
  match l.lock e.scope with
  | .error (err, l) => return (.error err, l)
  | .ok l =>
    match ← l.load e.scope with
    | .error err => return (.error err, l)
    | .ok entries =>
      if entries.any (·.key == e.key) then return (.ok .duplicate, l)
      match ← l.write e with
      | (.error err, l) => return (.error err, l)
      | (.ok (), l) => return (.ok .appended, l)

instance : Store Logbook where
  read scope l := l.load scope
  append := Logbook.append

end SiteSafety.Memory
