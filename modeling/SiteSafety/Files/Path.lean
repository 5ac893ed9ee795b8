import SiteSafety.Text.Words

/-!
# Files — Path

Paths as texts and as steps.  **Two paths are the same when their steps are**: doubled separators,
a separator or a point at the end and a point between separators make no difference, a leading point
does.  To follow a path is stricter, as a point at its end is a step then (`route`).
-/

namespace SiteSafety.Files

/-- One step of a path. -/
inductive Step where
  | root | here | up
  | name (s : String)
  deriving Repr, DecidableEq

/-- A piece between separators as a step, unless it is empty or a point. -/
def stepOf? (piece : List Char) : Option Step :=
  if piece.isEmpty || piece == ['.'] then none
  else if piece == ['.', '.'] then some .up
  else some (.name (String.ofList piece))

/-- The steps of a path. -/
def steps (path : String) : List Step :=
  let pieces := path.toList.splitOnP (· == '/')
  let lead := match path.toList, pieces with
    | '/' :: _, _ => [Step.root]
    | _, ['.'] :: _ => [Step.here]
    | _, _ => []
  lead ++ pieces.filterMap stepOf?

/-- Whether a path is written as that of a directory. -/
def endsInSeparator (path : String) : Bool := path.toList.getLast? == some '/'

/-- Whether a path ends in a point behind a separator. -/
def endsInPoint (path : String) : Bool :=
  match path.toList.reverse.dropWhile (· == '/') with
  | '.' :: '/' :: _ => true
  | _ => false

/-- The steps in which a path is followed.  A point at its end is one of them, so what stands before
it has to be a directory. -/
def route (path : String) : List Step :=
  steps path ++ if endsInPoint path then [.here] else []

/-- Whether two paths have the same steps. -/
def samePath (a b : String) : Bool := steps a == steps b

/-- The name at the end of a path. -/
def fileName? (path : String) : Option String :=
  match (steps path).getLast? with
  | some (.name s) => some s
  | _ => none

/-- What stands before the steps of a path that can be taken away: the root or a leading point. -/
def lead (cs : List Char) : List Char :=
  match cs with
  | '/' :: _ => ['/']
  | ['.'] => ['.']
  | '.' :: '/' :: _ => ['.']
  | _ => []

/-- A text without the separators, and the points between separators, at its end; reversed. -/
def dropSeparators : List Char → List Char
  | '/' :: rest => dropSeparators rest
  | '.' :: '/' :: rest => dropSeparators rest
  | ['.'] => []
  | cs => cs

/-- The text of the path to the directory that a path lies in, empty for a bare name. -/
def parent? (path : String) : Option String :=
  let cs := path.toList
  let front := lead cs
  let body := dropSeparators (cs.drop front.length).reverse
  if body.isEmpty then
    if front == ['.'] then some "" else none
  else
    some (String.ofList (front ++ (dropSeparators (body.dropWhile (· != '/'))).reverse))

/-- The directories that a path lies in, the outermost first, and the path itself; at most so many
of them. -/
def lineage : Nat → String → List String
  | 0, path => [path]
  | n + 1, path =>
    match parent? path with
    | some directory =>
      if directory.isEmpty || directory == path then [path] else lineage n directory ++ [path]
    | none => [path]

/-- A name in a directory. -/
def inDirectory (directory name : String) : String :=
  if directory.isEmpty then name
  else if endsInSeparator directory then directory ++ name
  else directory ++ "/" ++ name

/-- The path with another name at its end. -/
def withFileName (path name : String) : String :=
  if (fileName? path).isSome then inDirectory ((parent? path).getD "") name
  else inDirectory path name

/-- What follows the last point of a name, unless that point is its first character. -/
def extension? (name : String) : Option String :=
  match Text.cutLast? '.' name.toList with
  | some (before, after) => if before.isEmpty then none else some (String.ofList after)
  | none => none

end SiteSafety.Files
