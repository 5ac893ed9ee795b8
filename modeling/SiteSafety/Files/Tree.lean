import SiteSafety.Files.Path

/-!
# Files — Tree

A tree of files and directories as a value.  A place is the list of names that leads to it from
the working directory.  Reading and writing follow a path step by step and fail where the tree
does not allow a step.  **No file changes where an operation fails**; directories that were made
before a failure stay.
-/

namespace SiteSafety.Files

/-- Why an operation on files failed. -/
inductive Failure where
  | notFound | alreadyExists | notADirectory | isADirectory | invalidText
  deriving Repr, DecidableEq

def Failure.message : Failure → String
  | .notFound => "No such file or directory (os error 2)"
  | .alreadyExists => "File exists (os error 17)"
  | .notADirectory => "Not a directory (os error 20)"
  | .isADirectory => "Is a directory (os error 21)"
  | .invalidText => "stream did not contain valid UTF-8"

inductive Node where
  | directory
  | file (bytes : ByteArray)

/-- The names that lead to a place; a path from the root starts with the name `/`. -/
abbrev Place := List String

/-- What stands at which place, the latest first.  The working directory itself is always there. -/
structure Tree where
  nodes : List (Place × Node) := []

/-- The places that are always directories, whatever a tree holds. -/
def isFixed (p : Place) : Bool := p == [] || p == ["/"]

/-- What stands at a place. -/
def Tree.at? (t : Tree) (p : Place) : Option Node :=
  if isFixed p then some .directory else t.nodes.lookup p

/-- Puts a node at a place, in the stead of what was there. -/
def Tree.put (t : Tree) (p : Place) (n : Node) : Tree :=
  ⟨(p, n) :: t.nodes.filter fun q => q.1 != p⟩

theorem at?_put_self (t : Tree) (p : Place) (n : Node) (h : isFixed p = false) :
    (t.put p n).at? p = some n := by
  simp [Tree.at?, Tree.put, h]

theorem lookup_filter_of_ne (nodes : List (Place × Node)) {p q : Place} (h : q ≠ p) :
    (nodes.filter fun entry => entry.1 != p).lookup q = nodes.lookup q := by
  induction nodes with
  | nil => rfl
  | cons entry rest ih =>
    obtain ⟨r, n⟩ := entry
    by_cases hr : r = p
    · subst hr
      simp [List.lookup_cons, beq_false_of_ne h, ih]
    · simp [List.lookup_cons, hr, ih]

/-- What is put at one place leaves the others alone. -/
theorem at?_put_of_ne (t : Tree) {p q : Place} (n : Node) (h : q ≠ p) :
    (t.put p n).at? q = t.at? q := by
  simp [Tree.at?, Tree.put, List.lookup_cons, beq_false_of_ne h, lookup_filter_of_ne t.nodes h]

/-! ### Following a path -/

/-- The place that a place lies in; the root lies in itself. -/
def above (p : Place) : Place := if p == ["/"] then p else p.dropLast

/-- The place that steps lead to.  All but the last name have to be directories. -/
def Tree.walk (t : Tree) (here : Place) : List Step → Except Failure Place
  | [] => .ok here
  | .root :: rest => t.walk ["/"] rest
  | .here :: rest => t.walk here rest
  | .up :: rest => t.walk (above here) rest
  | [.name s] => .ok (here ++ [s])
  | .name s :: rest =>
    match t.at? (here ++ [s]) with
    | none => .error .notFound
    | some (.file _) => .error .notADirectory
    | some .directory => t.walk (here ++ [s]) rest

/-- The place that a path names. -/
def Tree.resolve (t : Tree) (path : String) : Except Failure Place :=
  if path.isEmpty then .error .notFound else t.walk [] (route path)

/-- What a path names; a path with a separator at its end names no file. -/
def Tree.find (t : Tree) (path : String) : Except Failure Node :=
  match t.resolve path with
  | .error e => .error e
  | .ok p => match t.at? p with
    | none => .error .notFound
    | some (.file bytes) =>
      if endsInSeparator path then .error .notADirectory else .ok (.file bytes)
    | some .directory => .ok .directory

def Tree.isDirectory (t : Tree) (path : String) : Bool :=
  match t.find path with
  | .ok .directory => true
  | _ => false

def Tree.isFile (t : Tree) (path : String) : Bool :=
  match t.find path with
  | .ok (.file _) => true
  | _ => false

/-! ### Reading -/

/-- The bytes of a file. -/
def Tree.readBytes (t : Tree) (path : String) : Except Failure ByteArray :=
  match t.find path with
  | .error e => .error e
  | .ok .directory => .error .isADirectory
  | .ok (.file bytes) => .ok bytes

/-- The text of a file, which has to be UTF-8. -/
def Tree.readText (t : Tree) (path : String) : Except Failure String :=
  match t.readBytes path with
  | .error e => .error e
  | .ok bytes => match String.fromUTF8? bytes with
    | some s => .ok s
    | none => .error .invalidText

/-- The names in a directory, in order. -/
def Tree.list (t : Tree) (path : String) : Except Failure (List String) :=
  match t.resolve path with
  | .error e => .error e
  | .ok p => match t.at? p with
    | none => .error .notFound
    | some (.file _) => .error .notADirectory
    | some .directory =>
      let names := t.nodes.filterMap fun (q, _) =>
        if q.length = p.length + 1 ∧ q.take p.length = p then q.getLast? else none
      .ok (names.mergeSort fun a b => decide (a ≤ b))

/-! ### Writing -/

/-- Makes the directories along steps that are not there yet.  Where a file is in the way, the tree
is left as it is by then; `made` tells whether a directory was made before. -/
def Tree.makeAlong (t : Tree) (made : Bool) (here : Place) :
    List Step → Except (Failure × Tree) Tree
  | [] => .ok t
  | .root :: rest => t.makeAlong made ["/"] rest
  | .here :: rest => t.makeAlong made here rest
  | .up :: rest => t.makeAlong made (above here) rest
  | .name s :: rest =>
    let next := here ++ [s]
    match t.at? next with
    | none => (t.put next .directory).makeAlong true next rest
    | some (.file _) =>
      .error (if made || rest.isEmpty then .alreadyExists else .notADirectory, t)
    | some .directory => t.makeAlong made next rest

/-- Makes a directory and those it lies in. -/
def Tree.makeDirectories (t : Tree) (path : String) : Except (Failure × Tree) Tree :=
  t.makeAlong false [] (steps path)

/-- Makes the directory that a path lies in, if the path names one. -/
def Tree.makeParent (t : Tree) (path : String) : Except (Failure × Tree) Tree :=
  match parent? path with
  | none => .ok t
  | some p => if p.isEmpty then .ok t else t.makeDirectories p

/-- Puts bytes behind those of a file, which is made if it is not there; what is put may depend on
the bytes that are there. -/
def Tree.append (t : Tree) (path : String) (more : ByteArray → ByteArray) :
    Except Failure Tree :=
  match t.resolve path with
  | .error e => .error e
  | .ok p => if endsInSeparator path then .error .isADirectory else match t.at? p with
    | some .directory => .error .isADirectory
    | some (.file bytes) => .ok (t.put p (.file (bytes ++ more bytes)))
    | none => match t.at? p.dropLast with
      | some .directory => .ok (t.put p (.file (more .empty)))
      | some (.file _) => .error .notADirectory
      | none => .error .notFound

/-- Makes an empty file unless there is a file. -/
def Tree.touch (t : Tree) (path : String) : Except Failure Tree := t.append path fun _ => .empty

/-- Puts bytes in the place of a file, and makes the directories it lies in. -/
def Tree.writeBytes (t : Tree) (path : String) (bytes : ByteArray) :
    Except (Failure × Tree) Tree :=
  match t.makeParent path with
  | .error e => .error e
  | .ok t => match t.resolve path with
    | .error e => .error (e, t)
    | .ok p => if endsInSeparator path then .error (.isADirectory, t) else match t.at? p with
      | some .directory => .error (.isADirectory, t)
      | _ => .ok (t.put p (.file bytes))

/-- Puts a text in the place of a file. -/
def Tree.writeText (t : Tree) (path text : String) : Except (Failure × Tree) Tree :=
  t.writeBytes path text.toUTF8

end SiteSafety.Files
