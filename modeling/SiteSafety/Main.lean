import SiteSafety.Cli.Run
import Std.Time.DateTime.Timestamp

/-!
# Main

The program: it looks at the files, the variables and the clock, runs the command, prints what it
comes to and writes the files that changed.  There is no connection to any service here, so the
weather and the model are out of reach.
-/

namespace SiteSafety.Main
open Cli

def usage : String :=
  "usage: siteguard [--config PATH] [--log-format compact|pretty|json] COMMAND\n"
    ++ "  check --site SITE --operation OPERATION --rules DIRECTORY\n"
    ++ "        [--message TEXT] [--no-weather] [--json]\n"
    ++ "  eval EXPRESSION [--bind NAME=VALUE]...\n"
    ++ "  memory [--scope user|organization]\n"
    ++ "  config"

/-! ### Looking -/

/-- Looks at a path and puts what is there into a tree. -/
def look (tree : Files.Tree) (path : String) : IO Files.Tree := do
  let place := (← IO.currentDir) / path
  if ← place.isDir then return (tree.makeDirectories path).toOption.getD tree
  if ← place.pathExists then
    return (tree.writeBytes path (← IO.FS.readBinFile place)).toOption.getD tree
  return tree

/-- Looks at paths and at the directories that they lie in. -/
def lookAt (tree : Files.Tree) (paths : List String) : IO Files.Tree :=
  (paths.flatMap fun path => Files.lineage path.length path).foldlM look tree

/-- Looks at a directory and at what is directly in it. -/
def lookInto (tree : Files.Tree) (directory : String) : IO Files.Tree := do
  let tree ← lookAt tree [directory]
  let place := (← IO.currentDir) / directory
  if ← place.isDir then
    lookAt tree ((← place.readDir).toList.map fun e => Files.inDirectory directory e.fileName)
  else return tree

/-- The names of the variables that a text refers to. -/
def namesIn (text : String) : List String :=
  ((text.splitOn "$\x7b").drop 1).map fun piece => (piece.splitOn "\x7d").headD ""

/-- The variables of the given names that are set. -/
def readVariables (names : List String) : IO Config.Environment :=
  names.filterMapM fun name => do return (← IO.getEnv name).map fun value => (name, value)

def present : IO Calendar.Instant := do
  return ⟨(← Std.Time.Timestamp.now).toSecondsSinceUnixEpoch.val⟩

/-- Everything that a command may need. -/
def survey (i : Invocation) : IO World := do
  let tree ← lookAt {} (i.options.path.elim Config.usualPaths fun path => [path])
  let text := ((i.options.file? tree).bind fun path => (tree.readText path).toOption).getD ""
  let environment ← readVariables (Config.fieldNames.map Config.variableOf ++ namesIn text)
  let tree ← match Config.load i.options tree environment with
    | .error _ => pure tree
    | .ok c =>
      let logs := [c.memory.userPath, c.memory.organizationPath]
      lookAt tree (logs ++ logs.map Memory.lockPath)
  let tree ← match i.command with
    | .check a => lookInto tree a.rules
    | _ => pure tree
  return { tree, environment, clock := ← present }

/-! ### Changing -/

/-- Whether a tree has the same thing at a place. -/
def unchanged (before : Files.Tree) (place : Files.Place) : Files.Node → Bool
  | .directory => match before.at? place with
    | some .directory => true
    | _ => false
  | .file bytes => match before.at? place with
    | some (.file old) => bytes == old
    | _ => false

/-- Makes one directory or file as it is in a tree. -/
def write (place : Files.Place) : Files.Node → IO Unit
  | .directory => IO.FS.createDirAll (String.intercalate "/" place)
  | .file bytes => IO.FS.writeBinFile (String.intercalate "/" place) bytes

/-- Makes what changed, directories before what lies in them. -/
def writeBack (before after : Files.Tree) : IO Unit :=
  after.nodes.reverse.forM fun (place, node) =>
    unless unchanged before place node do write place node

end SiteSafety.Main

open SiteSafety SiteSafety.Main SiteSafety.Cli in
/-- Runs the command that the words ask for. -/
def main (words : List String) : IO UInt32 := do
  match Invocation.ofWords words with
  | .error e =>
    if e = .help then IO.println usage else IO.eprintln usage
    return UInt32.ofNat e.exitCode
  | .ok i =>
    let world ← survey i
    let (outcome, tree) := (Cli.run world i).value
    IO.println outcome.output
    writeBack world.tree tree
    return UInt32.ofNat outcome.exitCode
