import SiteSafety.Config.File

/-!
# Config — Load

Loading a configuration: the values that hold by default, over them the settings file, the
environment and what the caller sets.  **Only the merged configuration is checked.**
-/

namespace SiteSafety.Config

/-- What a caller asks for. -/
structure Options where
  /-- The path of the settings file; without it the usual places are looked at. -/
  path : Option String := none
  /-- Whether it is an error that there is no settings file. -/
  required : Bool := false
  overrides : Layer := {}

def exists? (tree : Files.Tree) (path : String) : Bool := (tree.find path).toOption.isSome

/-- Where a settings file is looked for. -/
def usualPaths : List String := ["siteguard.toml", "config/siteguard.toml"]

/-- The path of the settings file, if there is one. -/
def Options.file? (o : Options) (tree : Files.Tree) : Option String :=
  match o.path with
  | some path => if exists? tree path then some path else none
  | none => usualPaths.find? (exists? tree)

/-- What the settings file at a path sets. -/
def readFile (tree : Files.Tree) (env : Environment) (path : String) :
    Except ConfigError Layer :=
  match tree.readText path with
  | .error cause => .error (.unreadable path cause)
  | .ok text =>
    match env.interpolate text.toList with
    | .error e => .error e
    | .ok cs =>
      match (Document.Toml.read? (String.ofList cs)).bind Layer.ofDocument with
      | some layer => .ok layer
      | none => .error (.unparsable path)

/-- What the settings file sets: nothing where there is none and none is required. -/
def fileLayer (o : Options) (tree : Files.Tree) (env : Environment) : Except ConfigError Layer :=
  match o.file? tree with
  | some path => readFile tree env path
  | none =>
    if o.required then .error (.missingFile (o.path.getD "siteguard.toml")) else .ok {}

/-- A configuration that breaks no constraint, or the first one that it breaks. -/
def checked (c : Config) : Except ConfigError Config :=
  match c.faults with
  | [] => .ok c
  | fault :: _ => .error (.invalid fault)

/-- The configuration that the layers make up. -/
def load (o : Options) (tree : Files.Tree) (env : Environment) : Except ConfigError Config :=
  match fileLayer o tree env with
  | .error e => .error e
  | .ok file =>
    match Layer.ofEnvironment env with
    | .error e => .error e
    | .ok surroundings => checked (o.overrides.over (surroundings.over (file.over {})))

end SiteSafety.Config
