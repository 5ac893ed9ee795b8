import SiteSafety.Text.Words

/-!
# Cli — Grammar

How the words of a command line are read, by a description of the options that a command has.  An
option is a word with two hyphens in front; its value is attached behind `=` or is the next word.
**A value that is the next word is looked at only when the next option or the end comes**, so what
is found wrong first may stand behind it.
-/

namespace SiteSafety.Cli

/-- How often an option may be given, and whether it has a value. -/
inductive Kind where
  | switch | once | many
  deriving Repr, DecidableEq

/-- An option, and which values it takes. -/
structure Opt where
  name : String
  kind : Kind
  accepts : String → Bool := fun _ => true

/-- What a command line is read by: the options, the commands below this one, and whether one word
may stand alone. -/
structure Grammar where
  options : List Opt
  commands : List String := []
  takesWord : Bool := false

/-- What is wrong with a command line; to ask for help counts too. -/
inductive UsageError where
  | help
  | nothingGiven
  | noCommand
  | unknownCommand
  | unknownArgument
  | badValue
  | missingArgument
  | repeated
  | needlessValue
  deriving Repr, DecidableEq

/-- The status that a program ends with after an error. -/
def UsageError.exitCode : UsageError → Nat
  | .help => 0
  | _ => 2

/-- What has been read of a command line. -/
structure Reading where
  /-- The options found with their values, in order; a switch has none. -/
  found : List (String × String) := []
  /-- An option whose value has not been looked at, and the value if it is there. -/
  waiting : Option (Opt × Option String) := none
  word : Option String := none

/-- The values given for an option. -/
def Reading.values (r : Reading) (name : String) : List String :=
  (r.found.filter (·.1 == name)).map (·.2)

/-- The value given for an option that may be given once. -/
def Reading.value? (r : Reading) (name : String) : Option String := r.found.lookup name

def Reading.has (r : Reading) (name : String) : Bool := (r.value? name).isSome

/-! ### Options -/

/-- Takes note of an option with its value. -/
def Reading.take (r : Reading) (o : Opt) (value : String) : Except UsageError Reading :=
  if o.kind ≠ .many ∧ r.has o.name then .error .repeated
  else if o.accepts value then .ok { r with found := r.found ++ [(o.name, value)] }
  else .error .badValue

/-- Takes note of the option that is waiting. -/
def Reading.settle (r : Reading) : Except UsageError Reading :=
  match r.waiting with
  | none => .ok r
  | some (_, none) => .error .badValue
  | some (o, some value) => { r with waiting := none }.take o value

/-- Whether the next word is the value of an option. -/
def Reading.wantsValue (r : Reading) : Bool :=
  match r.waiting with
  | some (_, none) => true
  | _ => false

/-- Reads an option by its name, with the value attached to it if there is one. -/
def Reading.option (g : Grammar) (r : Reading) (name : String) (attached : Option String) :
    Except UsageError Reading :=
  if name = "help" then
    if attached.isSome then .error .needlessValue
    else match r.settle with
      | .error e => .error e
      | .ok _ => .error .help
  else match g.options.find? (·.name == name) with
    | none => .error .unknownArgument
    | some o =>
      if o.kind = .switch ∧ attached.isSome then .error .needlessValue
      else match r.settle with
        | .error e => .error e
        | .ok r =>
          if o.kind = .switch then r.take o ""
          else match attached with
            | some value => r.take o value
            | none => .ok { r with waiting := some (o, none) }

/-- Reads a word with one hyphen in front.  The only such option asks for help. -/
def Reading.short (r : Reading) (c : Char) : Except UsageError Reading :=
  if c = 'h' then
    match r.settle with
    | .error e => .error e
    | .ok _ => .error .help
  else .error .unknownArgument

/-- Reads a word that is no option. -/
def Reading.plain (g : Grammar) (r : Reading) (word : String) (afterBreak : Bool) :
    Except UsageError Reading :=
  if g.takesWord && r.word.isNone then
    match r.settle with
    | .error e => .error e
    | .ok r => .ok { r with word := some word }
  else if g.commands.isEmpty then .error .unknownArgument
  else if afterBreak && g.commands.contains word then .error .unknownArgument
  else .error .unknownCommand

/-! ### Words -/

/-- A word that starts with two hyphens, cut at its first `=`. -/
def cutOption (cs : List Char) : String × Option String :=
  match Text.cut? ['='] cs with
  | some (name, value) => (String.ofList name, some (String.ofList value))
  | none => (String.ofList cs, none)

/-- Reads words that stand behind two lone hyphens, where nothing is an option. -/
def readPlain (g : Grammar) (r : Reading) : List String → Except UsageError Reading
  | [] => .ok r
  | word :: rest =>
    match r.plain g word true with
    | .error e => .error e
    | .ok r => readPlain g r rest

/-- Reads words up to the name of a command, which is returned with the words behind it. -/
def readWords (g : Grammar) (r : Reading) :
    List String → Except UsageError (Reading × Option (String × List String))
  | [] => .ok (r, none)
  | word :: rest =>
    if !r.wantsValue && g.commands.contains word then .ok (r, some (word, rest))
    else
      let next := match word.toList with
        | ['-', '-'] => none
        | '-' :: '-' :: cs =>
          let (name, attached) := cutOption cs
          some (r.option g name attached)
        | '-' :: c :: _ => some (r.short c)
        | _ => match r.waiting with
          | some (o, none) => some (.ok { r with waiting := some (o, some word) })
          | _ => some (r.plain g word false)
      match next with
      | none => (readPlain g r rest).map (·, none)
      | some (.error e) => .error e
      | some (.ok r) => readWords g r rest

end SiteSafety.Cli
