import SiteSafety.Proofs.Config.Layers

/-!
# Proofs — Config — Attribution

Each line of the report tells where its value comes from.  The report does not ask the loader for
that: it looks at the variables and at the settings file once more, with rules of its own.  Here
the two stand side by side: `supplier` is the layer that the value of a field was loaded from,
`taken` the one that the report takes it for.

* `get_eq_value`: the supplier has the value that was loaded.
* `report_eq`: the report has a line for each field, with its value and the label of what is taken
  for its supplier.
* `source_iff`: **a line tells the supplier exactly where** nothing overrides the field, its own
  variable is not blank, its second one does not step in, and the document as it is written has a
  value in the place exactly when the document that was loaded has one.
-/

namespace SiteSafety.Config
open Document

variable {env : Environment} {tree : Files.Tree} {o : Options} {c : Config} {f : Field}

/-! ### Suppliers -/

/-- Where the value of a field comes from. -/
inductive Supplier where
  | override
  | environment (name : String)
  | file
  | default
  deriving Repr, DecidableEq

/-- The name of the first variable of a field that is not blank. -/
def Environment.supplying (env : Environment) (f : Field) : Option String :=
  if (env.set? (variableOf f.name)).isSome then some f.name
  else f.alias?.filter fun n => (env.set? (variableOf n)).isSome

/-- The first layer that has something for a field. -/
def supplier (o : Options) (tree : Files.Tree) (env : Environment) (f : Field) : Supplier :=
  if (o.overrides.get f).isSome then .override
  else match env.supplying f with
    | some n => .environment n
    | none => if (o.written tree env f).isSome then .file else .default

/-- The value that a supplier has for a field. -/
def Supplier.value (o : Options) (tree : Files.Tree) (env : Environment) (f : Field) :
    Supplier → Option f.Value
  | .override => o.overrides.get f
  | .environment n => (env.set? (variableOf n)).bind f.ofText
  | .file => o.inFile tree env f
  | .default => f.default

/-- How the report names a supplier, given the path of the settings file.  It has no name for
overrides. -/
def Supplier.label (path : Option String) : Supplier → Option String
  | .override => none
  | .environment n => some s!"env ({variableOf n})"
  | .file => path.map fun p => s!"file ({p})"
  | .default => some "default"

/-- The variable that supplies is not blank. -/
theorem set?_of_supplying {n : String} (h : env.supplying f = some n) :
    (env.set? (variableOf n)).isSome := by
  unfold Environment.supplying at h
  split at h
  case isTrue hname =>
      cases h
      exact hname
  case isFalse => exact (Option.filter_eq_some_iff.mp h).2

/-- The text for a field is that of its first variable that is not blank. -/
theorem textOf_eq_supplying :
    env.textOf f = (env.supplying f).bind fun n => env.set? (variableOf n) := by
  unfold Environment.textOf Environment.supplying
  cases hname : env.set? (variableOf f.name) with
  | some value => simp [hname]
  | none =>
      cases halias : f.alias? with
      | none => rfl
      | some n => cases hsecond : env.set? (variableOf n) <;> simp [Option.filter, hsecond]

/-- What was loaded is what the supplier has. -/
theorem get_eq_value (h : load o tree env = .ok c) (f : Field) :
    c.get f = (supplier o tree env f).value o tree env f := by
  obtain ⟨htext, hwritten⟩ := isSome_load h f
  have hget : env.get f = (env.supplying f).bind fun n =>
      (env.set? (variableOf n)).bind f.ofText := by
    rw [Environment.get, textOf_eq_supplying, Option.bind_assoc]
  rw [get_load h]
  unfold supplier
  cases hoverride : o.overrides.get f with
  | some v => simp [Supplier.value, hoverride]
  | none =>
      cases hname : env.supplying f with
      | some n =>
          have hset := set?_of_supplying hname
          rw [textOf_eq_supplying, hname, Option.bind_some, hset] at htext
          rw [Option.none_or, Option.or_of_isSome htext, hget, hname]
          rfl
      | none =>
          rw [hget, hname, ← hwritten]
          cases hfile : o.inFile tree env f <;> simp [Supplier.value, hfile]

/-! ### The report's own rules -/

/-- The value in the place of a field in the settings file as it is written. -/
def Options.inPlace (o : Options) (tree : Files.Tree) (f : Field) : Option Toml :=
  (writtenFile? o tree).bind fun file => (file.2.get? f.group).bind (·.get? f.key)

/-- What the report takes for the supplier of a field. -/
def taken (o : Options) (tree : Files.Tree) (env : Environment) (f : Field) : Supplier :=
  if (env.lookup (variableOf f.name)).isSome then .environment f.name
  else if (o.inPlace tree f).isSome then .file else .default

/-- What the report tells of the source of a field. -/
def told (o : Options) (tree : Files.Tree) (env : Environment) (f : Field) : String :=
  Line.source ⟨f.group, f.key, f.name, ""⟩ env (writtenFile? o tree)

/-- The report on settings that were loaded. -/
theorem report_eq (h : load o tree env = .ok c) : report o tree env =
    String.intercalate "\n" ("effective config (source precedence: env > file > default):" ::
      Field.reported.map fun f =>
        s!"- {f.group}.{f.key} = {c.shown f} (source: {told o tree env f})") := by
  simp only [report, h, lines_eq, List.map_map]
  rfl

/-- The file that is looked at is the one that is loaded. -/
theorem file?_of_writtenFile? {path : String} {document : Toml}
    (h : writtenFile? o tree = some (path, document)) : o.file? tree = some path := by
  simp only [writtenFile?, Option.bind_eq_bind, Option.bind_eq_some_iff, Option.pure_def,
    Option.some.injEq, Prod.mk.injEq] at h
  obtain ⟨_, hpath, _, _, _, _, rfl, -⟩ := h
  exact hpath

/-- The report tells the label of what it takes for the supplier. -/
theorem label_taken (f : Field) :
    (taken o tree env f).label (o.file? tree) = some (told o tree env f) := by
  unfold taken told Line.source Options.inPlace
  cases hname : (env.lookup (variableOf f.name)).isSome with
  | true => simp [Supplier.label, hname]
  | false =>
      rcases hfile : writtenFile? o tree with _ | ⟨path, document⟩
      · simp [Supplier.label, hname]
      · cases hplace : ((document.get? f.group).bind (·.get? f.key)).isSome with
        | true => simp [Supplier.label, hname, hplace, file?_of_writtenFile? hfile]
        | false => simp [Supplier.label, hname, hplace]

/-- The first letter of a label. -/
def Supplier.initial? : Supplier → Option Char
  | .override => none
  | .environment _ => some 'e'
  | .file => some 'f'
  | .default => some 'd'

theorem head?_label {path : Option String} {s : Supplier} {w : String}
    (h : s.label path = some w) : w.toList.head? = s.initial? := by
  cases s with
  | override => cases h
  | environment n =>
      cases h
      change ("env (" ++ variableOf n ++ ")").toList.head? = some 'e'
      simp
  | file =>
      obtain ⟨p, -, rfl⟩ := Option.map_eq_some_iff.mp h
      change ("file (" ++ p ++ ")").toList.head? = some 'f'
      simp
  | default =>
      cases h
      rfl

/-- Suppliers with one label are the same. -/
theorem label_inj {path : Option String} {s t : Supplier} {w : String}
    (hs : s.label path = some w) (ht : t.label path = some w) : s = t := by
  have hinitial : s.initial? = t.initial? := (head?_label hs).symm.trans (head?_label ht)
  cases s with
  | override => cases hs
  | environment m =>
      cases t with
      | environment n =>
          have hlabels : "env (" ++ variableOf m ++ ")" = "env (" ++ variableOf n ++ ")" :=
            Option.some.inj (hs.trans ht.symm)
          simpa using hlabels
      | override | file | default => cases hinitial
  | file =>
      cases t with
      | file => rfl
      | override | environment | default => cases hinitial
  | default =>
      cases t with
      | default => rfl
      | override | environment | file => cases hinitial

/-! ### Where the report is right -/

theorem supplier_eq_environment_iff {n : String} : supplier o tree env f = .environment n ↔
    o.overrides.get f = none ∧ env.supplying f = some n := by
  unfold supplier
  cases o.overrides.get f with
  | some v => simp
  | none =>
      cases env.supplying f with
      | some m => simp
      | none => cases o.written tree env f <;> simp

/-- The file supplies what nothing above it does, or the default where it has nothing. -/
theorem supplier_eq_place_iff {b : Bool} :
    supplier o tree env f = (if b then .file else .default) ↔
      o.overrides.get f = none ∧ env.supplying f = none ∧ b = (o.written tree env f).isSome := by
  unfold supplier
  cases o.overrides.get f with
  | some v => cases b <;> simp
  | none =>
      cases env.supplying f with
      | some m => cases b <;> simp
      | none => cases b <;> cases o.written tree env f <;> simp

/-- A field's own variable supplies where it is not blank. -/
theorem supplying_eq_name_iff :
    env.supplying f = some f.name ↔ (env.set? (variableOf f.name)).isSome := by
  have halias : f.alias? ≠ some f.name := by cases f <;> decide
  unfold Environment.supplying
  split
  case isTrue hset => simp [hset]
  case isFalse hset => simp [hset, Option.filter_eq_some_iff, halias]

/-- No variable supplies where both are blank or not there. -/
theorem supplying_eq_none_iff : env.supplying f = none ↔
    env.set? (variableOf f.name) = none ∧
      ∀ n, f.alias? = some n → env.set? (variableOf n) = none := by
  unfold Environment.supplying
  cases env.set? (variableOf f.name) with
  | some value => simp
  | none => simp [Option.filter_eq_none_iff]

/-- What is taken for the supplier of a field is the supplier where nothing overrides the field and
the variables and the file are as the loader reads them. -/
theorem supplier_eq_taken_iff : supplier o tree env f = taken o tree env f ↔
    o.overrides.get f = none ∧
      if (env.lookup (variableOf f.name)).isSome then env.set? (variableOf f.name) ≠ none
      else (∀ n, f.alias? = some n → env.set? (variableOf n) = none) ∧
        (o.inPlace tree f).isSome = (o.written tree env f).isSome := by
  unfold taken
  cases hlookup : env.lookup (variableOf f.name) with
  | some value =>
      simp only [Option.isSome_some, if_true]
      rw [supplier_eq_environment_iff, supplying_eq_name_iff, Option.isSome_iff_ne_none]
  | none =>
      have hset : env.set? (variableOf f.name) = none := by simp [Environment.set?, hlookup]
      simp only [Option.isSome_none, Bool.false_eq_true, if_false]
      rw [supplier_eq_place_iff, supplying_eq_none_iff]
      simp only [hset, true_and]

/-- A document has what it has for a field in the place of the field, unless the section is a
list. -/
theorem writtenIn_eq {document : Toml} (h : ∀ items, document.get? f.group ≠ some (.array items)) :
    f.writtenIn document = (document.get? f.group).bind (·.get? f.key) := by
  unfold Field.writtenIn sectionOf
  cases hsection : document.get? f.group with
  | none => rfl
  | some t =>
      cases t with
      | array items => exact absurd hsection (h items)
      | table _ | time _ | string _ | integer _ | float _ | bool _ => rfl

/-- A settings file that asks for no variable and has its sections as tables is looked at as it is
loaded. -/
theorem inPlace_eq_written
    (hplain : ∀ path text, o.file? tree = some path → tree.readText path = .ok text →
      ¬ ['$', '\x7b'] <:+: text.toList)
    (htables : ∀ path document, writtenFile? o tree = some (path, document) →
      ∀ items, document.get? f.group ≠ some (.array items)) :
    o.inPlace tree f = o.written tree env f := by
  cases hpath : o.file? tree with
  | none => simp [Options.inPlace, Options.written, Options.document?, writtenFile?, hpath]
  | some path =>
      cases htext : tree.readText path with
      | error e =>
          simp [Options.inPlace, Options.written, Options.document?, writtenFile?, hpath, htext,
            Except.toOption]
      | ok text =>
          have hloaded : o.document? tree env = Toml.read? text :=
            document?_of_plain hpath htext (hplain path text hpath htext)
          have hlooked : writtenFile? o tree = (Toml.read? text).map fun d => (path, d) := by
            cases hread : Toml.read? text <;>
              simp [writtenFile?, hpath, htext, Except.toOption, hread]
          rw [Options.inPlace, Options.written, hlooked, hloaded]
          cases hread : Toml.read? text with
          | none => rfl
          | some document =>
              exact (writtenIn_eq (htables path document (by rw [hlooked, hread]; rfl))).symm

/-- **Where the report tells the supplier.**  The report on settings that were loaded has one line
for each field, with the value that its supplier has.  The line tells that supplier exactly where
nothing overrides the field and, if the field's own variable is there, it is not blank; if it is not
there, neither is the second one set, and the settings file as it is written has a value in the
place exactly when the file as it was loaded has one. -/
theorem source_iff (h : load o tree env = .ok c) :
    report o tree env = String.intercalate "\n"
      ("effective config (source precedence: env > file > default):" ::
        Field.reported.map fun f =>
          s!"- {f.group}.{f.key} = {c.shown f} (source: {told o tree env f})") ∧
    ∀ f, c.get f = (supplier o tree env f).value o tree env f ∧
      ((supplier o tree env f).label (o.file? tree) = some (told o tree env f) ↔
        o.overrides.get f = none ∧
          if (env.lookup (variableOf f.name)).isSome then env.set? (variableOf f.name) ≠ none
          else (∀ n, f.alias? = some n → env.set? (variableOf n) = none) ∧
            (o.inPlace tree f).isSome = (o.written tree env f).isSome) := by
  refine ⟨report_eq h, fun f => ⟨get_eq_value h f, ?_⟩⟩
  rw [← supplier_eq_taken_iff]
  exact ⟨fun hlabel => label_inj hlabel (label_taken f), fun hsame => hsame ▸ label_taken f⟩

/-- The confidence is told to come from the file, as it does; the level is told to come from its own
variable, which is blank, and comes from the second one. -/
theorem blank_variable_is_told :
    ∃ c, load siteOptions siteTree siteVariables = .ok c ∧
      (supplier siteOptions siteTree siteVariables .minConfidence).label
        (siteOptions.file? siteTree) =
          some (told siteOptions siteTree siteVariables .minConfidence) ∧
      told siteOptions siteTree siteVariables .minConfidence = "file (siteguard.toml)" ∧
      (supplier siteOptions siteTree siteVariables .logLevel).label (siteOptions.file? siteTree) ≠
        some (told siteOptions siteTree siteVariables .logLevel) := by
  obtain ⟨c, h⟩ := exists_eq_ok (x := load siteOptions siteTree siteVariables) (by decide +kernel)
  obtain ⟨-, hfields⟩ := source_iff h
  refine ⟨c, h, (hfields .minConfidence).2.mpr ⟨rfl, ?_⟩, by decide +kernel, fun hlabel => ?_⟩
  · rw [if_neg (by decide +kernel)]
    refine ⟨fun n hn => ?_, by decide +kernel⟩
    cases hn
  · have hblank := ((hfields .logLevel).2.mp hlabel).2
    rw [if_pos (by decide +kernel)] at hblank
    exact hblank (by decide +kernel)

/-- A level under its second name alone. -/
def secondVariable : Environment := [(variableOf "LOG_LEVEL", "debug")]

/-- A level that comes from the second variable is told to be the default. -/
theorem second_variable_told_as_default :
    ∃ c, load {} {} secondVariable = .ok c ∧
      supplier {} {} secondVariable .logLevel = .environment "LOG_LEVEL" ∧
      Field.default .logLevel = some "info" ∧ c.logging.level = "debug" ∧
      "- logging.level = debug (source: default)" ∈
        (lines c).map (·.text secondVariable (writtenFile? {} {})) := by
  obtain ⟨c, h⟩ := exists_eq_ok (x := load {} {} secondVariable) (by decide +kernel)
  have hlevel : c.get .logLevel = some "debug" :=
    (get_load h .logLevel).trans (by decide +kernel)
  have hshown : c.shown .logLevel = "debug" := by
    rw [shown, hlevel]
    rfl
  have hline : (c.line .logLevel).text secondVariable (writtenFile? {} {}) =
      "- logging.level = debug (source: default)" := by
    rw [line, hshown]
    decide +kernel
  refine ⟨c, h, by decide +kernel, rfl, Option.some.inj hlevel, ?_⟩
  rw [lines_eq, List.map_map, ← hline]
  exact List.mem_map_of_mem (by decide)

end SiteSafety.Config
