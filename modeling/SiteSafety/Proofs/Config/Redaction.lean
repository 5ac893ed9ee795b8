import SiteSafety.Cli.Run
import SiteSafety.Proofs.Config.Interpolation
import SiteSafety.Proofs.Text.Words

/-!
# Proofs — Config — Redaction

What the report tells of the key of the model.  Two environments are compared that differ in the
value of the key's variable alone (`KeyApart`), and whatever is made of the two is compared in
turn: layers and configurations are alike when they have the same fields but for the key, and keys
that are shown in the same way.

* `redact_eq_iff`: keys that are not blank are shown in the same way exactly when they have the
  same text in front of the first hyphen, or both have no hyphen.
* `interpolate_of_names`: a text comes to the same wherever the variables that it asks for do.
* `load_alike`: the two environments fail to load with the same error, or load alike.
* `report_reveals_only_shown`: **the whole outcome of the command is the same**, also where no
  configuration was loaded.
-/

namespace SiteSafety.Config

/-- The variable of the key. -/
def keyVariable : String := variableOf "LLM_API_KEY"

/-! ### Keys as they are shown -/

/-- What stands in front of the first hyphen of a key, if there is one. -/
def keyPrefix (key : String) : Option (List Char) :=
  (Text.cut? ['-'] (Text.trim key.toList)).map (·.1)

theorem redact_of_blank {key : String} (h : Text.isBlankText key = true) :
    redact key = "<empty>" := by
  have hempty : Text.trim key.toList = [] := Text.trim_eq_nil_iff.mpr h
  simp [redact, hempty]

/-- How a key that is not blank is shown. -/
theorem redact_eq {key : String} (h : Text.isBlankText key = false) :
    redact key =
      ((keyPrefix key).map fun head => String.ofList head ++ "-***").getD "<redacted>" := by
  have hne : Text.trim key.toList ≠ [] := fun hempty => by
    rw [Text.trim_eq_nil_iff] at hempty
    exact Bool.false_ne_true (h.symm.trans hempty)
  simp only [redact, List.isEmpty_iff, hne, if_false, keyPrefix]
  cases Text.cut? ['-'] (Text.trim key.toList) <;> rfl

/-- What is shown of a prefix ends with a star, unlike what stands for a key that has none. -/
theorem shown_prefix_ne (head : List Char) {w : String} (h : w.toList.getLast? = some '>') :
    String.ofList head ++ "-***" ≠ w := by
  rintro rfl
  simp at h

theorem redact_eq_iff {key key' : String} (h : Text.isBlankText key = false)
    (h' : Text.isBlankText key' = false) :
    redact key = redact key' ↔ keyPrefix key = keyPrefix key' := by
  rw [redact_eq h, redact_eq h']
  cases keyPrefix key with
  | none =>
      cases keyPrefix key' with
      | none => simp
      | some head' => simpa using (shown_prefix_ne head' (by decide)).symm
  | some head =>
      cases keyPrefix key' with
      | none => simpa using shown_prefix_ne head (by decide)
      | some head' => simp [String.ofList_inj]

/-- A key is shown as empty when it is blank and only then. -/
theorem isBlankText_iff_redact {key : String} :
    Text.isBlankText key = true ↔ redact key = "<empty>" := by
  refine ⟨redact_of_blank, fun hshown => ?_⟩
  by_contra hset
  rw [Bool.not_eq_true] at hset
  rw [redact_eq hset] at hshown
  cases hhead : keyPrefix key with
  | none => simp [hhead] at hshown
  | some head =>
      rw [hhead] at hshown
      exact shown_prefix_ne head (by decide) hshown

theorem isBlankText_congr {key key' : String} (h : redact key' = redact key) :
    Text.isBlankText key' = Text.isBlankText key := by
  rw [Bool.eq_iff_iff, isBlankText_iff_redact, isBlankText_iff_redact, h]

/-- Keys that may be missing and are shown in the same way are missing both, or there both. -/
theorem shown_cases {key key' : Option String} (h : key'.map redact = key.map redact) :
    (key = none ∧ key' = none) ∨
      ∃ k k', key = some k ∧ key' = some k' ∧ redact k' = redact k := by
  cases key with
  | none => exact .inl ⟨rfl, by simpa using h⟩
  | some k =>
      obtain ⟨k', hnew, hshown⟩ := Option.map_eq_some_iff.mp h
      exact .inr ⟨k, k', rfl, hnew, hshown⟩

/-! ### Environments -/

/-- Environments that differ in the value of the key at most, where both have one, and one that is
shown in the same way. -/
structure KeyApart (env env' : Environment) : Prop where
  others : ∀ name ≠ keyVariable, env'.lookup name = env.lookup name
  key : (env'.lookup keyVariable).map redact = (env.lookup keyVariable).map redact

/-- Layers with the same fields, but for keys that are shown in the same way. -/
structure Layer.Alike (l l' : Layer) : Prop where
  others : ∀ f ≠ .apiKey, l'.get f = l.get f
  key : l'.apiKey.map redact = l.apiKey.map redact

/-- Configurations with the same fields, but for keys that are shown in the same way. -/
structure Alike (c c' : Config) : Prop where
  others : ∀ f ≠ .apiKey, c'.get f = c.get f
  key : c'.llm.apiKey.map redact = c.llm.apiKey.map redact

variable {env env' : Environment} {tree : Files.Tree} {o : Options} {c c' : Config} {l l' : Layer}

theorem KeyApart.isSome_lookup (h : KeyApart env env') (name : String) :
    (env'.lookup name).isSome = (env.lookup name).isSome := by
  by_cases hname : name = keyVariable
  · subst hname
    simpa using congrArg Option.isSome h.key
  · rw [h.others name hname]

theorem KeyApart.set? (h : KeyApart env env') {field : String} (hfield : field ≠ "LLM_API_KEY") :
    env'.set? (variableOf field) = env.set? (variableOf field) := by
  rw [Environment.set?, Environment.set?, h.others _ (mt variableOf_inj.mp hfield)]

/-- A key that is blank sets nothing, and whether it is can be seen from how it is shown. -/
theorem KeyApart.set?_key (h : KeyApart env env') :
    (env'.set? keyVariable).map redact = (env.set? keyVariable).map redact := by
  unfold Environment.set?
  rcases shown_cases h.key with ⟨hold, hnew⟩ | ⟨key, key', hold, hnew, hshown⟩
  · rw [hold, hnew]
  · rw [hold, hnew, Option.filter_some, Option.filter_some, isBlankText_congr hshown]
    split <;> simp [hshown]

theorem KeyApart.read {α : Type} (h : KeyApart env env') (read? : String → Option α)
    {field : String} (hfield : field ≠ "LLM_API_KEY") :
    env'.read read? (variableOf field) = env.read read? (variableOf field) := by
  rw [Environment.read, Environment.read, h.set? hfield]

theorem KeyApart.choose {α : Type} (h : KeyApart env env')
    (ofName : String → Except ConfigError α) {field : String}
    (hfield : field ≠ "LLM_API_KEY") :
    env'.choose ofName (variableOf field) = env.choose ofName (variableOf field) := by
  rw [Environment.choose, Environment.choose, h.set? hfield]

/-- The layers of the two environments are one layer with either key, or fail with one error: no
error is about the key. -/
theorem ofEnvironment_eq (h : KeyApart env env') : Layer.ofEnvironment env' =
    (fun l => { l with apiKey := env'.set? keyVariable }) <$> Layer.ofEnvironment env := by
  have hformat : (if (env.set? (variableOf "LOGGING_FORMAT")).isSome then "LOGGING_FORMAT"
      else "LOG_FORMAT") ≠ "LLM_API_KEY" := by
    split <;> decide
  simp (disch := decide) only [Layer.ofEnvironment, h.set?, h.read, h.choose]
  rw [h.choose _ hformat]
  simp only [map_bind, map_pure, keyVariable]

/-! ### The settings file -/

/-- A template comes to the same wherever the variables that it asks for do. -/
theorem outcome_congr {t : Template} (h : ∀ n ∈ t.names, env'.lookup n = env.lookup n) :
    t.outcome env' = t.outcome env := by
  have hparts : t.problems env' = t.problems env ∧ t.filled env' = t.filled env := by
    induction t with
    | plain piece => exact ⟨rfl, rfl⟩
    | unclosed piece name => exact ⟨rfl, rfl⟩
    | place piece name rest ih =>
        have hname : env'.lookup (String.ofList name) = env.lookup (String.ofList name) :=
          h _ List.mem_cons_self
        obtain ⟨hproblems, hfilled⟩ := ih fun n hn => h n (List.mem_cons_of_mem _ hn)
        simp only [Template.problems, Template.filled, hname, hproblems, hfilled, and_self]
  rw [Template.outcome, Template.outcome, hparts.1, hparts.2]

theorem interpolate_of_names {cs : List Char}
    (h : ∀ n ∈ (Template.read cs).names, env'.lookup n = env.lookup n) :
    env'.interpolate cs = env.interpolate cs := by
  obtain ⟨hproper, htext⟩ := Template.read_sound cs
  rw [← htext, interpolate_text hproper, interpolate_text hproper, outcome_congr h]

/-- The settings file does not ask for the key. -/
def Options.Keyless (o : Options) (tree : Files.Tree) : Prop :=
  ∀ path text, o.file? tree = some path → tree.readText path = .ok text →
    keyVariable ∉ (Template.read text.toList).names

theorem KeyApart.interpolate (h : KeyApart env env') (hfile : o.Keyless tree) {path text : String}
    (hpath : o.file? tree = some path) (htext : tree.readText path = .ok text) :
    env'.interpolate text.toList = env.interpolate text.toList :=
  interpolate_of_names fun n hn => h.others n fun hkey => hfile path text hpath htext (hkey ▸ hn)

/-- What the settings file sets does not depend on the key. -/
theorem KeyApart.fileLayer (h : KeyApart env env') (hfile : o.Keyless tree) :
    fileLayer o tree env' = fileLayer o tree env := by
  unfold Config.fileLayer
  cases hpath : o.file? tree with
  | none => rfl
  | some path =>
      cases htext : tree.readText path with
      | error cause => simp only [readFile, htext]
      | ok text => simp only [readFile, htext, h.interpolate hfile hpath htext]

/-! ### Configurations -/

theorem KeyApart.alike (h : KeyApart env env') (l : Layer)
    (hkey : l.apiKey = env.set? keyVariable) :
    l.Alike { l with apiKey := env'.set? keyVariable } where
  others f hf := by cases f <;> first | rfl | exact absurd rfl hf
  key := by rw [h.set?_key, hkey]

/-- The layer of an environment has its key as it is set. -/
theorem apiKey_ofEnvironment (h : Layer.ofEnvironment env = .ok l) :
    l.apiKey = env.set? keyVariable := by
  simp only [Layer.ofEnvironment, bind_eq_ok_iff, pure, Except.pure, Except.ok.injEq] at h
  obtain ⟨_, -, _, -, _, -, _, -, _, -, _, -, _, -, _, -, _, -, _, -, _, -, _, -, rfl⟩ := h
  rfl

theorem Layer.Alike.refl (l : Layer) : l.Alike l := ⟨fun _ _ => rfl, rfl⟩

theorem Alike.refl (c : Config) : c.Alike c := ⟨fun _ _ => rfl, rfl⟩

theorem Layer.Alike.over (hl : l.Alike l') (hc : c.Alike c') : (l.over c).Alike (l'.over c') where
  others f hf := by rw [get_over, get_over, hl.others f hf, hc.others f hf]
  key := by
    change (l'.apiKey.or c'.llm.apiKey).map redact = (l.apiKey.or c.llm.apiKey).map redact
    rw [Option.map_or, Option.map_or, hl.key, hc.key]

/-- Configurations that are alike differ in the key alone. -/
theorem Alike.eq (h : c.Alike c') :
    c' = { c with llm := { c.llm with apiKey := c'.llm.apiKey } } := by
  refine ext_get fun f => ?_
  by_cases hf : f = .apiKey
  · subst hf
    rfl
  · rw [h.others f hf]
    cases f <;> first | rfl | exact absurd rfl hf

/-- Keys that are shown in the same way are both missing, or both there. -/
theorem Alike.faults (h : c.Alike c') : c'.faults = c.faults := by
  have hblank : c'.llm.apiKey.all Text.isBlankText = c.llm.apiKey.all Text.isBlankText := by
    rcases shown_cases h.key with ⟨hold, hnew⟩ | ⟨key, key', hold, hnew, hshown⟩
    · rw [hold, hnew]
    · rw [hold, hnew]
      exact isBlankText_congr hshown
  have hmodel : c'.llm.faults = c.llm.faults := by
    rw [ModelSettings.faults, hblank, h.eq]
    rfl
  rw [Config.faults, hmodel, h.eq]
  rfl

theorem Alike.shown (h : c.Alike c') (f : Field) : c'.shown f = c.shown f := by
  by_cases hf : f = .apiKey
  · subst hf
    change (c'.llm.apiKey.map redact).getD "<unset>" = (c.llm.apiKey.map redact).getD "<unset>"
    rw [h.key]
  · have haddress : c'.llm.provider.address = c.llm.provider.address := by
      rw [Option.some.inj (h.others .provider (by decide))]
    rw [Config.shown, Config.shown, h.others f hf, haddress]

/-- The two environments fail to load with the same error, or load alike. -/
theorem load_alike (h : KeyApart env env') (hfile : o.Keyless tree) :
    (∃ e, load o tree env = .error e ∧ load o tree env' = .error e) ∨
      ∃ c c', load o tree env = .ok c ∧ load o tree env' = .ok c' ∧ c.Alike c' := by
  unfold load
  rw [h.fileLayer hfile, ofEnvironment_eq h]
  cases fileLayer o tree env with
  | error e => exact .inl ⟨e, rfl, rfl⟩
  | ok file =>
      cases hlayer : Layer.ofEnvironment env with
      | error e => exact .inl ⟨e, rfl, rfl⟩
      | ok l =>
          have halike : (o.overrides.over (l.over (file.over {}))).Alike
              (o.overrides.over
                ({ l with apiKey := env'.set? keyVariable }.over (file.over {}))) :=
            (Layer.Alike.refl _).over ((h.alike l (apiKey_ofEnvironment hlayer)).over (.refl _))
          simp only [Functor.map, Except.map, checked, halike.faults]
          split
          · exact .inr ⟨_, _, rfl, rfl, halike⟩
          · exact .inl ⟨_, rfl, rfl⟩

/-! ### The report -/

theorem KeyApart.source (h : KeyApart env env') (line : Line)
    (file : Option (String × Document.Toml)) : line.source env' file = line.source env file := by
  simp only [Line.source, h.isSome_lookup]

/-- The report is the same in both environments. -/
theorem report_congr (h : KeyApart env env') (hfile : o.Keyless tree) :
    report o tree env' = report o tree env := by
  rcases load_alike h hfile with ⟨e, hold, hnew⟩ | ⟨c, c', hold, hnew, halike⟩
  · rw [report, report, hold, hnew]
  · have hlines : (lines c').map (·.text env' (writtenFile? o tree)) =
        (lines c).map (·.text env (writtenFile? o tree)) := by
      simp only [lines_eq, List.map_map, Function.comp_def, Line.text, h.source, Config.line,
        halike.shown]
    simp only [report, hold, hnew, hlines]

/-- **Of a key that is set by its variable the command shows what stands in front of the first
hyphen, and nothing else.**  Keys that are not blank are shown in the same way exactly when they
agree in that, or have no hyphen both.  Between two such keys, with all other variables, the files
and the invocation the same and a settings file that does not ask for the key, the whole outcome of
the command does not change: the report, the error where the configuration cannot be loaded or
breaks a constraint, and already the text in which the document of settings is looked for. -/
theorem report_reveals_only_shown {w : Cli.World} {i : Cli.Invocation} {env' : Environment}
    {key key' : String} (hcommand : i.command = .config)
    (hothers : ∀ name ≠ keyVariable, env'.lookup name = w.environment.lookup name)
    (hkey : w.environment.lookup keyVariable = some key)
    (hkey' : env'.lookup keyVariable = some key')
    (hset : Text.isBlankText key = false) (hset' : Text.isBlankText key' = false)
    (hfile : i.options.Keyless w.tree) :
    (redact key' = redact key ↔ keyPrefix key' = keyPrefix key) ∧
    (redact key' = redact key →
      Cli.run { w with environment := env' } i = Cli.run w i ∧
      ∀ path text, i.options.file? w.tree = some path → w.tree.readText path = .ok text →
        env'.interpolate text.toList = w.environment.interpolate text.toList) := by
  refine ⟨redact_eq_iff hset' hset, fun hshown => ?_⟩
  have hapart : KeyApart w.environment env' := ⟨hothers, by rw [hkey, hkey']; simp [hshown]⟩
  refine ⟨?_, fun path text hpath htext => hapart.interpolate hfile hpath htext⟩
  simp only [Cli.run, hcommand, report_congr hapart hfile]

/-- A model that judges and needs a key. -/
def judgeSettings : String := "[memory]\njudge = \"llm\"\n"

def keyedWorld (key : String) : Cli.World where
  tree := ⟨[(["siteguard.toml"], .file judgeSettings.toUTF8)]⟩
  environment := [(keyVariable, key)]
  clock := ⟨0⟩

/-- Two keys of one provider make no difference, blanks around the one and a second hyphen in it
included. -/
theorem keys_of_provider :
    Cli.run (keyedWorld " nvapi-9-z") ⟨none, none, .config⟩ =
      Cli.run (keyedWorld "nvapi-1a2b") ⟨none, none, .config⟩ := by
  have hothers : ∀ name ≠ keyVariable, (keyedWorld " nvapi-9-z").environment.lookup name =
      (keyedWorld "nvapi-1a2b").environment.lookup name := fun name hname => by
    simp [keyedWorld, List.lookup_cons, beq_false_of_ne hname]
  have hkeyless : Options.Keyless (Cli.Invocation.options ⟨none, none, .config⟩)
      (keyedWorld "nvapi-1a2b").tree := fun path text hpath htext => by
    have hsite : path = "siteguard.toml" :=
      Option.some.inj (hpath.symm.trans (by decide +kernel))
    have hjudge : text = judgeSettings := by
      rw [hsite] at htext
      exact Except.ok.inj (htext.symm.trans (by decide +kernel))
    rw [hjudge]
    decide +kernel
  exact ((report_reveals_only_shown (w := keyedWorld "nvapi-1a2b") rfl hothers rfl rfl
    (by decide +kernel) (by decide +kernel) hkeyless).2 (by decide +kernel)).1

end SiteSafety.Config
