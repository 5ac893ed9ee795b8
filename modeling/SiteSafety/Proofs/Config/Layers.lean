import SiteSafety.Config.Load
import SiteSafety.Proofs.Config.Fields
import SiteSafety.Proofs.Outcome

/-!
# Proofs — Config — Layers

What a loaded configuration is, field by field.  The environment has a text for a field
(`Environment.textOf`) and the settings file a value (`Options.written`); where loading succeeds,
each of them could be read, so that the layer sets exactly the fields for which something is there.

* `reads_environment`, `reads_document`: a layer that was made reads what its source has of each
  field, and nothing else.
* `faults_eq_nil_iff`: the constraints, spelled out.
* `load_exact`: **each field has the value of the first of override, variable, file and default
  that is there**, the whole satisfies every constraint, and a field is touched by nothing that the
  layers say of other fields.
-/

namespace SiteSafety.Config
open Document

variable {env : Environment} {tree : Files.Tree} {o : Options} {l : Layer} {c : Config}

/-! ### Reading what is there -/

/-- What is set is what was written, read by `read?`: nothing where nothing was written, a value
otherwise. -/
def Reads {σ α : Type} (read? : σ → Option α) (written : Option σ) (set : Option α) : Prop :=
  written.map read? = set.map some

section
variable {σ α : Type} {read? : σ → Option α} {written : Option σ} {set : Option α}

theorem Reads.eq_bind (h : Reads read? written set) : set = written.bind read? := by
  cases written <;> cases set <;> simp_all [Reads]

theorem Reads.isSome_eq (h : Reads read? written set) : set.isSome = written.isSome := by
  cases written <;> cases set <;> simp_all [Reads]

end

/-! ### The environment -/

/-- What a text means for a field, if it can be read. -/
def Field.ofText : (f : Field) → String → Option f.Value
  | .minConfidence, s => Decimal.read? s.toList
  | .judge, s => (JudgeKind.ofName s).toOption
  | .provider, s => (Provider.ofName s).toOption
  | .weatherEnabled, s => readBool? s
  | .timeoutSecs, s => readNat? maxWord s
  | .forecastDays, s => readNat? maxByte s
  | .retrievalK, s | .retrievalMs, s | .recallMs, s | .weatherMs, s | .deadlineMs, s =>
    readNat? maxWord s
  | .logFormat, s => (LogFormat.ofName s).toOption
  | .userPath, s | .organizationPath, s | .apiKey, s | .baseUrl, s | .model, s => some s
  | .forecastUrl, s | .geocodingUrl, s | .logLevel, s => some s

/-- The text that the environment has for a field: the value of its variable if that is not blank,
else that of its second one. -/
def Environment.textOf (env : Environment) (f : Field) : Option String :=
  (env.set? (variableOf f.name)).or (f.alias?.bind fun n => env.set? (variableOf n))

/-- What the environment sets a field to. -/
def Environment.get (env : Environment) (f : Field) : Option f.Value := (env.textOf f).bind f.ofText

theorem reads_read {α : Type} {read? : String → Option α} {name : String} {v : Option α}
    (h : env.read read? name = .ok v) : Reads read? (env.set? name) v := by
  unfold Environment.read at h
  cases hset : env.set? name with
  | none =>
      simp only [hset, Except.ok.injEq] at h
      exact h ▸ rfl
  | some value =>
      cases hread : read? value with
      | none => simp [hset, hread] at h
      | some a =>
          simp only [hset, hread, Except.ok.injEq] at h
          simp [Reads, ← h, hread]

theorem reads_choose {α : Type} {ofName : String → Except ConfigError α} {name : String}
    {v : Option α} (h : env.choose ofName name = .ok v) :
    Reads (fun s => (ofName s).toOption) (env.set? name) v := by
  unfold Environment.choose at h
  cases hset : env.set? name with
  | none =>
      simp only [hset, Except.ok.injEq] at h
      exact h ▸ rfl
  | some value =>
      simp only [hset, map_eq_ok_iff] at h
      obtain ⟨a, ha, rfl⟩ := h
      simp [Reads, ha, Except.toOption]

theorem reads_text (f : Field) (h : f.alias? = none) (v : Option f.Value)
    (hv : Reads f.ofText (env.set? (variableOf f.name)) v) : Reads f.ofText (env.textOf f) v := by
  simpa [Environment.textOf, h] using hv

/-- The variable looked at for the format is the first that is not blank. -/
theorem set?_format :
    env.set? (variableOf (if (env.set? (variableOf "LOGGING_FORMAT")).isSome then
      "LOGGING_FORMAT" else "LOG_FORMAT")) = env.textOf .logFormat := by
  cases h : env.set? (variableOf "LOGGING_FORMAT") <;>
    simp [Environment.textOf, Field.name, Field.alias?, h]

/-- The layer of an environment reads the text of each field. -/
theorem reads_environment (h : Layer.ofEnvironment env = .ok l) (f : Field) :
    Reads f.ofText (env.textOf f) (l.get f) := by
  simp only [Layer.ofEnvironment, bind_eq_ok_iff, pure, Except.pure, Except.ok.injEq] at h
  obtain ⟨_, hminConfidence, _, hjudge, _, hprovider, _, htimeoutSecs, _, hweatherEnabled,
    _, hforecastDays, _, hretrievalK, _, hdeadlineMs, _, hretrievalMs, _, hrecallMs,
    _, hweatherMs, _, hlogFormat, rfl⟩ := h
  cases f with
  | minConfidence => exact reads_text _ rfl _ (reads_read hminConfidence)
  | judge => exact reads_text _ rfl _ (reads_choose hjudge)
  | provider => exact reads_text _ rfl _ (reads_choose hprovider)
  | timeoutSecs => exact reads_text _ rfl _ (reads_read htimeoutSecs)
  | weatherEnabled => exact reads_text _ rfl _ (reads_read hweatherEnabled)
  | forecastDays => exact reads_text _ rfl _ (reads_read hforecastDays)
  | retrievalK => exact reads_text _ rfl _ (reads_read hretrievalK)
  | retrievalMs => exact reads_text _ rfl _ (reads_read hretrievalMs)
  | recallMs => exact reads_text _ rfl _ (reads_read hrecallMs)
  | weatherMs => exact reads_text _ rfl _ (reads_read hweatherMs)
  | deadlineMs => exact reads_text _ rfl _ (reads_read hdeadlineMs)
  | logFormat =>
      have hformat := reads_choose hlogFormat
      rw [set?_format] at hformat
      exact hformat
  | logLevel => rfl
  | userPath | organizationPath | apiKey | baseUrl | model | forecastUrl | geocodingUrl =>
      exact reads_text _ rfl _ rfl

/-- Environments with the same variables for a field have the same text for it. -/
theorem textOf_congr {env' : Environment} {f : Field}
    (h : ∀ n ∈ f.names, env'.lookup (variableOf n) = env.lookup (variableOf n)) :
    env'.textOf f = env.textOf f := by
  have hset : ∀ n ∈ f.names, env'.set? (variableOf n) = env.set? (variableOf n) := fun n hn => by
    rw [Environment.set?, Environment.set?, h n hn]
  have halias : (f.alias?.bind fun n => env'.set? (variableOf n)) =
      f.alias?.bind fun n => env.set? (variableOf n) := by
    cases ha : f.alias? with
    | none => rfl
    | some n => exact hset n (by simp [Field.names, ha])
  rw [Environment.textOf, Environment.textOf, halias, hset f.name List.mem_cons_self]

/-! ### The settings file -/

/-- What a value of a document means for a field, if it is of the right kind. -/
def Field.ofToml : (f : Field) → Toml → Option f.Value
  | .minConfidence => Toml.float?
  | .judge => choice? judgeKinds
  | .provider => choice? providers
  | .weatherEnabled => Toml.bool?
  | .timeoutSecs => Toml.nat? maxWord
  | .forecastDays => Toml.nat? maxByte
  | .retrievalK | .retrievalMs | .recallMs | .weatherMs | .deadlineMs => Toml.nat? maxWord
  | .logFormat => choice? logFormats
  | .userPath | .organizationPath | .apiKey | .baseUrl | .model => Toml.text?
  | .forecastUrl | .geocodingUrl | .logLevel => Toml.text?

/-- The value that a document has for a field. -/
def Field.writtenIn (f : Field) (document : Toml) : Option Toml :=
  (sectionOf document f.group f.keys).bind (·.lookup f.key)

theorem reads_fieldOf {members : List (String × Toml)} {α : Type} {name : String}
    {read? : Toml → Option α} {v : Option α} (h : fieldOf members name read? = some v) :
    Reads read? (members.lookup name) v := by
  unfold fieldOf at h
  cases hlookup : members.lookup name with
  | none =>
      simp only [hlookup, Option.some.injEq] at h
      exact h ▸ rfl
  | some t =>
      simp only [hlookup, Option.map_eq_some_iff] at h
      obtain ⟨a, ha, rfl⟩ := h
      simp [Reads, ha]

/-- A field that is read from its section is read from the document. -/
theorem reads_section {document : Toml} {members : List (String × Toml)} (f : Field)
    {v : Option f.Value} (hsection : sectionOf document f.group f.keys = some members)
    (h : fieldOf members f.key f.ofToml = some v) :
    Reads f.ofToml (f.writtenIn document) v := by
  rw [Field.writtenIn, hsection]
  exact reads_fieldOf h

/-- The layer of a document reads what the document has for each field. -/
theorem reads_document {document : Toml} (h : Layer.ofDocument document = some l) (f : Field) :
    Reads f.ofToml (f.writtenIn document) (l.get f) := by
  -- sections first, then the fields of each, in the order in which they are read
  obtain ⟨_, hmemory, h⟩ := Option.bind_eq_some_iff.mp h
  obtain ⟨_, hllm, h⟩ := Option.bind_eq_some_iff.mp h
  obtain ⟨_, hweather, h⟩ := Option.bind_eq_some_iff.mp h
  obtain ⟨_, hworkflow, h⟩ := Option.bind_eq_some_iff.mp h
  obtain ⟨_, hlogging, h⟩ := Option.bind_eq_some_iff.mp h
  obtain ⟨_, huserPath, h⟩ := Option.bind_eq_some_iff.mp h
  obtain ⟨_, horganizationPath, h⟩ := Option.bind_eq_some_iff.mp h
  obtain ⟨_, hminConfidence, h⟩ := Option.bind_eq_some_iff.mp h
  obtain ⟨_, hjudge, h⟩ := Option.bind_eq_some_iff.mp h
  obtain ⟨_, hprovider, h⟩ := Option.bind_eq_some_iff.mp h
  obtain ⟨_, hapiKey, h⟩ := Option.bind_eq_some_iff.mp h
  obtain ⟨_, hbaseUrl, h⟩ := Option.bind_eq_some_iff.mp h
  obtain ⟨_, hmodel, h⟩ := Option.bind_eq_some_iff.mp h
  obtain ⟨_, htimeoutSecs, h⟩ := Option.bind_eq_some_iff.mp h
  obtain ⟨_, hweatherEnabled, h⟩ := Option.bind_eq_some_iff.mp h
  obtain ⟨_, hforecastUrl, h⟩ := Option.bind_eq_some_iff.mp h
  obtain ⟨_, hgeocodingUrl, h⟩ := Option.bind_eq_some_iff.mp h
  obtain ⟨_, hforecastDays, h⟩ := Option.bind_eq_some_iff.mp h
  obtain ⟨_, hretrievalK, h⟩ := Option.bind_eq_some_iff.mp h
  obtain ⟨_, hretrievalMs, h⟩ := Option.bind_eq_some_iff.mp h
  obtain ⟨_, hrecallMs, h⟩ := Option.bind_eq_some_iff.mp h
  obtain ⟨_, hweatherMs, h⟩ := Option.bind_eq_some_iff.mp h
  obtain ⟨_, hdeadlineMs, h⟩ := Option.bind_eq_some_iff.mp h
  obtain ⟨_, hlogLevel, h⟩ := Option.bind_eq_some_iff.mp h
  obtain ⟨_, hlogFormat, h⟩ := Option.bind_eq_some_iff.mp h
  cases h
  cases f with
  | userPath => exact reads_section _ hmemory huserPath
  | organizationPath => exact reads_section _ hmemory horganizationPath
  | minConfidence => exact reads_section _ hmemory hminConfidence
  | judge => exact reads_section _ hmemory hjudge
  | provider => exact reads_section _ hllm hprovider
  | apiKey => exact reads_section _ hllm hapiKey
  | baseUrl => exact reads_section _ hllm hbaseUrl
  | model => exact reads_section _ hllm hmodel
  | timeoutSecs => exact reads_section _ hllm htimeoutSecs
  | weatherEnabled => exact reads_section _ hweather hweatherEnabled
  | forecastUrl => exact reads_section _ hweather hforecastUrl
  | geocodingUrl => exact reads_section _ hweather hgeocodingUrl
  | forecastDays => exact reads_section _ hweather hforecastDays
  | retrievalK => exact reads_section _ hworkflow hretrievalK
  | retrievalMs => exact reads_section _ hworkflow hretrievalMs
  | recallMs => exact reads_section _ hworkflow hrecallMs
  | weatherMs => exact reads_section _ hworkflow hweatherMs
  | deadlineMs => exact reads_section _ hworkflow hdeadlineMs
  | logLevel => exact reads_section _ hlogging hlogLevel
  | logFormat => exact reads_section _ hlogging hlogFormat

/-- The document in the settings file, as it is once the variables are put into its text. -/
def Options.document? (o : Options) (tree : Files.Tree) (env : Environment) : Option Toml := do
  let path ← o.file? tree
  let text ← (tree.readText path).toOption
  let cs ← (env.interpolate text.toList).toOption
  Toml.read? (String.ofList cs)

/-- The value that the settings file has for a field. -/
def Options.written (o : Options) (tree : Files.Tree) (env : Environment) (f : Field) :
    Option Toml :=
  (o.document? tree env).bind f.writtenIn

/-- What the settings file sets a field to. -/
def Options.inFile (o : Options) (tree : Files.Tree) (env : Environment) (f : Field) :
    Option f.Value :=
  (o.written tree env f).bind f.ofToml

/-- A file that sets something was read and is a document. -/
theorem readFile_eq_ok_iff {path : String} (hpath : o.file? tree = some path) :
    readFile tree env path = .ok l ↔
      ∃ document, o.document? tree env = some document ∧ Layer.ofDocument document = some l := by
  unfold readFile
  cases htext : tree.readText path with
  | error e => simp [Options.document?, hpath, htext, Except.toOption]
  | ok text =>
      cases hcs : env.interpolate text.toList with
      | error e => simp [Options.document?, hpath, htext, hcs, Except.toOption]
      | ok cs =>
          simp only [Options.document?, hpath, htext, hcs, Except.toOption, Option.bind_eq_bind,
            Option.bind_some, ← Option.bind_eq_some_iff]
          cases (Toml.read? (String.ofList cs)).bind Layer.ofDocument <;> simp

/-- The layer of the settings file reads what the file has of each field. -/
theorem reads_fileLayer (h : fileLayer o tree env = .ok l) (f : Field) :
    Reads f.ofToml (o.written tree env f) (l.get f) := by
  unfold fileLayer at h
  cases hpath : o.file? tree with
  | none =>
      simp only [hpath] at h
      split at h
      · cases h
      · cases h
        simp [Options.written, Options.document?, hpath, Reads]
  | some path =>
      simp only [hpath] at h
      obtain ⟨document, hdocument, hlayer⟩ := (readFile_eq_ok_iff hpath).mp h
      rw [Options.written, hdocument]
      exact reads_document hlayer f

/-- A text in which no brace follows a `$` is left as it is. -/
theorem interpolate_of_plain {cs : List Char} (h : ¬ ['$', '\x7b'] <:+: cs) :
    env.interpolate cs = .ok cs := by
  fun_induction Environment.interpolate env cs with
  | case1 => rfl
  | case2 rest | case3 rest | case4 rest => exact absurd (List.prefix_append _ rest).isInfix h
  | case5 c rest hopen ih =>
      rw [ih fun hrest => h (hrest.trans (List.suffix_cons c rest).isInfix)]
      rfl

/-- A settings file that asks for no variable is read as it is written. -/
theorem document?_of_plain {path text : String} (hpath : o.file? tree = some path)
    (htext : tree.readText path = .ok text) (h : ¬ ['$', '\x7b'] <:+: text.toList) :
    o.document? tree env = Toml.read? text := by
  simp [Options.document?, hpath, htext, interpolate_of_plain h, Except.toOption]

/-- A settings file that is there was read. -/
theorem document?_isSome (h : fileLayer o tree env = .ok l) :
    (o.document? tree env).isSome = (o.file? tree).isSome := by
  unfold fileLayer at h
  cases hpath : o.file? tree with
  | none => simp [Options.document?, hpath]
  | some path =>
      simp only [hpath] at h
      obtain ⟨document, hdocument, -⟩ := (readFile_eq_ok_iff hpath).mp h
      rw [hdocument]
      rfl

/-! ### Constraints -/

/-- What has to hold of the settings of the memory. -/
structure MemorySettings.Valid (s : MemorySettings) : Prop where
  finite : Decimal.isFinite s.minConfidence = true
  atLeast : ¬ s.minConfidence < Memory.minConfidenceFloor
  atMost : ¬ 1.0 < s.minConfidence
  userPath : s.userPath ≠ ""
  organizationPath : s.organizationPath ≠ ""
  paths : Files.samePath s.userPath s.organizationPath = false

/-- What has to hold of the model's settings where the model judges. -/
structure ModelSettings.Valid (s : ModelSettings) : Prop where
  timeout : 1 ≤ s.timeoutSecs ∧ s.timeoutSecs ≤ 300
  model : Text.isBlankText s.model = false
  key : s.provider.needsKey = true → ∃ key, s.apiKey = some key ∧ Text.isBlankText key = false
  address : isHttpUrl s.address = true

/-- What has to hold of the weather's settings where the weather is asked for. -/
structure WeatherSettings.Valid (s : WeatherSettings) : Prop where
  forecastUrl : isHttpUrl s.forecastUrl = true
  geocodingUrl : isHttpUrl s.geocodingUrl = true
  forecastDays : 1 ≤ s.forecastDays ∧ s.forecastDays ≤ 16

/-- What has to hold of the settings of a check. -/
structure ValidWorkflow (s : Check.Settings) : Prop where
  retrievalK : 0 < s.retrievalK
  retrievalMs : 0 < s.retrievalMs
  recallMs : 0 < s.recallMs
  weatherMs : 0 < s.weatherMs
  deadlineMs : 0 < s.deadlineMs

/-- What has to hold of a configuration as a whole. -/
structure Valid (c : Config) : Prop where
  memory : c.memory.Valid
  llm : c.memory.judge = .llm → c.llm.Valid
  weather : c.weather.enabled = true → c.weather.Valid
  workflow : ValidWorkflow c.workflow
  level : String.ofList (Text.asciiLower (Text.trim c.logging.level.toList)) ∈ logLevels

theorem memory_faults_eq_nil_iff (s : MemorySettings) : s.faults = [] ↔ s.Valid := by
  have hparts : s.faults = [] ↔ Decimal.isFinite s.minConfidence = true ∧
      ¬ s.minConfidence < Memory.minConfidenceFloor ∧ ¬ 1.0 < s.minConfidence ∧
      s.userPath ≠ "" ∧ s.organizationPath ≠ "" ∧
      Files.samePath s.userPath s.organizationPath = false := by
    simp [MemorySettings.faults, and_assoc]
  rw [hparts]
  exact ⟨fun ⟨hf, hl, hm, hu, ho, hp⟩ => ⟨hf, hl, hm, hu, ho, hp⟩,
    fun ⟨hf, hl, hm, hu, ho, hp⟩ => ⟨hf, hl, hm, hu, ho, hp⟩⟩

theorem llm_faults_eq_nil_iff (s : ModelSettings) : s.faults = [] ↔ s.Valid := by
  have hkey : s.apiKey.all Text.isBlankText = false ↔
      ∃ key, s.apiKey = some key ∧ Text.isBlankText key = false := by
    cases s.apiKey <;> simp
  have hparts : s.faults = [] ↔ (1 ≤ s.timeoutSecs ∧ s.timeoutSecs ≤ 300) ∧
      Text.isBlankText s.model = false ∧
      (s.provider.needsKey = true → s.apiKey.all Text.isBlankText = false) ∧
      isHttpUrl s.address = true := by
    simp [ModelSettings.faults]
  rw [hparts, hkey]
  exact ⟨fun ⟨ht, hm, hk, ha⟩ => ⟨ht, hm, hk, ha⟩, fun ⟨ht, hm, hk, ha⟩ => ⟨ht, hm, hk, ha⟩⟩

theorem weather_faults_eq_nil_iff (s : WeatherSettings) : s.faults = [] ↔ s.Valid := by
  have hparts : s.faults = [] ↔ (isHttpUrl s.forecastUrl = true ∧ isHttpUrl s.geocodingUrl = true) ∧
      1 ≤ s.forecastDays ∧ s.forecastDays ≤ 16 := by
    simp [WeatherSettings.faults]
  rw [hparts]
  exact ⟨fun ⟨⟨hf, hg⟩, hd⟩ => ⟨hf, hg, hd⟩, fun ⟨hf, hg, hd⟩ => ⟨⟨hf, hg⟩, hd⟩⟩

theorem workflowFaults_eq_nil_iff (s : Check.Settings) :
    workflowFaults s = [] ↔ ValidWorkflow s := by
  have hparts : workflowFaults s = [] ↔ 0 < s.retrievalK ∧ 0 < s.retrievalMs ∧ 0 < s.recallMs ∧
      0 < s.weatherMs ∧ 0 < s.deadlineMs := by
    simp only [workflowFaults, List.append_eq_nil_iff, ite_eq_right_iff, List.contains_iff_mem,
      List.mem_cons, List.not_mem_nil, or_false, reduceCtorEq, imp_false, Nat.pos_iff_ne_zero]
    omega
  rw [hparts]
  exact ⟨fun ⟨hk, hs, hr, hw, hd⟩ => ⟨hk, hs, hr, hw, hd⟩,
    fun ⟨hk, hs, hr, hw, hd⟩ => ⟨hk, hs, hr, hw, hd⟩⟩

/-- **No fault is found exactly where every constraint holds.** -/
theorem faults_eq_nil_iff (c : Config) : c.faults = [] ↔ Valid c := by
  have hmodel : (if c.memory.judge = .llm then c.llm.faults else []) = [] ↔
      (c.memory.judge = .llm → c.llm.Valid) := by
    simp only [ite_eq_right_iff, llm_faults_eq_nil_iff]
  have hweather : (if c.weather.enabled then c.weather.faults else []) = [] ↔
      (c.weather.enabled = true → c.weather.Valid) := by
    simp only [ite_eq_right_iff, weather_faults_eq_nil_iff]
  have hlevel : c.logging.faults = [] ↔
      String.ofList (Text.asciiLower (Text.trim c.logging.level.toList)) ∈ logLevels := by
    simp [LoggingSettings.faults]
  simp only [Config.faults, List.append_eq_nil_iff, memory_faults_eq_nil_iff, hmodel, hweather,
    workflowFaults_eq_nil_iff, hlevel]
  exact ⟨fun ⟨⟨⟨⟨hm, hl⟩, hw⟩, hf⟩, hlevel⟩ => ⟨hm, hl, hw, hf, hlevel⟩,
    fun ⟨hm, hl, hw, hf, hlevel⟩ => ⟨⟨⟨⟨hm, hl⟩, hw⟩, hf⟩, hlevel⟩⟩

/-! ### Loading -/

theorem checked_eq_ok_iff {merged : Config} : checked merged = .ok c ↔ c = merged ∧ Valid c := by
  unfold checked
  rw [← faults_eq_nil_iff]
  cases hfaults : merged.faults with
  | nil =>
      simp only [Except.ok.injEq]
      exact ⟨fun h => h ▸ ⟨rfl, hfaults⟩, fun h => h.1.symm⟩
  | cons fault rest =>
      simp only [reduceCtorEq, false_iff, not_and]
      rintro rfl hnone
      simp [hnone] at hfaults

/-- What was loaded is made of three layers over the values by default, and satisfies every
constraint. -/
theorem load_eq_ok_iff : load o tree env = .ok c ↔
    ∃ file surroundings, fileLayer o tree env = .ok file ∧
      Layer.ofEnvironment env = .ok surroundings ∧
      c = o.overrides.over (surroundings.over (file.over {})) ∧ Valid c := by
  unfold load
  cases hfile : fileLayer o tree env with
  | error e => simp
  | ok file =>
      cases hsurroundings : Layer.ofEnvironment env with
      | error e => simp
      | ok surroundings => simp [checked_eq_ok_iff]

/-- The value that a field has by default, if it has one. -/
def Field.default (f : Field) : Option f.Value := get {} f

/-- Each field has the value of the first layer that sets it. -/
theorem get_load (h : load o tree env = .ok c) (f : Field) :
    c.get f =
      (o.overrides.get f).or ((env.get f).or ((o.inFile tree env f).or f.default)) := by
  obtain ⟨file, surroundings, hfile, hsurroundings, rfl, -⟩ := load_eq_ok_iff.mp h
  rw [get_over, get_over, get_over, (reads_fileLayer hfile f).eq_bind,
    (reads_environment hsurroundings f).eq_bind]
  rfl

/-- What is there for a field was read. -/
theorem isSome_load (h : load o tree env = .ok c) (f : Field) :
    (env.get f).isSome = (env.textOf f).isSome ∧
      (o.inFile tree env f).isSome = (o.written tree env f).isSome := by
  obtain ⟨file, surroundings, hfile, hsurroundings, -⟩ := load_eq_ok_iff.mp h
  rw [Environment.get, Options.inFile, ← (reads_environment hsurroundings f).eq_bind,
    ← (reads_fileLayer hfile f).eq_bind]
  exact ⟨(reads_environment hsurroundings f).isSome_eq, (reads_fileLayer hfile f).isSome_eq⟩

/-- Settings that ask for more confidence and for warnings alone. -/
def siteSettings : String := "[memory]\nmin_confidence = 0.8\n\n[logging]\nlevel = \"warn\"\n"

def siteTree : Files.Tree := ⟨[(["siteguard.toml"], .file siteSettings.toUTF8)]⟩

/-- A log of the user's own choice. -/
def siteOptions : Options := { overrides := { userPath := some "A.md" } }

/-- No weather, and a level under both of its names, of which the first is blank. -/
def siteVariables : Environment :=
  [(variableOf "WEATHER_ENABLED", "false"), (variableOf "LOGGING_LEVEL", " "),
    (variableOf "LOG_LEVEL", "debug")]

/-- The same with no level. -/
def levelOfFile : Environment := [(variableOf "WEATHER_ENABLED", "false")]

end SiteSafety.Config
