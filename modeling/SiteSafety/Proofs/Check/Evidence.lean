import SiteSafety.Cli.Run
import SiteSafety.Memory.Ledger
import SiteSafety.Proofs.Check.Course
import SiteSafety.Proofs.Compliance.Verdict

/-!
# Proofs — Check — Evidence

Go is given only on evidence.  A decision rests on the pairs of a threshold from a usable rule and
a reading of its metric that could be checked (`Decision.Checked`): there has to be one, and all of
them have to be satisfied.  A branch of a check can come to bring nothing in several ways
(`Answer.Missing`), and without rules or without readings there is no such pair.

* `canProceed_iff`: a decision is go exactly when a pair was checked and all pairs that were
  checked are satisfied.
* `exitCode_run_eq_zero_iff`: the command ends with status 0 exactly when its check comes to such a
  decision.
* `go_only_on_evidence`: both together, and **no check without weather or without rules is a go**.
-/

namespace SiteSafety.Decision
open Compliance Rule

/-! ### Decisions -/

/-- A pair of a threshold from a well-formed snippet and a reading of its metric was checked, with
this result. -/
def Checked (i : Input) (x : Result) : Prop :=
  ∃ s ∈ i.snippets, s.isWellFormed = true ∧ ∃ t ∈ (Clause.ofSnippet s).thresholds,
    ∃ r ∈ i.readings, r.metric = t.metric ∧ check t r = .ok x

theorem mem_extract_thresholds {ss : List Snippet} {t : Threshold} :
    t ∈ (extract ss).thresholds ↔
      ∃ s ∈ ss, s.isWellFormed = true ∧ t ∈ (Clause.ofSnippet s).thresholds := by
  simp only [extract, Clause.ofSnippets, List.mem_flatMap, List.mem_filter, and_assoc]

variable {maxSurfaced : Nat} {i : Input} {now : Calendar.Instant}

theorem mem_results_make {x : Result} :
    x ∈ (make maxSurfaced i now).results ↔ Checked i x := by
  show x ∈ (evaluate (extract i.snippets).thresholds i.readings).results ↔ _
  simp only [mem_results_iff, mem_extract_thresholds, Checked]
  constructor
  · rintro ⟨t, ⟨s, hs, hwell, ht⟩, hpair⟩
    exact ⟨s, hs, hwell, t, ht, hpair⟩
  · rintro ⟨s, hs, hwell, t, ht, hpair⟩
    exact ⟨t, ⟨s, hs, hwell, ht⟩, hpair⟩

/-- The verdict is that of the results. -/
theorem canProceed_make :
    (make maxSurfaced i now).canProceed = true ↔
      (make maxSurfaced i now).results ≠ [] ∧
        ∀ x ∈ (make maxSurfaced i now).results, x.satisfied = true := by
  have hverdict (r : Report) : (r.violations.isEmpty && r.hasResolved) = true ↔
      r.results ≠ [] ∧ ∀ x ∈ r.results, x.satisfied = true := by
    simp [Report.violations, Report.hasResolved, and_comm]
  exact hverdict (evaluate (extract i.snippets).thresholds i.readings)

/-- **A decision is go** exactly when a pair was checked and all of them are satisfied. -/
theorem canProceed_iff :
    (make maxSurfaced i now).canProceed = true ↔
      (∃ x, Checked i x) ∧ ∀ x, Checked i x → x.satisfied = true := by
  have hsome : (make maxSurfaced i now).results ≠ [] ↔
      ∃ x, x ∈ (make maxSurfaced i now).results :=
    ⟨List.exists_mem_of_ne_nil _, fun ⟨_, hx⟩ => List.ne_nil_of_mem hx⟩
  rw [canProceed_make, hsome]
  simp only [mem_results_make]

theorem canProceed_of_no_snippets (h : i.snippets = []) :
    (make maxSurfaced i now).canProceed = false := by
  rw [Bool.eq_false_iff, Ne, canProceed_iff]
  rintro ⟨⟨x, s, hs, -⟩, -⟩
  simp [h] at hs

theorem canProceed_of_no_readings (h : i.readings = []) :
    (make maxSurfaced i now).canProceed = false := by
  rw [Bool.eq_false_iff, Ne, canProceed_iff]
  rintro ⟨⟨x, s, -, -, t, -, r, hr, -⟩, -⟩
  simp [h] at hr

end SiteSafety.Decision

namespace SiteSafety.Check
open Measurement Memory Rule

/-! ### Branches that bring nothing -/

variable {α : Type}

/-- How an answer comes to bring nothing within a limit. -/
inductive Answer.Missing (limitMs : Nat) (a : Answer (List α)) : Prop
  | failed (e : CollaboratorError) (h : a.result = .error e)
  | late (h : a.inTime limitMs = false)
  | empty (h : a.result = .ok [])

/-- How a check comes to have no readings: the weather is not asked for, or brings none. -/
inductive WithoutWeather (settings : Settings) (p : Parties) (r : Request) : Prop
  | off (h : p.weather = none)
  | missing (ask : String → Noted (Answer (List Reading))) (h : p.weather = some ask)
      (hmissing : (ask r.site).value.Missing (min settings.weatherMs settings.deadlineMs))

/-- A check has no rules when its search brings none. -/
def WithoutRules (settings : Settings) (p : Parties) (r : Request) : Prop :=
  (p.retriever r.query settings.retrievalK).Missing
    (min settings.retrievalMs settings.deadlineMs)

/-- What a missing answer leaves: an error, or no items. -/
theorem Answer.Missing.within {limitMs : Nat} {a : Answer (List α)} (h : a.Missing limitMs)
    (who : Collaborator) :
    a.within who limitMs = .ok [] ∨ ∃ e, a.within who limitMs = .error e := by
  unfold Answer.within
  split
  case isFalse => exact .inr ⟨_, rfl⟩
  case isTrue hin =>
    cases h with
    | failed e h => exact .inr ⟨e, h⟩
    | late h => simp [h] at hin
    | empty h => exact .inl h

theorem received_of_missing {limitMs : Nat} {a : Answer (List α)} (h : a.Missing limitMs)
    (who : Collaborator) (requestId : String) :
    (received requestId (a.within who limitMs)).value.1 = [] := by
  obtain h | ⟨e, h⟩ := h.within who <;> rw [h] <;> rfl

variable {σ : Type} [Store σ]

theorem gathered_snippets (s : Setting) (r : Request) (store : σ) :
    (gathered s r store).snippets = (receivedRules r.id
      ((s.parties.retriever r.query s.settings.retrievalK).within .retrieval
        (min s.settings.retrievalMs s.settings.deadlineMs))).value.1 := by
  unfold gathered gather
  cases r.interaction <;> cases s.parties.weather <;> rfl

theorem gathered_readings (s : Setting) (r : Request) (store : σ) :
    (gathered s r store).readings = (receivedWeather r.id
      (min s.settings.weatherMs s.settings.deadlineMs)
      (s.parties.weather.map fun ask => (ask r.site).value)).value.1 := by
  unfold gathered gather
  cases r.interaction <;> cases s.parties.weather <;> rfl

variable {s : Setting} {r : Request} {store : σ}

theorem snippets_eq_nil (h : WithoutRules s.settings s.parties r) :
    (gathered s r store).snippets = [] := by
  rw [gathered_snippets]
  obtain h | ⟨e, h⟩ := Answer.Missing.within h .retrieval <;> rw [h] <;> rfl

theorem readings_eq_nil (h : WithoutWeather s.settings s.parties r) :
    (gathered s r store).readings = [] := by
  rw [gathered_readings]
  cases h with
  | off h => rw [h]; rfl
  | missing ask h hmissing =>
      rw [h]
      exact received_of_missing hmissing .weather r.id

/-- Whatever a check is asked, remembers and is told: without weather or without rules it is no
go. -/
theorem canProceed_eq_false {now : Calendar.Instant} {o : Outcome}
    (h : WithoutWeather s.settings s.parties r ∨ WithoutRules s.settings s.parties r)
    (ho : (run s now r store).value.outcome = .ok o) : o.decision.canProceed = false := by
  rw [decision_of_outcome s now r store ho]
  obtain h | h := h
  · exact Decision.canProceed_of_no_readings (readings_eq_nil h)
  · exact Decision.canProceed_of_no_snippets (snippets_eq_nil h)

end SiteSafety.Check

namespace SiteSafety.Cli
open Check

/-! ### The command -/

/-- The status is 0 only for a go. -/
theorem exitCode_outcomeOf_eq_zero_iff {json : Bool} {x : Except CheckError Check.Outcome} :
    (outcomeOf json x).exitCode = 0 ↔ ∃ o, x = .ok o ∧ o.decision.canProceed = true := by
  rcases x with ⟨_ | _⟩ | o
  · simp [outcomeOf, Outcome.failure]
  · simp [outcomeOf, Outcome.failure]
  · simp [outcomeOf]

/-- The request that the arguments of a check make. -/
def CheckArguments.request (a : CheckArguments) : Request :=
  { id := "check", site := a.site, operation := a.operation, interaction := a.message }

/-- What a check runs with under a configuration. -/
def settingOf (w : World) (c : Config) (index : Retrieval.Index) (a : CheckArguments) :
    Setting where
  sink := .told
  settings := c.workflow
  policy := Memory.Policy.new c.memory.minConfidence
  parties := partiesOf w c index a.noWeather

/-- With rules to check, the outcome of the command is that of the check. -/
theorem check_of_rules {w : World} {c : Config} {a : CheckArguments} {index : Retrieval.Index}
    (hindex : (Retrieval.Index.ofDirectory w.tree a.rules).value = .ok index)
    (hne : index ≠ []) :
    (check w c a).value.1 = outcomeOf a.json
      (Check.run (settingOf w c index a) w.clock a.request (logbookOf w c)).value.outcome := by
  obtain ⟨piece, rest, rfl⟩ := List.exists_cons_of_ne_nil hne
  rw [check, value_bind, hindex]
  rfl

/-- Without rules to check, the command fails. -/
theorem check_of_no_rules {w : World} {c : Config} {a : CheckArguments}
    (h : ¬∃ index, (Retrieval.Index.ofDirectory w.tree a.rules).value = .ok index ∧ index ≠ []) :
    (check w c a).value.1.exitCode = 2 := by
  rw [check, value_bind]
  cases hindex : (Retrieval.Index.ofDirectory w.tree a.rules).value with
  | error e => rfl
  | ok index =>
      obtain rfl : index = [] := Decidable.byContradiction fun hne => h ⟨index, hindex, hne⟩
      rfl

variable {w : World} {i : Invocation} {a : CheckArguments}

/-- **The command ends with status 0** exactly when the configuration and the rules can be read and
the check comes to a go. -/
theorem exitCode_run_eq_zero_iff (hi : i.command = .check a) :
    (run w i).value.1.exitCode = 0 ↔ ∃ c index o,
      Config.load i.options w.tree w.environment = .ok c ∧
      (Retrieval.Index.ofDirectory w.tree a.rules).value = .ok index ∧ index ≠ [] ∧
      (Check.run (settingOf w c index a) w.clock a.request (logbookOf w c)).value.outcome =
        .ok o ∧ o.decision.canProceed = true := by
  unfold run
  rw [hi]
  dsimp only
  cases hload : Config.load i.options w.tree w.environment with
  | error e => simp [Outcome.failure]
  | ok c =>
      dsimp only
      -- a directory that cannot be read and one without rules fail alike
      by_cases hrules : ∃ index,
        (Retrieval.Index.ofDirectory w.tree a.rules).value = .ok index ∧ index ≠ []
      case pos =>
        obtain ⟨index, hindex, hne⟩ := hrules
        simp [check_of_rules hindex hne, exitCode_outcomeOf_eq_zero_iff, hindex, hne]
      case neg =>
        rw [check_of_no_rules hrules]
        refine ⟨fun h => absurd h (by decide), ?_⟩
        rintro ⟨c', index, o, -, hindex, hne, -⟩
        exact absurd ⟨index, hindex, hne⟩ hrules

/-! ### Go only on evidence -/

/-- **Go is given only on evidence.**  A decision is go exactly when some threshold of a
well-formed snippet was checked against a reading of its metric and all such checks are satisfied.
So a check whose weather is off, fails, comes late or brings no readings, or whose search of rules
fails, comes late or brings no snippets, is no go, whatever it remembers and is told; and the
command does not end with status 0. -/
theorem go_only_on_evidence :
    (∀ maxSurfaced i now, (Decision.make maxSurfaced i now).canProceed = true ↔
      (∃ x, Decision.Checked i x) ∧ ∀ x, Decision.Checked i x → x.satisfied = true) ∧
    (∀ {σ : Type} [Memory.Store σ] (s : Setting) (now : Calendar.Instant) (r : Request)
      (store : σ), WithoutWeather s.settings s.parties r ∨ WithoutRules s.settings s.parties r →
      (∀ o, (Check.run s now r store).value.outcome = .ok o → o.decision.canProceed = false) ∧
      ∀ json, (outcomeOf json (Check.run s now r store).value.outcome).exitCode ≠ 0) ∧
    (∀ (w : World) (i : Invocation) (a : CheckArguments), i.command = .check a →
      (∀ c index, Config.load i.options w.tree w.environment = .ok c →
        (Retrieval.Index.ofDirectory w.tree a.rules).value = .ok index →
        WithoutWeather c.workflow (partiesOf w c index a.noWeather) a.request ∨
          WithoutRules c.workflow (partiesOf w c index a.noWeather) a.request) →
      (run w i).value.1.exitCode ≠ 0) := by
  refine ⟨fun _ _ _ => Decision.canProceed_iff, ?_, ?_⟩
  · intro σ _ s now r store h
    refine ⟨fun o => canProceed_eq_false h, fun json hzero => ?_⟩
    obtain ⟨o, ho, hgo⟩ := exitCode_outcomeOf_eq_zero_iff.mp hzero
    exact Bool.false_ne_true ((canProceed_eq_false h ho).symm.trans hgo)
  · intro w i a hi h hzero
    obtain ⟨c, index, o, hload, hindex, -, ho, hgo⟩ := (exitCode_run_eq_zero_iff hi).mp hzero
    exact Bool.false_ne_true ((canProceed_eq_false (h c index hload hindex) ho).symm.trans hgo)

/-- A rule about wind. -/
def windRule : Rule.Snippet :=
  ⟨"Stop lifting when the wind exceeds 20 mph.", ⟨1, "lifting", "", 1.0⟩⟩

/-- A lift in a wind of 12 mph. -/
def calmLift : Decision.Input where
  site := "Alpha"
  operation := "lift"
  snippets := [windRule]
  readings := [⟨.windSpeed, 12.0, "mph", ⟨0⟩⟩]

/-- The rule is found, and the weather service is down. -/
def withoutForecast : Setting where
  parties := {
    retriever := fun _ _ => ⟨.ok [windRule], 0⟩
    weather := some fun _ => pure ⟨.error (.failure .weather "no forecast"), 0⟩
    judge := fun _ _ => .ok none }

/-- The rule lies in a directory. -/
def ruleDirectory : Files.Tree :=
  ⟨[(["rules", "lifting.md"], .file windRule.text.toUTF8), (["rules"], .directory)]⟩

def liftRequest : Request := { id := "lift", site := "Alpha", operation := "lift" }

def liftArguments : CheckArguments where
  site := "Alpha"
  operation := "lift"
  rules := "rules"
  noWeather := true

/-- A lift is a go in a calm wind, and no go without a forecast. -/
theorem lift_needs_forecast :
    ((∃ x, Decision.Checked calmLift x) ∧
      ∀ x, Decision.Checked calmLift x → x.satisfied = true) ∧
    (∃ o, (Check.run withoutForecast ⟨0⟩ liftRequest ({} : Memory.Ledger)).value.outcome = .ok o ∧
      o.decision.canProceed = false) ∧
    (run ⟨ruleDirectory, [], ⟨0⟩, .unreachable, fun _ => Judge.unsent⟩
      { command := .check liftArguments }).value.1.exitCode ≠ 0 := by
  obtain ⟨hiff, hcheck, hcommand⟩ := go_only_on_evidence
  refine ⟨(hiff 5 calmLift ⟨0⟩).mp (by decide +kernel), ?_, ?_⟩
  · have husable : (gathered withoutForecast liftRequest
        ({} : Memory.Ledger)).context.rulesInvalid = false := by decide +kernel
    obtain ⟨trace, commits, ho⟩ := outcome_of_rulesUsable withoutForecast ⟨0⟩ liftRequest _ husable
    have hmissing : WithoutWeather withoutForecast.settings withoutForecast.parties liftRequest :=
      .missing _ rfl (.failed _ rfl)
    exact ⟨_, ho, (hcheck withoutForecast ⟨0⟩ liftRequest _ (.inl hmissing)).1 _ ho⟩
  · refine hcommand _ _ liftArguments rfl fun c index _ _ => .inl (.off ?_)
    simp [partiesOf, liftArguments]

end SiteSafety.Cli
