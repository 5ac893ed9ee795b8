import SiteSafety.Proofs.Compliance.Placement
import SiteSafety.Proofs.Decimal.Order
import SiteSafety.Proofs.Decision.Monotone
import SiteSafety.Proofs.Firsts

/-!
# Proofs — Decision — Blockers

What a decision recommends.  Whatever stands in the way of an operation is named, in three parts:
the violated metrics, each by the worst of its violations, the known issues of the site, and the
metrics without a reading where nothing could be checked.  A line on a violation says how far the
metric has to go, and which way (`Postpones`).

The worst violation is found in one pass that takes a later one for a strictly greater margin only.
So no violation has a greater margin than the one that is found, and **it is the first such one**
where the margins are numbers (`IsWorst`).  A margin that is no number is neither less nor greater
than any other, and the pass stays at it if it begins with it.

* `postpones_iff`: the lines on violations.
* `isWorst_foldl`: the pass.
* `forall₂_worst`: the worst violations, metric by metric.
* `recommendations_cover_blockers`: the recommendations of a decision.
-/

namespace SiteSafety.Decision
open Compliance Measurement Memory

variable {rs vs : List Result} {v w : Result} {line : String}

/-! ### Lines on violations -/

/-- A line postpones operations until the metric is no longer beyond its limit: below it, above it
or away from it, as the threshold compares. -/
inductive Postpones (v : Result) : String → Prop
  | drops (h : v.threshold.operator = .gt ∨ v.threshold.operator = .ge) :
      Postpones v ("Postpone operations until " ++ v.threshold.metric.label ++ " drops below " ++
        formatQuantity v.threshold.value v.threshold.unit)
  | rises (h : v.threshold.operator = .lt ∨ v.threshold.operator = .le) :
      Postpones v ("Postpone operations until " ++ v.threshold.metric.label ++ " rises above " ++
        formatQuantity v.threshold.value v.threshold.unit)
  | moves (h : v.threshold.operator = .eq) :
      Postpones v ("Postpone operations until " ++ v.threshold.metric.label ++
        " moves away from " ++ formatQuantity v.threshold.value v.threshold.unit)

/-- There is one such line for a violation, the advice on it. -/
theorem postpones_iff : Postpones v line ↔ line = postpone v := by
  unfold postpone
  constructor
  · intro h
    cases h with
    | drops h | rises h => rcases h with h | h <;> rw [h] <;> rfl
    | moves h => rw [h]; rfl
  · rintro rfl
    cases h : v.threshold.operator with
    | gt => exact .drops (.inl h)
    | ge => exact .drops (.inr h)
    | lt => exact .rises (.inl h)
    | le => exact .rises (.inr h)
    | eq => exact .moves h

theorem forall₂_postpones (vs : List Result) :
    List.Forall₂ Postpones vs (vs.map postpone) :=
  List.forall₂_map_right_iff.mpr (List.forall₂_same.mpr fun _ _ => postpones_iff.mpr rfl)

/-! ### The worst violation -/

/-- A result of a list is its worst one. -/
structure IsWorst (rs : List Result) (w : Result) : Prop where
  mem : w ∈ rs
  /-- No margin is greater. -/
  greatest : ∀ r ∈ rs, ¬ w.margin.abs < r.margin.abs
  /-- All margins before are less, if there is none that is no number. -/
  first : (∀ r ∈ rs, r.margin.isNaN = false) →
    ∃ before after, rs = before ++ w :: after ∧ ∀ r ∈ before, r.margin.abs < w.margin.abs

theorem isWorst_singleton (r : Result) : IsWorst [r] r where
  mem := List.mem_singleton_self r
  greatest x hx := by
    obtain rfl := List.mem_singleton.mp hx
    exact Decimal.lt_irrefl _
  first _ := ⟨[], [], rfl, List.forall_mem_nil _⟩

/-- A later result is the worst one if its margin is strictly greater. -/
theorem IsWorst.concat (h : IsWorst rs w) (c : Result) :
    IsWorst (rs ++ [c]) (if c.severity > w.severity then c else w) := by
  split
  case isTrue hgreater =>
      have hgreater : w.margin.abs < c.margin.abs := hgreater
      have hc : c ∈ rs ++ [c] := List.mem_append_right _ (List.mem_singleton_self c)
      refine ⟨hc, fun r hr hlt => ?_, fun hnan => ⟨rs, [], rfl, fun r hr => ?_⟩⟩
      · rcases List.mem_append.mp hr with hr | hr
        · exact h.greatest r hr (Decimal.lt_trans hgreater hlt)
        · obtain rfl := List.mem_singleton.mp hr
          exact Decimal.lt_irrefl _ hlt
      · have hnumber (x : Result) (hx : x ∈ rs ++ [c]) : x.margin.abs.isNaN = false := by
          rw [Decimal.isNaN_abs, hnan x hx]
        -- what is not below the new margin is above the old one
        refine Decidable.byContradiction fun hnot => h.greatest r hr ?_
        refine Decimal.lt_of_lt_of_not_lt ?_ (hnumber c hc) ?_ hgreater hnot
        · exact hnumber w (List.mem_append_left _ h.mem)
        · exact hnumber r (List.mem_append_left _ hr)
  case isFalse hnot =>
      refine ⟨List.mem_append_left _ h.mem, fun r hr => ?_, fun hnan => ?_⟩
      · rcases List.mem_append.mp hr with hr | hr
        · exact h.greatest r hr
        · obtain rfl := List.mem_singleton.mp hr
          exact hnot
      · obtain ⟨before, after, rfl, hbefore⟩ :=
          h.first fun r hr => hnan r (List.mem_append_left _ hr)
        exact ⟨before, after ++ [c], by simp, hbefore⟩

theorem isWorst_foldl (r : Result) (rest : List Result) : IsWorst (r :: rest)
    (rest.foldl (fun w c => if c.severity > w.severity then c else w) r) := by
  induction rest using List.reverseRecOn with
  | nil => exact isWorst_singleton r
  | append_singleton rest c ih =>
      rw [List.foldl_concat]
      exact ih.concat c

theorem exists_worst (h : rs ≠ []) : ∃ w, worst? rs = some w ∧ IsWorst rs w := by
  cases rs with
  | nil => exact absurd rfl h
  | cons r rest => exact ⟨_, rfl, isWorst_foldl r rest⟩

/-- Two limits on the wind are violated, the second one by more. -/
example : (worst? (windyLift [gustRule, ⟨"No lifting in wind above 10 mph.", ⟨2, "b.md", "", 0.5⟩⟩]
    [30.0]).report.violations).map (·.threshold.citation.sourceIndex) = some 2 := by
  decide +kernel

/-! ### Metric by metric -/

/-- Each of some metrics that are violated has a worst violation. -/
theorem forall₂_worst (ms : List Metric) (h : ∀ m ∈ ms, ∃ v ∈ vs, v.threshold.metric = m) :
    List.Forall₂ (fun m v => IsWorst (violationsOf vs m) v) ms
      (ms.filterMap fun m => worst? (violationsOf vs m)) := by
  induction ms with
  | nil => exact .nil
  | cons m ms ih =>
      obtain ⟨⟨v, hv, hm⟩, hrest⟩ := List.forall_mem_cons.mp h
      have hviolated : violationsOf vs m ≠ [] :=
        List.ne_nil_of_mem (List.mem_filter.mpr ⟨hv, decide_eq_true hm⟩)
      obtain ⟨w, hw, hworst⟩ := exists_worst hviolated
      rw [List.filterMap_cons, hw]
      exact .cons hworst (ih hrest)

theorem exists_violation_of_mem {m : Metric} (h : m ∈ violatedMetrics vs) :
    ∃ v ∈ vs, v.threshold.metric = m := by
  rwa [violatedMetrics, List.mem_eraseDups, List.mem_map] at h

/-! ### Recommendations -/

theorem unmatched_evaluate (ts : List Rule.Threshold) (readings : List Reading) :
    (evaluate ts readings).unmatched = ts.filter fun t => ∀ r ∈ readings, r.metric ≠ t.metric := by
  refine List.filter_congr fun t _ => ?_
  rw [Bool.eq_iff_iff, List.isEmpty_iff, readingsFor_eq_nil_iff, decide_eq_true_iff]

/-- **The recommendations name the blockers in order**, and nothing else.  A line postpones the
operation for each violated metric, in the order of the first violations, and is made from the worst
violation of that metric, with its limit and the way the metric has to go.  A line follows for each
site issue that is shown, in order.  Only where nothing was violated and nothing resolved does a
line ask for the readings of each metric that a threshold is about and no reading, in the order of
first appearance. -/
theorem recommendations_cover_blockers (maxSurfaced : Nat) (i : Input) (now : Calendar.Instant) :
    let d := make maxSurfaced i now
    ∃ (violated : List Metric) (worst : List Result) (postponed : List String)
      (missing : List Metric),
      d.recommendations = postponed
        ++ (d.surfaced.filter (·.category = .siteIssue)).map
          (fun e => s!"Address known site issue before proceeding: {e.content}")
        ++ (if d.violations = [] ∧ d.results = [] then
          missing.map fun m => s!"Obtain current {m.label} readings before proceeding" else []) ∧
      IsFirsts id (d.violations.map (·.threshold.metric)) violated ∧
      List.Forall₂ (fun m v => IsWorst (d.violations.filter (·.threshold.metric = m)) v)
        violated worst ∧
      List.Forall₂ Postpones worst postponed ∧
      IsFirsts id (((extract i.snippets).thresholds.filter fun t =>
        ∀ r ∈ i.readings, r.metric ≠ t.metric).map (·.metric)) missing := by
  intro d
  refine ⟨violatedMetrics d.violations,
    (violatedMetrics d.violations).filterMap fun m => worst? (violationsOf d.violations m),
    _, i.report.missingMetrics, ?_, isFirsts_eraseDups _,
    forall₂_worst _ fun m hm => exists_violation_of_mem hm, forall₂_postpones _, ?_⟩
  · have hinsufficient : (d.violations.isEmpty && !i.report.hasResolved) = true ↔
        d.violations = [] ∧ d.results = [] := by
      simp only [Report.hasResolved, Bool.not_not, Bool.and_eq_true, List.isEmpty_iff]
      exact Iff.rfl
    show recommend d.violations d.surfaced i.report.missingMetrics
      (d.violations.isEmpty && !i.report.hasResolved) = _
    simp only [recommend, List.map_filterMap, hinsufficient]
  · rw [← unmatched_evaluate]
    exact isFirsts_eraseDups _

end SiteSafety.Decision
