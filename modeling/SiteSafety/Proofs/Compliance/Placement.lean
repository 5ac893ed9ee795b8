import Mathlib.Data.List.Forall2
import SiteSafety.Compliance.Report
import SiteSafety.Proofs.Firsts

/-!
# Proofs — Compliance — Placement

Where the report puts a threshold.  `Resolves` and `Fails` say when a pair of a threshold and a
reading gives a result and when it does not, and with which reason; of a pair whose metric is the
same exactly one of the two holds (`resolves_or_fails`).  `Placed t rs mine` says what a threshold
adds to a report on the readings `rs`: itself as unmatched where no reading has its metric, and
otherwise the results of its pairs and, where a pair failed, one notice with the reason of the first
one that did.

* `placed_alone`: what the report on one threshold is.
* `evaluate_places`: **every threshold of a report is placed**, in the order of the thresholds, and
  nothing else is in the report.
-/

namespace SiteSafety.Compliance
open Measurement Rule Decimal

variable {t : Threshold} {r : Reading} {rs : List Reading} {x : Result} {reason : String}

/-! ### Pairs -/

/-- A reading of the metric of a threshold gives a result: it is finite, comparable, and the
expression of the threshold has a truth value for it. -/
inductive Resolves (t : Threshold) (r : Reading) : Result → Prop where
  | intro {v : Float} {violated : Bool} (metric : r.metric = t.metric)
      (finite : isFinite r.value = true) (comparable : comparableValue t r = .ok v)
      (evaluates :
        Formula.evaluateCondition t.violationExpression (bindings t v) = .ok violated) :
      Resolves t r ⟨t, r, !violated, v - t.value⟩

/-- A reading of the metric of a threshold gives none, with the reason. -/
inductive Fails (t : Threshold) (r : Reading) : String → Prop where
  | notFinite (metric : r.metric = t.metric) (infinite : isFinite r.value = false) :
      Fails t r s!"{t.metric.label} reading is not a finite number"
  | incomparable {reason : String} (metric : r.metric = t.metric)
      (finite : isFinite r.value = true) (incomparable : comparableValue t r = .error reason) :
      Fails t r reason
  | unverifiable {v : Float} {e : Formula.Error} (metric : r.metric = t.metric)
      (finite : isFinite r.value = true) (comparable : comparableValue t r = .ok v)
      (fails : Formula.evaluateCondition t.violationExpression (bindings t v) = .error e) :
      Fails t r s!"rule could not be verified: {e.message}"

theorem Resolves.metric (h : Resolves t r x) : r.metric = t.metric := by
  cases h
  assumption

theorem Resolves.reading (h : Resolves t r x) : x.reading = r := by
  cases h
  rfl

theorem Resolves.threshold (h : Resolves t r x) : x.threshold = t := by
  cases h
  rfl

theorem Fails.metric (h : Fails t r reason) : r.metric = t.metric := by
  cases h <;> assumption

theorem check_eq_ok_iff (hm : r.metric = t.metric) : check t r = .ok x ↔ Resolves t r x := by
  unfold check
  constructor
  · intro h
    split at h
    · cases h
    next hfinite =>
      split at h
      · cases h
      next v hv =>
        split at h
        · cases h
        next violated hviolated =>
          cases h
          exact .intro hm (by simpa using hfinite) hv hviolated
  · rintro ⟨-, hfinite, hv, hviolated⟩
    simp only [hfinite, Bool.not_true, Bool.false_eq_true, if_false, hv, hviolated]

theorem check_eq_error_iff (hm : r.metric = t.metric) :
    check t r = .error reason ↔ Fails t r reason := by
  unfold check
  constructor
  · intro h
    split at h
    next hfinite =>
      cases h
      exact .notFinite hm (by simpa using hfinite)
    next hfinite =>
      have hfinite : isFinite r.value = true := by simpa using hfinite
      split at h
      next hv =>
        cases h
        exact .incomparable hm hfinite hv
      next v hv =>
        split at h
        next e he =>
          cases h
          exact .unverifiable hm hfinite hv he
        · cases h
  · rintro (⟨-, hfinite⟩ | ⟨-, hfinite, hv⟩ | ⟨-, hfinite, hv, he⟩)
    · simp only [hfinite, Bool.not_false, if_true]
    · simp only [hfinite, Bool.not_true, Bool.false_eq_true, if_false, hv]
    · simp only [hfinite, Bool.not_true, Bool.false_eq_true, if_false, hv, he]

/-- A pair of one metric gives one result, or none and one reason. -/
theorem resolves_or_fails (hm : r.metric = t.metric) :
    ((∃! x, Resolves t r x) ∧ ∀ reason, ¬Fails t r reason) ∨
      (∀ x, ¬Resolves t r x) ∧ ∃! reason, Fails t r reason := by
  simp only [← check_eq_ok_iff hm, ← check_eq_error_iff hm]
  cases check t r with
  | ok x => simp
  | error reason => simp

/-- The pair gives a result. -/
def Resolvable (t : Threshold) (r : Reading) : Prop := ∃ x, Resolves t r x

instance (t : Threshold) (r : Reading) : Decidable (Resolvable t r) :=
  decidable_of_iff (r.metric = t.metric ∧ (check t r).toOption.isSome) <| by
    constructor
    · rintro ⟨hm, hsome⟩
      cases hcheck : check t r with
      | ok x => exact ⟨x, (check_eq_ok_iff hm).mp hcheck⟩
      | error reason =>
          rw [hcheck] at hsome
          cases hsome
    · rintro ⟨x, hx⟩
      exact ⟨hx.metric, by rw [(check_eq_ok_iff hx.metric).mpr hx]; rfl⟩

/-! ### One threshold -/

/-- What a threshold adds to a report on the readings. -/
inductive Placed (t : Threshold) (rs : List Reading) : Report → Prop where
  | unmatched (absent : ∀ r ∈ rs, r.metric ≠ t.metric) : Placed t rs { unmatched := [t] }
  | resolved {xs : List Result} (present : ∃ r ∈ rs, r.metric = t.metric)
      (all : ∀ r ∈ rs, r.metric = t.metric → Resolvable t r)
      (results : List.Forall₂ (Resolves t) (rs.filter (Resolvable t)) xs) :
      Placed t rs { results := xs }
  | unresolved {xs : List Result} {before after : List Reading} {r : Reading} {reason : String}
      (split : rs = before ++ r :: after)
      (first : ∀ r' ∈ before, r'.metric = t.metric → Resolvable t r') (fails : Fails t r reason)
      (results : List.Forall₂ (Resolves t) (rs.filter (Resolvable t)) xs) :
      Placed t rs { results := xs, unresolved := [⟨t, reason⟩] }

/-- The results of a threshold are those of its pairs that give one, reading by reading. -/
theorem forall₂_resultsFor (t : Threshold) (rs : List Reading) :
    List.Forall₂ (Resolves t) (rs.filter (Resolvable t)) (resultsFor rs t) := by
  induction rs with
  | nil => exact .nil
  | cons r rs ih =>
      by_cases hm : r.metric = t.metric
      · cases hcheck : check t r with
        | ok x =>
            have hx : Resolves t r x := (check_eq_ok_iff hm).mp hcheck
            have hr : Resolvable t r := ⟨x, hx⟩
            simpa [resultsFor, readingsFor, hm, hr, hcheck, Except.toOption] using
              List.Forall₂.cons hx ih
        | error reason =>
            have hr : ¬Resolvable t r := by
              rintro ⟨x, hx⟩
              rw [(check_eq_ok_iff hm).mpr hx] at hcheck
              cases hcheck
            simpa [resultsFor, readingsFor, hm, hr, hcheck, Except.toOption] using ih
      · have hr : ¬Resolvable t r := fun ⟨x, hx⟩ => hm hx.metric
        simpa [resultsFor, readingsFor, hm, hr] using ih

/-- A threshold is unresolved when one of its pairs fails, with the reason of the first one. -/
theorem unresolvedFor?_cases (t : Threshold) (rs : List Reading) :
    (unresolvedFor? rs t = none ∧ ∀ r ∈ rs, r.metric = t.metric → Resolvable t r) ∨
      ∃ before r after reason, rs = before ++ r :: after ∧
        (∀ r' ∈ before, r'.metric = t.metric → Resolvable t r') ∧ Fails t r reason ∧
          unresolvedFor? rs t = some ⟨t, reason⟩ := by
  induction rs with
  | nil => exact .inl ⟨rfl, nofun⟩
  | cons r rs ih =>
      -- a reading that does not fail leaves the search where it is
      have hpass : unresolvedFor? (r :: rs) t = unresolvedFor? rs t →
          (r.metric = t.metric → Resolvable t r) →
          (unresolvedFor? (r :: rs) t = none ∧
              ∀ r' ∈ r :: rs, r'.metric = t.metric → Resolvable t r') ∨
            ∃ before r' after reason, r :: rs = before ++ r' :: after ∧
              (∀ r'' ∈ before, r''.metric = t.metric → Resolvable t r'') ∧ Fails t r' reason ∧
                unresolvedFor? (r :: rs) t = some ⟨t, reason⟩ := by
        intro hsame hr
        rcases ih with ⟨hnone, hall⟩ | ⟨before, r', after, reason, rfl, hfirst, hfails, hsome⟩
        · exact .inl ⟨hsame.trans hnone, List.forall_mem_cons.mpr ⟨hr, hall⟩⟩
        · exact .inr ⟨r :: before, r', after, reason, rfl, List.forall_mem_cons.mpr ⟨hr, hfirst⟩,
            hfails, hsame.trans hsome⟩
      by_cases hm : r.metric = t.metric
      · cases hcheck : check t r with
        | ok x =>
            refine hpass ?_ fun _ => ⟨x, (check_eq_ok_iff hm).mp hcheck⟩
            simp [unresolvedFor?, readingsFor, hm, failure?, hcheck]
        | error reason =>
            refine .inr ⟨[], r, rs, reason, rfl, nofun, (check_eq_error_iff hm).mp hcheck, ?_⟩
            simp [unresolvedFor?, readingsFor, hm, failure?, hcheck]
      · refine hpass ?_ fun h => absurd h hm
        simp [unresolvedFor?, readingsFor, hm]

theorem readingsFor_eq_nil_iff :
    readingsFor t rs = [] ↔ ∀ r ∈ rs, r.metric ≠ t.metric := by
  simp [readingsFor, List.filter_eq_nil_iff]

/-- The report on one threshold. -/
theorem placed_alone (t : Threshold) (rs : List Reading) : Placed t rs (evaluate [t] rs) := by
  have hreport : evaluate [t] rs = { results := resultsFor rs t
                                     unresolved := (unresolvedFor? rs t).toList
                                     unmatched := if (readingsFor t rs).isEmpty then [t] else [] } := by
    simp only [evaluate, List.flatMap_singleton, Report.mk.injEq, true_and]
    constructor
    · cases hu : unresolvedFor? rs t <;> simp [hu]
    · cases hr : (readingsFor t rs).isEmpty <;> simp [hr]
  rw [hreport]
  by_cases hnone : readingsFor t rs = []
  · have hresults : resultsFor rs t = [] := by simp [resultsFor, hnone]
    have hunresolved : unresolvedFor? rs t = none := by simp [unresolvedFor?, hnone]
    simpa [hresults, hunresolved, hnone] using
      Placed.unmatched (readingsFor_eq_nil_iff.mp hnone)
  · have hsome : ∃ r ∈ rs, r.metric = t.metric := by
      simpa using mt readingsFor_eq_nil_iff.mpr hnone
    have hempty : (readingsFor t rs).isEmpty = false := by simpa using hnone
    rw [hempty]
    rcases unresolvedFor?_cases t rs with
      ⟨hu, hall⟩ | ⟨before, r, after, reason, hsplit, hfirst, hfails, hu⟩
    · rw [hu]
      exact .resolved hsome hall (forall₂_resultsFor t rs)
    · rw [hu]
      exact .unresolved hsplit hfirst hfails (forall₂_resultsFor t rs)

/-! ### All thresholds -/

theorem evaluate_cons (t : Threshold) (ts : List Threshold) (rs : List Reading) :
    (evaluate (t :: ts) rs).results = (evaluate [t] rs).results ++ (evaluate ts rs).results ∧
      (evaluate (t :: ts) rs).unresolved =
        (evaluate [t] rs).unresolved ++ (evaluate ts rs).unresolved ∧
      (evaluate (t :: ts) rs).unmatched =
        (evaluate [t] rs).unmatched ++ (evaluate ts rs).unmatched := by
  rw [← List.singleton_append]
  simp only [evaluate, List.flatMap_append, List.filterMap_append, List.filter_append, and_self]

/-- A report is made of the pieces of its thresholds, in order. -/
theorem exists_placed (ts : List Threshold) (rs : List Reading) :
    ∃ pieces : List Report, List.Forall₂ (Placed · rs) ts pieces ∧
      (evaluate ts rs).results = pieces.flatMap Report.results ∧
      (evaluate ts rs).unresolved = pieces.flatMap Report.unresolved ∧
      (evaluate ts rs).unmatched = pieces.flatMap Report.unmatched := by
  induction ts with
  | nil => exact ⟨[], .nil, rfl, rfl, rfl⟩
  | cons t ts ih =>
      obtain ⟨pieces, hplaced, hresults, hunresolved, hunmatched⟩ := ih
      obtain ⟨hr, hu, hn⟩ := evaluate_cons t ts rs
      refine ⟨evaluate [t] rs :: pieces, .cons (placed_alone t rs) hplaced, ?_, ?_, ?_⟩
      · rw [hr, hresults, List.flatMap_cons]
      · rw [hu, hunresolved, List.flatMap_cons]
      · rw [hn, hunmatched, List.flatMap_cons]

theorem resolves_of_mem_results {ts : List Threshold} (h : x ∈ (evaluate ts rs).results) :
    x.threshold ∈ ts ∧ x.reading ∈ rs ∧ Resolves x.threshold x.reading x := by
  simp only [evaluate, List.mem_flatMap, resultsFor, List.mem_filterMap, readingsFor,
    List.mem_filter, decide_eq_true_eq] at h
  obtain ⟨t, ht, r, ⟨hr, hm⟩, hx⟩ := h
  cases hcheck : check t r with
  | error reason =>
      rw [hcheck] at hx
      cases hx
  | ok y =>
      rw [hcheck] at hx
      obtain rfl := Option.some.inj hx
      have hresolves := (check_eq_ok_iff hm).mp hcheck
      rw [hresolves.threshold, hresolves.reading]
      exact ⟨ht, hr, hresolves⟩

/-! ### Missing metrics -/

/-- The missing metrics are those of the unmatched thresholds, each once, in the order in which they
appear first. -/
theorem missingMetrics_spec (report : Report) :
    report.missingMetrics.Nodup ∧
      (∀ m, m ∈ report.missingMetrics ↔ ∃ t ∈ report.unmatched, t.metric = m) ∧
      report.missingMetrics.Pairwise fun m m' =>
        (report.unmatched.map (·.metric)).idxOf m <
          (report.unmatched.map (·.metric)).idxOf m' := by
  refine ⟨nodup_eraseDups _, fun m => ?_, pairwise_eraseDups _⟩
  rw [Report.missingMetrics, List.mem_eraseDups, List.mem_map]

/-- **Every threshold is placed.**  The three lists of a report are those of pieces, one for each
threshold in order, and a piece is what its threshold adds (`Placed`).  A pair of one metric either
gives one result or fails for one reason, and a result is always that of such a pair.  The missing
metrics are those of the unmatched thresholds, each once, in the order of first appearance. -/
theorem evaluate_places (ts : List Threshold) (rs : List Reading) :
    (∃ pieces : List Report, List.Forall₂ (Placed · rs) ts pieces ∧
      (evaluate ts rs).results = pieces.flatMap Report.results ∧
      (evaluate ts rs).unresolved = pieces.flatMap Report.unresolved ∧
      (evaluate ts rs).unmatched = pieces.flatMap Report.unmatched) ∧
    (∀ t r, r.metric = t.metric →
      ((∃! x, Resolves t r x) ∧ ∀ reason, ¬Fails t r reason) ∨
        (∀ x, ¬Resolves t r x) ∧ ∃! reason, Fails t r reason) ∧
    (∀ x ∈ (evaluate ts rs).results,
      x.threshold ∈ ts ∧ x.reading ∈ rs ∧ Resolves x.threshold x.reading x) ∧
    (evaluate ts rs).missingMetrics.Nodup ∧
    (∀ m, m ∈ (evaluate ts rs).missingMetrics ↔
      ∃ t ∈ (evaluate ts rs).unmatched, t.metric = m) ∧
    (evaluate ts rs).missingMetrics.Pairwise fun m m' =>
      ((evaluate ts rs).unmatched.map (·.metric)).idxOf m <
        ((evaluate ts rs).unmatched.map (·.metric)).idxOf m' :=
  ⟨exists_placed ts rs, fun _ _ => resolves_or_fails, fun _ => resolves_of_mem_results,
    missingMetrics_spec _⟩

end SiteSafety.Compliance
