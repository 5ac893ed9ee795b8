import Mathlib.Data.List.Flatten
import Mathlib.Data.List.Perm.Subperm
import SiteSafety.Decision.Synthesis

/-!
# Proofs — Decision — Monotone

A violation cannot be outvoted.  Snippets are read one by one, and each threshold is checked
against each reading by itself, so extraction and evaluation send a list that occurs in another one
(`List.Subperm`, with multiplicity and in any order) to results that occur in the results of the
other.  Results are never taken back, and a violation blocks whatever else was found.

* `results_subperm`, `results_perm`: more rules and readings give more results, and a different
  order of them the same results in a different order.
* `violation_not_outvoted`: **a decision that is blocked stays blocked** when rules and readings are
  added, and rearranging them changes no verdict.
-/

namespace SiteSafety
open Compliance Measurement Rule

/-! ### Lists that occur in others -/

variable {α β : Type}

theorem subperm_filterMap (f : α → Option β) {xs ys : List α} (h : xs.Subperm ys) :
    (xs.filterMap f).Subperm (ys.filterMap f) := by
  obtain ⟨zs, hperm, hsub⟩ := h
  exact ⟨zs.filterMap f, hperm.filterMap f, hsub.filterMap f⟩

theorem subperm_flatMap {f g : α → List β} {xs ys : List α} (h : xs.Subperm ys)
    (hfg : ∀ x, (f x).Subperm (g x)) : (xs.flatMap f).Subperm (ys.flatMap g) := by
  -- first what each item gives grows, then the list of items
  have hstep : (xs.flatMap f).Subperm (xs.flatMap g) := by
    induction xs with
    | nil => exact List.Subperm.refl _
    | cons x xs ih =>
        rw [List.flatMap_cons, List.flatMap_cons]
        exact (hfg x).append (ih ((List.sublist_cons_self x xs).subperm.trans h))
  obtain ⟨zs, hperm, hsub⟩ := h
  exact hstep.trans ⟨zs.flatMap g, hperm.flatMap_right g, hsub.flatMap g⟩

/-! ### Reports -/

namespace Compliance
variable {rs rs' : List Reading} {ts ts' : List Threshold}

theorem resultsFor_subperm (h : rs.Subperm rs') (t : Threshold) :
    (resultsFor rs t).Subperm (resultsFor rs' t) :=
  subperm_filterMap _ (h.filter _)

theorem resultsFor_perm (h : rs.Perm rs') (t : Threshold) :
    (resultsFor rs t).Perm (resultsFor rs' t) :=
  (h.filter _).filterMap _

theorem results_evaluate_subperm (ht : ts.Subperm ts') (hr : rs.Subperm rs') :
    (evaluate ts rs).results.Subperm (evaluate ts' rs').results :=
  subperm_flatMap ht (resultsFor_subperm hr)

theorem results_evaluate_perm (ht : ts.Perm ts') (hr : rs.Perm rs') :
    (evaluate ts rs).results.Perm (evaluate ts' rs').results :=
  ht.flatMap fun t _ => resultsFor_perm hr t

end Compliance

/-! ### Decisions -/

namespace Decision

theorem thresholds_extract_subperm {ss ss' : List Snippet} (h : ss.Subperm ss') :
    (extract ss).thresholds.Subperm (extract ss').thresholds :=
  subperm_flatMap (h.filter _) fun _ => List.Subperm.refl _

theorem thresholds_extract_perm {ss ss' : List Snippet} (h : ss.Perm ss') :
    (extract ss).thresholds.Perm (extract ss').thresholds :=
  (h.filter _).flatMap_right _

/-- The report that the decision on an input rests on. -/
def Input.report (i : Input) : Report := evaluate (extract i.snippets).thresholds i.readings

/-- The verdict that a decision states first. -/
def Input.verdict (i : Input) : Verdict := Decision.verdict i.report

variable {maxI maxJ : Nat} {i j : Input} {nowI nowJ : Calendar.Instant}

/-- A decision is go exactly when its verdict is clear. -/
theorem canProceed_iff_clear :
    (make maxI i nowI).canProceed = true ↔ ∃ n, i.verdict = .clear n := by
  show (i.report.violations.isEmpty && i.report.hasResolved) = true ↔ _
  unfold Input.verdict Decision.verdict
  cases i.report.violations.isEmpty <;> cases i.report.hasResolved <;> simp

theorem verdict_eq_blocked_iff {n : Nat} :
    i.verdict = .blocked n ↔ i.report.violations ≠ [] ∧ n = i.report.violations.length := by
  unfold Input.verdict Decision.verdict
  cases hv : i.report.violations with
  | nil => simp; split <;> simp
  | cons x xs => simp [eq_comm]

theorem results_subperm (hs : i.snippets.Subperm j.snippets) (hr : i.readings.Subperm j.readings) :
    i.report.results.Subperm j.report.results :=
  results_evaluate_subperm (thresholds_extract_subperm hs) hr

theorem violations_subperm (hs : i.snippets.Subperm j.snippets)
    (hr : i.readings.Subperm j.readings) :
    i.report.violations.Subperm j.report.violations :=
  (results_subperm hs hr).filter _

theorem results_perm (hs : i.snippets.Perm j.snippets) (hr : i.readings.Perm j.readings) :
    i.report.results.Perm j.report.results :=
  results_evaluate_perm (thresholds_extract_perm hs) hr

/-- The verdict depends on the results up to their order. -/
theorem verdict_eq_of_perm (h : i.report.results.Perm j.report.results) :
    i.verdict = j.verdict := by
  have hviolations : i.report.violations.Perm j.report.violations := h.filter _
  have hresolved : i.report.hasResolved = j.report.hasResolved := by
    simp only [Report.hasResolved, h.isEmpty_eq]
  unfold Input.verdict Decision.verdict
  rw [hviolations.isEmpty_eq, hviolations.length_eq, hresolved, h.length_eq]

/-- **A violation cannot be outvoted.**  With the rules and readings of one input occurring in
another one, each violation of the first decision is one of the second, as often and with the same
threshold, reading and margin; so a verdict of blocked stays one, with no fewer violations.  An
input that is only rearranged has the same results and the same verdict. -/
theorem violation_not_outvoted (hs : i.snippets.Subperm j.snippets)
    (hr : i.readings.Subperm j.readings) :
    (make maxI i nowI).violations.Subperm (make maxJ j nowJ).violations ∧
    (∀ x ∈ (make maxI i nowI).violations, x ∈ (make maxJ j nowJ).violations) ∧
    (∀ n, i.verdict = .blocked n →
      (make maxJ j nowJ).canProceed = false ∧ ∃ m, n ≤ m ∧ j.verdict = .blocked m) ∧
    (i.snippets.Perm j.snippets → i.readings.Perm j.readings →
      (make maxI i nowI).results.Perm (make maxJ j nowJ).results ∧
      (make maxI i nowI).canProceed = (make maxJ j nowJ).canProceed ∧ i.verdict = j.verdict) := by
  have hsub := violations_subperm hs hr
  refine ⟨hsub, fun x hx => hsub.subset hx, ?_, ?_⟩
  · intro n hn
    obtain ⟨hne, rfl⟩ := verdict_eq_blocked_iff.mp hn
    obtain ⟨x, hx⟩ := List.exists_mem_of_ne_nil _ hne
    have hblocked : j.verdict = .blocked j.report.violations.length :=
      verdict_eq_blocked_iff.mpr ⟨List.ne_nil_of_mem (hsub.subset hx), rfl⟩
    refine ⟨?_, _, hsub.length_le, hblocked⟩
    rw [Bool.eq_false_iff, Ne, canProceed_iff_clear, hblocked]
    rintro ⟨m, h⟩
    cases h
  · intro hs hr
    have hresults := results_perm hs hr
    have hverdict := verdict_eq_of_perm hresults
    refine ⟨hresults, ?_, hverdict⟩
    rw [Bool.eq_iff_iff, canProceed_iff_clear, canProceed_iff_clear, hverdict]

/-- A rule about wind. -/
def gustRule : Snippet := ⟨"No lifting in wind above 20 mph.", ⟨1, "lifting", "", 1.0⟩⟩

/-- A rule about rain. -/
def rainRule : Snippet := ⟨"No lifting in rain above 5 mm.", ⟨2, "lifting", "", 0.5⟩⟩

/-- A lift under rules, in winds. -/
def windyLift (snippets : List Snippet) (winds : List Float) : Input where
  site := "Alpha"
  operation := "lift"
  snippets := snippets
  readings := winds.map fun v => ⟨.windSpeed, v, "mph", ⟨0⟩⟩

/-- A wind of 30 mph blocks a lift, and still does when a calm hour and another rule come first. -/
theorem calm_hour_changes_nothing :
    (windyLift [gustRule] [30.0]).verdict = .blocked 1 ∧
    (make 5 (windyLift [rainRule, gustRule] [12.0, 30.0]) ⟨0⟩).canProceed = false ∧
    (windyLift [rainRule, gustRule] [12.0, 30.0]).verdict =
      (windyLift [gustRule, rainRule] [30.0, 12.0]).verdict := by
  have hblocked : (windyLift [gustRule] [30.0]).verdict = .blocked 1 := by decide +kernel
  obtain ⟨-, -, hstays, -⟩ := @violation_not_outvoted 5 5 (windyLift [gustRule] [30.0])
    (windyLift [rainRule, gustRule] [12.0, 30.0]) ⟨0⟩ ⟨0⟩ (List.sublist_cons_self _ _).subperm
    (List.sublist_cons_self _ _).subperm
  obtain ⟨-, -, -, hsame⟩ := @violation_not_outvoted 5 5
    (windyLift [rainRule, gustRule] [12.0, 30.0]) (windyLift [gustRule, rainRule] [30.0, 12.0])
    ⟨0⟩ ⟨0⟩ (List.Perm.swap _ _ _).subperm (List.Perm.swap _ _ _).subperm
  exact ⟨hblocked, (hstays 1 hblocked).1, (hsame (.swap _ _ _) (.swap _ _ _)).2.2⟩

end Decision

end SiteSafety
