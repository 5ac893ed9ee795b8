import SiteSafety.Proofs.Compliance.Placement
import SiteSafety.Proofs.Compliance.Variables
import SiteSafety.Proofs.Decimal.Difference
import SiteSafety.Proofs.Formula.Scope

/-!
# Proofs — Compliance — Margins

Whether the margin of a result is a finite number.  The expression of a threshold is evaluated with
a check of every value, but the margin is a difference of its own that nothing checks: it is finite
exactly when both sides are and their exact difference is not rounded out of range (`InRange`).

The expression checks each of the two sides that it refers to, so a side that is infinite or no
number never comes to a result of an expression that names it.

* `margin_isFinite_iff`: **which margins are finite**, and which sides always are.
* `margin_between_ends`: two finite sides whose margin is infinite.
-/

namespace SiteSafety.Compliance
open Measurement Rule Decimal

variable {t : Threshold} {r : Reading} {v : Float} {x : Result} {e : Formula.Tree}

/-- The exact difference of two finite numbers is not rounded out of range. -/
def InRange (v limit : Float) : Prop :=
  ∃ a b, decode? v = some a ∧ decode? limit = some b ∧ |a.value - b.value| < outOfRange

/-- A tree refers to the reading, by one of its two names. -/
def NamesReading (t : Threshold) (e : Formula.Tree) : Prop :=
  "reading" ∈ e.names ∨ t.metric.identifier ∈ e.names

/-- A tree refers to the limit, and the reading has not taken its name. -/
def NamesLimit (t : Threshold) (e : Formula.Tree) : Prop :=
  "limit" ∈ e.names ∧ ¬t.metric.IsCalledLimit

/-! ### The sides -/

/-- The expression of a pair that gives a result is that of a tree with a value. -/
theorem exists_tree (h : Resolves t r x) : ∃ v e y, comparableValue t r = .ok v ∧
    Formula.validate t.violationExpression (bindings t v) = .ok e ∧
    e.eval (bindings t v) = .ok y ∧ x.margin = v - t.value := by
  cases h with
  | intro _ _ hv hviolated =>
      rw [Formula.evaluateCondition, Formula.evaluate] at hviolated
      cases heval : Formula.validate t.violationExpression (bindings t _) >>=
          Formula.Tree.eval (bindings t _) with
      | error err =>
          rw [heval] at hviolated
          cases hviolated
      | ok y =>
          obtain ⟨e, he, hy⟩ := bind_eq_ok_iff.mp heval
          exact ⟨_, e, y, hv, he, hy, rfl⟩

/-- A tree with a value has finite values for all names in it. -/
theorem isFinite_of_lookup {y : Float} (h : e.eval (bindings t v) = .ok y) {name : String}
    (hname : name ∈ e.names) {z : Float} (hz : (bindings t v).lookup name = some z) :
    isFinite z = true := by
  obtain ⟨z', hz', hfinite⟩ := Formula.lookup_of_eval_eq_ok h name hname
  obtain rfl := Option.some.inj (hz'.symm.trans hz)
  exact isFinite_iff.mpr hfinite

theorem isFinite_of_namesReading {y : Float} (h : e.eval (bindings t v) = .ok y)
    (hnames : NamesReading t e) : isFinite v = true := by
  rcases hnames with hreading | hidentifier
  · exact isFinite_of_lookup h hreading (lookup_reading t v)
  · exact isFinite_of_lookup h hidentifier (lookup_identifier t v)

theorem isFinite_of_namesLimit {y : Float} (h : e.eval (bindings t v) = .ok y)
    (hnames : NamesLimit t e) : isFinite t.value = true := by
  obtain ⟨hlimit, hmetric⟩ := hnames
  have hlookup := lookup_limit t v
  rw [limitSeen_of_not_called hmetric] at hlookup
  exact isFinite_of_lookup h hlimit hlookup

/-- The expression of a threshold without a condition refers to both sides. -/
theorem names_of_plain (hc : t.condition = none)
    (h : Formula.validate t.violationExpression (bindings t v) = .ok e) :
    NamesReading t e ∧ (¬t.metric.IsCalledLimit → NamesLimit t e) := by
  have hexpr : t.violationExpression = plainExpression t.operator := by
    simp [Threshold.violationExpression, hc, plainExpression]
  rw [hexpr, validate_plainExpression _ (lookup_reading t v) (lookup_limit t v)] at h
  obtain rfl := Except.ok.inj h
  have hreading : "reading" ∈ (plainTree t.operator).names := List.mem_cons_self
  have hlimit : "limit" ∈ (plainTree t.operator).names := List.mem_cons_of_mem _ List.mem_cons_self
  exact ⟨.inl hreading, fun hmetric => ⟨hlimit, hmetric⟩⟩

/-! ### Pairs without a result -/

/-- A pair of one metric that gives no result leaves its threshold unresolved. -/
theorem mem_unresolved {ts : List Threshold} {rs : List Reading} (ht : t ∈ ts) (hr : r ∈ rs)
    (hm : r.metric = t.metric) (h : ∀ x, ¬Resolves t r x) :
    ∃ reason, ⟨t, reason⟩ ∈ (evaluate ts rs).unresolved := by
  rcases unresolvedFor?_cases t rs with ⟨-, hall⟩ | ⟨_, _, _, reason, -, -, -, hsome⟩
  · obtain ⟨x, hx⟩ := hall r hr hm
    exact absurd hx (h x)
  · exact ⟨reason, List.mem_filterMap.mpr ⟨t, ht, hsome⟩⟩

/-- A side that is not finite gives no result where the expression refers to it. -/
theorem not_resolves (hv : comparableValue t r = .ok v)
    (h : ∀ e, Formula.validate t.violationExpression (bindings t v) = .ok e →
      NamesReading t e ∧ isFinite v = false ∨ NamesLimit t e ∧ isFinite t.value = false) :
    ∀ x, ¬Resolves t r x := by
  intro x hx
  obtain ⟨v', e, y, hv', he, hy, -⟩ := exists_tree hx
  obtain rfl := Except.ok.inj (hv'.symm.trans hv)
  rcases h e he with ⟨hnames, hnot⟩ | ⟨hnames, hnot⟩
  · rw [isFinite_of_namesReading hy hnames] at hnot
    cases hnot
  · rw [isFinite_of_namesLimit hy hnames] at hnot
    cases hnot

/-! ### Margins -/

/-- **Which margins are finite.**  A result has the value of its reading, less its limit, for its
margin, and this is finite exactly when the exact difference of the two is not rounded out of range;
each of the two is finite if the expression of the threshold refers to it.  A pair with a side that
is not finite, and an expression that refers to it, is unresolved instead.  An expression without a
condition refers to both sides, the limit aside where the metric itself is called `limit`. -/
theorem margin_isFinite_iff (ts : List Threshold) (rs : List Reading) :
    (∀ x ∈ (evaluate ts rs).results, ∃ v e,
      comparableValue x.threshold x.reading = .ok v ∧
      Formula.validate x.threshold.violationExpression (bindings x.threshold v) = .ok e ∧
      x.margin = v - x.threshold.value ∧
      (isFinite x.margin = true ↔ InRange v x.threshold.value) ∧
      (NamesReading x.threshold e → isFinite v = true) ∧
      (NamesLimit x.threshold e → isFinite x.threshold.value = true)) ∧
    (∀ t ∈ ts, ∀ r ∈ rs, r.metric = t.metric → ∀ v, comparableValue t r = .ok v →
      (∀ e, Formula.validate t.violationExpression (bindings t v) = .ok e →
        NamesReading t e ∧ isFinite v = false ∨ NamesLimit t e ∧ isFinite t.value = false) →
      (∀ x, ¬Resolves t r x) ∧ ∃ reason, ⟨t, reason⟩ ∈ (evaluate ts rs).unresolved) ∧
    (∀ t v e, t.condition = none →
      Formula.validate t.violationExpression (bindings t v) = .ok e →
      NamesReading t e ∧ (¬t.metric.IsCalledLimit → NamesLimit t e)) := by
  refine ⟨fun x hx => ?_, fun t ht r hr hm v hv hsides => ?_, fun t v e => names_of_plain⟩
  · obtain ⟨-, -, hresolves⟩ := resolves_of_mem_results hx
    obtain ⟨v, e, y, hv, he, hy, hmargin⟩ := exists_tree hresolves
    refine ⟨v, e, hv, he, hmargin, ?_, isFinite_of_namesReading hy, isFinite_of_namesLimit hy⟩
    rw [hmargin]
    exact isFinite_sub_iff
  · have hnone := not_resolves hv hsides
    exact ⟨hnone, mem_unresolved ht hr hm hnone⟩

/-- The margin of a wind of 30 km/h under a limit of 20 mph is finite. -/
theorem wind_of_30_kilometres_in_range : InRange (30.0 * 0.621371 + 0.0) 20.0 := by
  have hv : comparableValue (limitOf .windSpeed) (readingOf .windSpeed 30.0 "km/h") =
      .ok (30.0 * 0.621371 + 0.0) := rfl
  have hcheck := check_plain (t := limitOf .windSpeed) (r := readingOf .windSpeed 30.0 "km/h")
    rfl (by decide) (by decide) hv (by decide)
  have hmem := (mem_results_of_pair (List.mem_singleton_self (limitOf .windSpeed))
    (List.mem_singleton_self (readingOf .windSpeed 30.0 "km/h")) rfl).mpr hcheck
  obtain ⟨v, e, hv', -, -, hrange, -, -⟩ := (margin_isFinite_iff _ _).1 _ hmem
  obtain rfl := Except.ok.inj (hv'.symm.trans hv)
  exact hrange.mp (by decide)

/-! ### The ends of the range -/

/-- A temperature limit far below zero. -/
def coldLimit : Threshold :=
  { limitOf .temperature with value := -1e308, unit := "°F" }

/-- A reading far above it. -/
def hotReading : Reading := readingOf .temperature 1e308 "°F"

/-- Two finite sides at the ends of the range have a margin that is infinite. -/
theorem margin_between_ends :
    isFinite coldLimit.value = true ∧ isFinite hotReading.value = true ∧
      (evaluate [coldLimit] [hotReading]).unresolved = [] ∧
      ∃ x ∈ (evaluate [coldLimit] [hotReading]).results, x.margin.isInf = true := by
  have hv : comparableValue coldLimit hotReading = .ok (1e308 * 1.0 + 0.0) := rfl
  have hcheck := check_plain (t := coldLimit) (r := hotReading)
    rfl (by decide +kernel) (by decide +kernel) hv (by decide +kernel)
  have hmem := (mem_results_of_pair (List.mem_singleton_self coldLimit)
    (List.mem_singleton_self hotReading) rfl).mpr hcheck
  have hm : hotReading.metric = coldLimit.metric := rfl
  refine ⟨by decide +kernel, by decide +kernel, ?_, _, hmem, by decide +kernel⟩
  simp [evaluate, unresolvedFor?, readingsFor, failure?, hm, hcheck]

end SiteSafety.Compliance
