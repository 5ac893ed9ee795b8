import SiteSafety.Proofs.Compliance.Verdict
import SiteSafety.Proofs.Formula.Lexemes

/-!
# Proofs — Compliance — Variables

The condition of a threshold refers to a reading by the identifier of its metric.  A word that is
bound is a formula of its own unless it is too long or kept from being a variable
(`validate_word`), and the identifier of the metric is always bound to the reading
(`lookup_identifier`).  Whether a condition can be written on a metric is thus a matter of its name.

* `variable_usable_iff`: the identifier of a metric is a formula exactly when the metric has a
  variable, and evaluates to the reading when that is finite in the unit of the threshold.
* `yield_is_no_variable`: a metric that has none.
-/

namespace SiteSafety.Formula

variable {b : Bindings}

/-- A word that is kept from being a variable is refused where it stands. -/
theorem scan_of_isForbidden {w : List Char} (h : IsWord w) (hforbidden : isForbidden w = true) :
    scan w = .error (.rejected (.keyword (String.ofList w)) 0) := by
  obtain ⟨c, cs, rfl, hc, hcs⟩ := h
  have htail : cs.takeWhile isNameChar = cs := List.takeWhile_eq_self_iff.mpr hcs
  have hblank := isAsciiBlank_of_isNameChar (isNameChar_of_isNameStart hc)
  rw [scan, scanFrom, first_of_isNameStart hc, htail, if_pos hforbidden]
  simp [hblank]

theorem scan_of_isName {w : List Char} (h : IsName w) :
    scan w = .ok [⟨.ident (String.ofList w), w, 0⟩] := by
  have hread : ReadsAs w (.ident (String.ofList w)) [] := readsAs_name h (by simp)
  have hword := scansAs_word hread 0
  unfold ScansAs at hword
  rw [List.append_nil] at hword
  rw [scan, hword, scanFrom]
  rfl

/-- **A bound word as a formula of its own**: it is refused if it is too long or kept from being a
variable, and otherwise it is that variable. -/
theorem validate_word {w : List Char} (h : IsWord w)
    (hbound : (b.lookup (String.ofList w)).isSome) :
    validate (String.ofList w) b =
      if maxBytes < w.length then .error (.rejected (.tooLong maxBytes) maxBytes)
      else if isForbidden w then .error (.rejected (.keyword (String.ofList w)) 0)
      else .ok (.var (String.ofList w) 0) := by
  have hsize : (String.ofList w).utf8ByteSize = w.length := by
    rw [Text.utf8ByteSize_eq_width, h.width_eq]
  split
  next hlong =>
    simp only [validate, hsize, hlong, if_true]
    rfl
  next hshort =>
    split
    next hforbidden =>
      simp only [validate, hsize, hshort, if_false, String.toList_ofList,
        scan_of_isForbidden h hforbidden]
      rfl
    next hallowed =>
      refine validate_eq_ok_iff.mpr ⟨by omega, [⟨.ident (String.ofList w), w, 0⟩], ?_, ?_, ?_⟩
      · rw [String.toList_ofList]
        exact scan_of_isName ⟨h, Bool.eq_false_iff.mpr hallowed⟩
      · exact ofTokens_eq_ok_iff.mpr
          ⟨0, Nat.zero_le _, .sum (.product (.operand (.atom (.name rfl))))⟩
      · rw [Tree.checkBound, if_pos hbound]

end SiteSafety.Formula

namespace SiteSafety.Compliance
open Measurement Rule Decimal

/-- The identifier of the metric is bound last, so it always stands for the reading. -/
theorem lookup_identifier (t : Threshold) (v : Float) :
    (bindings t v).lookup t.metric.identifier = some v := by
  simp [bindings, Formula.Bindings.bind]

theorem checked_eq_ok_iff {x y : Float} :
    Formula.checked x = .ok y ↔ isFinite x = true ∧ x = y := by
  cases hfinite : isFinite x with
  | true => simp [checked_of_isFinite hfinite]
  | false =>
      have hnot := mt isFinite_iff.mpr (Bool.not_eq_true _ ▸ hfinite)
      simp only [Formula.checked, Bool.false_eq_true, false_and, iff_false]
      split
      next => simp
      next hnan =>
        split
        next => simp
        next hinf => exact absurd ⟨Bool.not_eq_true _ ▸ hnan, Bool.not_eq_true _ ▸ hinf⟩ hnot

/-- The formula of a metric is its variable, where it has one. -/
theorem validate_identifier {t : Threshold} {v : Float} {e : Formula.Tree} :
    Formula.validate t.metric.identifier (bindings t v) = .ok e ↔
      t.metric.HasVariable ∧ e = .var t.metric.identifier 0 := by
  obtain ⟨w, hw, hword, hvariable⟩ := identifier_word t.metric
  have hbound : ((bindings t v).lookup (String.ofList w)).isSome := by
    rw [← hw, lookup_identifier]
    rfl
  rw [hvariable, hw, Formula.validate_word hword hbound]
  split
  next hlong => simp [Nat.not_le.mpr hlong]
  next hshort =>
    split
    next hforbidden => simp [hforbidden]
    next hallowed => simp [Nat.not_lt.mp hshort, hallowed, eq_comm]

/-- Its value is that of the reading, where that is finite. -/
theorem evaluate_identifier {t : Threshold} {v y : Float} :
    Formula.evaluate t.metric.identifier (bindings t v) = .ok y ↔
      t.metric.HasVariable ∧ isFinite v = true ∧ v = y := by
  rw [Formula.evaluate, bind_eq_ok_iff]
  simp only [validate_identifier]
  constructor
  · rintro ⟨_, ⟨hvariable, rfl⟩, h⟩
    rw [Formula.Tree.eval, lookup_identifier] at h
    exact ⟨hvariable, checked_eq_ok_iff.mp h⟩
  · rintro ⟨hvariable, h⟩
    refine ⟨_, ⟨hvariable, rfl⟩, ?_⟩
    rw [Formula.Tree.eval, lookup_identifier]
    exact checked_eq_ok_iff.mpr h

/-- A threshold whose condition is its metric alone is violated by every value other than 0. -/
theorem check_identifier {t : Threshold} {r : Reading} {v : Float} {x : Result}
    (hr : isFinite r.value = true) (hv : comparableValue t r = .ok v)
    (hcondition : t.condition = some t.metric.identifier) :
    check t r = .ok x ↔ t.metric.HasVariable ∧ isFinite v = true ∧
      x = ⟨t, r, !Formula.holds v, v - t.value⟩ := by
  have hexpr : t.violationExpression = t.metric.identifier := by
    rw [Threshold.violationExpression, hcondition, Option.getD_some]
  simp only [check, hr, hv, hexpr, Formula.evaluateCondition, Bool.not_true, Bool.false_eq_true,
    if_false]
  cases h : Formula.evaluate t.metric.identifier (bindings t v) with
  | error e =>
      have hnone : ¬(t.metric.HasVariable ∧ isFinite v = true) := by
        rintro ⟨hvariable, hfinite⟩
        cases h.symm.trans (evaluate_identifier.mpr ⟨hvariable, hfinite, rfl⟩)
      rw [← and_assoc]
      refine iff_of_false (fun hok => ?_) fun hall => hnone hall.1
      cases hok
  | ok y =>
      obtain ⟨hvariable, hfinite, rfl⟩ := evaluate_identifier.mp h
      simp [hvariable, hfinite, Except.map, eq_comm]

/-- **The variable of a metric as a formula of its own.**  Whatever the reading, it is a formula
under the names a threshold binds exactly when the metric has a variable, and has the value of the
reading when that is finite as well; a condition made of it can then be checked. -/
theorem variable_usable_iff (t : Threshold) (r : Reading) (v : Float)
    (hr : isFinite r.value = true) (hv : comparableValue t r = .ok v) :
    ((∃ e, Formula.validate t.metric.identifier (bindings t v) = .ok e) ↔ t.metric.HasVariable) ∧
    (Formula.evaluate t.metric.identifier (bindings t v) = .ok v ↔
      t.metric.HasVariable ∧ isFinite v = true) ∧
    (t.condition = some t.metric.identifier →
      ((∃ x, check t r = .ok x) ↔ t.metric.HasVariable ∧ isFinite v = true)) := by
  refine ⟨?_, ?_, ?_⟩
  · simp [validate_identifier]
  · simp [evaluate_identifier]
  · intro hcondition
    simp [check_identifier hr hv hcondition]

/-- A custom metric with an ordinary name has a variable. -/
theorem noise_level_usable :
    (∃ e, Formula.validate "noise_level"
      (bindings (limitOf (.custom "Noise level")) 25.0) = .ok e) ∧
    Formula.evaluate "noise_level" (bindings (limitOf (.custom "Noise level")) 25.0) =
      .ok 25.0 := by
  have hvalue : (25.0 : Float) * 1.0 + 0.0 = 25.0 := by decide
  have hv : comparableValue (limitOf (.custom "Noise level"))
      (readingOf (.custom "Noise level") 25.0 "mph") = .ok (25.0 * 1.0 + 0.0) := rfl
  rw [hvalue] at hv
  have hname : NamesVariable (Text.trim "Noise level".toList) := by decide
  obtain ⟨hvalid, heval, -⟩ := variable_usable_iff (limitOf (.custom "Noise level"))
    (readingOf (.custom "Noise level") 25.0 "mph") 25.0 (by decide) hv
  exact ⟨hvalid.mpr hname, heval.mpr ⟨hname, by decide⟩⟩

/-- The yield of a steel has no variable: `yield` is a reserved word. -/
theorem yield_is_no_variable :
    comparableValue (limitOf (.custom "yield")) (readingOf (.custom "yield") 25.0 "mph") =
        .ok 25.0 ∧
      (Metric.custom "yield").identifier = "yield" ∧
      (bindings (limitOf (.custom "yield")) 25.0).lookup "yield" = some 25.0 ∧
      Formula.validate "yield" (bindings (limitOf (.custom "yield")) 25.0) =
        .error (.rejected (.keyword "yield") 0) := by
  have hvalue : (25.0 : Float) * 1.0 + 0.0 = 25.0 := by decide
  have hv : comparableValue (limitOf (.custom "yield")) (readingOf (.custom "yield") 25.0 "mph") =
      .ok (25.0 * 1.0 + 0.0) := rfl
  rw [hvalue] at hv
  have hword : Formula.IsWord "yield".toList := by decide
  refine ⟨hv, by decide, rfl, ?_⟩
  exact (Formula.validate_word hword rfl).trans rfl

end SiteSafety.Compliance
