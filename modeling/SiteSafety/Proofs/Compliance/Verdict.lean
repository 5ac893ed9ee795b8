import SiteSafety.Compliance.Report
import SiteSafety.Proofs.Decimal.Finite
import SiteSafety.Proofs.Formula.Acceptance
import SiteSafety.Proofs.Formula.Scanning
import SiteSafety.Proofs.Measurement.Identifiers

/-!
# Proofs — Compliance — Verdict

The verdict on a reading against a threshold that has no condition of its own.  Its expression,
`reading > limit` or one of its four sisters, is read as one comparison of two variables
(`validate_plainExpression`), so the verdict is that comparison of whatever the two are bound to.

`reading` is always the reading.  `limit` is the limit unless the metric itself is called `limit`:
the identifier of the metric is bound last and takes the place of the limit
(`lookup_limit`).  The reading is then compared with itself.

* `verdict_iff`: a finite reading and limit always give a result, with the margin `reading - limit`;
  its verdict is that of the threshold's comparison exactly when the metric is not called `limit`
  or comparing the reading with itself happens to say the same.
* `limit_metric_passes`: a reading above its limit that counts as satisfied.
-/

namespace SiteSafety.Measurement

/-- Whether a reading stands to a limit in the way that is blocked. -/
def Comparator.compares : Comparator → Float → Float → Bool
  | .lt, x, y => x < y
  | .le, x, y => x ≤ y
  | .gt, x, y => x > y
  | .ge, x, y => x ≥ y
  | .eq, x, y => x == y

/-- The operation that a comparator is in an expression. -/
def Comparator.op : Comparator → Formula.Op
  | .lt => .lt
  | .le => .le
  | .gt => .gt
  | .ge => .ge
  | .eq => .eq

/-- The token that stands for it. -/
def Comparator.token : Comparator → Formula.Token
  | .lt => .lt
  | .le => .le
  | .gt => .gt
  | .ge => .ge
  | .eq => .eq

theorem Comparator.comparison?_token (c : Comparator) :
    Formula.Op.comparison? c.token = some c.op := by
  cases c <;> rfl

/-! ### Metrics called `limit` -/

/-- The metric is named `limit`, case and blanks around the name aside. -/
def Metric.IsCalledLimit (m : Metric) : Prop :=
  ∃ name, m = .custom name ∧ Text.asciiLower (Text.trim name.toList) = "limit".toList

theorem customIdentifier_eq_limit_iff (cs : List Char) :
    customIdentifier cs = "limit".toList ↔ Text.asciiLower (Text.trim cs) = "limit".toList := by
  simp only [customIdentifier]
  constructor
  · intro h
    split at h
    · cases h
    · exact eq_of_map_identifierChar_eq h (by decide)
  · intro h
    rw [h]
    decide

/-- A metric shares its variable with the limit exactly when it is called `limit`. -/
theorem Metric.identifier_eq_limit_iff (m : Metric) :
    m.identifier = "limit" ↔ m.IsCalledLimit := by
  cases m with
  | custom name =>
      simp only [Metric.identifier, Metric.IsCalledLimit, Metric.custom.injEq]
      rw [← String.toList_inj, String.toList_ofList, customIdentifier_eq_limit_iff]
      constructor
      · exact fun h => ⟨name, rfl, h⟩
      · rintro ⟨_, rfl, h⟩
        exact h
  | _ => simp [Metric.identifier, Metric.IsCalledLimit]

end SiteSafety.Measurement

namespace SiteSafety.Compliance
open Measurement Rule Decimal

/-! ### The plain expression -/

/-- The expression of a threshold without a condition. -/
def plainExpression (c : Comparator) : String := s!"reading {c.symbol} limit"

/-- Its tokens. -/
def plainTokens (c : Comparator) : List Formula.Lexeme :=
  [⟨.ident "reading", "reading".toList, 0⟩, ⟨c.token, c.symbol.toList, 8⟩,
    ⟨.ident "limit", "limit".toList, 9 + c.symbol.length⟩]

/-- Its tree. -/
def plainTree (c : Comparator) : Formula.Tree :=
  .binary c.op (.var "reading" 0) (.var "limit" (9 + c.symbol.length))

theorem scanFrom_symbol (c : Comparator) (o : Nat) (cs : List Char) :
    Formula.scanFrom o (c.symbol.toList ++ ' ' :: cs) =
      (Formula.scanFrom (o + c.symbol.length + 1) cs).map (⟨c.token, c.symbol.toList, o⟩ :: ·) := by
  cases c <;> exact (Formula.scanFrom_token rfl rfl).trans (congrArg _ Formula.scanFrom_space)

theorem scanFrom_limit (o : Nat) :
    Formula.scanFrom o "limit".toList = .ok [⟨.ident "limit", "limit".toList, o⟩] := by
  have hfirst : Formula.Token.first 'l' "imit".toList = .ok (.ident "limit", 4) := rfl
  refine (Formula.scanFrom_token rfl hfirst).trans ?_
  show (Formula.scanFrom _ []).map _ = _
  rw [Formula.scanFrom]
  rfl

theorem scan_plainExpression (c : Comparator) :
    Formula.scan (plainExpression c).toList = .ok (plainTokens c) := by
  have htext : (plainExpression c).toList =
      "reading".toList ++ ' ' :: (c.symbol.toList ++ ' ' :: "limit".toList) := by
    cases c <;> rfl
  have hfirst (cs : List Char) : Formula.Token.first 'r' ("eading".toList ++ ' ' :: cs) =
      .ok (.ident "reading", 6) := rfl
  have hreading (cs : List Char) : Formula.scanFrom 0 ("reading".toList ++ ' ' :: cs) =
      (Formula.scanFrom 7 (' ' :: cs)).map (⟨.ident "reading", "reading".toList, 0⟩ :: ·) :=
    Formula.scanFrom_token rfl (hfirst cs)
  rw [Formula.scan, htext, hreading, Formula.scanFrom_space, scanFrom_symbol, scanFrom_limit,
    plainTokens]
  simp only [Except.map, Except.ok.injEq, List.cons.injEq, Formula.Lexeme.mk.injEq, true_and,
    and_true]
  omega

theorem derives_plainTree (c : Comparator) :
    Formula.Derives .comparison 0 (plainTokens c) (plainTree c) :=
  .compared c.comparison?_token (.product (.operand (.atom (.name rfl))))
    (.product (.operand (.atom (.name rfl))))

/-- With both variables bound, the plain expression is the comparison of the two. -/
theorem validate_plainExpression (c : Comparator) {b : Formula.Bindings} {x y : Float}
    (hx : b.lookup "reading" = some x) (hy : b.lookup "limit" = some y) :
    Formula.validate (plainExpression c) b = .ok (plainTree c) := by
  have hlen : (plainExpression c).utf8ByteSize ≤ Formula.maxBytes := by
    cases c <;> decide
  have hb : (plainTree c).checkBound b = .ok () := by
    simp [plainTree, Formula.Tree.checkBound, hx, hy]
  exact Formula.validate_eq_ok_iff.mpr ⟨hlen, _, scan_plainExpression c,
    Formula.ofTokens_eq_ok_iff.mpr ⟨0, Nat.zero_le _, derives_plainTree c⟩, hb⟩

/-! ### Its value -/

theorem checked_of_isFinite {x : Float} (h : isFinite x = true) :
    Formula.checked x = .ok x := by
  simp only [Formula.checked, isNaN_of_isFinite h, isInf_of_isFinite h, Bool.false_eq_true,
    if_false]

theorem checked_truth (p : Bool) : Formula.checked (Formula.truth p) = .ok (Formula.truth p) :=
  checked_of_isFinite (by cases p <;> decide)

theorem holds_truth (p : Bool) : Formula.holds (Formula.truth p) = p := by
  cases p <;> decide

theorem apply_op (c : Comparator) (x y : Float) :
    c.op.apply x y = .ok (Formula.truth (c.compares x y)) := by
  cases c <;> rfl

/-- The plain expression compares what its two variables are bound to. -/
theorem evaluateCondition_plainExpression (c : Comparator) {b : Formula.Bindings} {x y : Float}
    (hx : b.lookup "reading" = some x) (hy : b.lookup "limit" = some y)
    (hxf : isFinite x = true) (hyf : isFinite y = true) :
    Formula.evaluateCondition (plainExpression c) b = .ok (c.compares x y) := by
  have heval : (plainTree c).eval b = .ok (Formula.truth (c.compares x y)) := by
    simp [plainTree, Formula.Tree.eval, hx, hy, checked_of_isFinite hxf, checked_of_isFinite hyf,
      apply_op, checked_truth]
  simp only [Formula.evaluateCondition, Formula.evaluate, validate_plainExpression c hx hy]
  show (Formula.Tree.eval b (plainTree c)).map Formula.holds = _
  rw [heval, Except.map, holds_truth]

/-! ### The bindings -/

variable {t : Threshold} {r : Reading} {v : Float}

/-- The reading is bound as `reading`, whatever the metric is called. -/
theorem lookup_reading (t : Threshold) (v : Float) :
    (bindings t v).lookup "reading" = some v := by
  have hne : ("reading" == "limit") = false := by decide
  simp only [bindings, Formula.Bindings.bind, List.lookup_cons, hne, BEq.rfl]
  split <;> rfl

/-- What `limit` stands for: the limit, or the reading where the metric is called so. -/
def limitSeen (t : Threshold) (v : Float) : Float :=
  if t.metric.identifier = "limit" then v else t.value

theorem limitSeen_of_called (h : t.metric.IsCalledLimit) : limitSeen t v = v :=
  if_pos (t.metric.identifier_eq_limit_iff.mpr h)

theorem limitSeen_of_not_called (h : ¬t.metric.IsCalledLimit) : limitSeen t v = t.value :=
  if_neg (mt t.metric.identifier_eq_limit_iff.mp h)

theorem lookup_limit (t : Threshold) (v : Float) :
    (bindings t v).lookup "limit" = some (limitSeen t v) := by
  -- the identifier of the metric is bound last, so it is found first
  by_cases h : t.metric.identifier = "limit"
  · simp [bindings, Formula.Bindings.bind, limitSeen, h]
  · have hne : ("limit" == t.metric.identifier) = false := beq_false_of_ne (Ne.symm h)
    simp [bindings, Formula.Bindings.bind, limitSeen, List.lookup_cons, h, hne]

/-! ### The verdict -/

/-- A reading and a limit that are finite and comparable give a result. -/
theorem check_plain (hc : t.condition = none) (htf : isFinite t.value = true)
    (hrf : isFinite r.value = true) (hv : comparableValue t r = .ok v)
    (hvf : isFinite v = true) :
    check t r = .ok ⟨t, r, !t.operator.compares v (limitSeen t v), v - t.value⟩ := by
  have hexpr : t.violationExpression = plainExpression t.operator := by
    simp [Threshold.violationExpression, hc, plainExpression]
  have hlf : isFinite (limitSeen t v) = true := by
    unfold limitSeen
    split
    · exact hvf
    · exact htf
  simp only [check, hrf, hv, hexpr, Bool.not_true, Bool.false_eq_true, if_false,
    evaluateCondition_plainExpression t.operator (lookup_reading t v) (lookup_limit t v) hvf hlf]

/-- A result names the threshold and the reading that were checked. -/
theorem of_check_eq_ok {t' : Threshold} {r' : Reading} {x : Result} (h : check t' r' = .ok x) :
    x.threshold = t' ∧ x.reading = r' := by
  unfold check at h
  split at h
  · cases h
  · split at h
    · cases h
    · split at h
      · cases h
      · cases h
        exact ⟨rfl, rfl⟩

/-- The results of a report are the checks that came out of its pairs. -/
theorem mem_results_iff {ts : List Threshold} {rs : List Reading} {x : Result} :
    x ∈ (evaluate ts rs).results ↔
      ∃ t ∈ ts, ∃ r ∈ rs, r.metric = t.metric ∧ check t r = .ok x := by
  have hok : ∀ t r, (check t r).toOption = some x ↔ check t r = .ok x := by
    intro t r
    cases check t r <;> simp [Except.toOption]
  simp only [evaluate, List.mem_flatMap, resultsFor, readingsFor, List.mem_filterMap,
    List.mem_filter, decide_eq_true_eq, hok, and_assoc]

/-- A pair of a threshold and a reading of its metric gives the result of its check and no other
one. -/
theorem mem_results_of_pair {ts : List Threshold} {rs : List Reading} (ht : t ∈ ts) (hr : r ∈ rs)
    (hm : r.metric = t.metric) {satisfied : Bool} {margin : Float} :
    ⟨t, r, satisfied, margin⟩ ∈ (evaluate ts rs).results ↔
      check t r = .ok ⟨t, r, satisfied, margin⟩ := by
  rw [mem_results_iff]
  constructor
  · rintro ⟨t', -, r', -, -, h⟩
    obtain ⟨rfl, rfl⟩ := of_check_eq_ok h
    exact h
  · exact fun h => ⟨t, ht, r, hr, hm, h⟩

/-- **The result of a pair.**  It is the only one, its margin is the reading less the limit, and
its verdict is that of the comparison the threshold asks for exactly when the metric is not called
`limit` or the reading compared with itself gives the same. -/
theorem verdict_iff {ts : List Threshold} {rs : List Reading} {t : Threshold} {r : Reading}
    {v : Float} (ht : t ∈ ts) (hr : r ∈ rs) (hm : r.metric = t.metric)
    (hc : t.condition = none) (htf : isFinite t.value = true) (hrf : isFinite r.value = true)
    (hv : comparableValue t r = .ok v) (hvf : isFinite v = true) :
    (∀ satisfied margin, ⟨t, r, satisfied, margin⟩ ∈ (evaluate ts rs).results ↔
      satisfied = !t.operator.compares v (limitSeen t v) ∧ margin = v - t.value) ∧
    (⟨t, r, !t.operator.compares v t.value, v - t.value⟩ ∈ (evaluate ts rs).results ↔
      (t.metric.IsCalledLimit → t.operator.compares v v = t.operator.compares v t.value)) ∧
    (bindings t v).lookup "reading" = some v ∧
    ((bindings t v).lookup "limit" = some t.value ↔ (t.metric.IsCalledLimit → v = t.value)) := by
  have hcheck := check_plain hc htf hrf hv hvf
  have hresult : ∀ satisfied margin, ⟨t, r, satisfied, margin⟩ ∈ (evaluate ts rs).results ↔
      satisfied = !t.operator.compares v (limitSeen t v) ∧ margin = v - t.value := by
    intro satisfied margin
    rw [mem_results_of_pair ht hr hm, hcheck]
    simp only [Except.ok.injEq, Result.mk.injEq, true_and]
    exact and_congr eq_comm eq_comm
  refine ⟨hresult, ?_, lookup_reading t v, ?_⟩
  · rw [hresult]
    by_cases h : t.metric.IsCalledLimit
    · simp [h, limitSeen_of_called h, eq_comm]
    · simp [h, limitSeen_of_not_called h]
  · rw [lookup_limit]
    by_cases h : t.metric.IsCalledLimit
    · simp [h, limitSeen_of_called h]
    · simp [h, limitSeen_of_not_called h]

/-- A limit of 20 mph. -/
def limitOf (m : Metric) : Threshold where
  metric := m
  operator := .gt
  value := 20.0
  unit := "mph"
  unitVerified := true
  citation := ⟨1, "rules", "", 1.0⟩
  clause := "exceeds 20 mph"

/-- A reading of that metric. -/
def readingOf (m : Metric) (value : Float) (unit : String) : Reading := ⟨m, value, unit, ⟨0⟩⟩

/-- A wind of 30 km/h stays under 20 mph. -/
theorem wind_of_30_kilometres_passes :
    ⟨limitOf .windSpeed, readingOf .windSpeed 30.0 "km/h", true, 30.0 * 0.621371 + 0.0 - 20.0⟩ ∈
      (evaluate [limitOf .windSpeed] [readingOf .windSpeed 30.0 "km/h"]).results := by
  have hv : comparableValue (limitOf .windSpeed) (readingOf .windSpeed 30.0 "km/h") =
      .ok (30.0 * 0.621371 + 0.0) := rfl
  have hpair := verdict_iff (t := limitOf .windSpeed) (r := readingOf .windSpeed 30.0 "km/h")
    (List.mem_singleton_self _) (List.mem_singleton_self _) rfl rfl (by decide) (by decide) hv
    (by decide)
  have hseen : (true : Bool) = !Comparator.gt.compares (30.0 * 0.621371 + 0.0) 20.0 := by decide
  exact (hpair.1 _ _).mpr ⟨hseen, rfl⟩

/-- A reading of 25 mph passes a limit of 20 mph where the metric is called `limit`. -/
theorem limit_metric_passes :
    comparableValue (limitOf (.custom "limit")) (readingOf (.custom "limit") 25.0 "mph") =
        .ok 25.0 ∧
      Comparator.gt.compares 25.0 (limitOf (.custom "limit")).value = true ∧
      (evaluate [limitOf (.custom "limit")] [readingOf (.custom "limit") 25.0 "mph"]).results =
        [⟨limitOf (.custom "limit"), readingOf (.custom "limit") 25.0 "mph", true,
          25.0 - 20.0⟩] := by
  have hvalue : (25.0 : Float) * 1.0 + 0.0 = 25.0 := by decide
  have hv : comparableValue (limitOf (.custom "limit")) (readingOf (.custom "limit") 25.0 "mph") =
      .ok (25.0 * 1.0 + 0.0) := rfl
  rw [hvalue] at hv
  have hseen : (!Comparator.gt.compares 25.0 (limitSeen (limitOf (.custom "limit")) 25.0)) =
      true := by decide
  have hcheck : check (limitOf (.custom "limit")) (readingOf (.custom "limit") 25.0 "mph") =
      .ok ⟨limitOf (.custom "limit"), readingOf (.custom "limit") 25.0 "mph", true,
        25.0 - 20.0⟩ := by
    rw [check_plain rfl (by decide) (by decide) hv (by decide), ← hseen]
    rfl
  have hm : (readingOf (.custom "limit") 25.0 "mph").metric = (limitOf (.custom "limit")).metric :=
    rfl
  refine ⟨hv, by decide, ?_⟩
  simp [evaluate, resultsFor, readingsFor, hm, hcheck, Except.toOption]

end SiteSafety.Compliance
