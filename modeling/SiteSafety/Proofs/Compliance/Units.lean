import SiteSafety.Proofs.Clause.Amounts
import SiteSafety.Proofs.Compliance.Placement

/-!
# Proofs — Compliance — Units

In which unit a reading is compared with a limit of a rule.  A limit comes from an amount of the
rule (`Clause.Amount`).  A reading is compared with it in two cases only: both are brought to the
unit of one family by the same table (`Converted`), or the unit of the limit is none of the metric
and the reading is given in that very unit, and then neither is converted (`Kept`).

* `comparableValue_eq_ok_iff`: the values a reading is compared with, by the two cases.
* `no_comparison_across_units`: **every limit that is read from a rule is compared in one unit**,
  and with a reading that is given as the rule gives the limit, it is compared as that limit.
-/

namespace SiteSafety.Compliance
open Measurement Rule
open Clause (Amount)

variable {s : Snippet} {a : Amount s} {t : Threshold} {r : Reading} {v : Float}
  {c c' : Conversion}

/-- Limit and reading are converted to the unit of one family that is allowed for the metric. -/
structure Converted (a : Amount s) (t : Threshold) (r : Reading) (v : Float)
    (c c' : Conversion) : Prop where
  verified : t.unitVerified = true
  limit : conversion? a.unit = some c
  allowed : t.metric.Allows c.family
  reading : conversion? r.unit = some c'
  family : c'.family = c.family
  unit : t.unit = c.family.unit
  limitValue : t.value = a.value * c.scale + c.shift
  readingValue : v = r.value * c'.scale + c'.shift

/-- The unit of the limit is not verified, the reading is given in the same one, blanks at the ends
and the case of ASCII letters aside, and both values are as they were given. -/
structure Kept (a : Amount s) (t : Threshold) (r : Reading) (v : Float) : Prop where
  verified : t.unitVerified = false
  unit : Text.asciiLower (Text.trim r.unit.toList) = Text.asciiLower (Text.trim t.unit.toList)
  limitValue : t.value = a.value
  readingValue : v = r.value

/-- The reading is compared as the value, in the unit of the limit. -/
def ComparedAs (a : Amount s) (t : Threshold) (r : Reading) (v : Float) : Prop :=
  (∃ c c', Converted a t r v c c') ∨ Kept a t r v

/-- The reading has the number that is written in the rule, less its thousands separators, and the
unit in full or a word of it. -/
structure GivenAsWritten (a : Amount s) (r : Reading) : Prop where
  number : Decimal.read? (a.numeral.filter (· != ',')) = some r.value
  unit : a.Writes (Text.trimmed r.unit)

/-! ### The two cases -/

theorem comparableValue_of_verified (h : t.unitVerified = true) :
    comparableValue t r = .ok v ↔ ∃ c', conversion? r.unit = some c' ∧ t.metric.Allows c'.family ∧
      t.unit = c'.family.unit ∧ v = r.value * c'.scale + c'.shift := by
  simp only [comparableValue, h, if_true]
  constructor
  · intro hok
    split at hok
    next hboth =>
      obtain ⟨hverified, hunit⟩ := Bool.and_eq_true_iff.mp hboth
      obtain ⟨c', hc', hallowed⟩ := canonicalize_verified_iff.mp hverified
      rw [canonicalize_of_conversion? hc' hallowed] at hok hunit
      cases hok
      rw [conversion?_trimmed] at hc'
      exact ⟨c', hc', hallowed, (beq_iff_eq.mp hunit).symm, rfl⟩
    next => cases hok
  · rintro ⟨c', hc', hallowed, hunit, rfl⟩
    rw [← conversion?_trimmed] at hc'
    simp only [canonicalize_of_conversion? hc' hallowed, hunit, beq_self_eq_true, Bool.and_self,
      if_true]

theorem comparableValue_of_not_verified (h : t.unitVerified = false) :
    comparableValue t r = .ok v ↔
      Text.asciiLower (Text.trim r.unit.toList) = Text.asciiLower (Text.trim t.unit.toList) ∧
        v = r.value := by
  have hsame : sameUnit (Text.trimmed r.unit) t.unit = true ↔
      Text.asciiLower (Text.trim r.unit.toList) = Text.asciiLower (Text.trim t.unit.toList) := by
    rw [sameUnit, beq_iff_eq, Text.trimmed, String.toList_ofList, Text.trim_trim]
  simp only [comparableValue, h, Bool.false_eq_true, if_false, ← hsame]
  split
  next hunit => simp [hunit, eq_comm]
  next hunit => simp [hunit]

/-- **A reading is compared in one of two cases**, and in each of them as one value. -/
theorem comparableValue_eq_ok_iff (ha : a.IsLimitOf t) :
    comparableValue t r = .ok v ↔ ComparedAs a t r v := by
  cases hverified : t.unitVerified with
  | true =>
      obtain ⟨c, hc, hallowed, hunit, hvalue⟩ := ha.converted hverified
      rw [comparableValue_of_verified hverified]
      constructor
      · rintro ⟨c', hc', -, hunit', hv⟩
        -- the threshold has one unit, and no two families share theirs
        have hfamily : c'.family = c.family := Family.unit_injective (hunit'.symm.trans hunit)
        exact .inl ⟨c, c', hverified, hc, hallowed, hc', hfamily, hunit, hvalue, hv⟩
      · rintro (⟨_, c', h⟩ | h)
        · exact ⟨c', h.reading, h.family ▸ h.allowed, h.family ▸ h.unit, h.readingValue⟩
        · rw [h.verified] at hverified
          cases hverified
  | false =>
      have hlimit := ha.verified.symm.trans hverified
      have hvalue := ha.value.trans (value_of_not_verified hlimit)
      rw [comparableValue_of_not_verified hverified]
      constructor
      · rintro ⟨hunit, hv⟩
        exact .inr ⟨hverified, hunit, hvalue, hv⟩
      · rintro (⟨_, _, h⟩ | h)
        · rw [h.verified] at hverified
          cases hverified
        · exact ⟨h.unit, h.readingValue⟩

/-! ### Readings given as the limit is written -/

theorem GivenAsWritten.value_eq (hr : GivenAsWritten a r) : r.value = a.value :=
  Option.some.inj (hr.number.symm.trans a.read_numeral)

/-- A reading that is given as the limit is written is converted as the limit is. -/
theorem Converted.eq_value (h : Converted a t r v c c') (hr : GivenAsWritten a r) :
    v = t.value := by
  have hreading := h.reading
  rw [← conversion?_trimmed] at hreading
  obtain rfl : c' = c := a.conversion_eq_of_writes hr.unit h.limit hreading h.family
  rw [h.readingValue, h.limitValue, hr.value_eq]

/-- A limit with a unit of one word is compared with such a reading, if its unit is verified. -/
theorem comparableValue_of_word (ha : a.IsLimitOf t) (hr : GivenAsWritten a r)
    (hword : a.unitTokens.length = 1) (hverified : t.unitVerified = true) :
    comparableValue t r = .ok t.value := by
  obtain ⟨c, hc, hallowed, hunit, hvalue⟩ := ha.converted hverified
  have hreading : conversion? r.unit = some c := by
    rw [← conversion?_trimmed, a.conversion?_of_writes hword hr.unit, hc]
  exact (comparableValue_of_verified hverified).mpr
    ⟨c, hreading, hallowed, hunit, by rw [hvalue, hr.value_eq]⟩

/-- **No comparison across units.**  A threshold that is read from snippets has an amount of one of
them for its limit.  A check of a reading of its metric that gives a result compares the reading
with the limit in one unit.  A reading given as the limit is written is compared as the limit
itself, if it is converted at all; and it is where the unit is one word and verified. -/
theorem no_comparison_across_units {ss : List Snippet}
    (ht : t ∈ (Clause.ofSnippets ss).thresholds) :
    ∃ s ∈ ss, ∃ a : Amount s, a.IsLimitOf t ∧ ∀ r : Reading, r.metric = t.metric →
      (∀ x, check t r = .ok x → ∃ v, ComparedAs a t r v ∧ x.margin = v - t.value ∧
        Formula.evaluateCondition t.violationExpression (bindings t v) = .ok (!x.satisfied)) ∧
      (∀ v, comparableValue t r = .ok v ↔ ComparedAs a t r v) ∧
      (GivenAsWritten a r → (∀ v c c', Converted a t r v c c' → v = t.value) ∧
        (a.unitTokens.length = 1 → t.unitVerified = true →
          comparableValue t r = .ok t.value)) := by
  obtain ⟨s, hs, hmem⟩ := List.mem_flatMap.mp ht
  obtain ⟨a, ha⟩ := Clause.exists_amount hmem
  refine ⟨s, hs, a, ha, fun r hr => ⟨fun x hx => ?_, fun v => comparableValue_eq_ok_iff ha,
    fun hgiven => ⟨fun v c c' h => h.eq_value hgiven, comparableValue_of_word ha hgiven⟩⟩⟩
  cases (check_eq_ok_iff hr).mp hx with
  | intro _ _ hv hviolated =>
      exact ⟨_, (comparableValue_eq_ok_iff ha).mp hv, rfl, by rw [Bool.not_not, hviolated]⟩

/-! ### A limit in kilometres -/

/-- A limit that is converted. -/
def kilometres : Snippet := ⟨"wind over 32 km/h", ⟨1, "rules", "", 1.0⟩⟩

/-- The clause of the rule. -/
def kilometresClause : Clause.Found := ⟨.windSpeed, .gt, 32.0, "km/h", 0, 17, none⟩

/-- The threshold of the rule. -/
def kilometresLimit : Threshold :=
  kilometresClause.threshold kilometres.citation kilometres.text.toList []

def kilometresTokens : List Clause.Token :=
  [⟨.word "wind", 0, 4⟩, ⟨.word "over", 5, 9⟩, ⟨.number 32.0, 10, 12⟩, ⟨.word "km/h", 13, 17⟩]

theorem mask_kilometres : Clause.mask kilometres.text.toList = (kilometres.text.toList, []) :=
  Clause.maskFrom_of_no_bracket (by decide) 0

theorem snippetTokens_kilometres : Clause.snippetTokens kilometres = kilometresTokens := by
  rw [Clause.snippetTokens, mask_kilometres]
  show Clause.tokensFrom none 0 "wind over 32 km/h".toList = kilometresTokens
  refine (Clause.tokensFrom_kind (.word "wind") 3 rfl).trans
    (congrArg _ (Clause.tokensFrom_space.trans ?_))
  refine (Clause.tokensFrom_kind (.word "over") 3 rfl).trans
    (congrArg _ (Clause.tokensFrom_space.trans ?_))
  refine (Clause.tokensFrom_kind (.number 32.0) 1 rfl).trans
    (congrArg _ (Clause.tokensFrom_space.trans ?_))
  refine (Clause.tokensFrom_kind (.word "km/h") 3 rfl).trans (congrArg _ ?_)
  show Clause.tokensFrom _ _ [] = []
  rw [Clause.tokensFrom]

theorem mem_thresholds_kilometres :
    kilometresLimit ∈ (Clause.ofSnippets [kilometres]).thresholds := by
  let wind : Clause.Start := ⟨[], ⟨.word "wind", 0, 4⟩, kilometresTokens.tail, .windSpeed, 1⟩
  have hwind : wind ∈ Clause.starts [] kilometresTokens := Clause.head_mem_starts rfl
  have hfound : wind.finding? = some (.found kilometresClause) := rfl
  refine List.mem_flatMap.mpr ⟨kilometres, List.mem_singleton_self _, ?_⟩
  rw [Clause.thresholds_eq_filterMap, snippetTokens_kilometres, mask_kilometres]
  exact List.mem_filterMap.mpr
    ⟨_, List.mem_filterMap.mpr ⟨wind, hwind, hfound⟩, rfl⟩

/-- The limit is verified, and no reading is compared with it in another unit. -/
theorem kilometres_compared_in_one_unit :
    kilometresLimit ∈ (Clause.ofSnippets [kilometres]).thresholds ∧
      kilometresLimit.unitVerified = true ∧
      ∃ s ∈ [kilometres], ∃ a : Amount s, a.IsLimitOf kilometresLimit ∧
        ∀ r : Reading, r.metric = .windSpeed →
          ∀ v, comparableValue kilometresLimit r = .ok v ↔ ComparedAs a kilometresLimit r v := by
  obtain ⟨s, hs, a, ha, hall⟩ := no_comparison_across_units mem_thresholds_kilometres
  exact ⟨mem_thresholds_kilometres, by decide +kernel, s, hs, a, ha, fun r hr => (hall r hr).2.1⟩

end SiteSafety.Compliance
