import SiteSafety.Decision.Reasoning
import SiteSafety.Proofs.Clause.Starts
import SiteSafety.Proofs.Text.Lower
import SiteSafety.Proofs.Text.Search

/-!
# Proofs — Decision — Mentions

Which sources the account of a decision mentions.  A text mentions the source of a citation where
the marker of the citation stands in it.

The account writes no bracket but those of markers: the names of metrics, numbers and units have
none.  **So a line about a threshold mentions the source of that threshold**, at its end or before
the reason, and any other source only where it quotes a text that does: the clause, or the reason
for which the threshold could not be checked.

* `marker_eq_iff`: markers are those of source indices.
* `marker_suffix_resultText`, `marker_suffix_unresolvedText`: where the line of a threshold has the
  marker of its own source.
* `mentions_resultText_iff`, `mentions_unresolvedText_iff`: the lines about thresholds.
-/

namespace SiteSafety

/-! ### Numbers and units -/

namespace Decimal

theorem not_mem_toDigits {c : Char} (h : c.isDigit = false) (n : Nat) : c ∉ Nat.toDigits 10 n := by
  intro hmem
  rw [Nat.isDigit_of_mem_toDigits (by decide) (by decide) hmem] at h
  cases h

theorem bracket_not_mem_positional (d : Nat) (k : Int) : '[' ∉ (positional d k).toList := by
  have hdigits : '[' ∉ Nat.toDigits 10 d := not_mem_toDigits rfl d
  unfold positional
  dsimp only
  split_ifs
  · simp [hdigits]
  · rw [String.toList_ofList, List.mem_append, List.mem_cons]
    rintro (h | h | h)
    · exact hdigits (List.mem_of_mem_take h)
    · exact absurd h (by decide)
    · exact hdigits (List.mem_of_mem_drop h)
  · simp [hdigits]

theorem bracket_not_mem_signed {f : Binary → String} (hf : ∀ b, '[' ∉ (f b).toList) (x : Float) :
    '[' ∉ (signed x f).toList := by
  have hsign : ∀ sign ∈ ["-", ""], '[' ∉ sign.toList := by decide
  have hmem : (if signBit x then "-" else "") ∈ ["-", ""] := by split <;> simp
  unfold signed
  dsimp only
  split
  · rw [String.toList_append, List.mem_append]
    exact fun h => h.elim (hsign _ hmem) (hf _)
  · split
    · decide
    · rw [String.toList_append, List.mem_append]
      exact fun h => h.elim (hsign _ hmem) (by decide)

theorem bracket_not_mem_plain (x : Float) : '[' ∉ (plain x).toList := by
  refine bracket_not_mem_signed (fun b => ?_) x
  split
  · decide
  · exact bracket_not_mem_positional _ _

theorem bracket_not_mem_fixed_zero (x : Float) : '[' ∉ (fixed 0 x).toList := by
  refine bracket_not_mem_signed (fun b => ?_) x
  dsimp only
  rw [if_pos rfl, digits, String.toList_ofList]
  exact not_mem_toDigits rfl _

end Decimal

namespace Measurement

theorem bracket_not_mem_formatQuantity (value : Float) {unit : String} (h : '[' ∉ unit.toList) :
    '[' ∉ (formatQuantity value unit).toList := by
  have hnumber : ∀ x : Float,
      '[' ∉ (if Decimal.isWhole x then Decimal.fixed 0 x else Decimal.plain x).toList := by
    intro x
    split
    · exact Decimal.bracket_not_mem_fixed_zero x
    · exact Decimal.bracket_not_mem_plain x
  obtain ⟨number, hplain, heq⟩ : ∃ number : String, '[' ∉ number.toList ∧
      formatQuantity value unit = if unit.isEmpty then number
        else if unit.toList.head? = some '°' then number ++ unit else number ++ " " ++ unit :=
    ⟨_, hnumber _, rfl⟩
  rw [heq]
  split_ifs <;> simp [hplain, h]

/-- A recognised unit is spelled without brackets. -/
theorem bracket_not_mem_of_unitFamily? {unit : String} (h : (unitFamily? unit).isSome) :
    '[' ∉ unit.toList := by
  have hspellings : ∀ p ∈ units, ∀ spelling ∈ p.1, '[' ∉ spelling.toList := by decide
  have hkey : '[' ∉ (unitKey unit).toList := by
    rw [unitFamily?, conversion?, Option.isSome_map, Option.isSome_map, List.find?_isSome] at h
    obtain ⟨p, hp, hcontains⟩ := h
    exact hspellings p hp _ (List.contains_iff_mem.mp hcontains)
  intro hmem
  obtain ⟨before, after, hsplit⟩ := List.append_of_mem (Text.mem_trim (by decide) hmem)
  refine hkey ?_
  rw [unitKey, String.toList_ofList, hsplit, Text.dropEndWhile_append_cons (by decide)]
  exact Text.mem_lower rfl (by decide) (by simp)

theorem bracket_not_mem_canonicalize (m : Metric) (value : Float) {unit : String}
    (h : '[' ∉ unit.toList) : '[' ∉ (canonicalize m value unit).unit.toList := by
  have hfamily : ∀ f : Family, '[' ∉ f.unit.toList := by
    rintro ⟨⟩ <;> decide
  have hunverified : '[' ∉ (unverified m value unit).unit.toList := by
    unfold unverified
    dsimp only
    split
    · cases m.family? with
      | none => decide
      | some f => exact hfamily f
    · rw [Text.trimmed, String.toList_ofList]
      exact fun hmem => h (Text.mem_of_mem_trim hmem)
  unfold canonicalize
  split
  · split
    · exact hfamily _
    · exact hunverified
  · exact hunverified

end Measurement

namespace Clause
open Measurement

/-- The metrics that rules are read for. -/
def knownMetrics : List Metric :=
  [.windSpeed, .custom "wind_gust", .precipitation, .temperature, .visibility]

theorem mem_knownMetrics {ts : List Token} {m : Metric} {k : Nat}
    (h : metricAt ts = some (m, k)) : m ∈ knownMetrics := by
  cases ts with
  | nil => cases h
  | cons t rest =>
      simp only [metricAt] at h
      split at h <;> simp_all [knownMetrics]

/-- The unit behind a number has no brackets: it is recognised, or made of letters. -/
theorem bracket_not_mem_unitAt (ts : List Token) : '[' ∉ (unitAt ts).1.toList := by
  have hspelled : ∀ first second third found, spelledUnit? first second third = some found →
      '[' ∉ found.1.toList := by
    intro first second third found h
    have hall : ∀ unit ∈ ["mph", "km/h", "m/s", "°f", "°c"], '[' ∉ unit.toList := by decide
    refine hall _ ?_
    unfold spelledUnit? at h
    split_ifs at h
    · cases h
      decide
    · cases h
      decide
    · cases h
      decide
    · split at h <;> cases h <;> decide
  have hlike : ∀ w, isUnitLike w = true → '[' ∉ w.toList := by
    intro w h hmem
    simp only [isUnitLike, Bool.and_eq_true, List.all_eq_true] at h
    exact absurd (h.2 _ hmem) (by decide)
  unfold unitAt
  split
  · decide
  · split
    · decide
    · split
      next found hfound => exact hspelled _ _ _ _ hfound
      next =>
        split
        next h =>
          rcases Bool.or_eq_true_iff.mp h with hfamily | hword
          · exact bracket_not_mem_of_unitFamily? hfamily
          · exact hlike _ hword
        next => decide

theorem of_finding?_eq_found {s : Start} {f : Found} (h : s.finding? = some (.found f)) :
    f.metric = s.metric ∧ ∃ us, f.unit = (unitAt us).1 := by
  unfold Start.finding? at h
  split at h
  next op value unit n htail =>
    simp only [Option.some.injEq, Finding.found.injEq] at h
    rw [← h]
    obtain ⟨_, _, -, -, hunit⟩ := of_tailFrom_eq_limit htail
    exact ⟨rfl, _, hunit⟩
  next => simp only [Option.some.injEq, reduceCtorEq] at h
  next => cases h

/-- A threshold of a snippet has the citation of the snippet and a known metric, and its unit has no
brackets. -/
theorem of_mem_thresholds {s : Rule.Snippet} {t : Rule.Threshold}
    (h : t ∈ (ofSnippet s).thresholds) :
    t.citation = s.citation ∧ t.metric ∈ knownMetrics ∧ '[' ∉ t.unit.toList := by
  rw [thresholds_eq_filterMap] at h
  obtain ⟨finding, hfinding, ht⟩ := List.mem_filterMap.mp h
  obtain ⟨start, hstart, hmade⟩ := List.mem_filterMap.mp hfinding
  cases finding with
  | found f =>
      obtain ⟨hmetric, us, hunit⟩ := of_finding?_eq_found hmade
      have hknown : f.metric ∈ knownMetrics :=
        hmetric ▸ mem_knownMetrics (text_of_mem_starts hstart).2.1
      have hplain : '[' ∉ f.unit.toList := hunit ▸ bracket_not_mem_unitAt us
      have hcanonical := bracket_not_mem_canonicalize f.metric f.value hplain
      rw [Finding.threshold?, Option.some.injEq, Found.threshold] at ht
      rw [← ht]
      dsimp only
      exact ⟨rfl, hknown, hcanonical⟩
  | skipped => cases ht

end Clause

namespace Decision
open Compliance Measurement Rule

/-! ### Markers -/

/-- The source of a citation is mentioned in a text: its marker stands there. -/
def Mentions (text : String) (c : Citation) : Prop := c.marker.toList <:+: text.toList

variable {c d : Citation} {text : String} {l m : List Char}

theorem toList_marker (c : Citation) :
    c.marker.toList = '[' :: ("Source ".toList ++ Nat.toDigits 10 c.sourceIndex ++ [']']) := by
  simp [Citation.marker, Decimal.digits, toString]

theorem not_mem_marker {x : Char} (hdigit : x.isDigit = false) (hword : x ∉ "[Source ]".toList)
    (c : Citation) : x ∉ c.marker.toList := by
  have hdigits : x ∉ Nat.toDigits 10 c.sourceIndex := Decimal.not_mem_toDigits hdigit _
  rw [toList_marker]
  simp_all

theorem marker_eq_iff : c.marker = d.marker ↔ c.sourceIndex = d.sourceIndex := by
  constructor
  · intro h
    have hlist := congrArg String.toList h
    rw [toList_marker, toList_marker] at hlist
    simp only [List.cons.injEq, true_and, List.append_assoc, List.append_cancel_left_eq,
      List.append_cancel_right_eq] at hlist
    have hvalue := congrArg (Nat.ofDigitChars 10 · 0) hlist
    simpa only [Nat.ofDigitChars_toDigits (by decide : 1 < 10) (by decide : 10 ≤ 10)] using hvalue
  · intro h
    rw [Citation.marker, Citation.marker, h]

/-- A pattern does not start in a text that lacks its first character. -/
theorem infix_append_iff {x : Char} {pat : List Char} (h : x ∉ l) :
    x :: pat <:+: l ++ m ↔ x :: pat <:+: m := by
  induction l with
  | nil => rfl
  | cons a l ih =>
      rw [List.mem_cons, not_or] at h
      rw [List.cons_append, List.infix_cons_iff, ih h.2]
      constructor
      · rintro (hfirst | hlater)
        · exact absurd (List.cons_prefix_cons.mp hfirst).1 h.1
        · exact hlater
      · exact .inr

/-- A marker starts behind text without an opening bracket. -/
theorem marker_infix_append_iff (h : '[' ∉ l) :
    c.marker.toList <:+: l ++ m ↔ c.marker.toList <:+: m := by
  rw [toList_marker, infix_append_iff h]

/-- A marker stands in another one only if they are the same. -/
theorem marker_infix_marker_iff :
    c.marker.toList <:+: d.marker.toList ↔ c.sourceIndex = d.sourceIndex := by
  rw [← marker_eq_iff]
  constructor
  · intro h
    -- it starts at the only opening bracket and ends at the only closing one
    have hopen : '[' ∉ "Source ".toList ++ Nat.toDigits 10 d.sourceIndex ++ [']'] := by
      simp [Decimal.not_mem_toDigits]
    have hclose : ']' ∉ Nat.toDigits 10 d.sourceIndex := Decimal.not_mem_toDigits rfl _
    rw [toList_marker, toList_marker, List.infix_cons_iff] at h
    have hstart := h.resolve_right fun hinner => hopen (hinner.subset List.mem_cons_self)
    rw [List.cons_prefix_cons, List.append_assoc, List.append_assoc,
      List.prefix_append_right_inj, List.prefix_concat_iff] at hstart
    rcases hstart.2 with heq | hinner
    · rw [← String.toList_inj, toList_marker, toList_marker, List.append_assoc, heq,
        List.append_assoc]
    · exact absurd (hinner.subset (List.mem_append_right _ (List.mem_singleton_self _))) hclose
  · intro h
    rw [h]

/-- A marker does not stand across a character that markers do not have. -/
theorem marker_infix_append_cons_iff {x : Char} (hdigit : x.isDigit = false)
    (hword : x ∉ "[Source ]".toList) :
    c.marker.toList <:+: l ++ x :: m ↔ c.marker.toList <:+: l ∨ c.marker.toList <:+: m :=
  Text.infix_append_cons_iff (not_mem_marker hdigit hword c)

/-! ### Lines about thresholds -/

variable {r : Result} {u : Unresolved}

theorem bracket_not_mem_label {m : Metric} (h : m ∈ Clause.knownMetrics) :
    '[' ∉ m.label.toList ∧ '[' ∉ (capitalize m.label).toList := by
  have hall : ∀ m ∈ Clause.knownMetrics,
      '[' ∉ m.label.toList ∧ '[' ∉ (capitalize m.label).toList := by decide
  exact hall m h

theorem bracket_not_mem_describe {t : Threshold} (hmetric : t.metric ∈ Clause.knownMetrics)
    (hunit : '[' ∉ t.unit.toList) : '[' ∉ t.describe.toList := by
  have hsymbol : '[' ∉ t.operator.symbol.toList := by
    cases t.operator <;> decide
  simp [Threshold.describe, toString, bracket_not_mem_label hmetric, hsymbol,
    bracket_not_mem_formatQuantity, hunit]

/-- The line of a result ends with the marker of its threshold, behind the clause where it is
violated; there is no bracket in the text before them. -/
theorem toList_resultText (hmetric : r.threshold.metric ∈ Clause.knownMetrics)
    (hunit : '[' ∉ r.threshold.unit.toList) :
    ∃ front, '[' ∉ front ∧ (resultText r).toList = front ++
      if r.satisfied then r.threshold.citation.marker.toList
      else ['"'] ++ (r.threshold.clause.toList ++
        '"' :: ([' '] ++ r.threshold.citation.marker.toList)) := by
  have hlabel := (bracket_not_mem_label hmetric).2
  have hdescribe := bracket_not_mem_describe hmetric hunit
  have hquantity := fun x => bracket_not_mem_formatQuantity x hunit
  unfold resultText
  dsimp only
  split
  · refine ⟨(s!"- {capitalize r.threshold.metric.label} at "
      ++ s!"{formatQuantity (r.threshold.value + r.margin) r.threshold.unit} is within the limit "
      ++ s!"({r.threshold.describe}) ").toList, ?_, ?_⟩
    · simp [toString, hlabel, hdescribe, hquantity]
    · simp [toString]
  · refine ⟨(s!"- {capitalize r.threshold.metric.label} at "
      ++ s!"{formatQuantity (r.threshold.value + r.margin) r.threshold.unit} violates the limit "
      ++ s!"({r.threshold.describe}) by {formatQuantity r.margin.abs r.threshold.unit}: ").toList,
      ?_, ?_⟩
    · simp [toString, hlabel, hdescribe, hquantity]
    · simp [toString]

/-- The line of a result ends in the marker of its threshold. -/
theorem marker_suffix_resultText (hmetric : r.threshold.metric ∈ Clause.knownMetrics)
    (hunit : '[' ∉ r.threshold.unit.toList) :
    r.threshold.citation.marker.toList <:+ (resultText r).toList := by
  obtain ⟨front, -, htext⟩ := toList_resultText hmetric hunit
  rw [htext]
  split
  · exact List.suffix_append front _
  · refine List.IsSuffix.trans ?_ (List.suffix_append front _)
    exact ⟨'"' :: (r.threshold.clause.toList ++ ['"', ' ']), by simp⟩

/-- **The line of a result** mentions the source of its threshold and no other one, unless it is
quoted: where the threshold is violated, the clause is. -/
theorem mentions_resultText_iff (hmetric : r.threshold.metric ∈ Clause.knownMetrics)
    (hunit : '[' ∉ r.threshold.unit.toList) :
    Mentions (resultText r) c ↔ c.sourceIndex = r.threshold.citation.sourceIndex ∨
      r.satisfied = false ∧ Mentions r.threshold.clause c := by
  obtain ⟨front, hfront, htext⟩ := toList_resultText hmetric hunit
  rw [Mentions, htext, marker_infix_append_iff hfront]
  cases r.satisfied with
  | true => simp [marker_infix_marker_iff]
  | false =>
      simp only [Bool.false_eq_true, if_false, true_and]
      rw [marker_infix_append_iff (by decide), marker_infix_append_cons_iff rfl (by decide),
        marker_infix_append_iff (by decide), marker_infix_marker_iff, or_comm, Mentions]

theorem toList_unresolvedText (u : Unresolved) :
    (unresolvedText u).toList = "- Could not verify \"".toList ++
      (u.threshold.clause.toList ++ '"' :: ([' '] ++ (u.threshold.citation.marker.toList ++
        ':' :: ([' '] ++ u.reason.toList)))) := by
  obtain ⟨t, reason⟩ := u
  have hline : unresolvedText ⟨t, reason⟩ =
    s!"- Could not verify \"{t.clause}\" {t.citation.marker}: {reason}" := rfl
  rw [hline]
  simp [toString]

/-- The line of an unresolved threshold ends in the marker of the threshold and the reason. -/
theorem marker_suffix_unresolvedText (u : Unresolved) :
    (u.threshold.citation.marker ++ ": " ++ u.reason).toList <:+ (unresolvedText u).toList := by
  rw [toList_unresolvedText]
  exact ⟨"- Could not verify \"".toList ++ (u.threshold.clause.toList ++ ['"', ' ']), by simp⟩

/-- **The line of an unresolved threshold** mentions the source of the threshold and no other one,
unless it is quoted in the clause or in the reason. -/
theorem mentions_unresolvedText_iff :
    Mentions (unresolvedText u) c ↔ c.sourceIndex = u.threshold.citation.sourceIndex ∨
      Mentions u.threshold.clause c ∨ Mentions u.reason c := by
  rw [Mentions, toList_unresolvedText, marker_infix_append_iff (by decide),
    marker_infix_append_cons_iff rfl (by decide), marker_infix_append_iff (by decide),
    marker_infix_append_cons_iff rfl (by decide), marker_infix_append_iff (by decide),
    marker_infix_marker_iff, or_left_comm]
  rfl

end Decision

end SiteSafety
