import SiteSafety.Proofs.Clause.Direction

/-!
# Proofs — Clause — Window

How far behind the name of its metric the number of a clause may stand.  `NumberBehind value g ts`
says that `ts` starts with `g` words and comparison signs, none of which names a metric, and the
number `value` behind them.

The scan looks at `maxGap` tokens and the number is one of them.  **So at most seven tokens stand
between a metric and its number**, and a number behind eight is not reached.

* `tail_of_numberBehind`: a window of `n` tokens holds the number behind fewer than `n`.
* `window_iff`: which gaps a clause bridges; a gap of `maxGap` tokens is the only one at which that
  is not what a limit of `maxGap` tokens between metric and number says.
* `number_behind_eight_is_lost`: a limit on wind that is lost so.
-/

namespace SiteSafety.Clause
open Measurement

/-- So many words and comparison signs, none of which names a metric, and a number behind them. -/
inductive NumberBehind (value : Float) : Nat → List Token → Prop where
  | number {t : Token} {rest : List Token} (hk : t.kind = .number value) :
      NumberBehind value 0 (t :: rest)
  | word {t : Token} {rest : List Token} {w : String} {g : Nat} (hk : t.kind = .word w)
      (hm : metricAt (t :: rest) = none) (h : NumberBehind value g rest) :
      NumberBehind value (g + 1) (t :: rest)
  | sign {t : Token} {rest : List Token} {c : Comparator} {g : Nat} (hk : t.kind = .symbol c)
      (h : NumberBehind value g rest) : NumberBehind value (g + 1) (t :: rest)

/-- The value of a limit. -/
def Tail.value? : Tail → Option Float
  | .limit _ value _ _ => some value
  | .incomplete        => none
  | .nothing           => none

/-- The value of the limit that a clause sets, if it sets one. -/
def Start.value? (s : Start) : Option Float := s.tail.value?

section Window
variable {before ts : List Token} {gap : List String} {sign : Option Comparator}
variable {used budget g : Nat} {value : Float}

theorem value_stopped : (tailFrom.stopped gap sign).value? = none := by
  unfold tailFrom.stopped
  split <;> rfl

theorem tailFrom_zero : tailFrom before gap sign used 0 ts = tailFrom.stopped gap sign := by
  rw [tailFrom.eq_def]

/-- A window of `budget` tokens holds the number behind fewer than `budget` of them. -/
theorem tail_of_numberBehind (h : NumberBehind value g ts) :
    (tailFrom before gap sign used budget ts).value? =
      if g < budget then some value else none := by
  induction h generalizing gap sign used budget with
  | number hk =>
      cases budget with
      | zero => rw [tailFrom_zero, value_stopped, if_neg (Nat.lt_irrefl 0)]
      | succ budget =>
          rw [tailFrom, hk, if_pos (Nat.succ_pos budget)]
          rfl
  | word hk hm _ ih =>
      cases budget with
      | zero => rw [tailFrom_zero, value_stopped, if_neg (Nat.not_lt_zero _)]
      | succ budget =>
          rw [tailFrom, hk]
          simp only [hm, Option.isSome_none, Bool.false_eq_true, if_false]
          rw [ih]
          simp only [Nat.add_lt_add_iff_right]
  | sign hk _ ih =>
      cases budget with
      | zero => rw [tailFrom_zero, value_stopped, if_neg (Nat.not_lt_zero _)]
      | succ budget =>
          rw [tailFrom, hk]
          simp only [ih, Nat.add_lt_add_iff_right]

theorem value_of_numberBehind {s : Start} (h : NumberBehind value g s.behindName) :
    s.value? = if g < maxGap then some value else none :=
  tail_of_numberBehind h

/-- A metric at the head of the tokens is the first start, and behind its name stand the tokens that
its words leave. -/
theorem head?_starts (before : List Token) {m : Metric} {k : Nat}
    (h : metricAt ts = some (m, k)) :
    ∃ s, (starts before ts).head? = some s ∧ s.before = before ∧ s.metric = m ∧
      s.behindName = ts.drop k := by
  cases ts with
  | nil => cases h
  | cons t rest =>
      refine ⟨⟨before, t, rest, m, k⟩, ?_, rfl, rfl, ?_⟩
      · rw [starts, h]
        rfl
      · rcases words_of_metricAt h with hk | ⟨hk, -⟩ <;> subst hk <;> rfl

/-- **The gaps that a clause bridges.**  A metric with a number behind `g` words and signs sets a
limit, the number, exactly when `g` is less than `maxGap`, whatever stands before and behind them.
That the number is reached up to `maxGap` tokens and not beyond them holds of every other gap. -/
theorem window_iff (before : List Token) {m : Metric} {k : Nat}
    (hname : metricAt ts = some (m, k)) (h : NumberBehind value g (ts.drop k)) :
    ∃ s, (starts before ts).head? = some s ∧ s.before = before ∧ s.metric = m ∧
      s.value? = (if g < maxGap then some value else none) ∧
      ((g ≤ maxGap → s.value? = some value) ∧ (maxGap < g → s.value? = none) ↔ g ≠ maxGap) := by
  obtain ⟨s, hs, hbefore, hmetric, hbehind⟩ := head?_starts before hname
  have hvalue : s.value? = if g < maxGap then some value else none :=
    value_of_numberBehind (hbehind ▸ h)
  refine ⟨s, hs, hbefore, hmetric, hvalue, ?_⟩
  rw [hvalue]
  constructor
  · rintro ⟨hreached, -⟩ rfl
    have hnone := hreached (Nat.le_refl _)
    rw [if_neg (Nat.lt_irrefl _)] at hnone
    cases hnone
  · intro hne
    refine ⟨fun hle => if_pos (Nat.lt_of_le_of_ne hle hne), fun hlt => if_neg ?_⟩
    exact Nat.not_lt_of_lt hlt

end Window

/-! ### Seven words and eight -/

/-- A limit on wind with eight words between metric and number. -/
def craneWind : Rule.Snippet :=
  ⟨"Wind speed at the top of cranes must not exceed 20 mph", ⟨1, "rules", "", 1.0⟩⟩

def craneTokens : List Token :=
  [⟨.word "wind", 0, 4⟩, ⟨.word "speed", 5, 10⟩, ⟨.word "at", 11, 13⟩, ⟨.word "the", 14, 17⟩,
    ⟨.word "top", 18, 21⟩, ⟨.word "of", 22, 24⟩, ⟨.word "cranes", 25, 31⟩, ⟨.word "must", 32, 36⟩,
    ⟨.word "not", 37, 40⟩, ⟨.word "exceed", 41, 47⟩, ⟨.number 20.0, 48, 50⟩, ⟨.word "mph", 51, 54⟩]

theorem snippetTokens_craneWind : snippetTokens craneWind = craneTokens := by
  decide +kernel

theorem numberBehind_of_exceed : NumberBehind 20.0 5 (craneTokens.drop 5) :=
  .word rfl rfl (.word rfl rfl (.word rfl rfl (.word rfl rfl (.word rfl rfl (.number rfl)))))

/-- Without the word `the` the number of the limit is reached. -/
theorem number_behind_seven_is_reached :
    ∃ s ∈ starts [] (craneTokens.eraseIdx 3), s.metric = .windSpeed ∧ s.value? = some 20.0 := by
  have hgap : NumberBehind 20.0 7 ((craneTokens.eraseIdx 3).drop 2) :=
    .word rfl rfl (.word rfl rfl numberBehind_of_exceed)
  have hname : metricAt (craneTokens.eraseIdx 3) = some (.windSpeed, 2) := rfl
  obtain ⟨s, hs, -, hmetric, hvalue, -⟩ := window_iff [] hname hgap
  exact ⟨s, List.mem_of_mem_head? hs, hmetric, hvalue⟩

/-- **A number behind eight words is not reached**, and the limit is lost. -/
theorem number_behind_eight_is_lost :
    snippetTokens craneWind = craneTokens ∧ NumberBehind 20.0 maxGap (craneTokens.drop 2) ∧
      (∃ s ∈ starts [] craneTokens, s.metric = .windSpeed ∧ s.value? = none) ∧
      (ofSnippet craneWind).thresholds.isEmpty := by
  have hgap : NumberBehind 20.0 maxGap (craneTokens.drop 2) :=
    .word rfl rfl (.word rfl rfl (.word rfl rfl numberBehind_of_exceed))
  refine ⟨snippetTokens_craneWind, hgap, ?_, by decide +kernel⟩
  obtain ⟨s, hs, -, hmetric, hbehind⟩ :=
    head?_starts [] (show metricAt craneTokens = some (.windSpeed, 2) from rfl)
  exact ⟨s, List.mem_of_mem_head? hs, hmetric, value_of_numberBehind (hbehind ▸ hgap)⟩

end SiteSafety.Clause
