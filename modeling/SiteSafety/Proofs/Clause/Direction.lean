import SiteSafety.Proofs.Clause.Starts

/-!
# Proofs — Clause — Direction

The direction of a limit that is given without a comparison.  It is a lower one exactly when a cue
stands among the words between metric and number, or among the six tokens before the metric that
no boundary separates from it.

These six tokens are counted through earlier clauses.  **A cue that belongs to the clause before
decides the direction of the next one**, so the direction is that of the clause's own cues exactly
when no cue of an earlier clause is in reach or the clause has one itself.

* `direction_iff`: the direction of a bare limit, and when it is that of its own clause.
* `cue_of_earlier_clause_decides`: a bare limit on wind that the words `visibility below` before it
  turn into a lower one.
-/

namespace SiteSafety.Clause
open Measurement

/-! ### Limits without a comparison -/

/-- The comparison that a token is the sign of. -/
def Token.symbol? (t : Token) : Option Comparator :=
  match t.kind with
  | .symbol c => some c
  | _         => none

def Token.isNumber (t : Token) : Bool :=
  match t.kind with
  | .number _ => true
  | _         => false

/-- The tokens before the first number. -/
def beforeNumber (ts : List Token) : List Token := ts.takeWhile (!·.isNumber)

/-- The words among tokens. -/
def wordsIn (ts : List Token) : List String := ts.filterMap Token.word?

/-- The first comparison sign among tokens. -/
def signIn? (ts : List Token) : Option Comparator := ts.findSome? Token.symbol?

/-- The comparison behind the first number and its unit. -/
def trailingIn? (ts : List Token) : Option Comparator :=
  let behind := ts.drop ((beforeNumber ts).length + 1)
  (trailingComparison (behind.drop (unitAt behind).2)).1

variable {before ts all : List Token} {s : Start} {c : Comparator}

theorem beforeNumber_cons {t : Token} (h : t.isNumber = false) :
    beforeNumber (t :: ts) = t :: beforeNumber ts := by
  rw [beforeNumber, List.takeWhile_cons_of_pos (by simp [h]), beforeNumber]

theorem beforeNumber_cons_number {t : Token} (h : t.isNumber = true) :
    beforeNumber (t :: ts) = [] := by
  rw [beforeNumber, List.takeWhile_cons_of_neg (by simp [h])]

theorem trailingIn?_cons {t : Token} (h : t.isNumber = false) :
    trailingIn? (t :: ts) = trailingIn? ts := by
  simp only [trailingIn?, beforeNumber_cons h, List.length_cons, List.drop_succ_cons]

/-- The direction of a limit is that of the first of its comparisons: a sign or a phrase before the
number, or a phrase behind it.  A limit without one takes the default. -/
theorem operator_of_tailFrom {gap : List String} {sign : Option Comparator} {used budget : Nat}
    {value : Float} {unit : String} {n : Nat}
    (h : tailFrom before gap sign used budget ts = .limit c value unit n) :
    c = (((sign.or (signIn? (beforeNumber ts))).or
        (comparisonOf? (gap ++ wordsIn (beforeNumber ts)))).or (trailingIn? ts)).getD
      (defaultDirection before (gap ++ wordsIn (beforeNumber ts))) := by
  have hstopped : ∀ gap sign, tailFrom.stopped gap sign ≠ .limit c value unit n := by
    intro gap sign
    unfold tailFrom.stopped
    split <;> simp
  fun_induction tailFrom before gap sign used budget ts with
  | case1 gap sign used budget t rest hk => exact absurd h (hstopped _ _)
  | case2 gap sign used budget t rest w hk hm => exact absurd h (hstopped _ _)
  | case3 gap sign used budget t rest w hk hm ih =>
      have hnumber : t.isNumber = false := by simp [Token.isNumber, hk]
      have hsign : t.symbol? = none := by simp [Token.symbol?, hk]
      have hword : t.word? = some w := by simp [Token.word?, hk]
      rw [ih h, beforeNumber_cons hnumber, trailingIn?_cons hnumber]
      simp [signIn?, wordsIn, hsign, hword]
  | case4 gap sign used budget t rest c' hk ih =>
      have hnumber : t.isNumber = false := by simp [Token.isNumber, hk]
      have hsign : t.symbol? = some c' := by simp [Token.symbol?, hk]
      have hword : t.word? = none := by simp [Token.word?, hk]
      rw [ih h, beforeNumber_cons hnumber, trailingIn?_cons hnumber]
      simp [signIn?, wordsIn, hsign, hword]
  | case5 gap sign used budget t rest value' hk =>
      have hnumber : t.isNumber = true := by simp [Token.isNumber, hk]
      simp only [limitAt, Tail.limit.injEq] at h
      rw [← h.1]
      simp [trailingIn?, beforeNumber_cons_number hnumber, signIn?, wordsIn]
  | case6 => exact absurd h (hstopped _ _)

namespace Start

/-- The direction of the limit that a clause sets, if it sets one. -/
def operator? (s : Start) : Option Comparator :=
  match s.tail with
  | .limit operator _ _ _ => some operator
  | _                     => none

/-- The tokens behind the name of the metric. -/
def behindName (s : Start) : List Token := s.rest.drop (s.words - 1)

/-- The words between metric and number. -/
def gap (s : Start) : List String := wordsIn (beforeNumber s.behindName)

/-- The limit is given without a comparison: there is no sign and no phrase before the number, and
no phrase behind it. -/
structure IsBare (s : Start) : Prop where
  sign : signIn? (beforeNumber s.behindName) = none
  phrase : comparisonOf? s.gap = none
  trailing : trailingIn? s.behindName = none

/-- A cue stands between metric and number. -/
def OwnCue (s : Start) : Prop := ∃ w ∈ s.gap, w ∈ lowerBoundCues

end Start

theorem operator_of_isBare (hc : s.operator? = some c) (hbare : s.IsBare) :
    c = defaultDirection s.before s.gap := by
  unfold Start.operator? at hc
  split at hc
  next operator value unit n htail =>
    obtain rfl := Option.some.inj hc
    have hop := operator_of_tailFrom htail
    rw [← Start.behindName, hbare.sign, hbare.trailing, List.nil_append, ← Start.gap,
      hbare.phrase] at hop
    exact hop
  · cases hc

/-- The directions of the thresholds are those of the clauses, in order. -/
theorem operators_eq (snippet : Rule.Snippet) :
    (ofSnippet snippet).thresholds.map (·.operator) =
      (starts [] (snippetTokens snippet)).filterMap Start.operator? := by
  simp only [ofSnippet, findings_eq_filterMap, List.filterMap_filterMap, List.map_filterMap,
    snippetTokens]
  congr 1
  funext s
  unfold Start.finding? Start.operator?
  cases s.tail <;> rfl

/-! ### Cues before the metric -/

/-- A boundary stands at a position. -/
def boundaryAt (ts : List Token) (p : Nat) : Bool := ts[p]?.any Token.isBoundary

/-- A cue for a lower limit stands at a position. -/
def CueAt (ts : List Token) (p : Nat) : Prop := ∃ w ∈ lowerBoundCues, wordAt? ts p = some w

namespace Start

/-- The position is one of the six before the metric, and no boundary separates it from there. -/
def Near (s : Start) (ts : List Token) (p : Nat) : Prop :=
  s.position ≤ p + lookback ∧ ∀ q < s.position, p ≤ q → boundaryAt ts q = false

/-- The position lies behind every limit that was set before. -/
def BehindEarlier (s : Start) (ts : List Token) (p : Nat) : Prop :=
  ∀ s' ∈ starts [] ts, s'.operator?.isSome → s'.position < s.position →
    s'.position + s'.length < p

/-- A cue of the clause itself: between metric and number, or before the metric and behind the
limits that were set before. -/
def LocalCue (s : Start) (ts : List Token) : Prop :=
  s.OwnCue ∨ ∃ p < s.position, s.Near ts p ∧ s.BehindEarlier ts p ∧ CueAt ts p

/-- A cue in reach that an earlier limit stands behind or around. -/
def EarlierCue (s : Start) (ts : List Token) : Prop :=
  ∃ p < s.position, s.Near ts p ∧ ¬s.BehindEarlier ts p ∧ CueAt ts p

end Start

theorem mem_takeWhile_take_iff {α : Type} {l : List α} {n : Nat} {keep : α → Bool} {a : α} :
    a ∈ (l.take n).takeWhile keep ↔
      ∃ i < n, l[i]? = some a ∧ ∀ j ≤ i, l[j]?.all keep = true := by
  induction l generalizing n with
  | nil => simp
  | cons b l ih =>
      cases n with
      | zero => simp
      | succ n =>
          rw [List.take_succ_cons]
          by_cases hb : keep b = true
          · rw [List.takeWhile_cons_of_pos hb, List.mem_cons, ih]
            constructor
            · rintro (rfl | ⟨i, hi, hat, hall⟩)
              · exact ⟨0, by omega, rfl, fun j hj => by
                  obtain rfl : j = 0 := by omega
                  exact hb⟩
              · refine ⟨i + 1, by omega, hat, fun j hj => ?_⟩
                cases j with
                | zero => exact hb
                | succ j => exact hall j (by omega)
            · rintro ⟨i, hi, hat, hall⟩
              cases i with
              | zero => exact .inl (Option.some.inj hat).symm
              | succ i =>
                  exact .inr ⟨i, by omega, hat, fun j hj => hall (j + 1) (by omega)⟩
          · rw [List.takeWhile_cons_of_neg hb]
            simp only [List.not_mem_nil, false_iff]
            rintro ⟨i, -, -, hall⟩
            exact hb (hall 0 (Nat.zero_le i))

/-- The tokens before a clause, counted from its metric. -/
theorem getElem?_before (htext : s.before.reverse ++ s.head :: s.rest = ts) {p : Nat}
    (hp : p < s.position) : ts[p]? = s.before[s.position - 1 - p]? := by
  have hlen : p < s.before.reverse.length := by simpa [Start.position] using hp
  rw [← htext, List.getElem?_append_left hlen, List.getElem?_reverse (by simpa using hlen)]
  rfl

/-- The words that the default looks at before the metric are those of the near positions. -/
theorem cue_near_iff (htext : s.before.reverse ++ s.head :: s.rest = ts) :
    (∃ w ∈ wordsIn ((s.before.take lookback).takeWhile (!·.isBoundary)), w ∈ lowerBoundCues) ↔
      ∃ p < s.position, s.Near ts p ∧ CueAt ts p := by
  have hat : ∀ i < s.position, ts[s.position - 1 - i]? = s.before[i]? := by
    intro i hi
    rw [getElem?_before htext (by omega), show s.position - 1 - (s.position - 1 - i) = i by omega]
  have hopen : ∀ o : Option Token, o.all (!·.isBoundary) = !o.any Token.isBoundary := by
    intro o
    cases o <;> rfl
  simp only [wordsIn, List.mem_filterMap, mem_takeWhile_take_iff, hopen, Bool.not_eq_true']
  constructor
  · rintro ⟨w, ⟨t, ⟨i, hi, hget, hclear⟩, hword⟩, hcue⟩
    have hlt : i < s.position := (List.getElem?_eq_some_iff.mp hget).1
    refine ⟨s.position - 1 - i, by omega, ⟨by omega, ?_⟩, w, hcue, ?_⟩
    · intro q hq hle
      rw [boundaryAt, getElem?_before htext hq]
      exact hclear _ (by omega)
    · rw [wordAt?, hat i hlt, hget]
      exact hword
  · rintro ⟨p, hp, ⟨hreach, hclear⟩, w, hcue, hword⟩
    obtain ⟨t, ht, htw⟩ := Option.bind_eq_some_iff.mp hword
    rw [getElem?_before htext hp] at ht
    refine ⟨w, ⟨t, ⟨s.position - 1 - p, by omega, ht, ?_⟩, htw⟩, hcue⟩
    intro j hj
    rw [← hat j (by omega)]
    exact hclear _ (by omega) (by omega)

/-! ### The direction of a bare limit -/

theorem defaultDirection_eq_lt_iff {gap : List String} :
    defaultDirection before gap = .lt ↔
      (∃ w ∈ gap, w ∈ lowerBoundCues) ∨
        ∃ w ∈ wordsIn ((before.take lookback).takeWhile (!·.isBoundary)), w ∈ lowerBoundCues := by
  have hany (ws : List String) :
      ws.any lowerBoundCues.contains = true ↔ ∃ w ∈ ws, w ∈ lowerBoundCues := by
    simp only [List.any_eq_true, List.contains_iff_mem]
  simp only [defaultDirection]
  rw [← hany, ← hany, List.any_append, ← wordsIn]
  cases (wordsIn ((before.take lookback).takeWhile (!·.isBoundary))).any lowerBoundCues.contains <;>
    cases gap.any lowerBoundCues.contains <;> decide

theorem defaultDirection_cases (before : List Token) (gap : List String) :
    defaultDirection before gap = .lt ∨ defaultDirection before gap = .gt := by
  simp only [defaultDirection]
  split
  · exact .inl rfl
  · exact .inr rfl

/-- A bare limit is a lower one when a cue is in reach, whichever clause the cue belongs to. -/
theorem operator_eq_lt_iff (hs : s ∈ starts [] ts) (hc : s.operator? = some c) (hbare : s.IsBare) :
    c = .lt ↔ s.LocalCue ts ∨ s.EarlierCue ts := by
  have htext : s.before.reverse ++ s.head :: s.rest = ts := (text_of_mem_starts hs).1
  rw [operator_of_isBare hc hbare, defaultDirection_eq_lt_iff, cue_near_iff htext]
  unfold Start.LocalCue Start.EarlierCue
  constructor
  · rintro (hown | ⟨p, hp, hnear, hcue⟩)
    · exact .inl (.inl hown)
    · by_cases hbehind : s.BehindEarlier ts p
      · exact .inl (.inr ⟨p, hp, hnear, hbehind, hcue⟩)
      · exact .inr ⟨p, hp, hnear, hbehind, hcue⟩
  · rintro ((hown | ⟨p, hp, hnear, -, hcue⟩) | ⟨p, hp, hnear, -, hcue⟩)
    · exact .inl hown
    · exact .inr ⟨p, hp, hnear, hcue⟩
    · exact .inr ⟨p, hp, hnear, hcue⟩

/-- **The direction of a bare limit.**  It is a lower one when a cue is in reach and an upper one
otherwise.  It is the direction that the clause's own cues give exactly when the clause has a cue of
its own or none of an earlier clause is in reach. -/
theorem direction_iff (snippet : Rule.Snippet) {s : Start} {c : Comparator}
    (hs : s ∈ starts [] (snippetTokens snippet)) (hc : s.operator? = some c) (hbare : s.IsBare) :
    let ts := snippetTokens snippet
    (ofSnippet snippet).thresholds.map (·.operator) = (starts [] ts).filterMap Start.operator? ∧
    (c = .lt ∨ c = .gt) ∧
    (c = .lt ↔ s.LocalCue ts ∨ s.EarlierCue ts) ∧
    ((c = .lt ↔ s.LocalCue ts) ↔ (s.EarlierCue ts → s.LocalCue ts)) := by
  intro ts
  have hlt := operator_eq_lt_iff hs hc hbare
  refine ⟨operators_eq snippet, ?_, hlt, ?_⟩
  · rw [operator_of_isBare hc hbare]
    exact defaultDirection_cases _ _
  · rw [hlt]
    constructor
    · exact fun h hearlier => h.mp (.inr hearlier)
    · exact fun h => ⟨fun hcue => hcue.elim id h, .inl⟩

/-! ### A cue of another clause -/

instance (s : Start) : Decidable s.IsBare :=
  decidable_of_iff (signIn? (beforeNumber s.behindName) = none ∧ comparisonOf? s.gap = none ∧
    trailingIn? s.behindName = none)
    ⟨fun h => ⟨h.1, h.2.1, h.2.2⟩, fun h => ⟨h.sign, h.phrase, h.trailing⟩⟩

instance (ts : List Token) (p : Nat) : Decidable (CueAt ts p) :=
  inferInstanceAs (Decidable (∃ w ∈ lowerBoundCues, wordAt? ts p = some w))

instance (s : Start) (ts : List Token) (p : Nat) : Decidable (s.Near ts p) :=
  inferInstanceAs (Decidable (s.position ≤ p + lookback ∧
    ∀ q < s.position, p ≤ q → boundaryAt ts q = false))

instance (s : Start) (ts : List Token) (p : Nat) : Decidable (s.BehindEarlier ts p) :=
  inferInstanceAs (Decidable (∀ s' ∈ starts [] ts, s'.operator?.isSome →
    s'.position < s.position → s'.position + s'.length < p))

instance (s : Start) (ts : List Token) : Decidable (s.LocalCue ts) :=
  inferInstanceAs (Decidable ((∃ w ∈ s.gap, w ∈ lowerBoundCues) ∨
    ∃ p < s.position, s.Near ts p ∧ s.BehindEarlier ts p ∧ CueAt ts p))

instance (s : Start) (ts : List Token) : Decidable (s.EarlierCue ts) :=
  inferInstanceAs (Decidable (∃ p < s.position,
    s.Near ts p ∧ ¬s.BehindEarlier ts p ∧ CueAt ts p))

/-- A bare limit with a cue before its metric. -/
def leastSight : Rule.Snippet := ⟨"Minimum visibility 0.5 miles", ⟨1, "rules", "", 1.0⟩⟩

/-- A cue before the metric makes a lower limit. -/
theorem minimum_before_metric_is_lower :
    ∃ s ∈ starts [] (snippetTokens leastSight), s.operator? = some .lt ∧ s.IsBare ∧
      ¬s.EarlierCue (snippetTokens leastSight) ∧ s.LocalCue (snippetTokens leastSight) := by
  obtain ⟨s, hs, hc, hbare, hno⟩ : ∃ s ∈ starts [] (snippetTokens leastSight),
      s.operator? = some .lt ∧ s.IsBare ∧ ¬s.EarlierCue (snippetTokens leastSight) := by
    decide +kernel
  have hcue := (direction_iff leastSight hs hc hbare).2.2.1.mp rfl
  exact ⟨s, hs, hc, hbare, hno, hcue.resolve_right hno⟩

/-- A bare limit on wind behind a limit on visibility. -/
def windBehindSight : Rule.Snippet :=
  ⟨"visibility below 1 mile or wind 20 mph", ⟨1, "rules", "", 1.0⟩⟩

/-- **The word `below` of the first limit makes the second one a lower limit**, though no cue stands
in or before its own clause. -/
theorem cue_of_earlier_clause_decides :
    (ofSnippet windBehindSight).thresholds.map (fun t => (t.metric, t.operator)) =
        [(.visibility, .lt), (.windSpeed, .lt)] ∧
      ∃ s ∈ starts [] (snippetTokens windBehindSight), s.metric = .windSpeed ∧
        s.operator? = some .lt ∧ s.IsBare ∧ ¬s.LocalCue (snippetTokens windBehindSight) := by
  decide +kernel

end SiteSafety.Clause
