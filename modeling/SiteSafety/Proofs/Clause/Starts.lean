import SiteSafety.Clause.Extraction
import SiteSafety.Proofs.Clause.Keywords

/-!
# Proofs — Clause — Starts

Where the scan of a snippet starts a clause.  `starts` is the scan again, with the places it stops
at in place of what it makes of them; thresholds and notices are read off them one by one
(`findings_eq_filterMap`).

A metric at which no clause starts lies behind an earlier start, among the tokens its clause takes.
Of these, the second word of a name of two words is one, and the token behind the number of the
clause the only other one: a metric there is taken for the unit.

* `clause_starts_iff`: a metric starts a clause exactly when it is neither of the two.
* `rain_behind_number_is_unit`: a limit for rain that is lost so.
-/

namespace SiteSafety.Clause
open Measurement

/-! ### The scan as a list of starts -/

/-- How many tokens behind the name of a metric its clause takes. -/
def Tail.length : Tail → Nat
  | .limit _ _ _ n => n
  | .incomplete    => 0
  | .nothing       => 0

/-- A place where a clause starts: the tokens before it, last one first, the metric with the number
of its words, and the tokens behind its first word. -/
structure Start where
  before : List Token
  head : Token
  rest : List Token
  metric : Metric
  words : Nat

namespace Start

/-- The position of its first word among all tokens. -/
def position (s : Start) : Nat := s.before.length

/-- What stands behind the name of the metric. -/
def tail (s : Start) : Tail := tailAfter s.before (s.rest.drop (s.words - 1))

/-- How many tokens behind the first word the clause takes. -/
def length (s : Start) : Nat := s.words - 1 + s.tail.length

/-- What is made of it. -/
def finding? (s : Start) : Option Finding :=
  match s.tail with
  | .limit operator value unit _ =>
    some (.found ⟨s.metric, operator, value, unit, s.head.start,
      ((s.rest.take s.length).getLast?.getD s.head).stop,
      (s.rest.drop s.length).head?.map Token.start⟩)
  | .incomplete => some (.skipped s.head.start (excerptStop s.head s.rest))
  | .nothing    => none

/-- The token at a position is one that the clause takes, behind its first word. -/
def Covers (s : Start) (p : Nat) : Prop := s.position < p ∧ p ≤ s.position + s.length

end Start

/-- The places where the scan starts a clause; `before` holds the tokens that were passed, last one
first. -/
def starts (before : List Token) : List Token → List Start
  | [] => []
  | t :: rest =>
    match metricAt (t :: rest) with
    | none => starts (t :: before) rest
    | some (metric, k) =>
      let s : Start := ⟨before, t, rest, metric, k⟩
      s :: starts ((rest.take s.length).reverse ++ t :: before) (rest.drop s.length)
termination_by ts => ts.length
decreasing_by all_goals simp only [List.length_drop, List.length_cons]; omega

/-- The findings are what is made of the starts. -/
theorem findings_eq_filterMap (before ts : List Token) :
    findings before ts = (starts before ts).filterMap Start.finding? := by
  fun_induction starts before ts with
  | case1 before => rw [findings, List.filterMap_nil]
  | case2 before t rest h ih => rw [findings, h, ih]
  | case3 before t rest metric k h s ih =>
      rw [findings, h, List.filterMap_cons, ← ih]
      have htail : s.tail = tailAfter before (rest.drop (k - 1)) := rfl
      cases hs : tailAfter before (rest.drop (k - 1)) with
      | limit operator value unit n =>
          have hlen : s.length = k - 1 + n := by rw [Start.length, htail, hs, Tail.length]
          simp only [Start.finding?, htail, hs, hlen]
          rfl
      | incomplete =>
          have hlen : s.length = k - 1 := by rw [Start.length, htail, hs, Tail.length]; rfl
          simp only [Start.finding?, htail, hs, hlen]
          rfl
      | nothing =>
          have hlen : s.length = k - 1 := by rw [Start.length, htail, hs, Tail.length]; rfl
          simp only [Start.finding?, htail, hs, hlen]

/-! ### Starts and the tokens between them -/

variable {before ts all : List Token} {s s' : Start} {p : Nat}

/-- A start stands where it says it does. -/
theorem text_of_mem_starts (h : s ∈ starts before ts) :
    s.before.reverse ++ s.head :: s.rest = before.reverse ++ ts ∧
      metricAt (s.head :: s.rest) = some (s.metric, s.words) ∧ before.length ≤ s.position := by
  fun_induction starts before ts with
  | case1 before => cases h
  | case2 before t rest hm ih =>
      obtain ⟨htext, hmetric, hpos⟩ := ih h
      refine ⟨?_, hmetric, ?_⟩
      · simpa using htext
      · simp only [List.length_cons] at hpos
        omega
  | case3 before t rest metric k hm first ih =>
      rcases List.mem_cons.mp h with rfl | h
      · exact ⟨rfl, hm, Nat.le_refl _⟩
      · obtain ⟨htext, hmetric, hpos⟩ := ih h
        refine ⟨?_, hmetric, ?_⟩
        · rw [htext]
          simp
        · simp only [List.length_append, List.length_cons] at hpos
          omega

/-- A metric at the head of the tokens is a start. -/
theorem head_mem_starts {t : Token} {rest : List Token} {m : Metric} {k : Nat}
    (h : metricAt (t :: rest) = some (m, k)) :
    ⟨before, t, rest, m, k⟩ ∈ starts before (t :: rest) := by
  rw [starts, h]
  exact List.mem_cons_self

/-- The tokens from a start on. -/
theorem drop_position (htext : before.reverse ++ ts = all) (h : s ∈ starts before ts) :
    all.drop s.position = s.head :: s.rest := by
  rw [← htext, ← (text_of_mem_starts h).1, Start.position, List.drop_left' (by simp)]

/-- The scan goes on behind the tokens that a clause takes. -/
theorem pairwise_starts (before ts : List Token) :
    (starts before ts).Pairwise fun s s' => s.position + s.length < s'.position := by
  fun_induction starts before ts with
  | case1 before => exact .nil
  | case2 before t rest hm ih => exact ih
  | case3 before t rest metric k hm first ih =>
      refine List.pairwise_cons.mpr ⟨fun x hx => ?_, ih⟩
      have hne : rest.drop first.length ≠ [] := by
        rintro hnil
        rw [hnil, starts] at hx
        cases hx
      have hpos := (text_of_mem_starts hx).2.2
      have hlt : first.length < rest.length := by simpa using hne
      have hat : first.position = before.length := rfl
      simp only [List.length_append, List.length_reverse, List.length_take, List.length_cons]
        at hpos
      omega

/-- No clause starts among the tokens that another one takes. -/
theorem not_covers_start (h : s ∈ starts before ts) (h' : s' ∈ starts before ts) :
    ¬s.Covers s'.position := by
  have hordered := pairwise_starts before ts
  refine List.Pairwise.forall_of_forall_of_flip (R := fun s s' : Start => ¬s.Covers s'.position)
    ?_ (hordered.imp fun hlt hcov => ?_) (hordered.imp fun hlt hcov => ?_) h h'
  · exact fun s _ hcov => Nat.lt_irrefl _ hcov.1
  · exact Nat.lt_irrefl _ (Nat.lt_of_lt_of_le hlt hcov.2)
  · have := hcov.1
    omega

/-- A metric starts a clause or is among the tokens that one takes. -/
theorem start_or_covered (htext : before.reverse ++ ts = all) (hp : before.length ≤ p)
    (hk : (metricAt (all.drop p)).isSome) :
    (∃ s ∈ starts before ts, s.position = p) ∨ ∃ s ∈ starts before ts, s.Covers p := by
  fun_induction starts before ts with
  | case1 before =>
      have hnil : all.drop p = [] := by
        rw [← htext, List.drop_eq_nil_iff]
        simpa using hp
      rw [hnil] at hk
      cases hk
  | case2 before t rest hm ih =>
      rcases Nat.eq_or_lt_of_le hp with rfl | hlt
      · rw [← htext, List.drop_left' (by simp), hm] at hk
        cases hk
      · exact ih (by simpa using htext) hlt
  | case3 before t rest metric k hm first ih =>
      by_cases hfirst : p ≤ first.position + first.length
      · rcases Nat.eq_or_lt_of_le hp with rfl | hlt
        · exact .inl ⟨first, List.mem_cons_self, rfl⟩
        · exact .inr ⟨first, List.mem_cons_self, hlt, hfirst⟩
      · have hat : first.position = before.length := rfl
        have hnext : ((rest.take first.length).reverse ++ t :: before).length ≤ p := by
          simp only [List.length_append, List.length_reverse, List.length_take, List.length_cons]
          omega
        rcases ih (by simpa using htext) hnext with ⟨s, hs, heq⟩ | ⟨s, hs, hcov⟩
        · exact .inl ⟨s, List.mem_cons_of_mem _ hs, heq⟩
        · exact .inr ⟨s, List.mem_cons_of_mem _ hs, hcov⟩

/-! ### The tokens of a clause -/

/-- The number at a position, if there is one. -/
def numberAt? (ts : List Token) (i : Nat) : Option Float :=
  match ts[i]?.map Token.kind with
  | some (.number value) => some value
  | _                    => none

theorem numberAt?_drop (ts : List Token) (i j : Nat) :
    numberAt? (ts.drop i) j = numberAt? ts (i + j) := by
  simp only [numberAt?, List.getElem?_drop]

/-- A number is no word. -/
theorem wordAt?_of_numberAt? {ts : List Token} {i : Nat} (h : (numberAt? ts i).isSome) :
    wordAt? ts i = none := by
  unfold numberAt? at h
  unfold wordAt?
  cases ht : ts[i]? with
  | none => rfl
  | some t =>
      rw [ht] at h
      cases hk : t.kind <;> simp_all [Token.word?]

theorem metricAt_of_numberAt? {ts : List Token} {i : Nat} (h : (numberAt? ts i).isSome) :
    metricAt (ts.drop i) = none := by
  apply metricAt_eq_none
  intro w _ hw
  rw [wordAt?_drop, Nat.add_zero, wordAt?_of_numberAt? h] at hw
  cases hw

/-- The first `n` tokens are a limit: `k` tokens that hold no number and name no metric, a number,
its unit, and a trailing comparison. -/
structure IsLimit (ts : List Token) (k : Nat) (value : Float) (n : Nat) : Prop where
  number : numberAt? ts k = some value
  clear : ∀ i < k, numberAt? ts i = none ∧ metricAt (ts.drop i) = none
  length : n = k + 1 + (unitAt (ts.drop (k + 1))).2 +
    (trailingComparison (ts.drop (k + 1 + (unitAt (ts.drop (k + 1))).2))).2

/-- A token that is no number and names no metric may stand before a limit. -/
theorem IsLimit.cons {t : Token} {k n : Nat} {value : Float} (h : IsLimit ts k value n)
    (hnumber : numberAt? (t :: ts) 0 = none) (hmetric : metricAt (t :: ts) = none) :
    IsLimit (t :: ts) (k + 1) value (n + 1) where
  number := h.number
  clear i hi := by
    cases i with
    | zero => exact ⟨hnumber, hmetric⟩
    | succ i => exact h.clear i (by omega)
  length := by
    have hdrop : (t :: ts).drop (k + 1 + 1 + (unitAt (ts.drop (k + 1))).2) =
        ts.drop (k + 1 + (unitAt (ts.drop (k + 1))).2) := by
      rw [show k + 1 + 1 + (unitAt (ts.drop (k + 1))).2 =
        k + 1 + (unitAt (ts.drop (k + 1))).2 + 1 by omega, List.drop_succ_cons]
    rw [List.drop_succ_cons, hdrop, h.length]
    omega

theorem of_tailFrom_eq_limit {gap : List String} {sign : Option Comparator} {used budget : Nat}
    {op : Comparator} {value : Float} {unit : String} {n : Nat}
    (h : tailFrom before gap sign used budget ts = .limit op value unit n) :
    ∃ k m, n = used + m ∧ IsLimit ts k value m ∧ unit = (unitAt (ts.drop (k + 1))).1 := by
  have hstopped : ∀ gap sign, tailFrom.stopped gap sign ≠ .limit op value unit n := by
    intro gap sign
    unfold tailFrom.stopped
    split <;> simp
  fun_induction tailFrom before gap sign used budget ts with
  | case1 gap sign used budget t rest hk => exact absurd h (hstopped _ _)
  | case2 gap sign used budget t rest w hk hm => exact absurd h (hstopped _ _)
  | case3 gap sign used budget t rest w hk hm ih =>
      obtain ⟨k, m, rfl, hlimit, hunit⟩ := ih h
      have hnumber : numberAt? (t :: rest) 0 = none := by simp [numberAt?, hk]
      exact ⟨k + 1, m + 1, by omega, hlimit.cons hnumber (by simpa using hm), hunit⟩
  | case4 gap sign used budget t rest c hk ih =>
      obtain ⟨k, m, rfl, hlimit, hunit⟩ := ih h
      have hnumber : numberAt? (t :: rest) 0 = none := by simp [numberAt?, hk]
      have hmetric : metricAt (t :: rest) = none := by simp [metricAt, Token.word?, hk]
      exact ⟨k + 1, m + 1, by omega, hlimit.cons hnumber hmetric, hunit⟩
  | case5 gap sign used budget t rest value' hk =>
      simp only [limitAt, Tail.limit.injEq] at h
      obtain ⟨-, rfl, rfl, rfl⟩ := h
      refine ⟨0, _, ?_, ⟨?_, ?_, rfl⟩, rfl⟩
      · simp only [Nat.zero_add, List.drop_succ_cons, List.drop_zero, Nat.add_comm 1]
        omega
      · simp [numberAt?, hk]
      · intro i hi
        omega
  | case6 => exact absurd h (hstopped _ _)

section Limit
variable {i k n : Nat} {value : Float}

/-- Behind the number of a limit stand the words of its unit and of its trailing comparison, and
only the first of them may name a metric. -/
theorem IsLimit.word_behind (h : IsLimit ts k value n) (hi : i < n) (hki : k < i) :
    ∃ w, wordAt? ts i = some w ∧ (k + 1 < i → w ∉ keywords) := by
  have hlen := h.length
  generalize hu : (unitAt (ts.drop (k + 1))).2 = u at hlen
  generalize hm : (trailingComparison (ts.drop (k + 1 + u))).2 = m at hlen
  by_cases hunit : i < k + 1 + u
  · have hin : i - (k + 1) < (unitAt (ts.drop (k + 1))).2 := by omega
    obtain ⟨w, hw, hnot⟩ := wordAt?_unit hin
    rw [wordAt?_drop, show k + 1 + (i - (k + 1)) = i by omega] at hw
    exact ⟨w, hw, fun hlt => hnot (by omega)⟩
  · have hin : i - (k + 1 + u) < (trailingComparison (ts.drop (k + 1 + u))).2 := by omega
    obtain ⟨w, hw, hnot⟩ := wordAt?_trailing hin
    rw [wordAt?_drop, show k + 1 + u + (i - (k + 1 + u)) = i by omega] at hw
    exact ⟨w, hw, fun _ => hnot⟩

/-- The number of a limit is the only one among its tokens. -/
theorem IsLimit.eq_of_number (h : IsLimit ts k value n) (hi : i < n)
    (hnumber : (numberAt? ts i).isSome) : i = k := by
  rcases Nat.lt_trichotomy i k with hlt | heq | hgt
  · rw [(h.clear i hlt).1] at hnumber
    cases hnumber
  · exact heq
  · obtain ⟨w, hw, -⟩ := h.word_behind hi hgt
    rw [wordAt?_of_numberAt? hnumber] at hw
    cases hw

/-- Only the token behind its number may name a metric. -/
theorem IsLimit.eq_of_metric (h : IsLimit ts k value n) (hi : i < n)
    (hmetric : (metricAt (ts.drop i)).isSome) : i = k + 1 := by
  rcases Nat.lt_trichotomy i k with hlt | rfl | hgt
  · rw [(h.clear i hlt).2] at hmetric
    cases hmetric
  · rw [metricAt_of_numberAt? (by rw [h.number]; rfl)] at hmetric
    cases hmetric
  · obtain ⟨w, hw, hnot⟩ := h.word_behind hi hgt
    obtain ⟨w', hmem, hw'⟩ := (metricAt_isSome_iff _).mp hmetric
    rw [wordAt?_drop, Nat.add_zero, hw] at hw'
    cases hw'
    rcases Nat.eq_or_lt_of_le (Nat.succ_le_of_lt hgt) with heq | hlt
    · exact heq.symm
    · exact absurd hmem (hnot hlt)

/-- A metric behind the number belongs to the limit. -/
theorem IsLimit.lt_of_metric (h : IsLimit ts k value n)
    (hmetric : (metricAt (ts.drop (k + 1))).isSome) : k + 1 < n := by
  have hunit := unitAt_keyword hmetric
  have hlen := h.length
  omega

end Limit

/-! ### Metrics that start no clause -/

/-- The name of the metric has two words, and the second one is at a position. -/
def Start.SecondWordAt (s : Start) (p : Nat) : Prop := s.words = 2 ∧ p = s.position + 1

/-- The token before a position is the number of the clause. -/
def Start.NumberBefore (s : Start) (ts : List Token) (p : Nat) : Prop :=
  ∃ q, p = q + 1 ∧ s.Covers q ∧ (numberAt? ts q).isSome

/-- A clause that takes tokens behind the name of its metric takes a limit. -/
theorem Start.isLimit_of_pos (h : 0 < s.tail.length) :
    ∃ k value, IsLimit (s.rest.drop (s.words - 1)) k value s.tail.length := by
  cases htail : s.tail with
  | limit operator value unit n =>
      obtain ⟨k, m, hn, hlimit, -⟩ := of_tailFrom_eq_limit htail
      rw [Nat.zero_add] at hn
      exact ⟨k, value, hn ▸ hlimit⟩
  | incomplete => simp [htail, Tail.length] at h
  | nothing => simp [htail, Tail.length] at h

/-- The tokens a clause takes name a metric in two places at most. -/
theorem covers_iff (htext : before.reverse ++ ts = all) (h : s ∈ starts before ts)
    (hk : (metricAt (all.drop p)).isSome) :
    s.Covers p ↔ s.SecondWordAt p ∨ s.NumberBefore all p := by
  have hwords := words_of_metricAt (text_of_mem_starts h).2.1
  have hhead := drop_position htext h
  have hbehind : all.drop (s.position + s.words) = s.rest.drop (s.words - 1) := by
    rw [← List.drop_drop, hhead]
    rcases hwords with hw | ⟨hw, -⟩ <;> rw [hw] <;> rfl
  have hdrop : ∀ i, (s.rest.drop (s.words - 1)).drop i = all.drop (s.position + s.words + i) := by
    intro i
    rw [← hbehind, List.drop_drop]
  have hlen : s.length = s.words - 1 + s.tail.length := rfl
  constructor
  -- a token of the clause belongs to the name of its metric or to its limit
  · rintro ⟨hlow, hhigh⟩
    by_cases hname : p < s.position + s.words
    · exact .inl ⟨by omega, by omega⟩
    · obtain ⟨i, rfl⟩ := Nat.exists_eq_add_of_le (Nat.le_of_not_lt hname)
      obtain ⟨k, value, hlimit⟩ := s.isLimit_of_pos (by omega)
      rw [← hdrop] at hk
      obtain rfl : i = k + 1 := hlimit.eq_of_metric (by omega) hk
      refine .inr ⟨s.position + s.words + k, rfl, ⟨by omega, by omega⟩, ?_⟩
      rw [← numberAt?_drop, hbehind, hlimit.number]
      rfl
  · rintro (⟨hw, rfl⟩ | ⟨q, rfl, ⟨hlow, hhigh⟩, hnumber⟩)
    · exact ⟨by omega, by omega⟩
    · have hname : s.position + s.words ≤ q := by
        rcases hwords with hw | ⟨hw, hsecond⟩
        · omega
        · rcases Nat.eq_or_lt_of_le (Nat.succ_le_of_lt hlow) with rfl | hlt
          · have hword : wordAt? all (s.position + 1) = none := wordAt?_of_numberAt? hnumber
            rw [← wordAt?_drop, hhead] at hword
            rw [hword] at hsecond
            cases hsecond
          · omega
      obtain ⟨i, rfl⟩ := Nat.exists_eq_add_of_le hname
      obtain ⟨k, value, hlimit⟩ := s.isLimit_of_pos (by omega)
      rw [← numberAt?_drop, hbehind] at hnumber
      obtain rfl : i = k := hlimit.eq_of_number (by omega) hnumber
      rw [Nat.add_assoc, ← hdrop] at hk
      have hlast := hlimit.lt_of_metric hk
      exact ⟨by omega, by omega⟩

/-! ### Snippets -/

/-- The tokens that a snippet is scanned as. -/
def snippetTokens (s : Rule.Snippet) : List Token := tokens (mask s.text.toList).1

/-- A metric is named at a position, and not by the second word of a longer name. -/
def IsKeyword (ts : List Token) (p : Nat) : Prop :=
  (metricAt (ts.drop p)).isSome ∧
    ∀ q m, p = q + 1 → metricAt (ts.drop q) ≠ some (m, 2)

/-- A metric starts a clause unless a clause that started before takes it. -/
theorem exists_start_iff (hk : (metricAt (ts.drop p)).isSome) :
    (∃ s ∈ starts [] ts, s.position = p) ↔
      ∀ s ∈ starts [] ts, ¬s.SecondWordAt p ∧ ¬s.NumberBefore ts p := by
  have htext : ([] : List Token).reverse ++ ts = ts := rfl
  constructor
  · rintro ⟨s', hs', rfl⟩ s hs
    have hcov := not_covers_start hs hs'
    rw [covers_iff htext hs hk, not_or] at hcov
    exact hcov
  · intro hno
    rcases start_or_covered htext (Nat.zero_le p) hk with hstart | ⟨s, hs, hcov⟩
    · exact hstart
    · rw [covers_iff htext hs hk] at hcov
      rcases hcov with hsecond | hnumber
      · exact absurd hsecond (hno s hs).1
      · exact absurd hnumber (hno s hs).2

/-- A keyword is the second word of no clause. -/
theorem IsKeyword.not_secondWordAt (h : IsKeyword ts p) (hs : s ∈ starts [] ts) :
    ¬s.SecondWordAt p := by
  rintro ⟨hw, rfl⟩
  have htext : ([] : List Token).reverse ++ ts = ts := rfl
  refine h.2 s.position s.metric rfl ?_
  rw [drop_position htext hs, (text_of_mem_starts hs).2.1, hw]

/-- A metric behind a number is a keyword, since no number is the first word of a name. -/
theorem isKeyword_of_numberBefore (hk : (metricAt (ts.drop p)).isSome)
    (hnumber : s.NumberBefore ts p) : IsKeyword ts p := by
  obtain ⟨q, rfl, -, hq⟩ := hnumber
  refine ⟨hk, ?_⟩
  rintro q' m hqq hm
  obtain rfl : q = q' := by omega
  rw [metricAt_of_numberAt? hq] at hm
  cases hm

/-- Every keyword starts a clause exactly when none stands behind the number of a clause. -/
theorem forall_keyword_start_iff (ts : List Token) :
    (∀ p, IsKeyword ts p → ∃ s ∈ starts [] ts, s.position = p) ↔
      ∀ p, (metricAt (ts.drop p)).isSome → ∀ s ∈ starts [] ts, ¬s.NumberBefore ts p := by
  constructor
  · intro hall p hk s hs hnumber
    have hstart := hall p (isKeyword_of_numberBefore hk hnumber)
    exact ((exists_start_iff hk).mp hstart s hs).2 hnumber
  · intro hno p hkey
    exact (exists_start_iff hkey.1).mpr fun s hs =>
      ⟨hkey.not_secondWordAt hs, hno p hkey.1 s hs⟩

/-- The thresholds of a snippet are read off the starts, in order. -/
theorem thresholds_eq_filterMap (snippet : Rule.Snippet) :
    (ofSnippet snippet).thresholds =
      ((starts [] (snippetTokens snippet)).filterMap Start.finding?).filterMap
        (·.threshold? snippet.citation snippet.text.toList (mask snippet.text.toList).2) := by
  simp only [ofSnippet, findings_eq_filterMap]
  rfl

/-- **Where clauses start.**  A metric starts a clause exactly when it is neither the second word of
the name of a clause nor directly behind the number of one.  So no clause of a snippet is swallowed
exactly when no metric is named behind the number of a clause.  Thresholds and notices are those of
the starts, in order. -/
theorem clause_starts_iff (snippet : Rule.Snippet) :
    let ts := snippetTokens snippet
    let clauses := starts [] ts
    (∀ p, (metricAt (ts.drop p)).isSome →
      ((∃ s ∈ clauses, s.position = p) ↔
        ∀ s ∈ clauses, ¬s.SecondWordAt p ∧ ¬s.NumberBefore ts p)) ∧
    ((∀ p, IsKeyword ts p → ∃ s ∈ clauses, s.position = p) ↔
      ∀ p, (metricAt (ts.drop p)).isSome → ∀ s ∈ clauses, ¬s.NumberBefore ts p) ∧
    (ofSnippet snippet).thresholds = (clauses.filterMap Start.finding?).filterMap
      (·.threshold? snippet.citation snippet.text.toList (mask snippet.text.toList).2) ∧
    (ofSnippet snippet).skipped = (clauses.filterMap Start.finding?).filterMap
      (·.skipped? snippet.citation snippet.text.toList) := by
  intro ts clauses
  refine ⟨fun p hk => exists_start_iff hk, forall_keyword_start_iff ts,
    thresholds_eq_filterMap snippet, ?_⟩
  simp only [ofSnippet, findings_eq_filterMap]
  rfl

/-! ### A snippet that loses a clause -/

/-- A text without an opening bracket has no conditions. -/
theorem maskFrom_of_no_bracket {cs : List Char} (h : cs.all (·.toLower != '[') = true) (i : Nat) :
    maskFrom i cs = (cs, []) := by
  induction cs generalizing i with
  | nil => rw [maskFrom]
  | cons c cs ih =>
      simp only [List.all_cons, Bool.and_eq_true, bne_iff_ne] at h
      have hbody : conditionBody? (c :: cs) = none := by
        have htag : conditionTag = '[' :: "condition:".toList := rfl
        have hne : ('[' == c.toLower) = false := beq_false_of_ne (Ne.symm h.1)
        simp only [conditionBody?, htag, List.length_cons, List.take_succ_cons, Text.asciiLower,
          List.map_cons, List.isPrefixOf, hne, Bool.false_and, Bool.false_eq_true, if_false]
      rw [maskFrom, hbody, ih h.2]

theorem tokensFrom_kind {previous : Option Char} {start : Nat} {c : Char} {rest : List Char}
    (kind : Kind) (n : Nat) (h : Kind.first previous c rest = (some kind, n)) :
    tokensFrom previous start (c :: rest) =
      ⟨kind, start, start + 1 + (rest.take n).length⟩ ::
        tokensFrom (c :: rest.take n).getLast? (start + 1 + (rest.take n).length) (rest.drop n) := by
  rw [tokensFrom, h]

theorem tokensFrom_space {previous : Option Char} {start : Nat} {rest : List Char} :
    tokensFrom previous start (' ' :: rest) = tokensFrom (some ' ') (start + 1) rest := by
  have h : Kind.first previous ' ' rest = (none, 0) := rfl
  rw [tokensFrom, h]
  rfl

/-- Two clauses of which the first one has no unit. -/
def unitless : Rule.Snippet := ⟨"wind over 20 rain over 5 mm", ⟨1, "rules", "", 1.0⟩⟩

def unitlessTokens : List Token :=
  [⟨.word "wind", 0, 4⟩, ⟨.word "over", 5, 9⟩, ⟨.number 20.0, 10, 12⟩, ⟨.word "rain", 13, 17⟩,
    ⟨.word "over", 18, 22⟩, ⟨.number 5.0, 23, 24⟩, ⟨.word "mm", 25, 27⟩]

theorem snippetTokens_unitless : snippetTokens unitless = unitlessTokens := by
  have hmask : (mask unitless.text.toList).1 = "wind over 20 rain over 5 mm".toList := by
    rw [mask, maskFrom_of_no_bracket (by decide)]
    rfl
  rw [snippetTokens, hmask]
  refine (tokensFrom_kind (.word "wind") 3 rfl).trans (congrArg _ (tokensFrom_space.trans ?_))
  refine (tokensFrom_kind (.word "over") 3 rfl).trans (congrArg _ (tokensFrom_space.trans ?_))
  refine (tokensFrom_kind (.number 20.0) 1 rfl).trans (congrArg _ (tokensFrom_space.trans ?_))
  refine (tokensFrom_kind (.word "rain") 3 rfl).trans (congrArg _ (tokensFrom_space.trans ?_))
  refine (tokensFrom_kind (.word "over") 3 rfl).trans (congrArg _ (tokensFrom_space.trans ?_))
  refine (tokensFrom_kind (.number 5.0) 0 rfl).trans (congrArg _ (tokensFrom_space.trans ?_))
  refine (tokensFrom_kind (.word "mm") 1 rfl).trans (congrArg _ ?_)
  show tokensFrom _ _ [] = []
  rw [tokensFrom]

/-- The limit for rain behind a wind of 20 starts no clause. -/
theorem rain_behind_number_is_unit :
    IsKeyword (snippetTokens unitless) 3 ∧
      ∀ s ∈ starts [] (snippetTokens unitless), s.position ≠ 3 := by
  rw [snippetTokens_unitless]
  have hrain : (metricAt (unitlessTokens.drop 3)).isSome := rfl
  have hnumber : (numberAt? unitlessTokens 2).isSome := rfl
  refine ⟨⟨hrain, ?_⟩, ?_⟩
  · intro q m hq hm
    obtain rfl : q = 2 := by omega
    rw [metricAt_of_numberAt? hnumber] at hm
    cases hm
  · have hmetric : metricAt unitlessTokens = some (.windSpeed, 1) := rfl
    let wind : Start := ⟨[], ⟨.word "wind", 0, 4⟩, unitlessTokens.tail, .windSpeed, 1⟩
    have hwind : wind ∈ starts [] unitlessTokens := head_mem_starts hmetric
    have hlength : wind.length = 3 := rfl
    have hcovers : wind.Covers 3 := ⟨by decide, by rw [hlength]; decide⟩
    intro s hs h3
    exact not_covers_start hwind hs (h3 ▸ hcovers)

end SiteSafety.Clause
