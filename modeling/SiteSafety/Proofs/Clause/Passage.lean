import SiteSafety.Proofs.Clause.Parts

/-!
# Proofs — Clause — Passage

A clause in the tokens it was found in.  `Passage f` tells them apart: the name of the metric, what
stands between it and the number, the number, the words of its unit and of its trailing comparison,
one behind the other.  The clause `f` starts with the first of these tokens and stops with the last.

* `exists_passage`: **every clause has a passage.**
* `Passage.stop_le`, `Passage.stop_le_start`: the tokens on either side of the end of a clause.
* `Passage.next_eq_find?`: what stands next to a clause is the first token that starts behind it.
-/

namespace SiteSafety.Clause

variable {ts : List Token} {f : Found} {t u : Token} {s : Start}

/-! ### Tokens in order -/

/-- Tokens take room in their text, one behind the other. -/
structure Ordered (ts : List Token) : Prop where
  room : ∀ t ∈ ts, t.start < t.stop
  apart : ts.Pairwise fun t u => t.stop ≤ u.start

theorem Ordered.sublist {us : List Token} (h : Ordered ts) (hsub : us.Sublist ts) : Ordered us where
  room t ht := h.room t (hsub.subset ht)
  apart := h.apart.sublist hsub

/-- The first of some tokens starts before the others. -/
theorem Ordered.start_le_of_cons (h : Ordered (t :: ts)) (hu : u ∈ t :: ts) :
    t.start ≤ u.start := by
  rcases List.mem_cons.mp hu with rfl | hu
  · exact Nat.le_refl _
  · have hroom := h.room t List.mem_cons_self
    have hapart := List.rel_of_pairwise_cons h.apart hu
    omega

/-! ### The tokens of a clause -/

/-- A clause in the tokens it was found in. -/
structure Passage (f : Found) where
  before : List Token
  first : Token
  /-- The further words of the name of the metric. -/
  name : List Token
  gap : List Token
  number : Token
  unit : List Token
  trailing : List Token
  after : List Token
  metric_eq : metricAt (first :: (name ++ gap) ++ (number :: (unit ++ trailing) ++ after)) =
    some (f.metric, name.length + 1)
  number_eq : number.kind = .number f.value
  unit_eq : unitAt (unit ++ (trailing ++ after)) = (f.unit, unit.length)
  trailing_eq : (trailingComparison (trailing ++ after)).2 = trailing.length
  start_eq : f.start = first.start
  stop_eq : f.stop = ((unit ++ trailing).getLast?.getD number).stop
  next_eq : f.next = after.head?.map Token.start

namespace Passage

/-- The tokens of the clause. -/
def own (p : Passage f) : List Token :=
  p.first :: (p.name ++ p.gap) ++ p.number :: (p.unit ++ p.trailing)

/-- The tokens that the clause was found in. -/
def tokens (p : Passage f) : List Token := p.before ++ (p.own ++ p.after)

/-- The last token of the clause. -/
def last (p : Passage f) : Token := (p.unit ++ p.trailing).getLast?.getD p.number

end Passage

/-- What stands behind a number: the words of its unit and those of its trailing comparison. -/
theorem exists_words_behind (ts : List Token) : ∃ unit trailing after,
    ts = unit ++ (trailing ++ after) ∧ (unitAt ts).2 = unit.length ∧
      (trailingComparison (trailing ++ after)).2 = trailing.length := by
  generalize hrest : ts.drop (unitAt ts).2 = rest
  refine ⟨ts.take (unitAt ts).2, rest.take (trailingComparison rest).2,
    rest.drop (trailingComparison rest).2, ?_, ?_, ?_⟩
  · rw [List.take_append_drop, ← hrest, List.take_append_drop]
  · rw [List.length_take_of_le (unitAt_le ts)]
  · rw [List.take_append_drop, List.length_take_of_le (trailingComparison_le rest)]

theorem exists_token_of_numberAt? {k : Nat} {x : Float} (h : numberAt? ts k = some x) :
    ∃ t, ts = ts.take k ++ t :: ts.drop (k + 1) ∧ t.kind = .number x := by
  unfold numberAt? at h
  cases ht : ts[k]? with
  | none => simp [ht] at h
  | some t =>
      obtain ⟨hk, rfl⟩ := List.getElem?_eq_some_iff.mp ht
      refine ⟨ts[k], ?_, ?_⟩
      · rw [← List.drop_eq_getElem_cons hk, List.take_append_drop]
      · rw [ht, Option.map_some] at h
        split at h <;> simp_all

/-- A limit in its tokens. -/
theorem IsLimit.split {k n : Nat} {value : Float} (h : IsLimit ts k value n) :
    ∃ gap number unit trailing after, ts = gap ++ (number :: (unit ++ trailing) ++ after) ∧
      k = gap.length ∧ n = gap.length + (unit.length + trailing.length + 1) ∧
      number.kind = .number value ∧ (unitAt (unit ++ (trailing ++ after))).2 = unit.length ∧
      (trailingComparison (trailing ++ after)).2 = trailing.length := by
  obtain ⟨number, hsplit, hkind⟩ := exists_token_of_numberAt? h.number
  obtain ⟨unit, trailing, after, hbehind, hunit, htrailing⟩ := exists_words_behind (ts.drop (k + 1))
  have hk : k ≤ ts.length := by
    refine Nat.le_of_not_lt fun hlt => ?_
    have hnone := h.number
    simp [numberAt?, List.getElem?_eq_none (Nat.le_of_lt hlt)] at hnone
  have hrest : ts.drop (k + 1 + unit.length) = trailing ++ after := by
    rw [← List.drop_drop, hbehind, List.drop_left]
  have hlength := h.length
  rw [hunit, hrest, htrailing] at hlength
  refine ⟨ts.take k, number, unit, trailing, after, ?_, ?_, ?_, hkind, hbehind ▸ hunit, htrailing⟩
  · rw [List.cons_append, List.append_assoc, ← hbehind]
    exact hsplit
  · rw [List.length_take_of_le hk]
  · rw [List.length_take_of_le hk, hlength]
    omega

/-- **A clause that sets a limit consists of the name of its metric, a gap, and the limit**; what
the scan goes on with stands behind it. -/
theorem exists_passage (hs : s ∈ starts [] ts) (hf : s.finding? = some (.found f)) :
    ∃ p : Passage f, p.tokens = ts ∧ p.first = s.head ∧ p.after = s.rest.drop s.length := by
  obtain ⟨htext, hmetric, -⟩ := text_of_mem_starts hs
  rw [List.reverse_nil, List.nil_append] at htext
  have hwords : s.words = s.words - 1 + 1 := by
    rcases words_of_metricAt hmetric with hone | ⟨htwo, -⟩ <;> omega
  unfold Start.finding? at hf
  split at hf
  next operator value unit n htail =>
    simp only [Option.some.injEq, Finding.found.injEq] at hf
    obtain ⟨k, m, hn, hlimit, hunit⟩ := of_tailFrom_eq_limit htail
    obtain ⟨gap, number, words, trailing, after, hsplit, hk, hm, hkind, hunits, htrailing⟩ :=
      hlimit.split
    obtain ⟨name, hname, hrest⟩ : ∃ name, name.length = s.words - 1 ∧
        s.rest = name ++ gap ++ number :: (words ++ trailing) ++ after := by
      refine ⟨s.rest.take (s.words - 1), List.length_take_of_le (words_le hmetric), ?_⟩
      rw [List.append_assoc, List.append_assoc, ← hsplit, List.take_append_drop]
    have hlength : (name ++ gap ++ number :: (words ++ trailing)).length = s.length := by
      rw [Start.length, htail, Tail.length]
      simp only [List.length_append, List.length_cons]
      omega
    have htake : s.rest.take s.length = name ++ gap ++ number :: (words ++ trailing) := by
      rw [hrest, List.take_left' hlength]
    have hdrop : s.rest.drop s.length = after := by rw [hrest, List.drop_left' hlength]
    rw [htake, hdrop, List.getLast?_append, List.getLast?_cons, Option.some_or,
      Option.getD_some] at hf
    subst hf
    refine ⟨⟨s.before.reverse, s.head, name, gap, number, words, trailing, after, ?_, hkind, ?_,
      htrailing, rfl, rfl, rfl⟩, ?_, rfl, hdrop.symm⟩
    · rw [hname, ← hwords, ← hmetric, hrest]
      simp only [List.cons_append, List.append_assoc]
    · rw [hsplit, hk, List.drop_length_add_append, List.cons_append, List.drop_succ_cons,
        List.drop_zero, List.append_assoc] at hunit
      exact Prod.ext hunit.symm hunits
    · simp only [Passage.tokens, Passage.own, ← htext]
      rw [hrest]
      simp only [List.cons_append, List.append_assoc]
  next => simp at hf
  next => cases hf

namespace Passage
variable {p : Passage f}

theorem exists_own_eq (p : Passage f) : ∃ init, p.own = init ++ [p.last] := by
  have hlast : (p.number :: (p.unit ++ p.trailing)).getLast? = some p.last := List.getLast?_cons
  refine ⟨p.first :: (p.name ++ p.gap) ++ (p.number :: (p.unit ++ p.trailing)).dropLast, ?_⟩
  rw [List.append_assoc, List.dropLast_append_getLast? _ hlast, own]

theorem own_sublist (p : Passage f) : p.own.Sublist p.tokens :=
  (List.sublist_append_left _ _).trans (List.sublist_append_right _ _)

theorem first_mem (p : Passage f) : p.first ∈ p.own := List.mem_append_left _ List.mem_cons_self

theorem last_mem (p : Passage f) : p.last ∈ p.own := by
  obtain ⟨init, hinit⟩ := p.exists_own_eq
  exact hinit ▸ List.mem_append_right _ (List.mem_singleton_self _)

/-- The first token of the clause is a word. -/
theorem exists_first_word (p : Passage f) : ∃ w, p.first.word? = some w := by
  obtain ⟨w, -, hw⟩ := (metricAt_isSome_iff _).mp (Option.isSome_of_eq_some p.metric_eq)
  exact ⟨w, hw⟩

/-- The last token of the clause is its number or one of the words behind it. -/
theorem last_cases (p : Passage f) : p.last = p.number ∨ ∃ w, p.last.word? = some w := by
  unfold last
  cases hlast : (p.unit ++ p.trailing).getLast? with
  | none => exact .inl rfl
  | some t =>
      refine .inr ?_
      rcases List.mem_append.mp (List.mem_of_getLast? hlast) with ht | ht
      · obtain ⟨i, hi, rfl⟩ := List.getElem_of_mem ht
        have hunit : i < (unitAt (p.unit ++ (p.trailing ++ p.after))).2 := by rwa [p.unit_eq]
        obtain ⟨w, hw, -⟩ := wordAt?_unit hunit
        rw [wordAt?, List.getElem?_append_left hi, List.getElem?_eq_getElem hi] at hw
        exact ⟨w, hw⟩
      · obtain ⟨i, hi, rfl⟩ := List.getElem_of_mem ht
        have htrailing : i < (trailingComparison (p.trailing ++ p.after)).2 := by
          rwa [p.trailing_eq]
        obtain ⟨w, hw, -⟩ := wordAt?_trailing htrailing
        rw [wordAt?, List.getElem?_append_left hi, List.getElem?_eq_getElem hi] at hw
        exact ⟨w, hw⟩

/-! ### Next to a clause -/

/-- The tokens behind the clause start behind its end. -/
theorem stop_le_start (h : Ordered p.tokens) (ht : t ∈ p.after) : f.stop ≤ t.start := by
  obtain ⟨init, hinit⟩ := p.exists_own_eq
  have hsub : (p.last :: p.after).Sublist p.tokens := by
    rw [tokens, hinit, List.append_assoc, List.singleton_append, ← List.append_assoc]
    exact List.sublist_append_right _ _
  exact p.stop_eq ▸ List.rel_of_pairwise_cons (h.sublist hsub).apart ht

/-- The tokens up to the end of the clause stop there or before. -/
theorem stop_le (h : Ordered p.tokens) (ht : t ∈ p.before ++ p.own) :
    t.start < t.stop ∧ t.stop ≤ f.stop := by
  obtain ⟨init, hinit⟩ := p.exists_own_eq
  have hordered : Ordered (p.before ++ p.own) := by
    refine h.sublist ?_
    rw [tokens, ← List.append_assoc]
    exact List.sublist_append_left _ _
  refine ⟨hordered.room t ht, ?_⟩
  rw [hinit, ← List.append_assoc] at ht hordered
  rw [p.stop_eq]
  rcases List.mem_append.mp ht with ht | ht
  · have hapart := (List.pairwise_append.mp hordered.apart).2.2 t ht _ (List.mem_singleton_self _)
    have hroom := hordered.room p.last (by simp)
    exact Nat.le_trans hapart (Nat.le_of_lt hroom)
  · exact List.mem_singleton.mp ht ▸ Nat.le_refl _

/-- The tokens of the clause start where it starts or behind. -/
theorem start_le (h : Ordered p.tokens) (ht : t ∈ p.own) : f.start ≤ t.start :=
  p.start_eq ▸ (h.sublist p.own_sublist).start_le_of_cons ht

/-- **What stands next to a clause is the first token that starts behind it.** -/
theorem next_eq_find? (h : Ordered p.tokens) :
    f.next = (p.tokens.find? fun t => f.stop ≤ t.start).map Token.start := by
  have hnone : ((p.before ++ p.own).find? fun t => decide (f.stop ≤ t.start)) = none := by
    rw [List.find?_eq_none]
    intro t ht
    have hstop := stop_le h ht
    simpa using Nat.lt_of_lt_of_le hstop.1 hstop.2
  have hafter : (p.after.find? fun t => decide (f.stop ≤ t.start)) = p.after.head? := by
    cases hlist : p.after with
    | nil => rfl
    | cons u us =>
        have := stop_le_start h (hlist ▸ List.mem_cons_self)
        rw [List.find?_cons_of_pos (by simpa using this), List.head?_cons]
  rw [p.next_eq, tokens, ← List.append_assoc, List.find?_append, hnone, hafter, Option.none_or]

end Passage

end SiteSafety.Clause
