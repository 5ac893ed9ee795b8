import SiteSafety.Proofs.Clause.Amounts

/-!
# Proofs — Clause — Extent

From where to where the clauses of a snippet go.  They stand one behind the other: each of them
starts at the token next to the one before it, or later.  And each is quoted as it stands in the
text, since both its ends are parts of words or numbers.

* `thresholds_eq_map`: the thresholds of a snippet are those of its clauses.
* `pairwise_clauses`: the order of the clauses.
* `excerpt_of_passage`: **the quotation of a clause is a part of the text, from the name of its
  metric to its last word.**
-/

namespace SiteSafety.Clause

variable {f : Found} {t : Token} {cs : List Char}

/-! ### The clauses of a snippet -/

/-- The clause that is found, if it sets a limit. -/
def Finding.found? : Finding → Option Found
  | .found f     => some f
  | .skipped _ _ => none

/-- The clauses of a snippet that set a limit. -/
def clauses (s : Rule.Snippet) : List Found :=
  (findings [] (snippetTokens s)).filterMap Finding.found?

/-- The thresholds of a snippet are those of its clauses, in order. -/
theorem thresholds_eq_map (s : Rule.Snippet) : (ofSnippet s).thresholds =
    (clauses s).map (·.threshold s.citation s.text.toList (mask s.text.toList).2) := by
  simp only [ofSnippet, clauses, List.map_filterMap]
  refine List.filterMap_congr fun f _ => ?_
  cases f <;> rfl

theorem clauses_eq_filterMap (s : Rule.Snippet) : clauses s =
    (starts [] (snippetTokens s)).filterMap fun start => start.finding?.bind Finding.found? := by
  rw [clauses, findings_eq_filterMap, List.filterMap_filterMap]

theorem exists_passage_of_start {s : Rule.Snippet} {start : Start}
    (hs : start ∈ starts [] (snippetTokens s)) (hf : start.finding?.bind Finding.found? = some f) :
    ∃ p : Passage f, p.tokens = snippetTokens s ∧ p.first = start.head ∧
      p.after = start.rest.drop start.length := by
  obtain ⟨finding, hfinding, hfound⟩ := Option.bind_eq_some_iff.mp hf
  cases finding with
  | found g =>
      obtain rfl : g = f := Option.some.inj hfound
      exact exists_passage hs hfinding
  | skipped => cases hfound

/-- Every clause has a passage. -/
theorem exists_passage_of_mem {s : Rule.Snippet} (hf : f ∈ clauses s) :
    ∃ p : Passage f, p.tokens = snippetTokens s := by
  rw [clauses_eq_filterMap] at hf
  obtain ⟨start, hs, hfound⟩ := List.mem_filterMap.mp hf
  obtain ⟨p, hp, -⟩ := exists_passage_of_start hs hfound
  exact ⟨p, hp⟩

/-- **A clause starts behind the one before it**, at the token next to that one or later. -/
theorem pairwise_clauses (s : Rule.Snippet) : (clauses s).Pairwise fun f g =>
    ∃ n, f.next = some n ∧ f.stop ≤ n ∧ n ≤ g.start := by
  rw [clauses_eq_filterMap, List.pairwise_filterMap]
  refine (pairwise_starts [] (snippetTokens s)).imp_of_mem fun {a b} ha hb hlt f hf g hg => ?_
  obtain ⟨p, hp, -, hafter⟩ := exists_passage_of_start ha hf
  obtain ⟨q, -, hfirst, -⟩ := exists_passage_of_start hb hg
  have hordered : Ordered p.tokens := hp ▸ ordered_tokens _
  -- the later clause starts among the tokens behind the earlier one
  have hmem : q.first ∈ p.after := by
    obtain ⟨d, hd⟩ := Nat.exists_eq_add_of_lt hlt
    have hfrom : (snippetTokens s).drop a.position = a.head :: a.rest := drop_position rfl ha
    have hlater : (snippetTokens s).drop b.position = b.head :: b.rest := drop_position rfl hb
    rw [hd, show a.position + a.length + d + 1 = a.position + (a.length + d + 1) by omega,
      ← List.drop_drop, hfrom, List.drop_succ_cons, ← List.drop_drop, ← hafter] at hlater
    rw [hfirst]
    exact List.mem_of_mem_drop (hlater ▸ List.mem_cons_self)
  cases hlist : p.after with
  | nil => exact absurd (hlist ▸ hmem) List.not_mem_nil
  | cons u us =>
      have hus : Ordered (u :: us) := by
        refine hlist ▸ hordered.sublist ?_
        rw [Passage.tokens, ← List.append_assoc]
        exact List.sublist_append_right _ _
      refine ⟨u.start, by rw [p.next_eq, hlist]; rfl, ?_, ?_⟩
      · exact p.stop_le_start hordered (hlist ▸ List.mem_cons_self)
      · rw [q.start_eq]
        exact hus.start_le_of_cons (hlist ▸ hmem)

/-! ### Quotations -/

theorem head?_part {a b : Nat} (hab : a < b) (cs : List Char) :
    ((cs.drop a).take (b - a)).head? = cs[a]? := by
  rw [List.head?_take, if_neg (by omega), List.head?_drop]

theorem getLast?_part {a b : Nat} (hab : a < b) (hb : b ≤ cs.length) :
    ((cs.drop a).take (b - a)).getLast? = cs[b - 1]? := by
  have hlength : ((cs.drop a).take (b - a)).length = b - a := by
    rw [List.length_take_of_le]
    rw [List.length_drop]
    omega
  rw [List.getLast?_eq_getElem?, hlength, List.getElem?_take_of_lt (by omega),
    List.getElem?_drop, show a + (b - a - 1) = b - 1 by omega]

/-- Words and numbers hold no blanks. -/
theorem isBlank_of_mem_written (ht : t ∈ tokens (mask cs).1)
    (hkind : (∃ w, t.word? = some w) ∨ ∃ x, t.kind = .number x) :
    ∀ d ∈ t.written cs, Text.isBlank d = false := by
  intro d hd
  rcases hkind with ⟨w, hw⟩ | ⟨x, hx⟩
  · exact (isWord_of_isWordChar (written_of_word? ht hw).2 d hd).1
  · have hchar := (written_of_number ht hx).2 d hd
    rw [Bool.eq_false_iff]
    intro hblank
    have hgap := separates_of_isBlank hblank
    simp only [isNumberChar, hgap.digit, hgap.dash, Bool.or_false, Bool.false_or,
      Bool.or_eq_true, beq_iff_eq] at hchar
    rcases hchar with rfl | rfl
    all_goals exact absurd hblank (by decide)

/-- A clause stands in its text and is not empty. -/
theorem bounds_of_passage (p : Passage f) (hp : p.tokens = tokens (mask cs).1) :
    f.start < f.stop ∧ f.stop ≤ cs.length := by
  have hordered : Ordered p.tokens := hp ▸ ordered_tokens _
  have hlast : p.last ∈ tokens (mask cs).1 := hp ▸ p.own_sublist.subset p.last_mem
  have hbound := (bounds_of_mem_tokens hlast).2
  rw [mask, length_maskFrom, show p.last.stop = f.stop from p.stop_eq.symm] at hbound
  have hfirst := p.stop_le hordered (List.mem_append_right _ p.first_mem)
  rw [p.start_eq]
  exact ⟨Nat.lt_of_lt_of_le hfirst.1 hfirst.2, hbound⟩

/-- **A clause is quoted as it stands in the text**: trimming takes nothing off it. -/
theorem excerpt_of_passage (p : Passage f) (hp : p.tokens = tokens (mask cs).1) :
    excerpt cs f.start f.stop = String.ofList ((cs.drop f.start).take (f.stop - f.start)) := by
  have hmem : ∀ t ∈ p.own, t ∈ tokens (mask cs).1 := fun t ht => hp ▸ p.own_sublist.subset ht
  have hroom : ∀ t ∈ p.own, t.start < t.stop := fun t ht => (ordered_tokens _).room t (hmem t ht)
  obtain ⟨hlt, hle⟩ := bounds_of_passage p hp
  rw [excerpt, Text.trim_of_ends]
  · intro c hc
    -- the first character is that of the name of the metric
    rw [head?_part hlt, p.start_eq, ← head?_part (hroom _ p.first_mem)] at hc
    exact isBlank_of_mem_written (hmem _ p.first_mem) (.inl p.exists_first_word) c
      (List.mem_of_mem_head? hc)
  · intro c hc
    -- and the last one that of the number or of a word behind it
    have hstop : f.stop = p.last.stop := p.stop_eq
    rw [getLast?_part hlt hle, hstop, ← getLast?_part (hroom _ p.last_mem) (hstop ▸ hle)] at hc
    refine isBlank_of_mem_written (hmem _ p.last_mem) ?_ c (List.mem_of_getLast? hc)
    rcases p.last_cases with hnumber | hword
    · exact .inr ⟨f.value, hnumber ▸ p.number_eq⟩
    · exact .inl hword

end SiteSafety.Clause
