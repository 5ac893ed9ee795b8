import SiteSafety.Proofs.Text.Lower
import SiteSafety.Proofs.Text.Search

/-!
# Proofs — Text — Phrases

What occurs in a text when its lines are put behind each other, trimmed and with single spaces
between them.  A word occurs there where it occurs in the text (`infix_joinLines_iff`).  A phrase of
two words also occurs where the text breaks a line between them (`phrase_joinLines_iff`): one line
break and the blanks around it become the space of the phrase.
-/

namespace SiteSafety.Text

variable {c : Char} {u v w p gap cs ds : List Char}

/-! ### Trimmed texts -/

/-- A text that neither starts nor ends with a blank. -/
structure IsTight (w : List Char) : Prop where
  head : ∀ c ∈ w.head?, isBlank c = false
  last : ∀ c ∈ w.getLast?, isBlank c = false

instance (w : List Char) : Decidable (IsTight w) :=
  decidable_of_iff ((w.head?.all fun c => !isBlank c) = true ∧
      (w.getLast?.all fun c => !isBlank c) = true) (by
    simp only [Option.all_eq_true, Bool.not_eq_true']
    exact ⟨fun h => ⟨h.1, h.2⟩, fun h => ⟨h.head, h.last⟩⟩)

theorem IsTight.of_no_blank (h : ∀ c ∈ w, isBlank c = false) : IsTight w where
  head c hc := h c (List.mem_of_mem_head? hc)
  last c hc := h c (List.mem_of_mem_getLast? hc)

theorem not_mem_of_no_blank (hw : ∀ c ∈ w, isBlank c = false) (hc : isBlank c = true) : c ∉ w := by
  intro hmem
  rw [hw c hmem] at hc
  cases hc

theorem infix_cons_blank_iff (hw : IsTight w) (hc : isBlank c = true) :
    w <:+: c :: cs ↔ w <:+: cs := by
  rw [List.infix_cons_iff, or_iff_right_of_imp]
  intro hpre
  cases w with
  | nil => exact List.nil_infix
  | cons a w =>
      obtain ⟨rfl, -⟩ := List.cons_prefix_cons.mp hpre
      rw [hw.head a rfl] at hc
      cases hc

theorem infix_concat_blank_iff (hw : IsTight w) (hc : isBlank c = true) :
    w <:+: cs ++ [c] ↔ w <:+: cs := by
  have hreverse : IsTight w.reverse :=
    ⟨by simpa using hw.last, by simpa using hw.head⟩
  rw [← List.reverse_infix, List.reverse_append, List.reverse_singleton, List.singleton_append,
    infix_cons_blank_iff hreverse hc, List.reverse_infix]

/-- What has no blanks at its ends occurs in a text where it occurs in the trimmed text. -/
theorem infix_trim_iff (hw : IsTight w) (cs : List Char) : w <:+: trim cs ↔ w <:+: cs := by
  refine iff_of_eq (apply_trim (w <:+: ·) (fun c ds hc => ?_) (fun cs c hc => ?_) cs)
  · exact propext (infix_cons_blank_iff hw hc)
  · exact propext (infix_concat_blank_iff hw hc)

theorem trimEnd_of_last (h : ∀ c ∈ w.getLast?, isBlank c = false) : trimEnd w = w := by
  rw [trimEnd, dropEndWhile, ← trimStart, trimStart_of_head (by simpa using h),
    List.reverse_reverse]

/-- A word at the start of a trimmed text has blanks before it in the text. -/
theorem prefix_trim_iff (hv : v ≠ []) (hblank : ∀ c ∈ v, isBlank c = false) :
    v <+: trim p ↔ ∃ g, (∀ c ∈ g, isBlank c = true) ∧ g ++ v <+: p := by
  constructor
  · rintro ⟨t, ht⟩
    obtain ⟨as, bs, hp, has, -⟩ := exists_append_trim_append p
    exact ⟨as, has, t ++ bs, by rw [hp, ← ht]; simp⟩
  · rintro ⟨g, hg, t, rfl⟩
    rcases List.eq_nil_or_concat v with rfl | ⟨v', z, rfl⟩
    · exact absurd rfl hv
    · rw [List.concat_eq_append] at hblank ⊢
      have hstart : trimStart v' = v' := trimStart_of_head fun c hc =>
        hblank c (List.mem_append_left _ (List.mem_of_mem_head? hc))
      have hsplit : g ++ (v' ++ [z]) ++ t = g ++ (v' ++ z :: t) := by simp
      rw [hsplit, trim_of_blank_append hg, trim_append_cons (hblank z (by simp)), hstart]
      exact ⟨trimEnd t, by simp⟩

/-- A word at the end of a trimmed text has blanks behind it in the text. -/
theorem suffix_trim_iff (hu : u ≠ []) (hblank : ∀ c ∈ u, isBlank c = false) :
    u <:+ trim p ↔ ∃ g, (∀ c ∈ g, isBlank c = true) ∧ u ++ g <:+ p := by
  constructor
  · rintro ⟨s, hs⟩
    obtain ⟨as, bs, hp, -, hbs⟩ := exists_append_trim_append p
    exact ⟨bs, hbs, as ++ s, by rw [hp, ← hs]; simp⟩
  · rintro ⟨g, hg, s, rfl⟩
    obtain ⟨a, u', rfl⟩ := List.exists_cons_of_ne_nil hu
    have hend : trimEnd u' = u' := trimEnd_of_last fun c hc =>
      hblank c (List.mem_cons_of_mem _ (List.mem_of_mem_getLast? hc))
    rw [← List.append_assoc, trim_append_of_blank hg,
      trim_append_cons (hblank a List.mem_cons_self), hend]
    exact List.suffix_append _ _

/-! ### Lines -/

/-- The lines of a text, trimmed, with single spaces between them. -/
def joinLines (cs : List Char) : List Char := join [' '] ((cs.splitOnP (· == '\n')).map trim)

/-- A text is a line, or a line and the text behind its line break. -/
theorem line_induction {motive : List Char → Prop}
    (line : ∀ p, '\n' ∉ p → motive p)
    (more : ∀ p cs, '\n' ∉ p → motive cs → motive (p ++ '\n' :: cs)) (cs : List Char) :
    motive cs := by
  by_cases h : '\n' ∈ cs
  · obtain ⟨p, rest, hcs, hp⟩ := List.eq_append_cons_of_mem h
    have : rest.length < cs.length := by
      rw [hcs, List.length_append, List.length_cons]
      omega
    rw [hcs]
    exact more p rest hp (line_induction line more rest)
  · exact line cs h
termination_by cs.length

theorem splitOnP_line (h : '\n' ∉ p) : p.splitOnP (· == '\n') = [p] :=
  List.splitOnP_eq_singleton fun c hc => by
    rw [beq_eq_false_iff_ne]
    rintro rfl
    exact h hc

theorem joinLines_line (h : '\n' ∉ p) : joinLines p = trim p := by
  rw [joinLines, splitOnP_line h]
  rfl

theorem joinLines_more (h : '\n' ∉ p) (cs : List Char) :
    joinLines (p ++ '\n' :: cs) = trim p ++ ' ' :: joinLines cs := by
  obtain ⟨q, qs, hsplit⟩ := List.exists_cons_of_ne_nil (List.splitOnP_ne_nil (· == '\n') cs)
  rw [joinLines, List.splitOnP_append_cons _ _ rfl, splitOnP_line h, joinLines, hsplit]
  simp [join]

/-- The words of a text are those of its lines. -/
theorem words_joinLines (cs : List Char) : words (joinLines cs) = words cs := by
  induction cs using line_induction with
  | line p hp => rw [joinLines_line hp, words, words, fields_trim fun _ h => h]
  | more p cs hp ih =>
      rw [words, words] at ih ⊢
      rw [joinLines_more hp, fields_append_cons (by decide), fields_append_cons (by decide), ih,
        fields_trim fun _ h => h]

theorem lower_joinLines (cs : List Char) : lower (joinLines cs) = joinLines (lower cs) := by
  have hline (p : List Char) (hp : '\n' ∉ p) : '\n' ∉ lower p :=
    mt (mem_of_mem_lower (by decide)) hp
  induction cs using line_induction with
  | line p hp => rw [joinLines_line hp, joinLines_line (hline p hp), lower_trim]
  | more p cs hp ih =>
      rw [joinLines_more hp, lower_append_blank (by decide), lower_append_blank (by decide),
        joinLines_more (hline p hp), lower_trim, ih]

/-- A line break does not count at the end of a trimmed text, since there is none. -/
theorem join_lines_trim (cs : List Char) :
    join [' '] ((lines (trim cs)).map trim) = joinLines (trim cs) := by
  have hended : (endedLines (trim cs)).map trim =
      ((trim cs).splitOnP (· == '\n')).dropLast.map trim := by
    rw [endedLines, List.map_map]
    exact List.map_congr_left fun l _ => trim_dropReturn l
  rw [lines_eq, joinLines, List.map_append, hended]
  rcases List.eq_nil_or_concat (trim cs) with hnil | ⟨rest, c, hrest⟩
  · rw [hnil]
    rfl
  · have hlast : (trim cs).getLast? = some c := by simp [hrest]
    have hc : '\n' ∉ [c] := by
      rw [List.mem_singleton]
      rintro rfl
      exact absurd (isBlank_of_getLast?_trim hlast) (by decide)
    have hopen : openLine (trim cs) ≠ [] := by
      rw [hrest, List.concat_eq_append]
      simp only [openLine, splitOnP_append_of_none hc, List.getLast_concat]
      simp
    have hfilter : [openLine (trim cs)].filter (!·.isEmpty) = [openLine (trim cs)] := by
      simp [hopen]
    rw [hfilter, ← List.map_append, openLine, List.dropLast_append_getLast]

/-! ### Words -/

/-- A word occurs in the lines of a text where it occurs in the text. -/
theorem infix_joinLines_iff (hw : ∀ c ∈ w, isBlank c = false) (cs : List Char) :
    w <:+: joinLines cs ↔ w <:+: cs := by
  have hspace : ' ' ∉ w := not_mem_of_no_blank hw (by decide)
  have hbreak : '\n' ∉ w := not_mem_of_no_blank hw (by decide)
  induction cs using line_induction with
  | line p hp => rw [joinLines_line hp, infix_trim_iff (.of_no_blank hw)]
  | more p cs hp ih =>
      rw [joinLines_more hp, infix_append_cons_iff hspace, infix_append_cons_iff hbreak]
      exact or_congr (infix_trim_iff (.of_no_blank hw) p) ih

/-! ### Phrases -/

/-- Blanks of which one is a line break. -/
def IsLineGap (gap : List Char) : Prop := (∀ c ∈ gap, isBlank c = true) ∧ gap.count '\n' = 1

/-- Blanks within a line. -/
def IsSpacing (g : List Char) : Prop := ∀ c ∈ g, isBlank c = true ∧ c ≠ '\n'

theorem isLineGap_iff :
    IsLineGap gap ↔ ∃ g g', gap = g ++ '\n' :: g' ∧ IsSpacing g ∧ IsSpacing g' := by
  constructor
  · rintro ⟨hblank, hcount⟩
    have hmem : '\n' ∈ gap := List.count_pos_iff.mp (by omega)
    obtain ⟨g, g', rfl, hg⟩ := List.eq_append_cons_of_mem hmem
    have hg' : '\n' ∉ g' := by
      rw [← List.count_eq_zero]
      simp only [List.count_append, List.count_cons_self] at hcount
      omega
    refine ⟨g, g', rfl, fun c hc => ⟨hblank c (by simp [hc]), ?_⟩,
      fun c hc => ⟨hblank c (by simp [hc]), ?_⟩⟩
    · rintro rfl
      exact hg hc
    · rintro rfl
      exact hg' hc
  · rintro ⟨g, g', rfl, hg, hg'⟩
    have hcount (l : List Char) (hl : IsSpacing l) : l.count '\n' = 0 :=
      List.count_eq_zero.mpr fun hmem => (hl _ hmem).2 rfl
    refine ⟨?_, by simp [hcount g hg, hcount g' hg']⟩
    intro c hc
    rcases List.mem_append.mp hc with hc | hc
    · exact (hg c hc).1
    · rcases List.mem_cons.mp hc with rfl | hc
      · decide
      · exact (hg' c hc).1

theorem IsSpacing.not_mem {g : List Char} (h : IsSpacing g) : '\n' ∉ g := fun hmem =>
  (h _ hmem).2 rfl

theorem isSpacing_of_line {g : List Char} (hp : '\n' ∉ p) (hg : ∀ c ∈ g, isBlank c = true)
    (hsub : g ⊆ p) : IsSpacing g := by
  intro c hc
  refine ⟨hg c hc, ?_⟩
  rintro rfl
  exact hp (hsub hc)

theorem isTight_phrase (hu : u ≠ []) (hublank : ∀ c ∈ u, isBlank c = false) (hv : v ≠ [])
    (hvblank : ∀ c ∈ v, isBlank c = false) : IsTight (u ++ gap ++ v) where
  head := by
    obtain ⟨a, u', rfl⟩ := List.exists_cons_of_ne_nil hu
    exact fun c hc => hublank c (List.mem_of_mem_head? hc)
  last := by
    rcases List.eq_nil_or_concat v with rfl | ⟨v', z, rfl⟩
    · exact absurd rfl hv
    · intro c hc
      obtain rfl : z = c := by simpa using hc
      exact hvblank z (by simp)

section Phrase
variable (hu : u ≠ []) (hublank : ∀ c ∈ u, isBlank c = false)
  (hv : v ≠ []) (hvblank : ∀ c ∈ v, isBlank c = false)

include hv hvblank

/-- A word stands at the start of the first line, behind the blanks that are trimmed off. -/
theorem prefix_joinLines_iff (cs : List Char) :
    v <+: joinLines cs ↔ ∃ g, IsSpacing g ∧ g ++ v <+: cs := by
  have hline (p : List Char) (hp : '\n' ∉ p) :
      v <+: trim p ↔ ∃ g, IsSpacing g ∧ g ++ v <+: p := by
    rw [prefix_trim_iff hv hvblank]
    constructor
    · rintro ⟨g, hg, hpre⟩
      have hsub : g ⊆ p := ((List.prefix_append g v).trans hpre).subset
      exact ⟨g, isSpacing_of_line hp hg hsub, hpre⟩
    · rintro ⟨g, hg, hpre⟩
      exact ⟨g, fun c hc => (hg c hc).1, hpre⟩
  have hspace : ' ' ∉ v := not_mem_of_no_blank hvblank (by decide)
  have hbreak : '\n' ∉ v := not_mem_of_no_blank hvblank (by decide)
  induction cs using line_induction with
  | line p hp => rw [joinLines_line hp, hline p hp]
  | more p cs hp ih =>
      rw [joinLines_more hp, prefix_append_cons_iff hspace, hline p hp]
      refine exists_congr fun g => and_congr_right fun hg => ?_
      rw [prefix_append_cons_iff (by simp [hg.not_mem, hbreak])]

omit hv hvblank
include hu hublank

/-- A word stands at the end of a line, before the blanks that are trimmed off. -/
theorem suffix_trim_line_iff (hp : '\n' ∉ p) :
    u <:+ trim p ↔ ∃ g, IsSpacing g ∧ u ++ g <:+ p := by
  rw [suffix_trim_iff hu hublank]
  constructor
  · rintro ⟨g, hg, hsuf⟩
    have hsub : g ⊆ p := ((List.suffix_append u g).trans hsuf).subset
    exact ⟨g, isSpacing_of_line hp hg hsub, hsuf⟩
  · rintro ⟨g, hg, hsuf⟩
    exact ⟨g, fun c hc => (hg c hc).1, hsuf⟩

omit hu
include hvblank

/-- Words with a line break between them stand around the first line break of a text or behind
it. -/
theorem lineGap_more_iff (hp : '\n' ∉ p) (cs : List Char) :
    (∃ gap, IsLineGap gap ∧ u ++ gap ++ v <:+: p ++ '\n' :: cs) ↔
      ((∃ g, IsSpacing g ∧ u ++ g <:+ p) ∧ ∃ g, IsSpacing g ∧ g ++ v <+: cs) ∨
        ∃ gap, IsLineGap gap ∧ u ++ gap ++ v <:+: cs := by
  have hubreak : '\n' ∉ u := not_mem_of_no_blank hublank (by decide)
  have hvbreak : '\n' ∉ v := not_mem_of_no_blank hvblank (by decide)
  have hsplit (g g' : List Char) : u ++ (g ++ '\n' :: g') ++ v = u ++ g ++ '\n' :: (g' ++ v) := by
    simp
  have hoccurs (g g' : List Char) (hg : IsSpacing g) (hg' : IsSpacing g') :
      u ++ (g ++ '\n' :: g') ++ v <:+: p ++ '\n' :: cs ↔
        (u ++ g <:+ p ∧ g' ++ v <+: cs) ∨ u ++ (g ++ '\n' :: g') ++ v <:+: cs := by
    rw [hsplit, infix_append_cons_cons_iff (by simp [hubreak, hg.not_mem])
      (by simp [hvbreak, hg'.not_mem]), or_iff_right]
    exact fun h => hp (h.subset (by simp))
  constructor
  · rintro ⟨gap, hgap, h⟩
    obtain ⟨g, g', rfl, hg, hg'⟩ := isLineGap_iff.mp hgap
    rcases (hoccurs g g' hg hg').mp h with ⟨hbefore, hbehind⟩ | h
    · exact .inl ⟨⟨g, hg, hbefore⟩, g', hg', hbehind⟩
    · exact .inr ⟨_, hgap, h⟩
  · rintro (⟨⟨g, hg, hbefore⟩, g', hg', hbehind⟩ | ⟨gap, hgap, h⟩)
    · exact ⟨_, isLineGap_iff.mpr ⟨g, g', rfl, hg, hg'⟩, (hoccurs g g' hg hg').mpr
        (.inl ⟨hbefore, hbehind⟩)⟩
    · exact ⟨gap, hgap, h.trans ⟨p ++ ['\n'], [], by simp⟩⟩

include hu hv

/-- A phrase of two words occurs in the lines of a text where it occurs in the text, or where a line
break and the blanks around it stand for its space. -/
theorem phrase_joinLines_iff (cs : List Char) :
    u ++ ' ' :: v <:+: joinLines cs ↔
      u ++ ' ' :: v <:+: cs ∨ ∃ gap, IsLineGap gap ∧ u ++ gap ++ v <:+: cs := by
  have htight : IsTight (u ++ ' ' :: v) := by
    have hspaced : IsTight (u ++ [' '] ++ v) := isTight_phrase hu hublank hv hvblank
    simpa using hspaced
  have huspace : ' ' ∉ u := not_mem_of_no_blank hublank (by decide)
  have hvspace : ' ' ∉ v := not_mem_of_no_blank hvblank (by decide)
  have hbreak : '\n' ∉ u ++ ' ' :: v := by
    simp [not_mem_of_no_blank hublank (c := '\n') (by decide),
      not_mem_of_no_blank hvblank (c := '\n') (by decide)]
  induction cs using line_induction with
  | line p hp =>
      rw [joinLines_line hp, infix_trim_iff htight, or_iff_left]
      rintro ⟨gap, hgap, h⟩
      obtain ⟨g, g', rfl, -, -⟩ := isLineGap_iff.mp hgap
      exact hp (h.subset (by simp))
  | more p cs hp ih =>
      rw [joinLines_more hp, infix_append_cons_cons_iff huspace hvspace,
        infix_append_cons_iff hbreak, infix_trim_iff htight, suffix_trim_line_iff hu hublank hp,
        prefix_joinLines_iff hv hvblank, lineGap_more_iff hublank hvblank hp, or_assoc]
      refine or_congr_right ?_
      rw [or_left_comm]
      exact or_congr_right ih

end Phrase

end SiteSafety.Text
