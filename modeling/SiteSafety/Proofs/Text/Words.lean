import Mathlib.Data.List.TakeWhile
import SiteSafety.Text.Words

/-!
# Proofs — Text — Words

Trimming, splitting and lines of texts, as they behave when texts are laid end to end.

* `fields_join_lines`: the words of a text are those of its trimmed lines laid end to end.
* `trim_join_lines`: those of a trimmed text, laid end to end, have no blanks at their ends.
* `lines_append_line`: a line added behind a text is put to the line that the text left open.
-/

namespace SiteSafety.Text

universe u

variable {p sep : Char → Bool} {cs ds : List Char} {c : Char}

/-! ### Dropping at the ends -/

theorem dropEndWhile_append_cons (h : p c = false) :
    dropEndWhile p (cs ++ c :: ds) = cs ++ c :: dropEndWhile p ds := by
  have hrev : (cs ++ c :: ds).reverse = ds.reverse ++ c :: cs.reverse := by simp
  simp only [dropEndWhile, hrev]
  rw [List.dropWhile_append]
  split
  next hall =>
    rw [List.isEmpty_iff] at hall
    simp [hall, h]
  next => simp

/-- What is dropped at the end is a run of the class. -/
theorem exists_dropEndWhile_append (p : Char → Bool) (cs : List Char) :
    ∃ ds, cs = dropEndWhile p cs ++ ds ∧ ∀ d ∈ ds, p d = true := by
  refine ⟨(cs.reverse.takeWhile p).reverse, ?_, ?_⟩
  · rw [dropEndWhile, ← List.reverse_append, List.takeWhile_append_dropWhile, List.reverse_reverse]
  · intro d hd
    rw [List.mem_reverse] at hd
    exact List.all_eq_true.mp List.all_takeWhile d hd

theorem dropEndWhile_append_of_all (h : ∀ d ∈ ds, p d = true) :
    dropEndWhile p (cs ++ ds) = dropEndWhile p cs := by
  have hrev : ∀ d ∈ ds.reverse, p d = true := fun d hd => h d (List.mem_reverse.mp hd)
  rw [dropEndWhile, List.reverse_append, List.dropWhile_append_of_pos hrev]
  rfl

theorem dropEndWhile_of_none (h : ∀ c ∈ cs, p c = false) : dropEndWhile p cs = cs := by
  obtain ⟨ds, hds, hall⟩ := exists_dropEndWhile_append p cs
  cases ds with
  | nil => exact (hds.trans (List.append_nil _)).symm
  | cons d ds =>
      have hmem : d ∈ cs := by
        rw [hds]
        simp
      have hd := hall d List.mem_cons_self
      rw [h d hmem] at hd
      cases hd

theorem trim_of_blank (h : ∀ c ∈ cs, isBlank c = true) : trim cs = [] := by
  have hstart : trimStart cs = [] := List.dropWhile_eq_nil_iff.mpr h
  rw [trim, hstart]
  rfl

theorem trim_append_of_blank (h : ∀ d ∈ ds, isBlank d = true) : trim (cs ++ ds) = trim cs := by
  -- blanks behind a text are trimmed at its start when the text itself is blank
  by_cases hcs : ∀ c ∈ cs, isBlank c = true
  · have hall : ∀ c ∈ cs ++ ds, isBlank c = true := by
      intro c hc
      rcases List.mem_append.mp hc with hc | hc
      · exact hcs c hc
      · exact h c hc
    rw [trim_of_blank hcs, trim_of_blank hall]
  · have hstart : trimStart (cs ++ ds) = trimStart cs ++ ds := by
      rw [trimStart, List.dropWhile_append, if_neg]
      · rfl
      · rw [List.isEmpty_iff]
        exact fun hnil => hcs (List.dropWhile_eq_nil_iff.mp hnil)
    rw [trim, hstart, trimEnd, dropEndWhile_append_of_all h]
    rfl

theorem trimStart_of_head (h : ∀ c, cs.head? = some c → isBlank c = false) :
    trimStart cs = cs := by
  cases cs with
  | nil => rfl
  | cons c cs => rw [trimStart, List.dropWhile_cons_of_neg (by simp [h c rfl])]

/-- A text without blanks at its ends is trimmed. -/
theorem trim_of_ends (hhead : ∀ c, cs.head? = some c → isBlank c = false)
    (hlast : ∀ c, cs.getLast? = some c → isBlank c = false) : trim cs = cs := by
  have hrev : ∀ c, cs.reverse.head? = some c → isBlank c = false := by
    intro c hc
    rw [List.head?_reverse] at hc
    exact hlast c hc
  rw [trim, trimStart_of_head hhead, trimEnd, dropEndWhile, ← trimStart, trimStart_of_head hrev,
    List.reverse_reverse]

/-- What is trimmed off a text is blank. -/
theorem exists_append_trim_append (cs : List Char) :
    ∃ as bs, cs = as ++ trim cs ++ bs ∧ (∀ a ∈ as, isBlank a = true) ∧
      ∀ b ∈ bs, isBlank b = true := by
  obtain ⟨bs, hbs, hblank⟩ := exists_dropEndWhile_append isBlank (trimStart cs)
  refine ⟨cs.takeWhile isBlank, bs, ?_, List.all_eq_true.mp List.all_takeWhile, hblank⟩
  rw [List.append_assoc, trim, trimEnd, ← hbs, trimStart, List.takeWhile_append_dropWhile]

theorem trim_infix (cs : List Char) : trim cs <:+: cs := by
  obtain ⟨as, bs, hcs, -, -⟩ := exists_append_trim_append cs
  exact ⟨as, bs, hcs.symm⟩

/-- What takes no notice of a blank at an end of a text takes none of trimming. -/
theorem apply_trim {β : Sort u} (f : List Char → β)
    (hstart : ∀ c ds, isBlank c = true → f (c :: ds) = f ds)
    (hend : ∀ cs c, isBlank c = true → f (cs ++ [c]) = f cs) (cs : List Char) :
    f (trim cs) = f cs := by
  have hbefore (as ds : List Char) (has : ∀ a ∈ as, isBlank a = true) : f (as ++ ds) = f ds := by
    induction as with
    | nil => rfl
    | cons a as ih =>
        rw [List.cons_append, hstart _ _ (has a List.mem_cons_self)]
        exact ih fun a ha => has a (List.mem_cons_of_mem _ ha)
  have hbehind (ds bs : List Char) (hbs : ∀ b ∈ bs, isBlank b = true) : f (ds ++ bs) = f ds := by
    induction bs generalizing ds with
    | nil => rw [List.append_nil]
    | cons b bs ih =>
        rw [List.append_cons, ih _ fun b hb => hbs b (List.mem_cons_of_mem _ hb),
          hend _ _ (hbs b List.mem_cons_self)]
  obtain ⟨as, bs, hcs, has, hbs⟩ := exists_append_trim_append cs
  conv => rhs; rw [hcs, hbehind _ _ hbs, hbefore _ _ has]

theorem trim_of_blank_append (h : ∀ c ∈ cs, isBlank c = true) : trim (cs ++ ds) = trim ds := by
  rw [trim, trimStart, List.dropWhile_append_of_pos h]
  rfl

@[simp] theorem trim_trim (cs : List Char) : trim (trim cs) = trim cs := by
  obtain ⟨as, bs, hcs, has, hbs⟩ := exists_append_trim_append cs
  conv => rhs; rw [hcs, trim_append_of_blank hbs, trim_of_blank_append has]

theorem trim_trimEnd (cs : List Char) : trim (trimEnd cs) = trim cs := by
  obtain ⟨ds, hds, hblank⟩ := exists_dropEndWhile_append isBlank cs
  conv => rhs; rw [hds, trim_append_of_blank hblank]
  rfl

theorem trimStart_append_cons (h : isBlank c = false) :
    trimStart (cs ++ c :: ds) = trimStart cs ++ c :: ds := by
  rw [trimStart, List.dropWhile_append]
  split
  next hempty =>
    rw [List.isEmpty_iff] at hempty
    rw [List.dropWhile_cons_of_neg (by simp [h]), trimStart, hempty, List.nil_append]
  next => rfl

/-- Trimming a text in which a mark stands trims what is before it and what is behind it. -/
theorem trim_append_cons (h : isBlank c = false) :
    trim (cs ++ c :: ds) = trimStart cs ++ c :: trimEnd ds := by
  rw [trim, trimStart_append_cons h, trimEnd, dropEndWhile_append_cons h]
  rfl

/-- Trimming takes blanks only. -/
theorem mem_trim (h : isBlank c = false) (hmem : c ∈ cs) : c ∈ trim cs := by
  obtain ⟨as, bs, hcs, has, hbs⟩ := exists_append_trim_append cs
  rw [hcs] at hmem
  rcases List.mem_append.mp hmem with hmem | hmem
  · rcases List.mem_append.mp hmem with hmem | hmem
    · rw [has c hmem] at h
      cases h
    · exact hmem
  · rw [hbs c hmem] at h
    cases h

theorem mem_of_mem_trim (hmem : c ∈ trim cs) : c ∈ cs := by
  obtain ⟨as, bs, hcs, -, -⟩ := exists_append_trim_append cs
  rw [hcs]
  simp [hmem]

theorem isBlank_of_head?_dropWhile {d : Char} (h : (cs.dropWhile isBlank).head? = some d) :
    isBlank d = false := by
  have hnot := List.head?_dropWhile_not isBlank cs
  rw [h] at hnot
  exact hnot

/-- A trimmed text does not start with a blank. -/
theorem isBlank_of_head?_trim {d : Char} (h : (trim cs).head? = some d) : isBlank d = false := by
  obtain ⟨ds, hds, -⟩ := exists_dropEndWhile_append isBlank (trimStart cs)
  have hstart : (cs.dropWhile isBlank).head? = some d := by
    rw [← trimStart, hds, List.head?_append, ← trimEnd, ← trim, h, Option.some_or]
  exact isBlank_of_head?_dropWhile hstart

/-- A trimmed text does not end with a blank. -/
theorem isBlank_of_getLast?_trim {d : Char} (h : (trim cs).getLast? = some d) :
    isBlank d = false := by
  rw [trim, trimEnd, dropEndWhile, List.getLast?_reverse] at h
  exact isBlank_of_head?_dropWhile h

/-! ### Words -/

@[simp] theorem fields_nil : fields sep [] = [] := rfl

/-- A separator ends the words before it. -/
theorem fields_append_cons (h : sep c = true) :
    fields sep (cs ++ c :: ds) = fields sep cs ++ fields sep ds := by
  rw [fields, List.splitOnP_append_cons cs ds h, List.filter_append]
  rfl

theorem fields_append_of_all (h : ∀ c ∈ cs, sep c = true) :
    fields sep (cs ++ ds) = fields sep ds := by
  induction cs with
  | nil => rfl
  | cons c cs ih =>
      simp only [List.mem_cons, forall_eq_or_imp] at h
      have hcons : fields sep ([] ++ c :: (cs ++ ds)) = fields sep [] ++ fields sep (cs ++ ds) :=
        fields_append_cons h.1
      rw [List.nil_append, fields_nil, List.nil_append, ih h.2] at hcons
      exact hcons

theorem fields_of_all (h : ∀ c ∈ cs, sep c = true) : fields sep cs = [] := by
  rw [← List.append_nil cs, fields_append_of_all h, fields_nil]

theorem fields_append_of_all_right (h : ∀ d ∈ ds, sep d = true) :
    fields sep (cs ++ ds) = fields sep cs := by
  cases ds with
  | nil => rw [List.append_nil]
  | cons d ds =>
      simp only [List.mem_cons, forall_eq_or_imp] at h
      rw [fields_append_cons h.1, fields_of_all h.2, List.append_nil]

/-- A text without words consists of separators. -/
theorem fields_eq_nil_iff : fields sep cs = [] ↔ ∀ c ∈ cs, sep c = true := by
  refine ⟨fun h => ?_, fields_of_all⟩
  induction cs with
  | nil => simp
  | cons c cs ih =>
      by_cases hc : sep c = true
      · have hcons : fields sep ([] ++ c :: cs) = fields sep [] ++ fields sep cs :=
          fields_append_cons hc
        rw [List.nil_append, h, fields_nil, List.nil_append] at hcons
        simpa [hc] using ih hcons.symm
      · rw [fields, List.splitOnP_cons_eq_if_modifyHead, if_neg hc] at h
        obtain ⟨first, rest, hsplit⟩ :=
          List.exists_cons_of_ne_nil (List.splitOnP_ne_nil sep cs)
        simp [hsplit] at h

/-- Trimming takes no word away. -/
theorem fields_trim (hblank : ∀ c, isBlank c = true → sep c = true) (cs : List Char) :
    fields sep (trim cs) = fields sep cs := by
  obtain ⟨as, bs, hcs, has, hbs⟩ := exists_append_trim_append cs
  conv => rhs; rw [hcs]
  rw [fields_append_of_all_right fun b hb => hblank b (hbs b hb),
    fields_append_of_all fun a ha => hblank a (has a ha)]

/-- A text is blank when it has no words. -/
theorem all_isBlank_iff : cs.all isBlank = true ↔ words cs = [] := by
  rw [words, fields_eq_nil_iff, List.all_eq_true]

theorem all_isBlank_trim (cs : List Char) : (trim cs).all isBlank = cs.all isBlank := by
  rw [Bool.eq_iff_iff, all_isBlank_iff, all_isBlank_iff, words, fields_trim fun _ h => h]
  rfl

theorem trim_eq_nil_iff : trim cs = [] ↔ cs.all isBlank = true := by
  constructor
  · intro h
    rw [← all_isBlank_trim, h]
    rfl
  · intro h
    exact trim_of_blank (List.all_eq_true.mp h)

theorem fields_join (h : sep c = true) (ps : List (List Char)) :
    fields sep (join [c] ps) = ps.flatMap (fields sep) := by
  fun_induction join [c] ps with
  | case1 => rfl
  | case2 p => simp
  | case3 p q rest ih =>
      rw [List.append_assoc, List.singleton_append, fields_append_cons h, ih,
        ← List.flatMap_cons]

theorem join_eq_intercalate (c : Char) (ps : List (List Char)) :
    join [c] ps = List.intercalate [c] ps := by
  fun_induction join [c] ps with
  | case1 => rfl
  | case2 p => simp
  | case3 p q rest ih => rw [ih, List.intercalate_cons_cons]

theorem mem_join {d : Char} {ps : List (List Char)} (h : d ∈ join [c] ps) :
    d = c ∨ ∃ p ∈ ps, d ∈ p := by
  fun_induction join [c] ps with
  | case1 => cases h
  | case2 p => exact .inr ⟨p, by simp, h⟩
  | case3 p q rest ih =>
      simp only [List.mem_append, List.mem_singleton] at h
      rcases h with (h | h) | h
      · exact .inr ⟨p, by simp, h⟩
      · exact .inl h
      · rcases ih h with heq | ⟨p', hp', hd⟩
        · exact .inl heq
        · exact .inr ⟨p', List.mem_cons_of_mem _ hp', hd⟩

theorem length_join_cons_le (x : List Char) (xs : List (List Char)) :
    x.length + (join [c] xs).length ≤ (join [c] (x :: xs)).length := by
  cases xs with
  | nil => simp [join]
  | cons y ys =>
      simp only [join, List.length_append, List.length_singleton]
      omega

/-- Pieces put before others make a text longer by the first of them at least. -/
theorem length_join_append_le (x : List Char) (xs ys : List (List Char)) :
    x.length + (join [c] ys).length ≤ (join [c] (x :: (xs ++ ys))).length := by
  have htail : (join [c] ys).length ≤ (join [c] (xs ++ ys)).length := by
    induction xs with
    | nil => exact Nat.le_refl _
    | cons z zs ih =>
        have hcons := length_join_cons_le (c := c) z (zs ++ ys)
        rw [List.cons_append]
        omega
  have hcons := length_join_cons_le (c := c) x (xs ++ ys)
  omega

theorem head?_join_cons (d : Char) (ps : List (List Char)) :
    (join [c] ((d :: ds) :: ps)).head? = some d := by
  cases ps <;> rfl

theorem getLast?_join_concat (d : Char) (ps : List (List Char)) :
    (join [c] (ps ++ [ds ++ [d]])).getLast? = some d := by
  induction ps with
  | nil => simp [join]
  | cons q qs ih =>
      obtain ⟨r, rest, hrest⟩ : ∃ r rest, qs ++ [ds ++ [d]] = r :: rest :=
        List.exists_cons_of_ne_nil (by simp)
      rw [List.cons_append, hrest, join, ← hrest, List.getLast?_append, ih, Option.some_or]

theorem ne_nil_of_mem_fields {w : List Char} (h : w ∈ fields sep cs) : w ≠ [] := by
  simpa using (List.mem_filter.mp h).2

/-! ### Lines -/

/-- Lines that are ended by a line break. -/
def endedLines (cs : List Char) : List (List Char) :=
  (cs.splitOnP (· == '\n')).dropLast.map dropReturn

/-- What stands behind the last line break. -/
def openLine (cs : List Char) : List Char :=
  (cs.splitOnP (· == '\n')).getLast (List.splitOnP_ne_nil _ cs)

theorem lines_eq (cs : List Char) :
    lines cs = endedLines cs ++ [openLine cs].filter (!·.isEmpty) := by
  have hlast : (cs.splitOnP (· == '\n')).getLast? = some (openLine cs) :=
    List.getLast?_eq_some_getLast _
  simp [lines, endedLines, hlast]

/-- A text without a line break is its only line. -/
theorem lines_of_not_mem (hne : cs ≠ []) (h : '\n' ∉ cs) : lines cs = [cs] := by
  have hnone : ∀ c ∈ cs, (c == '\n') = false := fun c hc =>
    beq_false_of_ne fun heq => h (heq ▸ hc)
  simp [lines, List.splitOnP_eq_singleton hnone, hne]

/-- Text without a line break goes on with the line that was left open. -/
theorem splitOnP_append_of_none (h : '\n' ∉ ds) :
    (cs ++ ds).splitOnP (· == '\n') =
      (cs.splitOnP (· == '\n')).dropLast ++ [openLine cs ++ ds] := by
  induction cs with
  | nil =>
      have hnone : ∀ d ∈ ds, (d == '\n') = false := fun d hd =>
        beq_false_of_ne fun heq => h (heq ▸ hd)
      rw [List.nil_append, List.splitOnP_eq_singleton hnone]
      rfl
  | cons c cs ih =>
      obtain ⟨first, rest, hsplit⟩ :=
        List.exists_cons_of_ne_nil (List.splitOnP_ne_nil (· == '\n') cs)
      simp only [openLine, hsplit] at ih
      simp only [openLine, List.cons_append, List.splitOnP_cons_eq_if_modifyHead, ih, hsplit]
      by_cases hc : (c == '\n') = true
      · simp [hc]
      · cases rest <;> simp [hc]

theorem splitOnP_append_line (h : '\n' ∉ ds) :
    (cs ++ ds ++ ['\n']).splitOnP (· == '\n') =
      (cs.splitOnP (· == '\n')).dropLast ++ [openLine cs ++ ds] ++ [[]] := by
  rw [← splitOnP_append_of_none h, List.splitOnP_append_cons _ _ (by decide)]
  rfl

theorem splitOnP_flatMap_lines {ls : List (List Char)} (h : ∀ l ∈ ls, '\n' ∉ l) :
    (ls.flatMap (· ++ ['\n'])).splitOnP (· == '\n') = ls ++ [[]] := by
  induction ls with
  | nil => rfl
  | cons l ls ih =>
      simp only [List.mem_cons, forall_eq_or_imp] at h
      have hnone : ∀ d ∈ l, (d == '\n') = false := fun d hd =>
        beq_false_of_ne fun heq => h.1 (heq ▸ hd)
      rw [List.flatMap_cons, List.append_assoc, List.singleton_append,
        List.splitOnP_append_cons _ _ (by decide), List.splitOnP_eq_singleton hnone, ih h.2]
      rfl

theorem endedLines_flatMap_lines {ls : List (List Char)} (h : ∀ l ∈ ls, '\n' ∉ l) :
    endedLines (ls.flatMap (· ++ ['\n'])) = ls.map dropReturn := by
  rw [endedLines, splitOnP_flatMap_lines h, List.dropLast_concat]

theorem openLine_flatMap_lines {ls : List (List Char)} (h : ∀ l ∈ ls, '\n' ∉ l) :
    openLine (ls.flatMap (· ++ ['\n'])) = [] := by
  simp only [openLine, splitOnP_flatMap_lines h, List.getLast_concat]

theorem endedLines_append_line (h : '\n' ∉ ds) :
    endedLines (cs ++ ds ++ ['\n']) = endedLines cs ++ [dropReturn (openLine cs ++ ds)] := by
  rw [endedLines, splitOnP_append_line h]
  simp [endedLines]

theorem openLine_append_line (h : '\n' ∉ ds) : openLine (cs ++ ds ++ ['\n']) = [] := by
  simp only [openLine, splitOnP_append_line h, List.getLast_concat]

/-- A line that is added behind a text is put to the line that the text left open. -/
theorem lines_append_line (h : '\n' ∉ ds) :
    lines (cs ++ ds ++ ['\n']) = endedLines cs ++ [dropReturn (openLine cs ++ ds)] := by
  rw [lines_eq, endedLines_append_line h, openLine_append_line h]
  simp

/-- What a line loses is the carriage return at its end. -/
theorem eq_dropReturn_append (cs : List Char) :
    cs = dropReturn cs ∨ cs = dropReturn cs ++ ['\r'] := by
  unfold dropReturn
  split
  next h =>
    obtain ⟨ds, rfl⟩ := List.getLast?_eq_some_iff.mp h
    exact .inr (by simp)
  next => exact .inl rfl

theorem trim_dropReturn (cs : List Char) : trim (dropReturn cs) = trim cs := by
  rcases eq_dropReturn_append cs with h | h
  · rw [← h]
  · have hreturn : ∀ c ∈ ['\r'], isBlank c = true := List.forall_mem_singleton.mpr (by decide)
    conv => rhs; rw [h]
    exact (trim_append_of_blank hreturn).symm

theorem fields_dropReturn (hcr : sep '\r' = true) (cs : List Char) :
    fields sep (dropReturn cs) = fields sep cs := by
  rcases eq_dropReturn_append cs with h | h
  · rw [← h]
  · conv => rhs; rw [h]
    rw [fields_append_of_all_right (by simp [hcr])]

/-- The words of a text are those of its lines. -/
theorem flatMap_fields_lines (hnl : sep '\n' = true) (hcr : sep '\r' = true) (cs : List Char) :
    (lines cs).flatMap (fields sep) = fields sep cs := by
  have hpieces : (cs.splitOnP (· == '\n')).flatMap (fields sep) = fields sep cs := by
    rw [← fields_join hnl, join_eq_intercalate, ← List.splitOn_eq_splitOnP,
      List.intercalate_splitOn]
  have hended : (endedLines cs).flatMap (fields sep) =
      (cs.splitOnP (· == '\n')).dropLast.flatMap (fields sep) := by
    simp only [endedLines, List.flatMap_map, fields_dropReturn hcr]
  have hopen : ([openLine cs].filter (!·.isEmpty)).flatMap (fields sep) =
      [openLine cs].flatMap (fields sep) := by
    cases h : openLine cs <;> simp
  rw [lines_eq, List.flatMap_append, hended, hopen, ← List.flatMap_append, openLine,
    List.dropLast_concat_getLast, hpieces]

/-- The words of a text are those of its trimmed lines laid end to end. -/
theorem fields_join_lines (hblank : ∀ c, isBlank c = true → sep c = true) (cs : List Char) :
    fields sep (join [' '] ((lines cs).map trim)) = fields sep cs := by
  rw [fields_join (hblank ' ' (by decide)), List.flatMap_map]
  simp only [fields_trim hblank]
  exact flatMap_fields_lines (hblank _ (by decide)) (hblank _ (by decide)) cs

/-- The first line of a text starts like the text. -/
theorem exists_lines_cons (h : c ≠ '\n') :
    ∃ first rest, (lines (c :: cs)).map trim = trim (c :: first) :: rest := by
  obtain ⟨first, rest, hsplit⟩ :=
    List.exists_cons_of_ne_nil (List.splitOnP_ne_nil (· == '\n') cs)
  have hpieces : (c :: cs).splitOnP (· == '\n') = (c :: first) :: rest := by
    rw [List.splitOnP_cons_eq_if_modifyHead, if_neg (by simpa using h), hsplit]
    rfl
  refine ⟨first, ?_⟩
  cases rest with
  | nil => exact ⟨[], by simp [lines, hpieces]⟩
  | cons next rest =>
      refine ⟨(lines (c :: cs)).tail.map trim, ?_⟩
      simp [lines, hpieces, trim_dropReturn]

/-- The last line of a text ends like the text. -/
theorem exists_lines_concat (h : c ≠ '\n') :
    ∃ rest last, (lines (cs ++ [c])).map trim = rest ++ [trim (last ++ [c])] := by
  have hopen : openLine (cs ++ [c]) = openLine cs ++ [c] := by
    simp only [openLine, splitOnP_append_of_none (mt List.mem_singleton.mp (Ne.symm h)),
      List.getLast_concat]
  refine ⟨(endedLines (cs ++ [c])).map trim, openLine cs, ?_⟩
  simp [lines_eq, hopen]

/-- The trimmed lines of a trimmed text, laid end to end, have no blanks at their ends. -/
theorem trim_join_lines (cs : List Char) :
    trim (join [' '] ((lines (trim cs)).map trim)) = join [' '] ((lines (trim cs)).map trim) := by
  have hne {d : Char} (h : isBlank d = false) : d ≠ '\n' := by
    rintro rfl
    exact absurd h (by decide)
  refine trim_of_ends ?_ ?_
  · intro d hd
    cases hcs : trim cs with
    | nil => rw [hcs] at hd; cases hd
    | cons c rest =>
        have hhead : (trim cs).head? = some c := by rw [hcs]; rfl
        have hc := isBlank_of_head?_trim hhead
        obtain ⟨first, more, hlines⟩ := @exists_lines_cons rest c (hne hc)
        have htrim : trim (c :: first) = c :: trimEnd first := @trim_append_cons [] first c hc
        rw [hcs, hlines, htrim, head?_join_cons] at hd
        cases hd
        exact hc
  · intro d hd
    rcases List.eq_nil_or_concat (trim cs) with hcs | ⟨rest, c, hcs⟩
    · rw [hcs] at hd
      cases hd
    · have hlast : (trim cs).getLast? = some c := by simp [hcs]
      have hc := isBlank_of_getLast?_trim hlast
      obtain ⟨more, last, hlines⟩ := @exists_lines_concat rest c (hne hc)
      have htrim : trim (last ++ [c]) = trimStart last ++ [c] := @trim_append_cons last [] c hc
      rw [hcs, List.concat_eq_append, hlines, htrim, getLast?_join_concat] at hd
      cases hd
      exact hc

theorem not_mem_of_mem_splitOnP {piece : List Char} (h : piece ∈ cs.splitOnP p) :
    ∀ c ∈ piece, p c = false := by
  induction cs generalizing piece with
  | nil =>
      rw [List.splitOnP_nil, List.mem_singleton] at h
      simp [h]
  | cons c cs ih =>
      obtain ⟨first, rest, hsplit⟩ := List.exists_cons_of_ne_nil (List.splitOnP_ne_nil p cs)
      rw [List.splitOnP_cons_eq_if_modifyHead] at h
      split at h
      · rcases List.mem_cons.mp h with rfl | h
        · simp
        · exact ih h
      next hc =>
        rw [hsplit, List.modifyHead_cons] at h
        rcases List.mem_cons.mp h with rfl | h
        · intro d hd
          rcases List.mem_cons.mp hd with rfl | hd
          · simpa using hc
          · exact ih (by simp [hsplit]) d hd
        · exact ih (by simp [hsplit, h])

/-- The first piece of a text is its beginning, and the others are parts of it. -/
theorem infix_of_splitOnP_eq {first : List Char} {rest : List (List Char)}
    (h : cs.splitOnP p = first :: rest) : first <+: cs ∧ ∀ piece ∈ rest, piece <:+: cs := by
  induction cs generalizing first rest with
  | nil =>
      rw [List.splitOnP_nil] at h
      cases h
      exact ⟨List.prefix_rfl, nofun⟩
  | cons c cs ih =>
      obtain ⟨first', rest', hsplit⟩ := List.exists_cons_of_ne_nil (List.splitOnP_ne_nil p cs)
      obtain ⟨hfirst, hrest⟩ := ih hsplit
      have hlater : ∀ piece ∈ rest', piece <:+: c :: cs := fun piece hpiece =>
        (hrest piece hpiece).trans (List.suffix_cons c cs).isInfix
      rw [List.splitOnP_cons_eq_if_modifyHead, hsplit] at h
      split at h
      · cases h
        refine ⟨List.nil_prefix, List.forall_mem_cons.mpr ⟨?_, hlater⟩⟩
        exact hfirst.isInfix.trans (List.suffix_cons c cs).isInfix
      · cases h
        exact ⟨List.cons_prefix_cons.mpr ⟨rfl, hfirst⟩, hlater⟩

theorem infix_of_mem_splitOnP {piece : List Char} (h : piece ∈ cs.splitOnP p) : piece <:+: cs := by
  obtain ⟨first, rest, hsplit⟩ := List.exists_cons_of_ne_nil (List.splitOnP_ne_nil p cs)
  obtain ⟨hfirst, hrest⟩ := infix_of_splitOnP_eq hsplit
  rw [hsplit] at h
  rcases List.mem_cons.mp h with rfl | h
  · exact hfirst.isInfix
  · exact hrest piece h

/-- A line holds no line break. -/
theorem not_mem_of_mem_lines {line : List Char} (h : line ∈ lines cs) : '\n' ∉ line := by
  have hpiece : ∀ l ∈ cs.splitOnP (· == '\n'), '\n' ∉ l := fun l hl hmem =>
    absurd (not_mem_of_mem_splitOnP hl _ hmem) (by decide)
  rw [lines_eq, List.mem_append] at h
  rcases h with h | h
  · obtain ⟨l, hl, rfl⟩ := List.mem_map.mp h
    intro hmem
    refine hpiece l (List.dropLast_subset _ hl) ?_
    rcases eq_dropReturn_append l with heq | heq <;> rw [heq] <;> simp [hmem]
  · simp only [List.mem_filter, List.mem_singleton] at h
    rw [h.1]
    exact hpiece _ (List.getLast_mem _)

/-! ### Cutting at a character -/

/-- A text is cut at the first place where the character stands. -/
theorem cut?_singleton_eq_some {before after : List Char} :
    cut? [c] cs = some (before, after) ↔ cs = before ++ c :: after ∧ c ∉ before := by
  induction cs generalizing before with
  | nil => simp [cut?]
  | cons d cs ih =>
      by_cases hd : c = d
      · subst hd
        have hprefix : List.isPrefixOf [c] (c :: cs) = true := by simp [List.isPrefixOf]
        simp only [cut?, hprefix, if_true, Option.some.injEq, Prod.mk.injEq, List.length_cons,
          List.length_nil, List.drop_succ_cons, List.drop_zero]
        constructor
        · rintro ⟨rfl, rfl⟩
          exact ⟨rfl, by simp⟩
        · rintro ⟨heq, hnot⟩
          cases before with
          | nil => simpa using heq
          | cons e before =>
              obtain ⟨rfl, -⟩ := List.cons.inj heq
              exact absurd List.mem_cons_self hnot
      · have hprefix : List.isPrefixOf [c] (d :: cs) = false := by simp [List.isPrefixOf, hd]
        simp only [cut?, hprefix, Bool.false_eq_true, if_false, Option.map_eq_some_iff]
        constructor
        · rintro ⟨⟨as, bs⟩, hcut, heq⟩
          obtain ⟨rfl, rfl⟩ := Prod.mk.inj heq
          obtain ⟨rfl, hnot⟩ := ih.mp hcut
          exact ⟨rfl, by simp [hd, hnot]⟩
        · rintro ⟨heq, hnot⟩
          cases before with
          | nil => exact absurd (List.cons.inj heq).1.symm hd
          | cons e before =>
              obtain ⟨rfl, rfl⟩ := List.cons.inj heq
              exact ⟨(before, after), ih.mpr ⟨rfl, fun h => hnot (List.mem_cons_of_mem _ h)⟩, rfl⟩

theorem cut?_singleton_append (h : c ∉ cs) : cut? [c] (cs ++ c :: ds) = some (cs, ds) :=
  cut?_singleton_eq_some.mpr ⟨rfl, h⟩

theorem cut?_singleton_eq_none (h : c ∉ cs) : cut? [c] cs = none := by
  cases hcut : cut? [c] cs with
  | none => rfl
  | some parts =>
      obtain ⟨before, after⟩ := parts
      obtain ⟨rfl, -⟩ := cut?_singleton_eq_some.mp hcut
      exact absurd (List.mem_append_right _ List.mem_cons_self) h

/-! ### Classes of characters -/

theorem mem_of_inBlocks {n : Nat} {bs : List (Nat × Nat)} (h : inBlocks n bs = true) :
    n ∈ bs.flatMap fun b => List.range' b.1 (b.2 + 1 - b.1) := by
  induction bs with
  | nil => cases h
  | cons b bs ih =>
      obtain ⟨first, last⟩ := b
      rw [inBlocks] at h
      rw [List.flatMap_cons, List.mem_append, List.mem_range'_1]
      split at h
      · cases h
      · split at h
        · exact .inl (by omega)
        · exact .inr (ih h)

/-- What holds of all characters in the table of blanks holds of every blank. -/
theorem of_isBlank {P : Char → Prop} (hall : ∀ n ∈ blankBlocks.flatMap fun b =>
    List.range' b.1 (b.2 + 1 - b.1), P (Char.ofNat n)) (h : isBlank c = true) : P c := by
  have hc := hall c.toNat (mem_of_inBlocks h)
  rwa [Char.ofNat_toNat] at hc

/-- No blank is a letter or a numeral. -/
theorem isAlphanumeric_of_isBlank (h : isBlank c = true) : isAlphanumeric c = false := by
  have hall : ∀ n ∈ blankBlocks.flatMap fun b => List.range' b.1 (b.2 + 1 - b.1),
      (inBlocks n alphabeticBlocks || inBlocks n numericBlocks) = false := by decide +kernel
  exact hall c.toNat (mem_of_inBlocks h)

end SiteSafety.Text
