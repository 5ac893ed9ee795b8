import Mathlib.Data.List.Chain
import SiteSafety.Proofs.Retrieval.Chunks
import SiteSafety.Proofs.Text.Search

/-!
# Proofs — Retrieval — Packing

How the sentences of a paragraph are packed into chunks.  A packing (`IsPacking`) puts them into
groups, in order and each into one group; a group of several sentences is not too long for a chunk,
and a group is ended only where the next sentence would make it too long.  Chunks are the groups of
such a packing, without the blanks at their ends.

* `exists_packing`: the chunks of a paragraph are those of a packing.
* `isBlankText_of_mem_chunks`: no chunk is blank.
* `chunks_tile`: **the chunks of a text tile it**: none is empty, starts or ends with a blank or
  holds a blank line, only a single sentence makes a long one, and together they have the characters
  of the text that are no blanks, in order.
-/

namespace SiteSafety.Retrieval

variable {cs p s : List Char} {g : List (List Char)}

/-! ### Sentences -/

theorem ne_nil_of_mem_sentences (h : s ∈ sentences cs) : s ≠ [] := by
  fun_induction sentences cs generalizing s with
  | case1 => cases h
  | case2 rest ih =>
      rcases List.mem_cons.mp h with rfl | h
      · exact List.cons_ne_nil _ _
      · exact ih h
  | case3 c rest hne hnone ih =>
      obtain rfl := List.mem_singleton.mp h
      exact List.cons_ne_nil _ _
  | case4 c rest hne q qs hsome ih =>
      rw [hsome] at ih
      rcases List.mem_cons.mp h with rfl | h
      · exact List.cons_ne_nil _ _
      · exact ih (List.mem_cons_of_mem _ h)

/-- A point with a blank behind it stands at the end of a sentence only. -/
theorem eq_nil_behind_stop {as bs : List Char} (h : as ++ ['.', ' '] ++ bs ∈ sentences cs) :
    bs = [] := by
  fun_induction sentences cs generalizing as with
  | case1 => cases h
  | case2 rest ih =>
      rcases List.mem_cons.mp h with heq | h
      · have hlength := congrArg List.length heq
        simp only [List.length_append, List.length_cons, List.length_nil] at hlength
        exact List.length_eq_zero_iff.mp (by omega)
      · exact ih h
  | case3 c rest hne hnone ih =>
      have hlength := congrArg List.length (List.mem_singleton.mp h)
      simp at hlength
      omega
  | case4 c rest hne q qs hsome ih =>
      rw [hsome] at ih
      rcases List.mem_cons.mp h with heq | h
      · cases as with
        | nil =>
            -- the sentence would have been ended here
            obtain ⟨rfl, rfl⟩ : '.' = c ∧ ' ' :: bs = q := by simpa using heq
            have hrest := flatten_sentences rest
            rw [hsome, List.flatten_cons, List.cons_append] at hrest
            exact absurd hrest.symm (hne _ rfl)
        | cons a as =>
            obtain ⟨-, rfl⟩ : a = c ∧ as ++ ['.', ' '] ++ bs = q := by simpa using heq
            exact ih List.mem_cons_self
      · exact ih (List.mem_cons_of_mem _ h)

/-- Trimmed, a sentence holds no point with a blank behind it. -/
theorem not_infix_trim_of_mem_sentences (h : s ∈ sentences cs) :
    ¬ ['.', ' '] <:+: Text.trim s := by
  rintro ⟨as, bs, heq⟩
  obtain ⟨before, behind, hs, -, -⟩ := Text.exists_append_trim_append s
  have hsplit : s = (before ++ as) ++ ['.', ' '] ++ (bs ++ behind) := by
    rw [hs, ← heq]
    simp
  have hbehind := eq_nil_behind_stop (hsplit ▸ h)
  obtain ⟨rfl, -⟩ := List.append_eq_nil_iff.mp hbehind
  have hlast : (Text.trim s).getLast? = some ' ' := by
    rw [← heq]
    simp
  exact absurd (Text.isBlank_of_getLast?_trim hlast) (by decide)

/-- No sentence of a trimmed paragraph is blank: all but the last one have their points, and the
last one has the end of the paragraph. -/
theorem trim_ne_nil_of_mem_sentences (hp : IsTrimmed p) (h : s ∈ sentences p) :
    Text.trim s ≠ [] := by
  obtain ⟨init, rest, hsplit⟩ := List.append_of_mem h
  cases rest with
  | nil =>
      obtain ⟨c, hc⟩ :=
        Option.isSome_iff_exists.mp (List.getLast?_isSome.mpr (ne_nil_of_mem_sentences h))
      have hend : (Text.trim p).getLast? = some c := by
        rw [hp.1, ← flatten_sentences p, hsplit]
        simp [hc]
      have hlast := Text.isBlank_of_getLast?_trim hend
      exact List.ne_nil_of_mem (Text.mem_trim hlast (List.mem_of_getLast? hc))
  | cons next rest =>
      have hinit : s ∈ (sentences p).dropLast := by
        rw [hsplit, List.dropLast_append_cons, List.dropLast_cons_cons]
        simp
      exact (endsSentence_of_mem_sentences hinit).trim_ne_nil

/-! ### Packings -/

/-- Sentences in groups for chunks. -/
structure IsPacking (ss : List (List Char)) (groups : List (List (List Char))) : Prop where
  /-- Each sentence is in one group, in order. -/
  flatten : groups.flatten = ss
  /-- No group is empty. -/
  ne_nil : ∀ g ∈ groups, g ≠ []
  /-- Only a group of one sentence is too long. -/
  fits : ∀ g ∈ groups, g.flatten.length ≤ maxChunk ∨ ∃ s, g = [s]
  /-- A group is ended where the next sentence would make it too long. -/
  full : groups.IsChain fun g g' => ∀ s ∈ g'.head?, maxChunk < g.flatten.length + s.length

variable {ss : List (List Char)} {groups : List (List (List Char))}

theorem isPacking_nil : IsPacking [] [] := ⟨rfl, nofun, nofun, .nil⟩

/-- A group is put before a packing if it would be too long with the first sentence there. -/
theorem IsPacking.cons (h : IsPacking ss groups) (hg : g ≠ [])
    (hfits : g.flatten.length ≤ maxChunk ∨ ∃ s, g = [s])
    (hfull : ∀ s ∈ ss.head?, maxChunk < g.flatten.length + s.length) :
    IsPacking (g ++ ss) (g :: groups) where
  flatten := by rw [List.flatten_cons, h.flatten]
  ne_nil := List.forall_mem_cons.mpr ⟨hg, h.ne_nil⟩
  fits := List.forall_mem_cons.mpr ⟨hfits, h.fits⟩
  full := by
    refine h.full.cons fun g' hg' s hs => hfull s ?_
    obtain ⟨gs, rfl⟩ := List.head?_eq_some_iff.mp hg'
    obtain ⟨rest, rfl⟩ := List.head?_eq_some_iff.mp hs
    rw [← h.flatten]
    rfl

/-- The text of a group, without the blanks at its ends. -/
def groupText (g : List (List Char)) : List Char := Text.trim g.flatten

theorem groupText_ne_nil (hg : g ≠ []) (h : ∀ s ∈ g, Text.trim s ≠ []) : groupText g ≠ [] := by
  obtain ⟨s, hs⟩ := List.exists_mem_of_ne_nil g hg
  have hsome := h s hs
  rw [Ne, Text.trim_eq_nil_iff, Bool.not_eq_true, List.all_eq_false] at hsome
  obtain ⟨c, hc, hblank⟩ := hsome
  exact List.ne_nil_of_mem (Text.mem_trim (by simpa using hblank) (List.mem_flatten_of_mem hs hc))

theorem pack_cons_of_lt {current : List Char} (hne : current ≠ [])
    (hlong : maxChunk < current.length + s.length) :
    pack current (s :: ss) = Text.trim current :: pack s ss := by
  rw [pack, if_pos]
  simpa [hne] using hlong

theorem pack_cons_of_le {current : List Char} (hfits : current.length + s.length ≤ maxChunk) :
    pack current (s :: ss) = pack (current ++ s) ss := by
  rw [pack, if_neg]
  simp [hfits]

/-- Sentences are packed behind those of the group in hand. -/
theorem exists_packing_behind (hg : g ≠ [])
    (hfits : g.flatten.length ≤ maxChunk ∨ ∃ s, g = [s])
    (hblank : ∀ s ∈ g ++ ss, Text.trim s ≠ []) :
    ∃ groups, IsPacking (g ++ ss) groups ∧ pack g.flatten ss = groups.map groupText := by
  have hsome : groupText g ≠ [] :=
    groupText_ne_nil hg fun s hs => hblank s (List.mem_append_left _ hs)
  induction ss generalizing g with
  | nil =>
      refine ⟨[g], isPacking_nil.cons hg hfits nofun, ?_⟩
      rw [pack, ← groupText, if_neg (by simpa using hsome)]
      rfl
  | cons s ss ih =>
      have hs : [s].flatten = s := by simp
      by_cases hlong : maxChunk < g.flatten.length + s.length
      · have hrest := fun t ht => hblank t (List.mem_append_right g ht)
        obtain ⟨groups, hpacking, hpack⟩ := ih (List.cons_ne_nil s []) (.inr ⟨s, rfl⟩) hrest
          (by rw [groupText, hs]; exact hrest s List.mem_cons_self)
        have hne : g.flatten ≠ [] := fun hnil => hsome (congrArg Text.trim hnil)
        refine ⟨g :: groups, hpacking.cons hg hfits ?_, ?_⟩
        · intro t ht
          obtain rfl : s = t := by simpa using ht
          exact hlong
        · rw [pack_cons_of_lt hne hlong, List.map_cons, ← hpack, hs, groupText]
      · have hflatten : (g ++ [s]).flatten = g.flatten ++ s := by rw [List.flatten_append, hs]
        have hadded : (g ++ [s]).flatten.length ≤ maxChunk := by
          rw [hflatten, List.length_append]
          omega
        rw [List.append_cons] at hblank ⊢
        obtain ⟨groups, hpacking, hpack⟩ := ih (by simp) (.inl hadded) hblank
          (groupText_ne_nil (by simp) fun t ht => hblank t (List.mem_append_left _ ht))
        refine ⟨groups, hpacking, ?_⟩
        rw [pack_cons_of_le (Nat.le_of_not_lt hlong), ← hflatten, hpack]

/-- The chunks of a trimmed paragraph are those of a packing of its sentences. -/
theorem exists_packing (hp : IsTrimmed p) :
    ∃ groups, IsPacking (sentences p) groups ∧ chunksOf p = groups.map groupText := by
  have hblank := fun s => trim_ne_nil_of_mem_sentences (s := s) hp
  have hflatten := flatten_sentences p
  obtain ⟨s, ss, hsentences⟩ : ∃ s ss, sentences p = s :: ss := by
    refine List.exists_cons_of_ne_nil fun hnil => hp.2 ?_
    rw [← hflatten, hnil]
    rfl
  unfold chunksOf
  split
  next hshort =>
    refine ⟨[sentences p], ?_, ?_⟩
    · have hpacking := isPacking_nil.cons (g := sentences p) (by simp [hsentences])
        (.inl (by rwa [hflatten])) nofun
      rwa [List.append_nil] at hpacking
    · rw [List.map_singleton, groupText, hflatten, hp.1]
  next =>
    rw [hsentences] at hblank ⊢
    obtain ⟨groups, hpacking, hpack⟩ :=
      exists_packing_behind (List.cons_ne_nil s []) (.inr ⟨s, rfl⟩) hblank
    refine ⟨groups, hpacking, ?_⟩
    rw [← hpack, List.flatten_singleton, pack, List.isEmpty_nil, Bool.not_true, Bool.false_and,
      if_neg Bool.false_ne_true, List.nil_append]

/-! ### Chunks -/

/-- What is left of a text without its blanks. -/
def inked (cs : List Char) : List Char := cs.filter (!Text.isBlank ·)

/-- Blanks are left out wherever they stand. -/
theorem piecewise_inked : Piecewise inked where
  lineFeed cs ds := by rw [inked, List.filter_append]; rfl
  carriageReturn cs ds := by rw [inked, List.filter_append]; rfl
  stop cs ds := List.filter_append _ _
  trim := by
    refine Text.apply_trim inked (fun c ds hc => ?_) fun cs c hc => ?_
    · rw [inked, List.filter_cons_of_neg (by simp [hc]), inked]
    · rw [inked, List.filter_append, List.filter_cons_of_neg (by simp [hc]), List.filter_nil,
        List.append_nil, inked]

/-- There is no blank line in a paragraph. -/
theorem not_infix_of_mem_paragraphs (h : p ∈ paragraphs cs) : ¬ ['\n', '\n'] <:+: p := by
  obtain ⟨hmem, -⟩ := List.mem_filter.mp h
  obtain ⟨piece, hpiece, rfl⟩ := List.mem_map.mp hmem
  intro hline
  exact Text.not_infix_of_mem_splitAt (List.cons_ne_nil _ _) hpiece
    (hline.trans (Text.trim_infix piece))

/-- The text of a group is not empty. -/
theorem IsPacking.groupText_ne_nil (h : IsPacking (sentences p) groups) (hp : IsTrimmed p)
    (hg : g ∈ groups) : groupText g ≠ [] := by
  refine Retrieval.groupText_ne_nil (h.ne_nil g hg) fun s hs => ?_
  refine trim_ne_nil_of_mem_sentences hp ?_
  rw [← h.flatten]
  exact List.mem_flatten_of_mem hg hs

/-- The text of a group is a part of the paragraph. -/
theorem IsPacking.groupText_infix (h : IsPacking (sentences p) groups) (hg : g ∈ groups) :
    groupText g <:+: p := by
  obtain ⟨before, behind, hsplit⟩ := List.infix_of_mem_flatten hg
  refine (Text.trim_infix _).trans ⟨before.flatten, behind.flatten, ?_⟩
  rw [← List.flatten_append, ← List.flatten_append, hsplit, h.flatten, flatten_sentences]

/-- The text of a group is no longer than a chunk may be, or that of a single sentence. -/
theorem IsPacking.groupText_fits (h : IsPacking ss groups) (hg : g ∈ groups) :
    (groupText g).length ≤ maxChunk ∨ ∃ s ∈ ss, groupText g = Text.trim s := by
  rcases h.fits g hg with hfits | ⟨s, rfl⟩
  · exact .inl ((Text.trim_infix g.flatten).length_le.trans hfits)
  · refine .inr ⟨s, ?_, by rw [groupText, List.flatten_singleton]⟩
    rw [← h.flatten]
    exact List.mem_flatten_of_mem hg (List.mem_singleton_self s)

/-- The chunks of trimmed paragraphs are those of packings of their sentences, one after the
other. -/
theorem exists_packings {ps : List (List Char)} (hps : ∀ p ∈ ps, IsTrimmed p) :
    ∃ packings, List.Forall₂ (fun p groups => IsPacking (sentences p) groups) ps packings ∧
      ps.flatMap chunksOf = packings.flatten.map groupText := by
  induction ps with
  | nil => exact ⟨[], .nil, rfl⟩
  | cons p ps ih =>
      obtain ⟨hp, hps⟩ := List.forall_mem_cons.mp hps
      obtain ⟨groups, hgroups, hchunks⟩ := exists_packing hp
      obtain ⟨packings, hpackings, hrest⟩ := ih hps
      refine ⟨groups :: packings, .cons hgroups hpackings, ?_⟩
      rw [List.flatMap_cons, List.flatten_cons, List.map_append, hchunks, hrest]

/-- A chunk is a group of a packing of a paragraph. -/
theorem exists_group_of_mem_chunks {text chunk : String} (h : chunk ∈ chunks text) :
    ∃ p ∈ paragraphs text.toList, ∃ groups, IsPacking (sentences p) groups ∧
      ∃ g ∈ groups, chunk.toList = groupText g := by
  obtain ⟨q, hq, rfl⟩ := List.mem_map.mp h
  obtain ⟨p, hp, hq⟩ := List.mem_flatMap.mp hq
  obtain ⟨groups, hpacking, hchunks⟩ := exists_packing (isTrimmed_of_mem_paragraphs hp)
  obtain ⟨g, hg, rfl⟩ := List.mem_map.mp (hchunks ▸ hq)
  exact ⟨p, hp, groups, hpacking, g, hg, String.toList_ofList⟩

/-- No chunk is blank. -/
theorem isBlankText_of_mem_chunks {text chunk : String} (h : chunk ∈ chunks text) :
    Text.isBlankText chunk = false := by
  obtain ⟨p, hp, groups, hpacking, g, hg, htext⟩ := exists_group_of_mem_chunks h
  have hsome := hpacking.groupText_ne_nil (isTrimmed_of_mem_paragraphs hp) hg
  rw [Text.isBlankText, htext, ← Bool.not_eq_true, ← Text.trim_eq_nil_iff, groupText,
    Text.trim_trim]
  exact hsome

/-- **The chunks of a text tile it.**  None of them is empty, starts or ends with a blank, or holds
a blank line; one that is too long is a single sentence, with no point and blank in it.  Without
blanks they are, in order, the text without its blanks.  They are the sentences of the paragraphs in
order, as many to a chunk as fit. -/
theorem chunks_tile (text : String) :
    (∀ chunk ∈ chunks text,
      chunk.toList ≠ [] ∧
      (∀ c, chunk.toList.head? = some c ∨ chunk.toList.getLast? = some c →
        Text.isBlank c = false) ∧
      (chunk.length ≤ maxChunk ∨ ¬ ['.', ' '] <:+: chunk.toList ∧
        ∃ p ∈ paragraphs text.toList, ∃ s ∈ sentences p, chunk.toList = Text.trim s) ∧
      ¬ ['\n', '\n'] <:+: chunk.toList) ∧
    (chunks text).flatMap (fun chunk => chunk.toList.filter (!Text.isBlank ·)) =
      text.toList.filter (!Text.isBlank ·) ∧
    ∃ packings,
      List.Forall₂ (fun p groups => IsPacking (sentences p) groups) (paragraphs text.toList)
        packings ∧
      (chunks text).map String.toList = packings.flatten.map fun g => Text.trim g.flatten := by
  refine ⟨fun chunk hchunk => ?_, piecewise_inked.chunks text, ?_⟩
  · obtain ⟨p, hp, groups, hpacking, g, hg, htext⟩ := exists_group_of_mem_chunks hchunk
    have htrimmed := isTrimmed_of_mem_paragraphs hp
    have hpart : groupText g <:+: p := hpacking.groupText_infix hg
    rw [← String.length_toList, htext]
    refine ⟨hpacking.groupText_ne_nil htrimmed hg, ?_, ?_,
      fun hline => not_infix_of_mem_paragraphs hp (hline.trans hpart)⟩
    · rintro c (hhead | hlast)
      · exact Text.isBlank_of_head?_trim hhead
      · exact Text.isBlank_of_getLast?_trim hlast
    · refine (hpacking.groupText_fits hg).imp_right ?_
      rintro ⟨s, hs, heq⟩
      exact ⟨heq ▸ not_infix_trim_of_mem_sentences hs, p, hp, s, hs, heq⟩
  · have hps : ∀ p ∈ paragraphs text.toList, IsTrimmed p := fun p => isTrimmed_of_mem_paragraphs
    obtain ⟨packings, hpackings, hchunks⟩ := exists_packings hps
    refine ⟨packings, hpackings, ?_⟩
    have htexts : String.toList ∘ String.ofList = id := funext fun _ => String.toList_ofList
    rw [chunks, List.map_map, htexts, List.map_id, hchunks]
    rfl

/-- A line break of two characters parts lines, and two of them part paragraphs. -/
example : chunks "# Cranes\r\n\r\n Stop in wind.\r\nUse tag lines.\r\n" =
    ["# Cranes", "Stop in wind.\nUse tag lines."] := by
  decide +kernel

end SiteSafety.Retrieval
