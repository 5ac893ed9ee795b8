import SiteSafety.Proofs.Text.Words
import SiteSafety.Retrieval.Chunk

/-!
# Proofs — Retrieval — Chunks

What a document says is not lost when it is cut into chunks.  A document is cut at blank lines and
behind sentences, and blanks are left out at the ends of what is cut off.  A reading that goes piece
by piece (`Piecewise`) takes no notice of either, and neither of a line break of two characters.

* `Piecewise.paragraphs`, `Piecewise.pack`: such a reading of the paragraphs of a text, and of the
  pieces that the sentences of a paragraph are packed into.
* `Piecewise.chunks`: **such a reading of the chunks of a text, in order, is the reading of the
  text.**
-/

namespace SiteSafety.Retrieval

variable {β : Type} {read : List Char → List β}

/-- A reading of texts that goes piece by piece: a line break parts it, so does the end of a
sentence, and blanks at the ends of a text say nothing. -/
structure Piecewise (read : List Char → List β) : Prop where
  lineFeed (cs ds : List Char) : read (cs ++ '\n' :: ds) = read cs ++ read ds
  carriageReturn (cs ds : List Char) : read (cs ++ '\r' :: ds) = read cs ++ read ds
  stop (cs ds : List Char) : read (cs ++ ['.', ' '] ++ ds) = read (cs ++ ['.', ' ']) ++ read ds
  trim (cs : List Char) : read (Text.trim cs) = read cs

namespace Piecewise
variable (h : Piecewise read)
include h

theorem nil : read [] = [] := by
  have hbreak : read ['\n'] = read [] ++ read [] := h.lineFeed [] []
  have htrim : read [] = read ['\n'] := h.trim ['\n']
  rw [← htrim] at hbreak
  simpa using hbreak

/-- A text of blanks says nothing. -/
theorem of_isEmpty_trim {cs : List Char} (hcs : (Text.trim cs).isEmpty = true) : read cs = [] := by
  rw [← h.trim, List.isEmpty_iff.mp hcs, h.nil]

/-! ### Paragraphs -/

/-- A line break of two characters is read as one of one character. -/
theorem replace (before cs : List Char) :
    read (before ++ Text.replace ['\r', '\n'] ['\n'] cs) = read (before ++ cs) := by
  fun_induction Text.replace ['\r', '\n'] ['\n'] cs generalizing before with
  | case1 => rfl
  | case2 c rest hpre ih =>
      obtain ⟨more, hmore⟩ := List.isPrefixOf_iff_prefix.mp hpre
      obtain ⟨rfl, rfl⟩ : c = '\r' ∧ rest = '\n' :: more := by simpa using hmore.symm
      have hrest := ih []
      simp only [List.length_cons, List.length_nil, List.drop_succ_cons, List.nil_append,
        Nat.reduceAdd, Nat.reduceSub, List.drop_zero] at hrest ⊢
      have hbreak := h.lineFeed [] more
      rw [h.nil, List.nil_append, List.nil_append] at hbreak
      rw [List.singleton_append, h.lineFeed, hrest, h.carriageReturn, hbreak]
  | case3 c rest hpre ih =>
      rw [List.append_cons, ih, List.append_assoc, List.singleton_append]

/-- A blank line parts what is before it from what is behind it. -/
theorem splitAt_go (seen rest : List Char) :
    (Text.splitAt.go ['\n', '\n'] seen rest).flatMap read = read (seen.reverse ++ rest) := by
  fun_induction Text.splitAt.go ['\n', '\n'] seen rest with
  | case1 seen => simp
  | case2 seen c rest hpre ih =>
      obtain ⟨more, hmore⟩ := List.isPrefixOf_iff_prefix.mp hpre
      obtain ⟨rfl, rfl⟩ : c = '\n' ∧ rest = '\n' :: more := by simpa using hmore.symm
      have hbreak := h.lineFeed [] more
      rw [h.nil, List.nil_append, List.nil_append] at hbreak
      rw [List.flatMap_cons, ih, h.lineFeed, hbreak]
      rfl
  | case3 seen c rest hpre ih =>
      rw [ih, List.reverse_cons, List.append_assoc, List.singleton_append]

theorem paragraphs (cs : List Char) : (paragraphs cs).flatMap read = read cs := by
  have htrim (ps : List (List Char)) :
      ((ps.map Text.trim).filter (!·.isEmpty)).flatMap read = ps.flatMap read := by
    induction ps with
    | nil => rfl
    | cons p ps ih =>
        rw [List.map_cons, List.filter_cons]
        split
        case isTrue => rw [List.flatMap_cons, List.flatMap_cons, h.trim, ih]
        case isFalse hp =>
          rw [List.flatMap_cons, ih, h.of_isEmpty_trim (by simpa using hp), List.nil_append]
  rw [Retrieval.paragraphs, htrim, Text.splitAt, h.splitAt_go, List.reverse_nil, h.replace,
    List.nil_append]

end Piecewise

/-! ### Sentences -/

/-- The text ends with a sentence. -/
def EndsSentence (cs : List Char) : Prop := ∃ ds, cs = ds ++ ['.', ' ']

theorem EndsSentence.append {ds : List Char} (h : EndsSentence ds) (cs : List Char) :
    EndsSentence (cs ++ ds) := by
  obtain ⟨es, rfl⟩ := h
  exact ⟨cs ++ es, by rw [List.append_assoc]⟩

theorem flatten_sentences (cs : List Char) : (sentences cs).flatten = cs := by
  fun_induction sentences cs <;> simp_all

/-- Every sentence but the last one is complete. -/
theorem endsSentence_of_mem_sentences {cs s : List Char} (h : s ∈ (sentences cs).dropLast) :
    EndsSentence s := by
  fun_induction sentences cs generalizing s with
  | case1 => cases h
  | case2 rest ih =>
      cases hrest : sentences rest with
      | nil => simp [hrest] at h
      | cons p ps =>
          rw [hrest] at h ih
          rcases List.mem_cons.mp h with rfl | h
          · exact ⟨[], rfl⟩
          · exact ih h
  | case3 c rest hne hnone ih => cases h
  | case4 c rest hne p ps hsome ih =>
      rw [hsome] at ih
      cases ps with
      | nil => cases h
      | cons q ps =>
          rcases List.mem_cons.mp h with rfl | h
          · exact (ih List.mem_cons_self).append [c]
          · exact ih (List.mem_cons_of_mem _ h)

/-- The sentences but the last one, taken one by one. -/
theorem forall_mem_dropLast_cons {α : Type} {p : α → Prop} {s : α} {ss : List α} :
    (∀ x ∈ (s :: ss).dropLast, p x) ↔ (ss ≠ [] → p s) ∧ ∀ x ∈ ss.dropLast, p x := by
  cases ss <;> simp

/-- Packed sentences are parted where one of them ends. -/
theorem Piecewise.pack (h : Piecewise read) {current : List Char} {ss : List (List Char)}
    (hcurrent : ss ≠ [] → current = [] ∨ EndsSentence current)
    (hss : ∀ s ∈ ss.dropLast, EndsSentence s) :
    (pack current ss).flatMap read = read (current ++ ss.flatten) := by
  have hcut (cs ds : List Char) (hcs : EndsSentence cs) : read (cs ++ ds) = read cs ++ read ds := by
    obtain ⟨es, rfl⟩ := hcs
    exact h.stop es ds
  fun_induction Retrieval.pack current ss with
  | case1 current hempty =>
      rw [List.flatten_nil, List.append_nil, h.of_isEmpty_trim hempty]
      rfl
  | case2 current hfull => simp [h.trim]
  | case3 current s rest hlong ih =>
      obtain ⟨hs, hrest⟩ := forall_mem_dropLast_cons.mp hss
      have hne : current ≠ [] := by
        rintro rfl
        simp at hlong
      have hends := (hcurrent (List.cons_ne_nil _ _)).resolve_left hne
      rw [List.flatMap_cons, h.trim, ih (fun hr => .inr (hs hr)) hrest, hcut _ _ hends,
        List.flatten_cons]
  | case4 current s rest hfits ih =>
      obtain ⟨hs, hrest⟩ := forall_mem_dropLast_cons.mp hss
      rw [ih (fun hr => .inr ((hs hr).append current)) hrest, List.flatten_cons, List.append_assoc]

theorem Piecewise.chunksOf (h : Piecewise read) (paragraph : List Char) :
    (chunksOf paragraph).flatMap read = read paragraph := by
  unfold Retrieval.chunksOf
  split
  · simp
  · rw [h.pack (fun _ => .inl rfl) fun s hs => endsSentence_of_mem_sentences hs, List.nil_append,
      flatten_sentences]

/-- A reading that goes piece by piece reads the same in the chunks of a text, in order, as in the
text. -/
theorem Piecewise.chunks (h : Piecewise read) (text : String) :
    (chunks text).flatMap (fun chunk => read chunk.toList) = read text.toList := by
  have hpieces : ((Retrieval.paragraphs text.toList).flatMap Retrieval.chunksOf).flatMap read =
      read text.toList := by
    rw [List.flatMap_assoc]
    simp only [h.chunksOf, h.paragraphs]
  rw [Retrieval.chunks, List.flatMap_map]
  simpa using hpieces

/-! ### Trimmed texts -/

/-- The text is trimmed and there is something in it. -/
def IsTrimmed (cs : List Char) : Prop := Text.trim cs = cs ∧ cs ≠ []

theorem isTrimmed_trim {cs : List Char} (h : Text.trim cs ≠ []) : IsTrimmed (Text.trim cs) :=
  ⟨Text.trim_trim cs, h⟩

/-- A sentence that is complete has its point. -/
theorem EndsSentence.trim_ne_nil {cs : List Char} (h : EndsSentence cs) : Text.trim cs ≠ [] := by
  obtain ⟨ds, rfl⟩ := h
  have hpoint : Text.isBlank '.' = false := by decide
  rw [Ne, Text.trim_eq_nil_iff, List.all_append, List.all_cons, hpoint]
  simp

theorem isTrimmed_of_mem_paragraphs {cs p : List Char} (h : p ∈ paragraphs cs) : IsTrimmed p := by
  obtain ⟨htrim, hne⟩ := List.mem_filter.mp h
  obtain ⟨q, -, rfl⟩ := List.mem_map.mp htrim
  exact isTrimmed_trim (by simpa using hne)

end SiteSafety.Retrieval
