import Mathlib.Data.List.Chain
import SiteSafety.Memory.Entry
import SiteSafety.Proofs.Text.Lower
import SiteSafety.Proofs.Text.Runs

/-!
# Proofs — Memory — Keys

When two contents have the same key.  A key is made of the words of a content, the maximal runs of
letters and numerals in it, each in lower case; a word has no blank in it, so the words can be read
back from the key and **two keys are the same exactly when the words are** (`normalizeKey_eq_iff`).

* `isSpaced_join`: words with single spaces between them have no other blank, and none at an end.
* `words_stripped`: whatever is no letter or numeral parts words as a blank does.
-/

namespace SiteSafety.Memory
open Text

variable {cs w : List Char} {us vs : List (List Char)}

/-! ### Words in lower case -/

/-- A piece that can be read back from a text in which blanks part the pieces. -/
def IsPiece (w : List Char) : Prop := w ≠ [] ∧ ∀ c ∈ w, isBlank c = false

/-- The lower case of a word of a content has no blank in it. -/
theorem isPiece_of_mem_contentWords (h : w ∈ contentWords cs) : IsPiece (lower w) := by
  refine ⟨lower_ne_nil (ne_nil_of_mem_fields h), fun c hc => ?_⟩
  by_contra hblank
  have hblank : isBlank c = true := by simpa using hblank
  have hmem := mem_of_mem_lower hblank hc
  have hword := not_mem_of_mem_splitOnP (List.mem_filter.mp h).1 c hmem
  rw [isAlphanumeric_of_isBlank hblank] at hword
  cases hword

theorem isPiece_of_mem_map (h : w ∈ (contentWords cs).map lower) : IsPiece w := by
  obtain ⟨u, hu, rfl⟩ := List.mem_map.mp h
  exact isPiece_of_mem_contentWords hu

/-- The words of a content are its maximal runs of letters and numerals. -/
theorem isRuns_iff_contentWords : IsRuns isAlphanumeric cs us ↔ contentWords cs = us :=
  isRuns_iff

/-! ### Keys -/

/-- Pieces with spaces between them are read back as the words of the text. -/
theorem words_join (h : ∀ u ∈ us, IsPiece u) : words (join [' '] us) = us := by
  rw [words, fields_join (by decide)]
  induction us with
  | nil => rfl
  | cons u us ih =>
      obtain ⟨⟨hne, hblank⟩, hus⟩ := List.forall_mem_cons.mp h
      have hword : fields isBlank (u ++ []) = u :: fields isBlank [] :=
        fields_append_of_word hne hblank (by simp)
      rw [List.append_nil, fields_nil] at hword
      rw [List.flatMap_cons, hword, ih hus]
      rfl

/-- A text with no blank at its ends and no two of them next to each other; all of them are
spaces. -/
structure IsSpaced (cs : List Char) : Prop where
  first : ∀ c, cs.head? = some c → isBlank c = false
  last : ∀ c, cs.getLast? = some c → isBlank c = false
  single : cs.IsChain fun c d => isBlank c = false ∨ isBlank d = false
  spaces : ∀ c ∈ cs, isBlank c = true → c = ' '

theorem IsPiece.isSpaced (h : IsPiece w) : IsSpaced w where
  first c hc := h.2 c (List.mem_of_head? hc)
  last c hc := h.2 c (List.mem_of_getLast? hc)
  single := (List.pairwise_of_forall_mem_list fun c hc _ _ => .inl (h.2 c hc)).isChain
  spaces c hc hblank := by
    rw [h.2 c hc] at hblank
    cases hblank

/-- Pieces with spaces between them. -/
theorem isSpaced_join (h : ∀ u ∈ us, IsPiece u) : IsSpaced (join [' '] us) := by
  fun_induction join [' '] us with
  | case1 => exact ⟨by simp, by simp, .nil, List.forall_mem_nil _⟩
  | case2 u => exact (h u (List.mem_singleton_self u)).isSpaced
  | case3 u v rest ih =>
      obtain ⟨hu, hrest⟩ := List.forall_mem_cons.mp h
      have hleft := hu.isSpaced
      have hright := ih hrest
      obtain ⟨c, u, rfl⟩ := List.exists_cons_of_ne_nil hu.1
      obtain ⟨d, v, rfl⟩ := List.exists_cons_of_ne_nil (hrest v List.mem_cons_self).1
      obtain ⟨more, hmore⟩ := List.head?_eq_some_iff.mp (@head?_join_cons v ' ' d rest)
      rw [hmore] at hright ⊢
      refine ⟨fun e he => hleft.first e he, fun e he => ?_, ?_, fun e he hblank => ?_⟩
      · rw [List.getLast?_append, List.getLast?_cons, Option.some_or, ← List.getLast?_cons] at he
        exact hright.last e he
      · rw [List.isChain_append, List.isChain_append]
        exact ⟨⟨hleft.single, .singleton _, fun e he _ _ => .inl (hleft.last e he)⟩,
          hright.single, fun _ _ e he => .inr (hright.first e he)⟩
      · rcases List.mem_append.mp he with he | he
        · rcases List.mem_append.mp he with he | he
          · exact hleft.spaces e he hblank
          · exact List.mem_singleton.mp he
        · exact hright.spaces e he hblank

/-! ### Punctuation -/

/-- The content with a space for every character that is no letter, numeral or blank. -/
def stripped (cs : List Char) : List Char :=
  cs.map fun c => if isAlphanumeric c || isBlank c then c else ' '

/-- Whatever is no letter or numeral parts words, whether it is a blank or replaced by one. -/
theorem words_stripped (cs : List Char) : words (stripped cs) = contentWords cs := by
  have hpieces : (stripped cs).splitOnP isBlank = cs.splitOnP fun c => !isAlphanumeric c := by
    induction cs with
    | nil => rfl
    | cons c cs ih =>
        have hcons : stripped (c :: cs) =
            (if isAlphanumeric c || isBlank c then c else ' ') :: stripped cs := rfl
        rw [hcons, List.splitOnP_cons_eq_if_modifyHead, List.splitOnP_cons_eq_if_modifyHead, ih]
        cases hc : isAlphanumeric c with
        | true =>
            have hword : isBlank c = false := by
              by_contra hblank
              rw [isAlphanumeric_of_isBlank (by simpa using hblank)] at hc
              cases hc
            simp [hword]
        | false =>
            have hspace : isBlank ' ' = true := by decide
            cases hblank : isBlank c <;> simp [hblank, hspace]
  rw [words, fields, hpieces]
  rfl

/-- **Keys are the same for the same words.**  Two contents have one key exactly when their maximal
runs of letters and numerals, each in lower case, are the same; every content has one list of runs.
A key has no blank but single spaces within it, and is what is left of the content's words when
punctuation is replaced by spaces. -/
theorem normalizeKey_eq_iff (a b : String) :
    (normalizeKey a = normalizeKey b ↔ ∃ us vs, IsRuns isAlphanumeric a.toList us ∧
      IsRuns isAlphanumeric b.toList vs ∧ us.map lower = vs.map lower) ∧
    (∃! us, IsRuns isAlphanumeric a.toList us) ∧
    IsSpaced (normalizeKey a).toList ∧
    normalizeKey a = String.ofList (join [' '] ((words (stripped a.toList)).map lower)) := by
  simp only [isRuns_iff_contentWords]
  refine ⟨⟨fun h => ?_, ?_⟩, ⟨_, rfl, fun _ h => h.symm⟩, ?_, ?_⟩
  · -- the words are read back from the key
    have hwords := congrArg words (String.ofList_injective h)
    rw [words_join fun _ => isPiece_of_mem_map, words_join fun _ => isPiece_of_mem_map] at hwords
    exact ⟨_, _, rfl, rfl, hwords⟩
  · rintro ⟨_, _, rfl, rfl, h⟩
    rw [normalizeKey, normalizeKey, h]
  · rw [normalizeKey, String.toList_ofList]
    exact isSpaced_join fun _ => isPiece_of_mem_map
  · rw [words_stripped]
    rfl

end SiteSafety.Memory
