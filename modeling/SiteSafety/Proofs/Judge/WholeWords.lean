import SiteSafety.Judge.Cue
import SiteSafety.Proofs.Text.Width

/-!
# Proofs — Judge — Whole words

When a phrase is found in a text as whole words.  The search goes from one occurrence to the next
behind its end, so it passes over occurrences that overlap one it has met.  Such an occurrence
starts within the phrase, where the phrase overlaps itself; it cannot stand alone if there is a
letter or numeral before it, and **this is what makes the search complete**
(`containsPhrase_complete_iff`): a phrase is found wherever it stands alone exactly when every
overlap of the phrase with itself starts behind a letter or numeral (`OverlapsInWords`).

* `overlapsInWords_of_mem_issueCues`: the cues for site issues overlap in this way or not at all.
* `occursAlone_eq_any`: the search in bytes, and that it slices between characters only.
-/

namespace SiteSafety.Judge
open Text

variable {p cs rest more : List Char} {before : Option Char} {c : Char}

/-! ### Occurrences -/

/-- A phrase stands in a text with no letter or numeral before it or behind it. -/
def StandsAlone (p text : List Char) : Prop :=
  ∃ left right, text = left ++ p ++ right ∧
    left.getLast?.any isAlphanumeric = false ∧ right.head?.any isAlphanumeric = false

/-- It does so in the rest of a text, which comes behind a certain character. -/
def StandsAloneAfter (p : List Char) (before : Option Char) (cs : List Char) : Prop :=
  ∃ left right, cs = left ++ p ++ right ∧
    (left.getLast?.or before).any isAlphanumeric = false ∧ right.head?.any isAlphanumeric = false

/-- Where a phrase overlaps itself, its later occurrence has a letter or numeral before it. -/
def OverlapsInWords (p : List Char) : Prop :=
  ∀ k < p.length, p.drop k <+: p → (p.take k).getLast?.all isAlphanumeric = true

instance (p : List Char) : Decidable (OverlapsInWords p) :=
  inferInstanceAs (Decidable (∀ k < p.length, _))

theorem standsAlone_iff : StandsAlone p cs ↔ StandsAloneAfter p none cs := by
  simp only [StandsAlone, StandsAloneAfter, Option.or_none]

/-! ### Steps of the search -/

/-- A text is empty, starts with the phrase, or has a character to be passed over. -/
theorem search_induction {motive : List Char → Prop} (hp : p ≠ []) (nil : motive [])
    (met : ∀ more, motive more → motive (p ++ more))
    (passed : ∀ c rest, ¬p <+: c :: rest → motive rest → motive (c :: rest)) (cs : List Char) :
    motive cs := by
  match cs with
  | [] => exact nil
  | c :: rest =>
      by_cases hpre : p <+: c :: rest
      · obtain ⟨more, hmore⟩ := hpre
        have hshorter : more.length < (c :: rest).length := by
          have hpos := List.length_pos_iff.mpr hp
          rw [← hmore, List.length_append]
          omega
        exact hmore ▸ met more (search_induction hp nil met passed more)
      · exact passed c rest hpre (search_induction hp nil met passed rest)
termination_by cs.length
decreasing_by
  · exact hshorter
  · exact Nat.lt_succ_self _

theorem occursAlone_met (hp : p ≠ []) (before : Option Char) (more : List Char) :
    occursAlone p before (p ++ more) =
      ((!before.any isAlphanumeric && !more.head?.any isAlphanumeric) ||
        occursAlone p p.getLast? more) := by
  obtain ⟨c, rest, rfl⟩ := List.exists_cons_of_ne_nil hp
  have hpre : (c :: rest).isPrefixOf (c :: (rest ++ more)) = true :=
    List.isPrefixOf_iff_prefix.mpr ⟨more, rfl⟩
  have hlen : (c :: rest).length - 1 = rest.length := rfl
  rw [List.cons_append, occursAlone, if_pos hpre, hlen, List.drop_left, List.take_left,
    List.getLast?_cons]

theorem occursAlone_passed (h : ¬p <+: c :: rest) (before : Option Char) :
    occursAlone p before (c :: rest) = occursAlone p (some c) rest := by
  rw [occursAlone, if_neg]
  rwa [List.isPrefixOf_iff_prefix]

/-! ### What is found -/

theorem not_standsAloneAfter_of_length_lt (h : cs.length < p.length) :
    ¬StandsAloneAfter p before cs := by
  rintro ⟨left, right, rfl, -⟩
  simp only [List.length_append] at h
  omega

/-- A character that the phrase does not start at comes before it. -/
theorem standsAloneAfter_passed (h : ¬p <+: c :: rest) :
    StandsAloneAfter p before (c :: rest) ↔ StandsAloneAfter p (some c) rest := by
  have hlast (left : List Char) :
      (c :: left).getLast?.or before = left.getLast?.or (some c) := by
    rw [List.getLast?_cons]
    cases left.getLast? <;> rfl
  constructor
  · rintro ⟨left, right, heq, hbefore, hafter⟩
    cases left with
    | nil => exact absurd ⟨right, heq.symm⟩ h
    | cons d left =>
        obtain ⟨rfl, rfl⟩ := List.cons.inj heq
        exact ⟨left, right, rfl, hlast left ▸ hbefore, hafter⟩
  · rintro ⟨left, right, rfl, hbefore, hafter⟩
    exact ⟨c :: left, right, rfl, (hlast left).symm ▸ hbefore, hafter⟩

theorem getLast?_append_or (hp : p ≠ []) (left : List Char) (before : Option Char) :
    (p ++ left).getLast?.or before = left.getLast?.or p.getLast? := by
  rw [List.getLast?_append, Option.or_assoc, List.getLast?_eq_some_getLast hp, Option.some_or]

/-- An occurrence that is met stands alone, or another one behind it does. -/
theorem standsAloneAfter_of_met (hp : p ≠ [])
    (h : (before.any isAlphanumeric = false ∧ more.head?.any isAlphanumeric = false) ∨
      StandsAloneAfter p p.getLast? more) : StandsAloneAfter p before (p ++ more) := by
  rcases h with ⟨hbefore, hafter⟩ | ⟨left, right, rfl, hbefore, hafter⟩
  · exact ⟨[], more, rfl, hbefore, hafter⟩
  · refine ⟨p ++ left, right, by simp, ?_, hafter⟩
    rwa [getLast?_append_or hp]

/-- An occurrence that overlaps the one that is met does not stand alone, where the overlaps of the
phrase are in words. -/
theorem met_of_standsAloneAfter (hne : p ≠ []) (hp : OverlapsInWords p)
    (h : StandsAloneAfter p before (p ++ more)) :
    (before.any isAlphanumeric = false ∧ more.head?.any isAlphanumeric = false) ∨
      StandsAloneAfter p p.getLast? more := by
  obtain ⟨left, right, heq, hbefore, hafter⟩ := h
  rw [List.append_assoc] at heq
  have hmet : p <+: p ++ more := List.prefix_append p more
  have hleft : left <+: p ++ more := ⟨p ++ right, heq.symm⟩
  rcases Nat.lt_or_ge left.length p.length with hshort | hlong
  · obtain ⟨overlap, rfl⟩ := List.prefix_of_prefix_length_le hleft hmet hshort.le
    rw [List.append_assoc] at heq
    have hright := List.append_cancel_left heq
    by_cases hnil : left = []
    · subst hnil
      obtain rfl := List.append_cancel_left hright
      exact .inl ⟨hbefore, hafter⟩
    · -- it starts where the phrase overlaps itself, so there is a letter or numeral before it
      have hoverlap : overlap <+: left ++ overlap :=
        List.prefix_of_prefix_length_le ⟨more, hright⟩ (List.prefix_append _ right) (by simp)
      have hword := hp left.length hshort (by rwa [List.drop_left])
      rw [List.take_left, List.getLast?_eq_some_getLast hnil, Option.all_some] at hword
      rw [List.getLast?_eq_some_getLast hnil, Option.some_or, Option.any_some, hword] at hbefore
      cases hbefore
  · obtain ⟨gap, rfl⟩ := List.prefix_of_prefix_length_le hmet hleft hlong
    rw [List.append_assoc] at heq
    rw [getLast?_append_or hne] at hbefore
    exact .inr ⟨gap, right, by rw [List.append_cancel_left heq, List.append_assoc], hbefore, hafter⟩

/-- What is found stands alone. -/
theorem standsAloneAfter_of_occursAlone (hp : p ≠ []) (h : occursAlone p before cs = true) :
    StandsAloneAfter p before cs := by
  induction cs using search_induction hp generalizing before with
  | nil =>
      rw [occursAlone] at h
      cases h
  | met more ih =>
      rw [occursAlone_met hp, Bool.or_eq_true, Bool.and_eq_true, Bool.not_eq_true',
        Bool.not_eq_true'] at h
      exact standsAloneAfter_of_met hp (h.imp_right ih)
  | passed c rest hpre ih =>
      rw [occursAlone_passed hpre] at h
      exact (standsAloneAfter_passed hpre).mpr (ih h)

/-- What stands alone is found, where the overlaps of the phrase are in words. -/
theorem occursAlone_of_standsAloneAfter (hne : p ≠ []) (hp : OverlapsInWords p)
    (h : StandsAloneAfter p before cs) : occursAlone p before cs = true := by
  induction cs using search_induction hne generalizing before with
  | nil => exact absurd h (not_standsAloneAfter_of_length_lt (List.length_pos_iff.mpr hne))
  | met more ih =>
      rw [occursAlone_met hne, Bool.or_eq_true, Bool.and_eq_true, Bool.not_eq_true',
        Bool.not_eq_true']
      exact (met_of_standsAloneAfter hne hp h).imp_right ih
  | passed c rest hpre ih =>
      rw [occursAlone_passed hpre]
      exact ih ((standsAloneAfter_passed hpre).mp h)

theorem containsPhrase_iff (hne : p ≠ []) (hp : OverlapsInWords p) (text : List Char) :
    containsPhrase p text = true ↔ StandsAlone p text := by
  rw [standsAlone_iff]
  exact ⟨standsAloneAfter_of_occursAlone hne, occursAlone_of_standsAloneAfter hne hp⟩

/-- A phrase that overlaps itself behind something else is missed: put behind a letter, its first
occurrence does not stand alone, and the search goes on behind the second one's start. -/
theorem exists_missed {k : ℕ} (hk : k < p.length) (hpre : p.drop k <+: p)
    (hloose : (p.take k).getLast?.all isAlphanumeric = false) :
    ∃ text, StandsAlone p text ∧ containsPhrase p text = false := by
  have hne : p ≠ [] := by
    rintro rfl
    cases hk
  obtain ⟨c, hc, hletter⟩ : ∃ c, isAlphanumeric c = true ∧ p.head? ≠ some c := by
    by_cases ha : p.head? = some 'a'
    · exact ⟨'b', by decide +kernel, by simp [ha]⟩
    · exact ⟨'a', by decide +kernel, ha⟩
  refine ⟨c :: (p.take k ++ p), ⟨c :: p.take k, [], by simp, ?_, rfl⟩, ?_⟩
  · cases hlast : (p.take k).getLast? with
    | none =>
        rw [hlast] at hloose
        cases hloose
    | some d =>
        rw [hlast, Option.all_some] at hloose
        rw [List.getLast?_cons, hlast, Option.getD_some, Option.any_some, hloose]
  · obtain ⟨more, hmore⟩ := hpre
    have htext : p.take k ++ p = p ++ more :=
      calc p.take k ++ p = p.take k ++ (p.drop k ++ more) := by rw [hmore]
        _ = p ++ more := by rw [← List.append_assoc, List.take_append_drop]
    have hshort : more.length < p.length := by
      have hlen := congrArg List.length hmore
      rw [List.length_append, List.length_drop] at hlen
      omega
    have hpassed : ¬p <+: c :: (p.take k ++ p) := by
      intro hstart
      obtain ⟨d, p, rfl⟩ := List.exists_cons_of_ne_nil hne
      obtain ⟨rfl, -⟩ := List.cons_prefix_cons.mp hstart
      exact hletter rfl
    have hrest : occursAlone p p.getLast? more = false := by
      by_contra hfound
      exact not_standsAloneAfter_of_length_lt hshort
        (standsAloneAfter_of_occursAlone hne (by simpa using hfound))
    rw [containsPhrase, occursAlone_passed hpassed, htext, occursAlone_met hne, hrest,
      Option.any_some, hc]
    rfl

/-- **When the search misses nothing.**  A phrase is found wherever it stands alone, and nowhere
else, exactly when its overlaps with itself start behind letters or numerals. -/
theorem containsPhrase_complete_iff (hne : p ≠ []) :
    (∀ text, containsPhrase p text = true ↔ StandsAlone p text) ↔ OverlapsInWords p := by
  constructor
  · intro h k hk hpre
    by_contra hloose
    obtain ⟨text, halone, hmissed⟩ := exists_missed hk hpre (by simpa using hloose)
    rw [(h text).mpr halone] at hmissed
    cases hmissed
  · exact containsPhrase_iff hne

/-- The cues for site issues overlap themselves in words or not at all. -/
theorem overlapsInWords_of_mem_issueCues :
    ∀ phrase ∈ issueCues, phrase.toList ≠ [] ∧ OverlapsInWords phrase.toList := by
  decide +kernel

/-! ### The search in bytes -/

/-- The places of the occurrences that are met, in bytes, `start` being that of the text in hand. -/
def places (p : List Char) (start : ℕ) : List Char → List ℕ
  | [] => []
  | c :: rest =>
    if p.isPrefixOf (c :: rest) then
      start :: places p (start + width p) (rest.drop (p.length - 1))
    else places p (start + c.utf8Size) rest
termination_by cs => cs.length
decreasing_by all_goals simp only [List.length_drop, List.length_cons]; omega

/-- Whether a phrase stands alone at a place, by the slices before it and behind it. -/
def aloneAt (phrase text : String) (start : ℕ) : Bool :=
  let left := String.Pos.Raw.extract text 0 ⟨start⟩
  let right := String.Pos.Raw.extract text ⟨start + phrase.utf8ByteSize⟩ ⟨text.utf8ByteSize⟩
  !left.toList.getLast?.any isAlphanumeric && !right.toList.head?.any isAlphanumeric

/-- Both slices at a place are cut between characters. -/
def CutsBetween (phrase text : String) (start : ℕ) : Prop :=
  (⟨start⟩ : String.Pos.Raw).IsValid text ∧
    (⟨start + phrase.utf8ByteSize⟩ : String.Pos.Raw).IsValid text

theorem places_met (hp : p ≠ []) (start : ℕ) (more : List Char) :
    places p start (p ++ more) = start :: places p (start + width p) more := by
  obtain ⟨c, rest, rfl⟩ := List.exists_cons_of_ne_nil hp
  have hpre : (c :: rest).isPrefixOf (c :: (rest ++ more)) = true :=
    List.isPrefixOf_iff_prefix.mpr ⟨more, rfl⟩
  have hlen : (c :: rest).length - 1 = rest.length := rfl
  rw [List.cons_append, places, if_pos hpre, hlen, List.drop_left]

theorem places_passed (h : ¬p <+: c :: rest) (start : ℕ) :
    places p start (c :: rest) = places p (start + c.utf8Size) rest := by
  rw [places, if_neg]
  rwa [List.isPrefixOf_iff_prefix]

variable {phrase text : String} {left right : List Char}

theorem utf8ByteSize_eq_width_toList (s : String) : s.utf8ByteSize = width s.toList := by
  rw [← utf8ByteSize_eq_width, String.ofList_toList]

theorem cutsBetween_width (h : text.toList = left ++ (phrase.toList ++ right)) :
    CutsBetween phrase text (width left) := by
  refine ⟨isValid_width h, ?_⟩
  rw [utf8ByteSize_eq_width_toList, ← width_append]
  exact isValid_width (h.trans (List.append_assoc _ _ _).symm)

theorem aloneAt_width (h : text.toList = left ++ (phrase.toList ++ right)) :
    aloneAt phrase text (width left) =
      (!left.getLast?.any isAlphanumeric && !right.head?.any isAlphanumeric) := by
  have hend : text.utf8ByteSize = width (left ++ phrase.toList) + width right := by
    rw [utf8ByteSize_eq_width_toList, h, ← List.append_assoc, width_append]
  have hleft : String.Pos.Raw.extract text 0 ⟨width left⟩ = String.ofList left := by
    have hslice := @extract_width [] left (phrase.toList ++ right) text h
    rwa [show width [] = 0 from rfl, Nat.zero_add] at hslice
  have hright : String.Pos.Raw.extract text ⟨width left + phrase.utf8ByteSize⟩
      ⟨text.utf8ByteSize⟩ = String.ofList right := by
    rw [hend, utf8ByteSize_eq_width_toList, ← width_append]
    have hwhole : text.toList = (left ++ phrase.toList) ++ (right ++ []) := by
      rw [h, List.append_nil, List.append_assoc]
    exact extract_width hwhole
  simp only [aloneAt, hleft, hright, String.toList_ofList]

/-- The search asks the slices at each place it meets, and all of them are cut between
characters. -/
theorem occursAlone_eq_any (hne : phrase.toList ≠ []) (h : text.toList = left ++ cs) :
    occursAlone phrase.toList left.getLast? cs =
        (places phrase.toList (width left) cs).any (aloneAt phrase text) ∧
      ∀ start ∈ places phrase.toList (width left) cs, CutsBetween phrase text start := by
  induction cs using search_induction hne generalizing left with
  | nil =>
      rw [occursAlone, places]
      exact ⟨rfl, List.forall_mem_nil _⟩
  | met more ih =>
      obtain ⟨hany, hcuts⟩ := @ih (left ++ phrase.toList) (by rw [h, List.append_assoc])
      have hlast : (left ++ phrase.toList).getLast? = phrase.toList.getLast? := by
        rw [List.getLast?_append, List.getLast?_eq_some_getLast hne, Option.some_or]
      rw [hlast, width_append] at hany
      rw [width_append] at hcuts
      rw [occursAlone_met hne, places_met hne, List.any_cons, aloneAt_width h, hany]
      exact ⟨rfl, List.forall_mem_cons.mpr ⟨cutsBetween_width h, hcuts⟩⟩
  | passed c rest hpre ih =>
      obtain ⟨hany, hcuts⟩ := @ih (left ++ [c]) (by rw [h, List.append_assoc]; rfl)
      have hwidth : width (left ++ [c]) = width left + c.utf8Size := width_append left [c]
      rw [List.getLast?_concat, hwidth] at hany
      rw [hwidth] at hcuts
      rw [occursAlone_passed hpre, places_passed hpre]
      exact ⟨hany, hcuts⟩

/-- **Cues for site issues are found wherever they stand as whole words.**  In every text each of
them is found exactly when it stands there alone, occurrences that overlap included; the search asks
the slices at the places of the occurrences that it meets, and all of these are cut between
characters. -/
theorem containsPhrase_issueCue_iff {phrase : String} (hmem : phrase ∈ issueCues) (text : String) :
    (containsPhrase phrase.toList text.toList = true ↔
      StandsAlone phrase.toList text.toList) ∧
    containsPhrase phrase.toList text.toList =
      (places phrase.toList 0 text.toList).any (aloneAt phrase text) ∧
    ∀ start ∈ places phrase.toList 0 text.toList, CutsBetween phrase text start := by
  obtain ⟨hne, hoverlaps⟩ := overlapsInWords_of_mem_issueCues phrase hmem
  exact ⟨containsPhrase_iff hne hoverlaps _, @occursAlone_eq_any text.toList phrase text [] hne rfl⟩

/-- Behind two occurrences that overlap, the one that stands alone is found. -/
theorem damaged_found_behind_overlap :
    "damaged" ∈ issueCues ∧
      containsPhrase "damaged".toList "damagedamaged, damaged".toList = true := by
  have hmem : "damaged" ∈ issueCues := by decide
  have halone : StandsAlone "damaged".toList "damagedamaged, damaged".toList :=
    ⟨"damagedamaged, ".toList, [], rfl, by decide +kernel, rfl⟩
  exact ⟨hmem, (containsPhrase_issueCue_iff hmem _).1.mpr halone⟩

end SiteSafety.Judge
