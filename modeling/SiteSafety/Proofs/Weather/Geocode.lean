import Mathlib.Data.List.Nodup
import SiteSafety.Proofs.Firsts
import SiteSafety.Proofs.Text.Words
import SiteSafety.Weather.Geocode

/-!
# Proofs — Weather — Geocode

What a site is looked up under.  Every name that is asked for is trimmed and not empty, so **no
query is blank**; the queries are the names without their repetitions, and the full name is the
first of them.

A location `Site <name> - <place>` (`labelled`) is also asked for without its label.  The label is
taken to be two words, `Site` and one more: for a name of one word what is left is the place, and
for a longer one only its first word goes (`stripSiteLabel?_labelled`).

* `geocodeQueries_labelled`: the queries of any location, and for which labelled ones the place is
  among them.
* `label_of_two_words_stays`: a place that is never asked for.
-/

namespace SiteSafety.Text

variable {c : Char} {cs w : List Char} {ws ps qs : List (List Char)}

/-! ### Words laid end to end -/

theorem isBlank_of_mem_word (hw : w ∈ words cs) : ∀ c ∈ w, isBlank c = false :=
  not_mem_of_mem_splitOnP (List.mem_filter.mp hw).1

theorem mem_of_mem_word (hw : w ∈ words cs) (hc : c ∈ w) : c ∈ cs :=
  (infix_of_mem_splitOnP (List.mem_filter.mp hw).1).subset hc

theorem join_append (hp : ps ≠ []) (hq : qs ≠ []) :
    join [c] (ps ++ qs) = join [c] ps ++ c :: join [c] qs := by
  fun_induction join [c] ps with
  | case1 => exact absurd rfl hp
  | case2 p =>
      obtain ⟨q, qs, rfl⟩ := List.exists_cons_of_ne_nil hq
      simp [join]
  | case3 p q rest ih =>
      have htail := ih (List.cons_ne_nil _ _)
      simp only [List.cons_append] at htail ⊢
      simp [join, htail]

/-- Words laid end to end have no blanks at their ends. -/
theorem trim_join_of_words (hne : ∀ w ∈ ws, w ≠ [])
    (hblank : ∀ w ∈ ws, ∀ c ∈ w, isBlank c = false) : trim (join [' '] ws) = join [' '] ws := by
  refine trim_of_ends ?_ ?_
  · intro d hd
    cases ws with
    | nil => cases hd
    | cons w ws =>
        obtain ⟨c, cs, rfl⟩ := List.exists_cons_of_ne_nil (hne _ List.mem_cons_self)
        rw [head?_join_cons, Option.some.injEq] at hd
        exact hd ▸ hblank _ List.mem_cons_self _ List.mem_cons_self
  · intro d hd
    rcases List.eq_nil_or_concat ws with rfl | ⟨ws, w, rfl⟩
    · cases hd
    · have hw : w ∈ ws.concat w := by simp
      rcases List.eq_nil_or_concat w with rfl | ⟨cs, c, rfl⟩
      · exact absurd rfl (hne _ hw)
      · rw [List.concat_eq_append, List.concat_eq_append, getLast?_join_concat,
          Option.some.injEq] at hd
        exact hd ▸ hblank _ hw _ (by simp)

end SiteSafety.Text

namespace SiteSafety.Weather

variable {name place cs w : List Char} {ws : List (List Char)} {location q : String}

/-! ### Queries -/

/-- The names a location is looked up under, blanks at its ends aside. -/
def IsNameOf (cs n : List Char) : Prop :=
  n = cs ∨ beforeComma? cs = some n ∨ firstWord? cs = some n ∨ stripSiteLabel? cs = some n

theorem mem_geocodeQueries_iff : q ∈ geocodeQueries location ↔
    IsNameOf (Text.trim location.toList) q.toList ∧ q.toList ≠ [] := by
  have hof : ∀ n, String.ofList n = q ↔ n = q.toList := fun n => by
    rw [← String.toList_inj, String.toList_ofList]
  simp only [geocodeQueries, List.mem_map, List.mem_eraseDups, List.mem_filter, List.mem_filterMap,
    id, exists_eq_right, hof, ne_eq, Bool.not_eq_true', List.isEmpty_eq_false_iff, IsNameOf,
    List.mem_cons, List.not_mem_nil, or_false, Option.some.injEq, eq_comm (a := some q.toList)]

/-- Every name is trimmed. -/
theorem IsNameOf.trim_eq {n : List Char} (h : IsNameOf cs n) (hcs : Text.trim cs = cs) :
    Text.trim n = n := by
  rcases h with rfl | h | h | h
  · exact hcs
  · obtain ⟨parts, -, rfl⟩ := Option.map_eq_some_iff.mp h
    exact Text.trim_trim _
  · simp only [firstWord?] at h
    split at h
    next hwords =>
      cases h
      have hmem : n ∈ Text.words cs := by simp [hwords]
      have hblank := Text.isBlank_of_mem_word hmem
      exact Text.trim_of_ends (fun c hc => hblank c (List.mem_of_mem_head? hc))
        fun c hc => hblank c (List.mem_of_getLast? hc)
    next => cases h
  · simp only [stripSiteLabel?] at h
    split at h
    next =>
      split at h
      next =>
        split at h
        next => cases h
        next =>
          cases h
          exact Text.trim_trim _
      next => cases h
    next => cases h

/-- No query is blank and none is asked twice; the full name comes first. -/
theorem geocodeQueries_distinct (location : String) :
    (∀ q ∈ geocodeQueries location, Text.isBlankText q = false) ∧
    (geocodeQueries location).Nodup ∧
    (geocodeQueries location).head? =
      if Text.isBlankText location then none else some (Text.trimmed location) := by
  refine ⟨?_, ?_, ?_⟩
  · intro q hq
    obtain ⟨hnamed, hne⟩ := mem_geocodeQueries_iff.mp hq
    have htrim := hnamed.trim_eq (Text.trim_trim _)
    rw [Text.isBlankText, ← Bool.not_eq_true, ← Text.trim_eq_nil_iff, htrim]
    exact hne
  · refine (nodup_eraseDups _).map fun a b heq => ?_
    rw [← String.toList_ofList (l := a), heq, String.toList_ofList]
  · simp only [geocodeQueries, Text.isBlankText, ← Text.trim_eq_nil_iff]
    split
    next h =>
      rw [h]
      rfl
    next h =>
      simp [h, List.eraseDups_cons, Text.trimmed]

/-! ### Labels -/

/-- What a site is called in front of its place: words without a dash. -/
structure IsSiteName (name : List Char) : Prop where
  named : Text.words name ≠ []
  undashed : ∀ c ∈ name, isDash c = false

instance (name : List Char) : Decidable (IsSiteName name) :=
  have : Decidable (∀ c ∈ name, isDash c = false) := List.decidableBAll _ _
  decidable_of_iff (Text.words name ≠ [] ∧ ∀ c ∈ name, isDash c = false)
    ⟨fun ⟨h, h'⟩ => ⟨h, h'⟩, fun ⟨h, h'⟩ => ⟨h, h'⟩⟩

/-- Words a single space apart. -/
structure IsPlace (place : List Char) : Prop where
  nonempty : place ≠ []
  spaced : joinWords (Text.words place) = place

instance (place : List Char) : Decidable (IsPlace place) :=
  decidable_of_iff (place ≠ [] ∧ joinWords (Text.words place) = place)
    ⟨fun ⟨h, h'⟩ => ⟨h, h'⟩, fun ⟨h, h'⟩ => ⟨h, h'⟩⟩

/-- The location of a site that is called by a name. -/
def labelled (name place : List Char) : List Char :=
  "Site ".toList ++ name ++ " - ".toList ++ place

theorem labelled_eq (name place : List Char) :
    labelled name place = "Site ".toList ++ name ++ " - ".toList ++ place := rfl

theorem words_labelled (name place : List Char) : Text.words (labelled name place) =
    "Site".toList :: (Text.words name ++ "-".toList :: Text.words place) := by
  have hshape : labelled name place =
      "Site".toList ++ ' ' :: (name ++ ' ' :: ("-".toList ++ ' ' :: place)) := by
    rw [labelled_eq, List.append_assoc, List.append_assoc]
    rfl
  have hspace : Text.isBlank ' ' = true := by decide
  have hsite : Text.words "Site".toList = ["Site".toList] := by decide
  have hdash : Text.words "-".toList = ["-".toList] := by decide
  simp only [Text.words] at hsite hdash ⊢
  rw [hshape, Text.fields_append_cons hspace, Text.fields_append_cons hspace,
    Text.fields_append_cons hspace, hsite, hdash]
  rfl

theorem IsPlace.trim_eq (h : IsPlace place) : Text.trim place = place := by
  rw [← h.spaced]
  exact Text.trim_join_of_words (fun w hw => Text.ne_nil_of_mem_fields hw)
    fun w hw => Text.isBlank_of_mem_word hw

theorem IsPlace.words_ne_nil (h : IsPlace place) : Text.words place ≠ [] := by
  intro hnil
  have hspaced := h.spaced
  rw [hnil] at hspaced
  exact h.nonempty hspaced.symm

theorem trim_labelled (h : IsPlace place) :
    Text.trim (labelled name place) = labelled name place := by
  refine Text.trim_of_ends ?_ ?_
  · intro c hc
    have hhead : (labelled name place).head? = some 'S' := rfl
    cases hhead.symm.trans hc
    decide
  · intro c hc
    have hlast := List.getLast?_eq_some_getLast h.nonempty
    rw [labelled_eq, List.getLast?_append, hlast, Option.some_or, ← hlast, ← h.trim_eq] at hc
    exact Text.isBlank_of_getLast?_trim hc

theorem firstWord?_labelled (h : IsSiteName name) :
    firstWord? (labelled name place) = some "Site".toList := by
  obtain ⟨w, ws, hw⟩ := List.exists_cons_of_ne_nil h.named
  simp only [firstWord?, words_labelled, hw, List.cons_append]

theorem exists_joinWords_eq_cons (c : Char) (cs : List Char) (ws : List (List Char)) :
    ∃ rest, joinWords ((c :: cs) :: ws) = c :: rest :=
  List.head?_eq_some_iff.mp (Text.head?_join_cons c ws)

/-- What starts with a word is left as it is, unless that word starts with a dash. -/
theorem trim_dropWhile_joinWords {c : Char} {text : List Char} (hdash : isDash c = false)
    (hwords : ∀ v ∈ (c :: cs) :: ws, v ∈ Text.words text) :
    Text.trim ((joinWords ((c :: cs) :: ws)).dropWhile isDash) = joinWords ((c :: cs) :: ws) := by
  have htrim : Text.trim (joinWords ((c :: cs) :: ws)) = joinWords ((c :: cs) :: ws) :=
    Text.trim_join_of_words (fun v hv => Text.ne_nil_of_mem_fields (hwords v hv))
      fun v hv => Text.isBlank_of_mem_word (hwords v hv)
  obtain ⟨rest, hrest⟩ := exists_joinWords_eq_cons c cs ws
  rw [hrest] at htrim ⊢
  rwa [List.dropWhile_cons_of_neg (by simp [hdash])]

/-- **The label that is taken off** is `Site` and one word: of a longer name the rest stays. -/
theorem stripSiteLabel?_labelled (hname : IsSiteName name) (hplace : IsPlace place)
    (hw : Text.words name = w :: ws) : stripSiteLabel? (labelled name place) =
      some (if ws = [] then place else joinWords (ws ++ "-".toList :: Text.words place)) := by
  have hsite : ("Site".toList.map Char.toLower == "site".toList) = true := by decide
  have hspace : Text.isBlank ' ' = true := by decide
  simp only [stripSiteLabel?, words_labelled, hw, List.cons_append, hsite, if_true]
  cases ws with
  | nil =>
      have hrest : joinWords ([] ++ "-".toList :: Text.words place) = '-' :: ' ' :: place := by
        have hjoin := Text.join_append (c := ' ') (List.cons_ne_nil "-".toList [])
          hplace.words_ne_nil
        exact hjoin.trans (congrArg ('-' :: ' ' :: ·) hplace.spaced)
      have hblank : ∀ c ∈ [' '], Text.isBlank c = true := List.forall_mem_singleton.mpr hspace
      have hstrip : Text.trim (('-' :: ' ' :: place).dropWhile isDash) = place :=
        (Text.trim_of_blank_append hblank).trans hplace.trim_eq
      simp only [hrest, hstrip, if_true, List.isEmpty_eq_false_iff.mpr hplace.nonempty,
        Bool.false_eq_true, if_false]
  | cons w' ws =>
      have hword : w' ∈ Text.words name := by simp [hw]
      obtain ⟨c, cs, rfl⟩ := List.exists_cons_of_ne_nil (Text.ne_nil_of_mem_fields hword)
      have hdash : isDash c = false :=
        hname.undashed c (Text.mem_of_mem_word hword List.mem_cons_self)
      have hwords : ∀ v ∈ (c :: cs) :: (ws ++ "-".toList :: Text.words place),
          v ∈ Text.words (labelled name place) := by
        intro v hv
        rw [words_labelled, hw]
        exact List.mem_cons_of_mem _ (List.mem_cons_of_mem _ hv)
      have hnonempty : (joinWords ((c :: cs) :: (ws ++ "-".toList :: Text.words place))).isEmpty =
          false := by
        obtain ⟨rest, hrest⟩ := exists_joinWords_eq_cons c cs (ws ++ "-".toList :: Text.words place)
        rw [hrest]
        rfl
      simp only [List.cons_append, trim_dropWhile_joinWords hdash hwords, hnonempty,
        Bool.false_eq_true, if_false, List.cons_ne_nil]

/-- A longer name leaves more than the place. -/
theorem stripSiteLabel?_labelled_eq_place_iff (hname : IsSiteName name) (hplace : IsPlace place) :
    stripSiteLabel? (labelled name place) = some place ↔ (Text.words name).length = 1 := by
  obtain ⟨w, ws, hw⟩ := List.exists_cons_of_ne_nil hname.named
  rw [stripSiteLabel?_labelled hname hplace hw, hw, List.length_cons, Nat.add_eq_right,
    List.length_eq_zero_iff, Option.some.injEq]
  split
  next h => exact iff_of_true rfl h
  next h =>
    refine iff_of_false (fun heq => ?_) h
    obtain ⟨w', ws, rfl⟩ := List.exists_cons_of_ne_nil h
    have hword : w' ∈ Text.words name := by simp [hw]
    have hpos := List.length_pos_of_ne_nil (Text.ne_nil_of_mem_fields hword)
    have hlength := Text.length_join_append_le (c := ' ') w' (ws ++ ["-".toList])
      (Text.words place)
    have hshape : w' :: (ws ++ ["-".toList] ++ Text.words place) =
        w' :: ws ++ "-".toList :: Text.words place := by simp
    have hsame : (Text.join [' '] (Text.words place)).length = place.length :=
      congrArg List.length hplace.spaced
    rw [hshape, hsame] at hlength
    have hheq := congrArg List.length heq
    rw [joinWords] at hheq
    omega

/-- A comma in the name cuts the place off, and what stands before it is looked up. -/
theorem beforeComma?_labelled_eq_place_iff : beforeComma? (labelled name place) = some place ↔
    ∃ head tail, name = head ++ ',' :: tail ∧ ',' ∉ head ∧
      place = Text.trim ("Site ".toList ++ head) := by
  simp only [← and_assoc, ← Text.cut?_singleton_eq_some, beforeComma?, Option.map_eq_some_iff,
    Prod.exists]
  cases hcut : Text.cut? [','] name with
  | some parts =>
      obtain ⟨head, tail⟩ := parts
      obtain ⟨rfl, hnot⟩ := Text.cut?_singleton_eq_some.mp hcut
      have hshape : labelled (head ++ ',' :: tail) place =
          ("Site ".toList ++ head) ++ ',' :: (tail ++ " - ".toList ++ place) := by
        simp only [labelled_eq, List.append_assoc, List.cons_append]
      have hsite : ',' ∉ "Site ".toList := by decide
      have hlabelled : Text.cut? [','] (("Site ".toList ++ head) ++ ',' ::
          (tail ++ " - ".toList ++ place)) = some ("Site ".toList ++ head, _) :=
        Text.cut?_singleton_append (mt List.mem_append.mp (not_or.mpr ⟨hsite, hnot⟩))
      simp only [hshape, hlabelled, Option.some.injEq, Prod.mk.injEq]
      constructor
      · rintro ⟨_, _, ⟨rfl, -⟩, h⟩
        exact ⟨head, tail, ⟨rfl, rfl⟩, h.symm⟩
      · rintro ⟨_, _, ⟨rfl, -⟩, h⟩
        exact ⟨_, _, ⟨rfl, rfl⟩, h.symm⟩
  | none =>
      have hname : ',' ∉ name := by
        intro hmem
        obtain ⟨head, tail, hsplit, hnot⟩ := List.eq_append_cons_of_mem hmem
        cases hcut.symm.trans (Text.cut?_singleton_eq_some.mpr ⟨hsplit, hnot⟩)
      refine iff_of_false ?_ (by simp)
      rintro ⟨before, after, hbefore, rfl⟩
      obtain ⟨hlabelled, hnot⟩ := Text.cut?_singleton_eq_some.mp hbefore
      have hmem : ',' ∈ labelled name (Text.trim before) := by
        rw [hlabelled]
        simp
      simp only [labelled_eq, List.mem_append] at hmem
      rcases hmem with ((hmem | hmem) | hmem) | hmem
      · exact absurd hmem (by decide)
      · exact hname hmem
      · exact absurd hmem (by decide)
      · exact hnot (Text.mem_of_mem_trim hmem)

/-- **The queries of a location** are distinct, none of them is blank and the full name comes first.
The place of a labelled location is among them if the site is called by a single word, and otherwise
only if it happens to be `Site`, or all that the label has before its first comma. -/
theorem geocodeQueries_labelled (location : String) :
    ((∀ q ∈ geocodeQueries location, Text.isBlankText q = false) ∧
      (geocodeQueries location).Nodup ∧
      (geocodeQueries location).head? =
        if Text.isBlankText location then none else some (Text.trimmed location)) ∧
    ∀ name place, location = String.ofList (labelled name place) → IsSiteName name →
      IsPlace place → (String.ofList place ∈ geocodeQueries location ↔
        (Text.words name).length = 1 ∨ place = "Site".toList ∨
        ∃ head tail, name = head ++ ',' :: tail ∧ ',' ∉ head ∧
          place = Text.trim ("Site ".toList ++ head)) := by
  refine ⟨geocodeQueries_distinct location, ?_⟩
  rintro name place rfl hname hplace
  have hlonger : place ≠ labelled name place := by
    intro heq
    have hlength := congrArg List.length heq
    simp only [labelled_eq, List.length_append] at hlength
    have hsite : "Site ".toList.length = 5 := rfl
    omega
  rw [mem_geocodeQueries_iff, String.toList_ofList, String.toList_ofList, trim_labelled hplace,
    IsNameOf, and_iff_left hplace.nonempty, or_iff_right hlonger,
    beforeComma?_labelled_eq_place_iff, firstWord?_labelled hname, Option.some.injEq,
    stripSiteLabel?_labelled_eq_place_iff hname hplace, eq_comm (a := "Site".toList), or_rotate]
  exact or_left_comm

/-- The label of a site that has a name of one word is taken off. -/
theorem label_of_one_word_goes : IsSiteName "Alpha".toList ∧ IsPlace "Boston, MA".toList ∧
    "Boston, MA" ∈ geocodeQueries "Site Alpha - Boston, MA" := by
  have hname : IsSiteName "Alpha".toList := by decide
  have hplace : IsPlace "Boston, MA".toList := by decide
  have hwords : (Text.words "Alpha".toList).length = 1 := by decide
  have hlabelled : "Site Alpha - Boston, MA" =
      String.ofList (labelled "Alpha".toList "Boston, MA".toList) := by decide
  obtain ⟨-, hplaces⟩ := geocodeQueries_labelled "Site Alpha - Boston, MA"
  exact ⟨hname, hplace, (hplaces _ _ hlabelled hname hplace).mpr (.inl hwords)⟩

/-- Of the label of a site with a name of two words the second one stays. -/
theorem label_of_two_words_stays : IsSiteName "North Yard".toList ∧ IsPlace "Boston".toList ∧
    String.ofList (labelled "North Yard".toList "Boston".toList) = "Site North Yard - Boston" ∧
    geocodeQueries "Site North Yard - Boston" =
      ["Site North Yard - Boston", "Site", "Yard - Boston"] :=
  ⟨by decide, by decide, by decide, by decide⟩

end SiteSafety.Weather
