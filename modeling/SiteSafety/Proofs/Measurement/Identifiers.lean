import SiteSafety.Formula.Eval
import SiteSafety.Measurement.Metric
import SiteSafety.Proofs.Formula.Scanning

/-!
# Proofs — Measurement — Identifiers

The identifier of a metric is taken from its name: blanks around the name aside, every letter or
digit of ASCII stands for itself in lower case and every other character is an underscore.  What
would be empty or start with a digit is put behind `metric_`.

**Whatever the name, the identifier is a word** (`isWord_customIdentifier`), but not every word is
a variable: some are reserved, and none starts with two underscores.  The names that lead to such a
word are found in `isForbidden_customIdentifier_iff`.  Putting `metric_` in front keeps an
identifier from starting with a digit; nothing keeps it from being reserved.

* `Metric.HasVariable`: the metrics whose identifier is a variable.
* `identifier_word`: these are the ones whose identifier may stand in a formula.
-/

namespace SiteSafety.Text

variable {c : Char}

/-- What holds of the capitals of ASCII holds of each of them. -/
theorem of_isUpper {P : Char → Prop} (hall : ∀ n ∈ List.range' 65 26, P (Char.ofNat n))
    (h : c.isUpper = true) : P c := by
  have hrange : 'A'.val ≤ c.val ∧ c.val ≤ 'Z'.val := of_decide_eq_true h
  have hfirst : 65 ≤ c.toNat := hrange.1
  have hlast : c.toNat ≤ 90 := hrange.2
  have hc := hall c.toNat (List.mem_range'_1.mpr (by omega))
  rwa [Char.ofNat_toNat] at hc

/-- What takes the capitals of ASCII like their small letters takes no notice of case. -/
theorem apply_toLower {β : Type} (f : Char → β)
    (hall : ∀ n ∈ List.range' 65 26, f (Char.ofNat n).toLower = f (Char.ofNat n)) (c : Char) :
    f c.toLower = f c := by
  cases h : c.isUpper with
  | true => exact of_isUpper (P := fun c => f c.toLower = f c) hall h
  | false => exact congrArg f (dif_neg (of_decide_eq_false h))

theorem isAlphanum_toLower (c : Char) : c.toLower.isAlphanum = c.isAlphanum :=
  apply_toLower Char.isAlphanum (by decide) c

theorem isDigit_toLower (c : Char) : c.toLower.isDigit = c.isDigit :=
  apply_toLower Char.isDigit (by decide) c

theorem toLower_toLower (c : Char) : c.toLower.toLower = c.toLower :=
  apply_toLower Char.toLower (by decide) c

end SiteSafety.Text

namespace SiteSafety.Formula

variable {c : Char}

theorem utf8Size_of_isNameChar (h : isNameChar c = true) : c.utf8Size = 1 := by
  have hlast : c.toNat ≤ 127 := by
    have hclasses : (c.isUpper || c.isLower || c.isDigit || c == '_') = true := h
    simp only [Bool.or_eq_true, beq_iff_eq] at hclasses
    rcases hclasses with ((hupper | hlower) | hdigit) | rfl
    · have hrange : 'A'.val ≤ c.val ∧ c.val ≤ 'Z'.val := of_decide_eq_true hupper
      exact Nat.le_trans hrange.2 (by decide)
    · have hz : c.val ≤ 'z'.val := of_decide_eq_true (Bool.and_eq_true_iff.mp hlower).2
      exact Nat.le_trans hz (by decide)
    · exact Nat.le_trans (Char.isDigit_iff_toNat.mp hdigit).2 (by decide)
    · decide
  exact Char.utf8Size_eq_one_iff.mpr hlast

/-- A word is made of letters, digits and underscores and does not start with a digit. -/
def IsWord (w : List Char) : Prop :=
  ∃ c cs, w = c :: cs ∧ isNameStart c = true ∧ ∀ d ∈ cs, isNameChar d = true

instance : DecidablePred IsWord
  | [] => isFalse nofun
  | c :: cs =>
      decidable_of_iff (isNameStart c = true ∧ cs.all isNameChar = true) (by simp [IsWord])

theorem IsWord.width_eq {w : List Char} (h : IsWord w) : Text.width w = w.length := by
  obtain ⟨c, cs, rfl, hc, hcs⟩ := h
  refine Text.width_of_oneByte (List.forall_mem_cons.mpr ⟨?_, ?_⟩)
  · exact utf8Size_of_isNameChar (isNameChar_of_isNameStart hc)
  · exact fun d hd => utf8Size_of_isNameChar (hcs d hd)

end SiteSafety.Formula

namespace SiteSafety.Measurement
open Formula (IsWord isForbidden isNameChar isNameStart reserved maxBytes)

variable {c : Char} {name : List Char}

/-! ### Identifiers -/

theorem isNameChar_identifierChar (c : Char) : isNameChar (identifierChar c) = true := by
  unfold identifierChar
  split
  next h => rw [isNameChar, h, Bool.true_or]
  next => rfl

theorem identifierChar_eq_underscore_iff : identifierChar c = '_' ↔ c.isAlphanum = false := by
  unfold identifierChar
  split
  next h =>
    rw [h]
    refine iff_of_false ?_ (by decide)
    rintro rfl
    cases h
  next h => exact iff_of_true rfl (Bool.not_eq_true _ ▸ h)

/-- A character of an identifier other than the underscore is the character of the name. -/
theorem eq_of_identifierChar_eq {c d : Char} (h : identifierChar c = d) (hd : d ≠ '_') :
    c = d := by
  unfold identifierChar at h
  split at h
  · exact h
  · exact absurd h.symm hd

/-- A name whose identifier has no underscore is its identifier. -/
theorem eq_of_map_identifierChar_eq {cs ds : List Char} (h : cs.map identifierChar = ds)
    (hd : '_' ∉ ds) : cs = ds := by
  induction cs generalizing ds with
  | nil => simpa using h
  | cons c cs ih =>
      subst h
      simp only [List.map_cons, List.mem_cons, not_or] at hd
      rw [List.map_cons, ← ih rfl hd.2, ← eq_of_identifierChar_eq rfl (Ne.symm hd.1)]

/-- A character of an identifier, in lower case. -/
theorem toLower_identifierChar (c : Char) :
    (identifierChar c.toLower).toLower = identifierChar c.toLower := by
  unfold identifierChar
  split
  next => exact Text.toLower_toLower c
  next => rfl

theorem isDigit_identifierChar (c : Char) : (identifierChar c.toLower).isDigit = c.isDigit := by
  unfold identifierChar
  split
  next => exact Text.isDigit_toLower c
  next h =>
    rw [Text.isAlphanum_toLower, Char.isAlphanum, Bool.or_eq_true, not_or] at h
    rw [Bool.eq_false_iff.mpr h.2]
    rfl

/-- The characters of a name, as its identifier has them. -/
def spelling (name : List Char) : List Char := (Text.asciiLower name).map identifierChar

theorem length_spelling (name : List Char) : (spelling name).length = name.length := by
  simp [spelling, Text.asciiLower]

/-- Whether a name starts like no word: with a digit, or not at all. -/
def startsNoWord (name : List Char) : Bool := name.head?.all Char.isDigit

theorem startsNoWord_spelling (name : List Char) :
    startsNoWord (spelling name) = startsNoWord name := by
  cases name with
  | nil => rfl
  | cons c cs => exact isDigit_identifierChar c

/-- The identifier of a name is its spelling, behind a word where it starts like none. -/
theorem customIdentifier_eq (name : List Char) : customIdentifier name =
    if startsNoWord (Text.trim name) then "metric_".toList ++ spelling (Text.trim name)
    else spelling (Text.trim name) := by
  rw [← startsNoWord_spelling]
  rfl

/-- Every identifier is a word. -/
theorem isWord_customIdentifier (name : List Char) : IsWord (customIdentifier name) := by
  have hchars : ∀ d ∈ spelling (Text.trim name), isNameChar d = true :=
    List.forall_mem_map.mpr fun d _ => isNameChar_identifierChar d
  rw [customIdentifier_eq]
  split
  next =>
    refine ⟨'m', "etric_".toList ++ spelling (Text.trim name), rfl, rfl, fun d hd => ?_⟩
    have hmark : ∀ d ∈ "etric_".toList, isNameChar d = true := List.all_eq_true.mp rfl
    rcases List.mem_append.mp hd with hd | hd
    · exact hmark d hd
    · exact hchars d hd
  next hstart =>
    cases hspelling : spelling (Text.trim name) with
    | nil =>
        rw [← startsNoWord_spelling, hspelling] at hstart
        exact absurd rfl hstart
    | cons c cs =>
        rw [← startsNoWord_spelling, hspelling] at hstart
        rw [hspelling, List.forall_mem_cons] at hchars
        refine ⟨c, cs, rfl, ?_, hchars.2⟩
        have hdigit : c.isDigit = false := Bool.not_eq_true _ ▸ hstart
        have hc := hchars.1
        rwa [isNameChar, Char.isAlphanum, hdigit, Bool.or_false] at hc

theorem length_customIdentifier (name : List Char) : (customIdentifier name).length =
    (Text.trim name).length + if startsNoWord (Text.trim name) then "metric_".length else 0 := by
  rw [customIdentifier_eq]
  split
  next => rw [List.length_append, length_spelling, String.length_toList, Nat.add_comm]
  next => rw [length_spelling, Nat.add_zero]

/-! ### Words that are kept from being variables -/

theorem asciiLower_spelling (name : List Char) :
    Text.asciiLower (spelling name) = spelling name := by
  simp [spelling, Text.asciiLower, Function.comp_def, toLower_identifierChar]

/-- A reserved word is spelled as it is written. -/
theorem spelling_mem_reserved_iff : String.ofList (spelling name) ∈ reserved ↔
    String.ofList (Text.asciiLower name) ∈ reserved := by
  have hplain : ∀ word ∈ reserved,
      '_' ∉ word.toList ∧ word.toList.map identifierChar = word.toList := by decide
  constructor
  · intro h
    have hunderscore := (hplain _ h).1
    rw [String.toList_ofList] at hunderscore
    have hsame : Text.asciiLower name = spelling name :=
      eq_of_map_identifierChar_eq rfl hunderscore
    rwa [hsame]
  · intro h
    have hsame := (hplain _ h).2
    rw [String.toList_ofList] at hsame
    rwa [spelling, hsame]

/-- Two characters that are no letters or digits are spelled as two underscores. -/
theorem underscores_prefix_spelling_iff : ['_', '_'] <+: spelling name ↔
    2 ≤ name.length ∧ ∀ c ∈ name.take 2, c.isAlphanum = false := by
  have hchar (c : Char) : '_' = identifierChar c.toLower ↔ c.isAlphanum = false := by
    rw [eq_comm, identifierChar_eq_underscore_iff, Text.isAlphanum_toLower]
  match name with
  | [] => simp [spelling, Text.asciiLower]
  | [c] => simp [spelling, Text.asciiLower, List.cons_prefix_cons]
  | c :: d :: rest => simp [spelling, Text.asciiLower, List.cons_prefix_cons, hchar]

theorem isForbidden_iff {w : List Char} : isForbidden w = true ↔
    String.ofList (Text.asciiLower w) ∈ reserved ∨ ['_', '_'] <+: w := by
  simp [isForbidden]

/-- A name that starts like no word is none of the reserved words. -/
theorem not_mem_reserved_of_startsNoWord (h : startsNoWord name = true) :
    String.ofList (Text.asciiLower name) ∉ reserved := by
  have hword : ∀ word ∈ reserved, startsNoWord word.toList = false := by decide
  have hstart : startsNoWord (Text.asciiLower name) = true := by
    cases name with
    | nil => rfl
    | cons c cs => exact (Text.isDigit_toLower c).trans h
  intro hmem
  have hnot := hword _ hmem
  rw [String.toList_ofList, hstart] at hnot
  cases hnot

/-- **Which identifiers are kept from being variables**: those of the reserved words, and of names
that start with two characters other than letters and digits of ASCII. -/
theorem isForbidden_customIdentifier_iff : isForbidden (customIdentifier name) = true ↔
    String.ofList (Text.asciiLower (Text.trim name)) ∈ reserved ∨
      2 ≤ (Text.trim name).length ∧ ∀ c ∈ (Text.trim name).take 2, c.isAlphanum = false := by
  have hmarked : ∀ word ∈ reserved, ¬ "metric_".toList <+: word.toList := by decide
  rw [isForbidden_iff, customIdentifier_eq]
  split
  next hstart =>
    refine iff_of_false ?_ ?_
    · rintro (hword | hopening)
      · have hlower : Text.asciiLower ("metric_".toList ++ spelling (Text.trim name)) =
            "metric_".toList ++ Text.asciiLower (spelling (Text.trim name)) := List.map_append
        refine hmarked _ hword ⟨_, hlower.symm.trans String.toList_ofList.symm⟩
      · exact absurd (List.cons_prefix_cons.mp hopening).1 (by decide)
    · rintro (hword | ⟨hlength, hopening⟩)
      · exact not_mem_reserved_of_startsNoWord hstart hword
      · -- the first of two characters is a digit
        cases htrim : Text.trim name with
        | nil => simp [htrim] at hlength
        | cons c cs =>
            have hdigit : c.isDigit = true := by simpa [htrim, startsNoWord] using hstart
            have hc := hopening c (by simp [htrim])
            rw [Char.isAlphanum, hdigit, Bool.or_true] at hc
            cases hc
  next =>
    rw [asciiLower_spelling, spelling_mem_reserved_iff, underscores_prefix_spelling_iff]

/-- A name whose identifier is a variable. -/
structure NamesVariable (name : List Char) : Prop where
  /-- It is no reserved word, in any case. -/
  unreserved : String.ofList (Text.asciiLower name) ∉ reserved
  /-- It does not start with two characters other than letters and digits of ASCII. -/
  opening : ¬(2 ≤ name.length ∧ ∀ c ∈ name.take 2, c.isAlphanum = false)
  /-- Its identifier is no longer than a formula may be. -/
  short : name.length + (if startsNoWord name then "metric_".length else 0) ≤ maxBytes

instance (name : List Char) : Decidable (NamesVariable name) :=
  have : Decidable (∀ c ∈ name.take 2, c.isAlphanum = false) := List.decidableBAll _ _
  decidable_of_iff (String.ofList (Text.asciiLower name) ∉ reserved ∧
      ¬(2 ≤ name.length ∧ ∀ c ∈ name.take 2, c.isAlphanum = false) ∧
      name.length + (if startsNoWord name then "metric_".length else 0) ≤ maxBytes)
    ⟨fun ⟨h, h', h''⟩ => ⟨h, h', h''⟩, fun ⟨h, h', h''⟩ => ⟨h, h', h''⟩⟩

/-- The metric is built in, or its name makes a variable, blanks around it aside. -/
def Metric.HasVariable : Metric → Prop
  | .custom name => NamesVariable (Text.trim name.toList)
  | _ => True

/-- Identifiers are words, and variables where the name of the metric makes one. -/
theorem identifier_word (m : Metric) : ∃ w, m.identifier = String.ofList w ∧ IsWord w ∧
    (m.HasVariable ↔ w.length ≤ maxBytes ∧ isForbidden w = false) := by
  cases m with
  | custom name =>
      refine ⟨_, rfl, isWord_customIdentifier _, ?_⟩
      rw [length_customIdentifier, ← Bool.not_eq_true, isForbidden_customIdentifier_iff, not_or]
      constructor
      · exact fun h => ⟨h.short, h.unreserved, h.opening⟩
      · exact fun ⟨hshort, hword, hopening⟩ => ⟨hword, hopening, hshort⟩
  | windSpeed =>
      exact ⟨"wind_speed".toList, rfl, by decide, iff_of_true trivial (by decide)⟩
  | precipitation =>
      exact ⟨"precipitation".toList, rfl, by decide, iff_of_true trivial (by decide)⟩
  | temperature =>
      exact ⟨"temperature".toList, rfl, by decide, iff_of_true trivial (by decide)⟩
  | visibility =>
      exact ⟨"visibility".toList, rfl, by decide, iff_of_true trivial (by decide)⟩

end SiteSafety.Measurement
