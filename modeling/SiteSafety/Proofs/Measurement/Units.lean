import Mathlib.Data.List.Find
import Mathlib.Data.List.Flatten
import SiteSafety.Measurement.Unit
import SiteSafety.Proofs.Text.Lower

/-!
# Proofs — Measurement — Units

What a unit is recognised by.  The spelling under which a unit is looked up takes no notice of
blanks around it (`conversion?_trimmed`), and of a word it takes none of its case, neither as it
stands nor after its letters were taken to lower case one by one (`conversion?_lowered`).

* `canonicalize_verified_iff`: a quantity is converted exactly where its unit is recognised and
  allowed for the metric.
-/

namespace SiteSafety.Measurement

variable {m : Metric} {value x : Float} {unit unit' u : String} {c : Conversion} {w : List Char}

/-! ### The table -/

theorem Family.unit_injective {f g : Family} (h : f.unit = g.unit) : f = g := by
  cases f <;> cases g <;> first | rfl | exact absurd h (by decide)

/-- The spellings of units are made of the first characters, up to the degree sign. -/
theorem code_of_spelling {p : List String × Conversion} {spelling : String} (hp : p ∈ units)
    (hspelling : spelling ∈ p.1) : ∀ d ∈ spelling.toList, d.toNat ≤ '°'.toNat := by
  have hall : ∀ p ∈ units, ∀ s ∈ p.1, s.toList.all (·.toNat ≤ '°'.toNat) = true := by decide
  simpa only [List.all_eq_true, decide_eq_true_eq] using hall p hp spelling hspelling

theorem mem_spellings_of_conversion? (h : conversion? unit = some c) :
    ∃ p ∈ units, unitKey unit ∈ p.1 ∧ p.2 = c := by
  rw [conversion?, Option.map_eq_some_iff] at h
  obtain ⟨p, hp, hc⟩ := h
  have hkey : p.1.contains (unitKey unit) = true := by simpa using List.find?_some hp
  exact ⟨p, List.mem_of_find?_eq_some hp, List.contains_iff_mem.mp hkey, hc⟩

theorem code_of_conversion? (h : (conversion? unit).isSome) :
    ∀ d ∈ (unitKey unit).toList, d.toNat ≤ '°'.toNat := by
  obtain ⟨c, hc⟩ := Option.isSome_iff_exists.mp h
  obtain ⟨p, hp, hkey, -⟩ := mem_spellings_of_conversion? hc
  exact code_of_spelling hp hkey

theorem conversion?_congr (h : unitKey unit = unitKey unit') :
    conversion? unit = conversion? unit' := by
  simp only [conversion?, h]

/-- Units whose spellings stand in the same rows of the table are converted alike. -/
theorem conversion?_of_rows
    (h : ∀ p ∈ units, p.1.contains (unitKey unit) = p.1.contains (unitKey unit')) :
    conversion? unit = conversion? unit' := by
  rw [conversion?, conversion?, List.find?_congr h]

/-! ### Words -/

theorem unitKey_trimmed (unit : String) : unitKey (Text.trimmed unit) = unitKey unit := by
  simp only [unitKey, Text.trimmed, String.toList_ofList, Text.trim_trim]

/-- Blanks around a unit do not count. -/
theorem conversion?_trimmed (unit : String) : conversion? (Text.trimmed unit) = conversion? unit :=
  conversion?_congr (unitKey_trimmed unit)

/-- A word has no blanks in it and no points. -/
def IsWord (w : List Char) : Prop := ∀ c ∈ w, Text.isBlank c = false ∧ c ≠ '.'

/-- A word is looked up in lower case. -/
theorem unitKey_ofList (h : IsWord w) :
    unitKey (String.ofList w) = String.ofList (Text.lower w) := by
  have htrim : Text.trim w = w := Text.trim_of_ends
    (fun c hc => (h c (List.mem_of_mem_head? hc)).1) fun c hc => (h c (List.mem_of_getLast? hc)).1
  have hdrop : Text.dropEndWhile (· == '.') w = w :=
    Text.dropEndWhile_of_none fun c hc => beq_false_of_ne (h c hc).2
  rw [unitKey, String.toList_ofList, htrim, hdrop]

theorem isWord_flatMap_lowerChar (h : IsWord w) : IsWord (w.flatMap Text.lowerChar) := by
  intro d hd
  obtain ⟨c, hc, hdc⟩ := List.mem_flatMap.mp hd
  refine ⟨?_, ?_⟩
  · rw [Bool.eq_false_iff]
    intro hblank
    rw [Text.eq_of_mem_lowerChar hblank hdc, (h c hc).1] at hblank
    cases hblank
  · rintro rfl
    exact (h c hc).2 (Text.eq_of_mem_lowerChar_of_le (by decide) hdc).symm

/-- **A word is recognised in lower case as it is**, its letters taken to lower case one by one. -/
theorem conversion?_lowered (h : IsWord w) :
    conversion? (String.ofList (w.flatMap Text.lowerChar)) = conversion? (String.ofList w) := by
  have hlowered := unitKey_ofList (isWord_flatMap_lowerChar h)
  have hplain := unitKey_ofList h
  by_cases hlow : ∀ d ∈ Text.lower (w.flatMap Text.lowerChar), d.toNat ≤ '°'.toNat
  · refine conversion?_congr ?_
    rw [hlowered, hplain, Text.lower_flatMap_lowerChar hlow]
  · -- no spelling has a character that far back in the alphabet
    have hnone : ∀ unit, ¬(∀ d ∈ (unitKey unit).toList, d.toNat ≤ '°'.toNat) →
        conversion? unit = none :=
      fun _ hfar => Option.not_isSome_iff_eq_none.mp (mt code_of_conversion? hfar)
    rw [hnone _ (by rwa [hlowered, String.toList_ofList]), hnone]
    rw [hplain, String.toList_ofList]
    exact mt Text.le_of_mem_lower_flatMap_lowerChar hlow

/-- What a word leaves of a text around it when the text is looked up: its letters, in order. -/
theorem sublist_unitKey {text : List Char} (h : IsWord w) (hsub : w.Sublist text)
    (hcode : ∀ d ∈ (unitKey (String.ofList text)).toList, d.toNat ≤ '°'.toNat) :
    (w.flatMap Text.lowerChar).Sublist (unitKey (String.ofList text)).toList := by
  let inner (c : Char) : Bool := !Text.isBlank c && c != '.'
  obtain ⟨as, bs, htext, has, hbs⟩ := Text.exists_append_trim_append text
  obtain ⟨ds, hdrop, hds⟩ := Text.exists_dropEndWhile_append (· == '.') (Text.trim text)
  -- what is dropped at the ends is no part of a word
  have hkept : text.filter inner =
      (Text.dropEndWhile (· == '.') (Text.trim text)).filter inner := by
    have hblank : ∀ bs : List Char, (∀ b ∈ bs, Text.isBlank b = true) → bs.filter inner = [] :=
      fun bs hbs => List.filter_eq_nil_iff.mpr fun b hb => by simp [inner, hbs b hb]
    have hpoint : ds.filter inner = [] :=
      List.filter_eq_nil_iff.mpr fun d hd => by simpa [inner] using fun _ => hds d hd
    calc text.filter inner
      _ = (as ++ Text.trim text ++ bs).filter inner := by rw [← htext]
      _ = (Text.trim text).filter inner := by
          rw [List.filter_append, List.filter_append, hblank as has, hblank bs hbs,
            List.nil_append, List.append_nil]
      _ = (Text.dropEndWhile (· == '.') (Text.trim text) ++ ds).filter inner := by rw [← hdrop]
      _ = (Text.dropEndWhile (· == '.') (Text.trim text)).filter inner := by
          rw [List.filter_append, hpoint, List.append_nil]
  have hword : w.filter inner = w :=
    List.filter_eq_self.mpr fun c hc => by simp [inner, (h c hc).1, (h c hc).2]
  have hsub : w.Sublist (Text.dropEndWhile (· == '.') (Text.trim text)) := by
    have hfiltered := hsub.filter inner
    rw [hword, hkept] at hfiltered
    exact hfiltered.trans List.filter_sublist
  rw [unitKey, String.toList_ofList, String.toList_ofList] at hcode ⊢
  rw [Text.lower_eq_flatMap (Text.sigma_not_mem hcode)]
  exact hsub.flatMap Text.lowerChar

/-! ### Quantities -/

/-- The metric is measured in units of the family: it is its own, or any. -/
def Metric.Allows (m : Metric) (f : Family) : Prop := ∀ family ∈ m.family?, family = f

theorem canonicalize_verified_iff : (canonicalize m value unit).verified = true ↔
    ∃ c, conversion? unit = some c ∧ m.Allows c.family := by
  have hallows : ∀ f : Family, m.family?.all (· = f) = true ↔ m.Allows f := fun f => by
    simp [Metric.Allows, Option.all_eq_true]
  unfold canonicalize
  cases conversion? unit with
  | none => simp [unverified]
  | some c => by_cases h : m.family?.all (· = c.family) = true <;> simp_all [unverified]

/-- A unit that is recognised and allowed for the metric is converted. -/
theorem canonicalize_of_conversion? (h : conversion? unit = some c) (hm : m.Allows c.family) :
    canonicalize m value unit = ⟨value * c.scale + c.shift, c.family.unit, true⟩ := by
  have hall : m.family?.all (· = c.family) = true := by
    simpa [Metric.Allows, Option.all_eq_true] using hm
  simp only [canonicalize, h, hall, if_true]

/-- Any other quantity keeps its value. -/
theorem value_of_not_verified (h : (canonicalize m value unit).verified = false) :
    (canonicalize m value unit).value = value := by
  unfold canonicalize at h ⊢
  split at h
  · split at h
    · cases h
    next hall => simp [hall, unverified]
  · simp [unverified]

end SiteSafety.Measurement
