import SiteSafety.Proofs.Text.Words
import SiteSafety.Text.Case

/-!
# Proofs — Text — Lower

Blanks have no case and stop the look that the lower case of a text takes around itself.  So the
lower case of a text is that of its parts between blanks, with the blanks kept
(`lower_append_blank`), and taking the lower case and trimming can be done in either order
(`lower_trim`).  A text whose lower case stays among the first characters may be taken to lower case
letter by letter first (`lower_flatMap_lowerChar`).
-/

namespace SiteSafety.Text

variable {b c d : Char} {cs ds before : List Char}

/-! ### Characters -/

/-- Blanks have no case, are in lower case and are not passed over. -/
theorem tables_of_isBlank (h : isBlank c = true) : lowerChar c = [c] ∧
    inBlocks c.toNat caseIgnorableBlocks = false ∧ inBlocks c.toNat casedBlocks = false :=
  of_isBlank (P := fun c => lowerChar c = [c] ∧ inBlocks c.toNat caseIgnorableBlocks = false ∧
    inBlocks c.toNat casedBlocks = false) (by decide +kernel) h

theorem lowerChar_of_isBlank (h : isBlank c = true) : lowerChar c = [c] :=
  (tables_of_isBlank h).1

theorem ne_sigma_of_isBlank (h : isBlank c = true) : c ≠ 'Σ' := by
  rintro rfl
  exact absurd h (by decide)

theorem not_caseIgnorable_of_isBlank (h : isBlank c = true) :
    inBlocks c.toNat caseIgnorableBlocks = false :=
  (tables_of_isBlank h).2.1

theorem not_cased_of_isBlank (h : isBlank c = true) : inBlocks c.toNat casedBlocks = false :=
  (tables_of_isBlank h).2.2

theorem exists_of_inRuns? {n m : Nat} {runs : List CaseRun} (h : inRuns? n runs = some m) :
    ∃ r ∈ runs, ∃ k < r.last - r.first + 1, n = r.first + k ∧ m = r.target + k := by
  induction runs with
  | nil => cases h
  | cons r runs ih =>
      rw [inRuns?] at h
      split at h
      · cases h
      · split at h
        · split at h
          · cases h
            exact ⟨r, List.mem_cons_self, n - r.first, by omega, by omega, rfl⟩
          · cases h
        · obtain ⟨r', hr', hk⟩ := ih h
          exact ⟨r', List.mem_cons_of_mem _ hr', hk⟩

/-- Where the letters of a run are mapped to: to characters that are no blanks, behind the capitals
of ASCII and apart from the sign for kelvin.  Letters up to the degree sign are mapped to such
letters, and besides the capitals of ASCII only the sign for kelvin is. -/
theorem of_mem_lowerRuns : ∀ r ∈ lowerRuns,
    (r.target + (r.last - r.first) < 55296 ∨
      57343 < r.target ∧ r.target + (r.last - r.first) < 1114112) ∧
    (∀ b ∈ blankBlocks, r.target + (r.last - r.first) < b.1 ∨ b.2 < r.target) ∧
    'Z'.toNat < r.target ∧
    (r.target + (r.last - r.first) < 8490 ∨ 8490 < r.target) ∧
    (r.first ≤ '°'.toNat → r.target + (r.last - r.first) ≤ '°'.toNat) ∧
    (r.target ≤ '°'.toNat →
      r.first ≤ r.last ∧ (r.last ≤ 'Z'.toNat ∨ r.first = 8490 ∧ r.last = 8490)) := by
  decide +kernel

theorem toNat_ofNat {n : Nat} (h : n < 55296 ∨ 57343 < n ∧ n < 1114112) :
    (Char.ofNat n).toNat = n := by
  have hvalid : n.isValidChar := h
  rw [Char.ofNat, dif_pos hvalid]
  rfl

/-- What letters are mapped to are characters. -/
theorem toNat_of_inRuns? {n m : Nat} (h : inRuns? n lowerRuns = some m) :
    (Char.ofNat m).toNat = m := by
  obtain ⟨r, hr, k, hk, -, rfl⟩ := exists_of_inRuns? h
  obtain ⟨hvalid, -⟩ := of_mem_lowerRuns r hr
  exact toNat_ofNat (by omega)

/-- No letter has a blank for its lower case. -/
theorem isBlank_of_inRuns? {n : Nat} (h : inRuns? c.toNat lowerRuns = some n) :
    isBlank (Char.ofNat n) = false := by
  refine Bool.eq_false_iff.mpr fun hblank => ?_
  obtain ⟨b, hb, hin⟩ := List.mem_flatMap.mp (mem_of_inBlocks hblank)
  obtain ⟨hfirst, hlast⟩ := List.mem_range'_1.mp hin
  rw [toNat_of_inRuns? h] at hfirst hlast
  obtain ⟨r, hr, k, hk, -, rfl⟩ := exists_of_inRuns? h
  obtain ⟨-, hblanks, -⟩ := of_mem_lowerRuns r hr
  have hapart := hblanks b hb
  omega

/-- A blank in the lower case of a character is that character. -/
theorem eq_of_mem_lowerChar (hd : isBlank d = true) (h : d ∈ lowerChar c) : d = c := by
  unfold lowerChar at h
  split at h
  · have hall : ['i', Char.ofNat 775].all fun d => !isBlank d := by decide
    have hnone := List.all_eq_true.mp hall d h
    rw [hd] at hnone
    cases hnone
  · split at h
    next n hn =>
      rw [List.mem_singleton.mp h, isBlank_of_inRuns? hn] at hd
      cases hd
    next => exact List.mem_singleton.mp h

/-- No letter has a capital, a digit or a mark of ASCII for its lower case. -/
theorem eq_of_mem_lowerChar_of_le (hd : d.toNat ≤ 'Z'.toNat) (h : d ∈ lowerChar c) : d = c := by
  unfold lowerChar at h
  split at h
  next =>
    obtain rfl | rfl : d = 'i' ∨ d = Char.ofNat 775 := by simpa using h
    · exact absurd hd (by decide)
    · exact absurd hd (by decide)
  next =>
    split at h
    next n hn =>
      rw [List.mem_singleton.mp h, toNat_of_inRuns? hn] at hd
      obtain ⟨r, hr, k, hk, -, rfl⟩ := exists_of_inRuns? hn
      obtain ⟨-, -, hbehind, -⟩ := of_mem_lowerRuns r hr
      omega
    next => exact List.mem_singleton.mp h

/-- A character in lower case stays as it is, if what it is mapped to is among the first characters,
up to the degree sign: the letters mapped to these are `A` to `Z` and the sign for kelvin, and none
of them is in lower case. -/
theorem lowerChar_of_mem_lowerChar (h : d ∈ lowerChar c)
    (hlow : ∀ e ∈ lowerChar d, e.toNat ≤ '°'.toNat) : lowerChar d = [d] := by
  unfold lowerChar at h
  split at h
  next =>
    obtain rfl | rfl : d = 'i' ∨ d = Char.ofNat 775 := by simpa using h
    · rfl
    · rfl
  next hdotted =>
    split at h
    next n hn =>
      obtain rfl := List.mem_singleton.mp h
      obtain ⟨r, hr, k, hk, -, rfl⟩ := exists_of_inRuns? hn
      obtain ⟨-, -, hbehind, hkelvin, -⟩ := of_mem_lowerRuns r hr
      have hcode := toNat_of_inRuns? hn
      rw [lowerChar] at hlow ⊢
      rw [hcode] at hlow ⊢
      split at hlow
      · exact absurd (hlow (Char.ofNat 775) (by simp)) (by decide)
      next hdotted' =>
        rw [if_neg hdotted']
        cases hm : inRuns? (r.target + k) lowerRuns with
        | none => rfl
        | some m =>
            rw [hm] at hlow
            have hle := hlow _ (List.mem_singleton_self _)
            rw [toNat_of_inRuns? hm] at hle
            obtain ⟨r', hr', k', hk', hfirst, rfl⟩ := exists_of_inRuns? hm
            obtain ⟨-, -, -, -, -, hsource⟩ := of_mem_lowerRuns r' hr'
            have hrange := hsource (by omega)
            omega
    next hnone =>
      rw [List.mem_singleton.mp h, lowerChar, if_neg hdotted, hnone]

/-- The first characters stay among themselves. -/
theorem le_of_mem_lowerChar (hc : c.toNat ≤ '°'.toNat) (h : d ∈ lowerChar c) :
    d.toNat ≤ '°'.toNat := by
  unfold lowerChar at h
  split at h
  next hdotted => exact absurd (hdotted ▸ hc) (by decide)
  next =>
    split at h
    next n hn =>
      rw [List.mem_singleton.mp h, toNat_of_inRuns? hn]
      obtain ⟨r, hr, k, hk, hfirst, rfl⟩ := exists_of_inRuns? hn
      obtain ⟨-, -, -, -, hlow, -⟩ := of_mem_lowerRuns r hr
      have hle := hlow (by omega)
      omega
    next => exact List.mem_singleton.mp h ▸ hc

theorem lowerChar_ne_nil (c : Char) : lowerChar c ≠ [] := by
  unfold lowerChar
  split
  · simp
  · split <;> simp

/-! ### Texts -/

/-- The lower case of a character where it stands. -/
def lowerAt (before : List Char) (c : Char) (rest : List Char) : List Char :=
  if c = 'Σ' then [if startsCased before && !startsCased rest then 'ς' else 'σ'] else lowerChar c

theorem lowerAfter_cons (before : List Char) (c : Char) (cs : List Char) :
    lowerAfter before (c :: cs) = lowerAt before c cs ++ lowerAfter (c :: before) cs := rfl

theorem lowerAt_of_isBlank (h : isBlank c = true) : lowerAt before c cs = [c] := by
  rw [lowerAt, if_neg (ne_sigma_of_isBlank h), lowerChar_of_isBlank h]

theorem lowerAt_ne_nil (before : List Char) (c : Char) (cs : List Char) :
    lowerAt before c cs ≠ [] := by
  unfold lowerAt
  split
  · simp
  · exact lowerChar_ne_nil c

theorem eq_of_mem_lowerAt (hd : isBlank d = true) (h : d ∈ lowerAt before c cs) : d = c := by
  unfold lowerAt at h
  split at h
  · have hsigma : d = 'ς' ∨ d = 'σ' := by
      split at h <;> simp_all
    rcases hsigma with rfl | rfl <;> exact absurd hd (by decide)
  · exact eq_of_mem_lowerChar hd h

/-- The look for a cased letter ends at a blank. -/
theorem startsCased_append_blank (h : isBlank b = true) :
    startsCased (cs ++ b :: ds) = startsCased cs := by
  unfold startsCased
  rw [List.dropWhile_append]
  cases cs.dropWhile (inBlocks ·.toNat caseIgnorableBlocks) with
  | nil =>
      rw [List.isEmpty_nil, if_pos rfl,
        List.dropWhile_cons_of_neg (by simp [not_caseIgnorable_of_isBlank h])]
      exact not_cased_of_isBlank h
  | cons c rest => rfl

theorem lowerAfter_blank (h : isBlank b = true) (before ds cs : List Char) :
    lowerAfter (before ++ b :: ds) cs = lowerAfter before cs := by
  induction cs generalizing before with
  | nil => rfl
  | cons c cs ih =>
      rw [lowerAfter_cons, lowerAfter_cons, ← List.cons_append, ih, lowerAt, lowerAt,
        startsCased_append_blank h]

theorem lowerAfter_append_blank (h : isBlank b = true) (before cs ds : List Char) :
    lowerAfter before (cs ++ b :: ds) = lowerAfter before cs ++ b :: lower ds := by
  induction cs generalizing before with
  | nil =>
      rw [List.nil_append, lowerAfter_cons, lowerAt_of_isBlank h, ← List.nil_append (b :: before),
        lowerAfter_blank h]
      rfl
  | cons c cs ih =>
      rw [List.cons_append, lowerAfter_cons, lowerAfter_cons, ih, lowerAt, lowerAt,
        startsCased_append_blank h, List.append_assoc]

/-- The lower case of a text is that of its parts around a blank. -/
theorem lower_append_blank (h : isBlank b = true) (cs ds : List Char) :
    lower (cs ++ b :: ds) = lower cs ++ b :: lower ds :=
  lowerAfter_append_blank h [] cs ds

theorem lower_of_blanks_append (h : ∀ c ∈ cs, isBlank c = true) (ds : List Char) :
    lower (cs ++ ds) = cs ++ lower ds := by
  induction cs with
  | nil => rfl
  | cons c cs ih =>
      have hcons := lower_append_blank (h c List.mem_cons_self) [] (cs ++ ds)
      rw [List.nil_append] at hcons
      rw [List.cons_append, hcons, ih fun d hd => h d (List.mem_cons_of_mem _ hd)]
      rfl

theorem lower_append_of_blanks (h : ∀ d ∈ ds, isBlank d = true) (cs : List Char) :
    lower (cs ++ ds) = lower cs ++ ds := by
  cases ds with
  | nil => rw [List.append_nil, List.append_nil]
  | cons d ds =>
      have hmore := lower_of_blanks_append (fun d hd => h d (List.mem_cons_of_mem _ hd)) []
      rw [List.append_nil] at hmore
      rw [lower_append_blank (h d List.mem_cons_self), hmore]
      simp [lower, lowerAfter]

theorem lowerAfter_ne_nil (before : List Char) (h : cs ≠ []) : lowerAfter before cs ≠ [] := by
  cases cs with
  | nil => exact absurd rfl h
  | cons c cs =>
      rw [lowerAfter_cons]
      exact List.append_ne_nil_of_left_ne_nil (lowerAt_ne_nil before c cs) _

theorem lower_ne_nil (h : cs ≠ []) : lower cs ≠ [] := lowerAfter_ne_nil [] h

/-- What holds of texts and their lower case is shown character by character, whatever stands in
front of a character. -/
theorem lower_induction {P : List Char → List Char → Prop} (hnil : P [] [])
    (hcons : ∀ before c cs ds, (ds = [] → cs = []) → P cs ds →
      P (c :: cs) (lowerAt before c cs ++ ds))
    (cs : List Char) : P cs (lower cs) := by
  have hall (before : List Char) : P cs (lowerAfter before cs) := by
    induction cs generalizing before with
    | nil => exact hnil
    | cons c cs ih =>
        exact hcons before c cs _ (fun h => by_contra fun hne => lowerAfter_ne_nil _ hne h) (ih _)
  exact hall []

/-- A blank in the lower case of a text is one of the text. -/
theorem mem_of_mem_lower (hd : isBlank d = true) (h : d ∈ lower cs) : d ∈ cs := by
  revert h
  refine lower_induction (P := fun cs ds => d ∈ ds → d ∈ cs) id ?_ cs
  intro before c cs ds _ ih hmem
  rcases List.mem_append.mp hmem with hmem | hmem
  · exact eq_of_mem_lowerAt hd hmem ▸ List.mem_cons_self
  · exact List.mem_cons_of_mem _ (ih hmem)

/-- A character that is its own lower case stays in a text. -/
theorem mem_lower (hlower : lowerChar d = [d]) (hsigma : d ≠ 'Σ') (h : d ∈ cs) : d ∈ lower cs := by
  revert h
  refine lower_induction (P := fun cs ds => d ∈ cs → d ∈ ds) id ?_ cs
  intro before c cs ds _ ih hmem
  rw [List.mem_append]
  rcases List.mem_cons.mp hmem with rfl | hmem
  · rw [lowerAt, if_neg hsigma, hlower]
    exact .inl (List.mem_singleton_self d)
  · exact .inr (ih hmem)

/-- The lower case of a text starts with a blank where the text does. -/
theorem head?_of_head?_lower (hd : isBlank d = true) (h : (lower cs).head? = some d) :
    cs.head? = some d := by
  cases cs with
  | nil => cases h
  | cons c cs =>
      obtain ⟨a, rest, ha⟩ := List.exists_cons_of_ne_nil (lowerAt_ne_nil [] c cs)
      rw [lower, lowerAfter_cons, ha] at h
      have had : a = d := by simpa using h
      have hmem : d ∈ lowerAt [] c cs := by simp [ha, had]
      rw [eq_of_mem_lowerAt hd hmem]
      rfl

/-- The lower case of a text ends with a blank where the text does. -/
theorem getLast?_of_getLast?_lower (hd : isBlank d = true) (h : (lower cs).getLast? = some d) :
    cs.getLast? = some d := by
  revert h
  refine lower_induction (P := fun cs ds => ds.getLast? = some d → cs.getLast? = some d) id ?_ cs
  intro before c cs ds hempty ih hlast
  cases ds with
  | nil =>
      obtain rfl := hempty rfl
      rw [List.append_nil] at hlast
      rw [eq_of_mem_lowerAt hd (List.mem_of_getLast? hlast)]
      rfl
  | cons e ds =>
      rw [List.getLast?_append, Option.or_of_isSome (by simp)] at hlast
      have hmore := ih hlast
      cases cs with
      | nil => cases hmore
      | cons c' cs => rwa [List.getLast?_cons_cons]

/-! ### Letter by letter -/

/-- Where no `Σ` stands, whose lower case depends on its place, the lower case of a text is that of
its characters. -/
theorem lower_eq_flatMap (h : 'Σ' ∉ cs) : lower cs = cs.flatMap lowerChar := by
  revert h
  refine lower_induction (P := fun cs ds => 'Σ' ∉ cs → ds = cs.flatMap lowerChar)
    (fun _ => rfl) ?_ cs
  intro before c cs ds _ ih h
  have hc : c ≠ 'Σ' := by
    rintro rfl
    exact h List.mem_cons_self
  rw [lowerAt, if_neg hc, List.flatMap_cons, ih fun hmem => h (List.mem_cons_of_mem _ hmem)]

/-- A `Σ` leaves one of its two lower cases. -/
theorem sigma_mem_lower (h : 'Σ' ∈ cs) : 'ς' ∈ lower cs ∨ 'σ' ∈ lower cs := by
  revert h
  refine lower_induction (P := fun cs ds => 'Σ' ∈ cs → 'ς' ∈ ds ∨ 'σ' ∈ ds)
    (fun h => absurd h List.not_mem_nil) ?_ cs
  intro before c cs ds _ ih h
  simp only [List.mem_append]
  rcases List.mem_cons.mp h with rfl | hmem
  · rw [lowerAt, if_pos rfl]
    split
    · exact .inl (.inl (List.mem_singleton_self _))
    · exact .inr (.inl (List.mem_singleton_self _))
  · exact (ih hmem).imp .inr .inr

theorem sigma_not_mem (h : ∀ d ∈ lower cs, d.toNat ≤ '°'.toNat) : 'Σ' ∉ cs := by
  intro hmem
  rcases sigma_mem_lower hmem with hlow | hlow
  · exact absurd (h _ hlow) (by decide)
  · exact absurd (h _ hlow) (by decide)

/-- What was taken to lower case letter by letter is in lower case, where it is one of the first
characters. -/
theorem flatMap_lowerChar_flatMap (h : ∀ d ∈ (cs.flatMap lowerChar).flatMap lowerChar,
    d.toNat ≤ '°'.toNat) : (cs.flatMap lowerChar).flatMap lowerChar = cs.flatMap lowerChar := by
  have hself (ds : List Char) (hds : ∀ d ∈ ds, lowerChar d = [d]) : ds.flatMap lowerChar = ds := by
    induction ds with
    | nil => rfl
    | cons d ds ih =>
        rw [List.flatMap_cons, hds d List.mem_cons_self,
          ih fun e he => hds e (List.mem_cons_of_mem _ he), List.singleton_append]
  refine hself _ fun d hd => ?_
  obtain ⟨c, -, hc⟩ := List.mem_flatMap.mp hd
  exact lowerChar_of_mem_lowerChar hc fun e he => h e (List.mem_flatMap.mpr ⟨d, hd, he⟩)

/-- So taking a text to lower case letter by letter before its lower case is taken makes no
difference. -/
theorem lower_flatMap_lowerChar (h : ∀ d ∈ lower (cs.flatMap lowerChar), d.toNat ≤ '°'.toNat) :
    lower (cs.flatMap lowerChar) = lower cs := by
  have hflat := lower_eq_flatMap (sigma_not_mem h)
  rw [hflat] at h ⊢
  have htwice := flatMap_lowerChar_flatMap h
  rw [htwice] at h ⊢
  refine (lower_eq_flatMap fun hmem => ?_).symm
  have hsigma : 'σ' ∈ cs.flatMap lowerChar :=
    List.mem_flatMap.mpr ⟨'Σ', hmem, by decide⟩
  exact absurd (h _ hsigma) (by decide)

theorem le_of_mem_lower_flatMap_lowerChar (h : ∀ d ∈ lower cs, d.toNat ≤ '°'.toNat) :
    ∀ d ∈ lower (cs.flatMap lowerChar), d.toNat ≤ '°'.toNat := by
  rw [lower_eq_flatMap (sigma_not_mem h)] at h
  rw [lower_eq_flatMap fun hmem => absurd (h _ hmem) (by decide)]
  intro e he
  obtain ⟨d, hd, hed⟩ := List.mem_flatMap.mp he
  exact le_of_mem_lowerChar (h d hd) hed

/-! ### Trimming -/

/-- Trimming and taking the lower case can be done in either order. -/
theorem lower_trim (cs : List Char) : lower (trim cs) = trim (lower cs) := by
  obtain ⟨as, bs, hcs, has, hbs⟩ := exists_append_trim_append cs
  have hlower : lower cs = as ++ lower (trim cs) ++ bs := by
    conv => lhs; rw [hcs, lower_append_of_blanks hbs, lower_of_blanks_append has]
  have hends : trim (lower (trim cs)) = lower (trim cs) := by
    apply trim_of_ends
    · intro c hc
      refine Bool.eq_false_iff.mpr fun hblank => ?_
      rw [isBlank_of_head?_trim (head?_of_head?_lower hblank hc)] at hblank
      cases hblank
    · intro c hc
      refine Bool.eq_false_iff.mpr fun hblank => ?_
      rw [isBlank_of_getLast?_trim (getLast?_of_getLast?_lower hblank hc)] at hblank
      cases hblank
  rw [hlower, trim_append_of_blank hbs, trim_of_blank_append has, hends]

end SiteSafety.Text
