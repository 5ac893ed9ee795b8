import Mathlib.Algebra.Group.Nat.Defs
import SiteSafety.Calendar.Stamp
import SiteSafety.Proofs.Calendar.Days
import SiteSafety.Proofs.Outcome
import SiteSafety.Proofs.Text.Words

/-!
# Proofs — Calendar — Minute

Stamps of minutes, written and read.  A stamp is numbers with marks between them, and a number
ends where a mark stands; reading follows the pattern that writing follows.

* `readMinute_minuteText`: a written stamp is read as the start of its minute.
* `not_mem_of_readMinute`: what is read as a stamp holds no bracket.
-/

namespace SiteSafety.Calendar
open Decimal

/-! ### Digits -/

/-- A number that ends here does so before a character that is no digit. -/
def EndsNumber (rest : List Char) : Prop := ∀ c, rest.head? = some c → c.isDigit = false

/-- The digits of a written number. -/
def paddedDigits (n k : Nat) : List Char :=
  List.replicate (n - (Nat.toDigits 10 k).length) '0' ++ Nat.toDigits 10 k

theorem toList_padded (n k : Nat) : (padded n k).toList = paddedDigits n k := by
  simp [padded, paddedDigits]

theorem isDigit_of_mem_padded {n k : Nat} {c : Char} (h : c ∈ paddedDigits n k) :
    c.isDigit = true := by
  rcases List.mem_append.mp h with h | h
  · rw [(List.mem_replicate.mp h).2]
    decide
  · exact Nat.isDigit_of_mem_toDigits (by decide) (by decide) h

theorem ofDigits_padded (n k : Nat) : ofDigits (paddedDigits n k) = k := by
  show Nat.ofDigitChars 10 (paddedDigits n k) 0 = k
  rw [paddedDigits, Nat.ofDigitChars_append, Nat.ofDigitChars_replicate_zero, Nat.mul_zero,
    Nat.ofDigitChars_toDigits (by decide) (by decide)]

theorem length_padded {n k : Nat} (hn : 0 < n) (h : k < 10 ^ n) :
    (paddedDigits n k).length = n := by
  have hle := (Nat.length_toDigits_le_iff (b := 10) (by decide) hn).mpr h
  simp only [paddedDigits, List.length_append, List.length_replicate]
  omega

theorem padded_ne_nil (n k : Nat) : paddedDigits n k ≠ [] :=
  List.append_ne_nil_of_right_ne_nil _ Nat.toDigits_ne_nil

theorem takeWhile_isDigit_append {ds rest : List Char} (hd : ∀ d ∈ ds, d.isDigit = true)
    (hrest : EndsNumber rest) (m : Nat) :
    (ds ++ rest.take m).takeWhile Char.isDigit = ds := by
  rw [List.takeWhile_append_of_pos hd]
  match m, rest, hrest with
  | 0, _, _ => simp
  | _, [], _ => simp
  | m + 1, c :: rest, hrest => simp [hrest c rfl]

/-- A run of digits is read off as the number it writes. -/
theorem readNumber_append {ds rest : List Char} {limit : Nat} (hne : ds ≠ [])
    (hd : ∀ d ∈ ds, d.isDigit = true) (hrest : EndsNumber rest) (hlen : ds.length ≤ limit)
    (hmax : ofDigits ds ≤ maxNumber) : readNumber limit (ds ++ rest) = .ok (ofDigits ds, rest) := by
  have hspan : ((ds ++ rest).take limit).takeWhile Char.isDigit = ds := by
    rw [List.take_append, List.take_of_length_le hlen]
    exact takeWhile_isDigit_append hd hrest _
  unfold readNumber
  split
  next heq => simp [hne] at heq
  next =>
    simp only [hspan]
    rw [if_neg (by simpa using hne), if_neg (Nat.not_lt.mpr hmax), List.drop_left]

/-! ### Parts -/

theorem isBlank_of_isDigit {c : Char} (h : c.isDigit = true) : Text.isBlank c = false := by
  simp only [Char.isDigit, Bool.and_eq_true, decide_eq_true_eq] at h
  have hlow : 48 ≤ c.toNat := by simpa using UInt32.le_iff_toNat_le.mp h.1
  have hhigh : c.toNat ≤ 57 := by simpa using UInt32.le_iff_toNat_le.mp h.2
  have hall : ∀ n ∈ Text.blankBlocks.flatMap fun b => List.range' b.1 (b.2 + 1 - b.1),
      n < 48 ∨ 57 < n := by decide
  refine Bool.eq_false_iff.mpr fun hblank => ?_
  have := hall c.toNat (Text.mem_of_inBlocks hblank)
  omega

theorem trimStart_padded (n k : Nat) (rest : List Char) :
    Text.trimStart (paddedDigits n k ++ rest) = paddedDigits n k ++ rest := by
  obtain ⟨c, cs, hcs⟩ := List.exists_cons_of_ne_nil (padded_ne_nil n k)
  have hc : c.isDigit = true := isDigit_of_mem_padded (n := n) (k := k) (by simp [hcs])
  rw [hcs, List.cons_append, Text.trimStart, List.dropWhile_cons_of_neg]
  simp [isBlank_of_isDigit hc]

theorem isDigit_of_head?_padded {n k : Nat} {rest : List Char} {c : Char}
    (h : (paddedDigits n k ++ rest).head? = some c) : c.isDigit = true := by
  obtain ⟨d, ds, hds⟩ := List.exists_cons_of_ne_nil (padded_ne_nil n k)
  rw [hds] at h
  cases h
  exact isDigit_of_mem_padded (n := n) (k := k) (by simp [hds])

/-- A padded number is read off as itself. -/
theorem readNumber_padded {n k : Nat} {limit : Nat} {rest : List Char} (hk : k ≤ maxNumber)
    (hlimit : (paddedDigits n k).length ≤ limit) (hrest : EndsNumber rest) :
    readNumber limit (paddedDigits n k ++ rest) = .ok (k, rest) := by
  have hmax : ofDigits (paddedDigits n k) ≤ maxNumber := by rwa [ofDigits_padded]
  have hdigits : ∀ d ∈ paddedDigits n k, d.isDigit = true := fun d hd => isDigit_of_mem_padded hd
  rw [readNumber_append (padded_ne_nil n k) hdigits hrest hlimit hmax, ofDigits_padded]

/-- A number of two digits is read off. -/
theorem readPair_padded {low high k : Nat} {rest : List Char} (hlow : low ≤ k) (hhigh : k ≤ high)
    (hk : k < 100) (hrest : EndsNumber rest) :
    readPair low high (paddedDigits 2 k ++ rest) = .ok (k, rest) := by
  have hlimit : (paddedDigits 2 k).length ≤ 2 :=
    Nat.le_of_eq (length_padded (by decide) (by omega))
  have hmax : k ≤ maxNumber := by
    rw [maxNumber]
    omega
  rw [readPair, trimStart_padded, readNumber_padded hmax hlimit hrest]
  simp [hlow, hhigh]

/-- A year without a sign is at most four digits. -/
theorem readYear_of_digits {cs rest : List Char} {n : Nat} (htrim : Text.trimStart cs = cs)
    (hhead : ∀ c, cs.head? = some c → c.isDigit = true) (hread : readNumber 4 cs = .ok (n, rest))
    (hn : (n : Int) ≤ yearRange.2) : readYear cs = .ok ((n : Int), rest) := by
  have hlow : yearRange.1 ≤ (n : Int) := by
    simp only [yearRange]
    omega
  unfold readYear
  simp only [htrim]
  split
  next e hresult =>
    split at hresult
    next => exact absurd (hhead '-' rfl) (by decide)
    next => exact absurd (hhead '+' rfl) (by decide)
    next => simp [hread, Except.map] at hresult
  next m more hresult =>
    split at hresult
    next => exact absurd (hhead '-' rfl) (by decide)
    next => exact absurd (hhead '+' rfl) (by decide)
    next =>
      rw [hread, Except.map] at hresult
      cases hresult
      exact if_pos ⟨hlow, hn⟩

theorem readYear_of_minus {cs rest : List Char} {n : Nat} {year : Int}
    (hread : readNumber cs.length cs = .ok (n, rest)) (hyear : -(n : Int) = year)
    (hrange : yearRange.1 ≤ year ∧ year ≤ yearRange.2) :
    readYear ('-' :: cs) = .ok (year, rest) := by
  have htrim : Text.trimStart ('-' :: cs) = '-' :: cs := rfl
  simp only [readYear, htrim, hread, Except.map, hyear, if_pos hrange]

theorem readYear_of_plus {cs rest : List Char} {n : Nat} {year : Int}
    (hread : readNumber cs.length cs = .ok (n, rest)) (hyear : (n : Int) = year)
    (hrange : yearRange.1 ≤ year ∧ year ≤ yearRange.2) :
    readYear ('+' :: cs) = .ok (year, rest) := by
  have htrim : Text.trimStart ('+' :: cs) = '+' :: cs := rfl
  simp only [readYear, htrim, hread, Except.map, hyear, if_pos hrange]

/-- A year is read off, in four digits or with its sign. -/
theorem readYear_yearText {year : Int} {rest : List Char} (hfirst : firstYear ≤ year)
    (hlast : year ≤ lastYear) (hrest : EndsNumber rest) :
    readYear ((yearText year).toList ++ rest) = .ok (year, rest) := by
  simp only [firstYear, lastYear] at hfirst hlast
  have hrange : yearRange.1 ≤ year ∧ year ≤ yearRange.2 := by
    simp only [yearRange]
    omega
  unfold yearText
  split
  next hplain =>
    obtain ⟨k, rfl⟩ := Int.eq_ofNat_of_zero_le hplain.1
    have hlength : (paddedDigits 4 k).length ≤ 4 :=
      Nat.le_of_eq (length_padded (by decide) (by omega))
    have hmax : k ≤ maxNumber := by
      rw [maxNumber]
      omega
    rw [Int.toNat_natCast, toList_padded]
    exact readYear_of_digits (trimStart_padded 4 k rest) (fun c hc => isDigit_of_head?_padded hc)
      (readNumber_padded hmax hlength hrest) hrange.2
  next hplain =>
    have hmax : year.natAbs ≤ maxNumber := by
      rw [maxNumber]
      omega
    have hread : readNumber (paddedDigits 4 year.natAbs ++ rest).length
        (paddedDigits 4 year.natAbs ++ rest) = .ok (year.natAbs, rest) :=
      readNumber_padded hmax (by simp) hrest
    rw [String.toList_append, toList_padded]
    by_cases hneg : year < 0
    · rw [if_pos hneg]
      exact readYear_of_minus hread (by omega) hrange
    · rw [if_neg hneg]
      exact readYear_of_plus hread (by omega) hrange

/-! ### Stamps -/

theorem endsNumber_cons {c : Char} {rest : List Char} (h : c.isDigit = false) :
    EndsNumber (c :: rest) := by
  intro d hd
  cases hd
  exact h

theorem endsNumber_nil : EndsNumber [] := by
  intro d hd
  cases hd

theorem readParts_cons {f f' : Fields} {cs rest : List Char} {part : Part} {parts : List Part}
    (h : part.read f cs = .ok (f', rest)) :
    readParts f cs (part :: parts) = readParts f' rest parts := by
  rw [readParts, h]

theorem read_mark (f : Fields) (c : Char) (rest : List Char) :
    Part.read f (c :: rest) (.mark c) = .ok (f, rest) := by
  simp [Part.read]

theorem read_blanks_padded (f : Fields) (n k : Nat) (rest : List Char) :
    Part.read f (' ' :: (paddedDigits n k ++ rest)) .blanks =
      .ok (f, paddedDigits n k ++ rest) := by
  rw [Part.read, Text.trimStart, List.dropWhile_cons_of_pos (by decide), ← Text.trimStart,
    trimStart_padded]

theorem toList_minuteText (t : Instant) :
    t.minuteText.toList = (yearText t.date.year).toList ++ '-' :: (paddedDigits 2 t.date.month ++
      '-' :: (paddedDigits 2 t.date.day ++ ' ' :: (paddedDigits 2 (t.secondOfDay / 3600) ++
        ':' :: (paddedDigits 2 (t.secondOfDay / 60 % 60) ++ [])))) := by
  simp [Instant.minuteText, Date.text, toList_padded]

/-- An instant within the years of the calendar. -/
def Instant.IsDated (t : Instant) : Prop := firstYear ≤ t.date.year ∧ t.date.year ≤ lastYear

theorem isValid_date {t : Instant} (h : t.IsDated) : t.date.isValid = true :=
  isValid_ofDays h.1 h.2

theorem monthLength_le (year : Int) (month : Nat) : monthLength year month ≤ 31 := by
  unfold monthLength
  split
  · split <;> decide
  all_goals decide

theorem secondOfDay_lt (t : Instant) : t.secondOfDay < 86400 := by
  rw [Instant.secondOfDay, Int.fmod_eq_emod_of_nonneg _ (by omega)]
  omega

/-- The time of day in hours and minutes is the start of the minute. -/
theorem ofDate_date (t : Instant) :
    Instant.ofDate t.date (t.secondOfDay / 3600) (t.secondOfDay / 60 % 60) 0 = t.toMinute := by
  have hday : t.date.toDays = t.seconds / 86400 := by
    rw [Instant.date, toDays_ofDays, Int.fdiv_eq_ediv_of_nonneg _ (by omega)]
  have hsecond : (t.secondOfDay : Int) = t.seconds % 86400 := by
    rw [Instant.secondOfDay, Int.fmod_eq_emod_of_nonneg _ (by omega)]
    omega
  simp only [Instant.ofDate, Instant.toMinute, hday, Instant.mk.injEq,
    Int.fmod_eq_emod_of_nonneg _ (by omega : (0 : Int) ≤ 60)]
  omega

/-- A written stamp is read as the start of its minute. -/
theorem readMinute_minuteText {t : Instant} (h : t.IsDated) :
    readMinute t.minuteText.toList = .ok t.toMinute := by
  have hvalid := isValid_date h
  have hbounds := hvalid
  simp only [Date.isValid, Bool.and_eq_true, decide_eq_true_eq] at hbounds
  obtain ⟨⟨⟨⟨-, hmonth⟩, hmonth'⟩, hday⟩, hday'⟩ := hbounds
  have hlength := monthLength_le t.date.year t.date.month
  have hsecond := secondOfDay_lt t
  have hparts : readParts {} t.minuteText.toList minutePattern =
      .ok ⟨t.date.year, t.date.month, t.date.day, t.secondOfDay / 3600,
        t.secondOfDay / 60 % 60⟩ := by
    rw [toList_minuteText]
    simp only [minutePattern, datePattern, List.cons_append, List.nil_append]
    rw [readParts_cons (by rw [Part.read, readYear_yearText h.1 h.2 (endsNumber_cons rfl)]; rfl),
      readParts_cons (read_mark _ _ _),
      readParts_cons (by
        rw [Part.read, readPair_padded hmonth hmonth' (by omega) (endsNumber_cons rfl)]; rfl),
      readParts_cons (read_mark _ _ _),
      readParts_cons (by
        rw [Part.read, readPair_padded hday (by omega) (by omega) (endsNumber_cons rfl)]; rfl),
      readParts_cons (read_blanks_padded _ _ _ _),
      readParts_cons (by
        rw [Part.read, readPair_padded (Nat.zero_le _) (by omega) (by omega)
          (endsNumber_cons rfl)]; rfl),
      readParts_cons (read_mark _ _ _),
      readParts_cons (by
        rw [Part.read, readPair_padded (Nat.zero_le _) (by omega) (by omega) endsNumber_nil]; rfl)]
    rfl
  have hdate : Fields.date ⟨t.date.year, t.date.month, t.date.day, t.secondOfDay / 3600,
      t.secondOfDay / 60 % 60⟩ = .ok t.date := if_pos hvalid
  rw [readMinute, hparts]
  show (do return Instant.ofDate (← Fields.date _) _ _ 0 : Except StampError Instant) = _
  rw [hdate]
  exact congrArg Except.ok (ofDate_date t)

/-! ### Characters of stamps -/

theorem yearText_cases (year : Int) :
    (yearText year).toList = paddedDigits 4 year.toNat ∨
      ∃ sign, (sign = '-' ∨ sign = '+') ∧
        (yearText year).toList = sign :: paddedDigits 4 year.natAbs := by
  unfold yearText
  split
  · exact .inl (toList_padded 4 _)
  · refine .inr ?_
    rw [String.toList_append, toList_padded]
    split
    · exact ⟨'-', .inl rfl, rfl⟩
    · exact ⟨'+', .inr rfl, rfl⟩

/-- A written stamp holds digits and a few marks. -/
theorem not_mem_minuteText (t : Instant) {c : Char} (hdigit : c.isDigit = false)
    (hmark : c ∉ ['-', '+', ' ', ':']) : c ∉ t.minuteText.toList := by
  simp only [List.mem_cons, List.not_mem_nil, or_false, not_or] at hmark
  have hpadded (n k : Nat) : c ∉ paddedDigits n k := by
    intro h
    rw [isDigit_of_mem_padded h] at hdigit
    cases hdigit
  have hyear : c ∉ (yearText t.date.year).toList := by
    rcases yearText_cases t.date.year with h | ⟨sign, hsign, h⟩
    · rw [h]
      exact hpadded _ _
    · rw [h]
      rcases hsign with rfl | rfl <;> simp [hpadded, hmark]
  rw [toList_minuteText]
  simp [hpadded, hyear, hmark]

/-- A time with its offset is written on one line. -/
theorem not_mem_offsetText (t : Instant) : '\n' ∉ t.offsetText.toList := by
  have hpadded (n k : Nat) : '\n' ∉ paddedDigits n k := fun h =>
    absurd (isDigit_of_mem_padded h) (by decide)
  have hyear : '\n' ∉ (yearText t.date.year).toList := by
    rcases yearText_cases t.date.year with h | ⟨sign, hsign, h⟩
    · rw [h]
      exact hpadded _ _
    · rw [h]
      rcases hsign with rfl | rfl <;> simp [hpadded]
  simp [Instant.offsetText, Instant.clockText, Date.text, toList_padded, hpadded, hyear]

/-- A written stamp has no blanks around it. -/
theorem trim_minuteText (t : Instant) : Text.trim t.minuteText.toList = t.minuteText.toList := by
  refine Text.trim_of_ends ?_ ?_
  · intro c hc
    rw [toList_minuteText] at hc
    rcases yearText_cases t.date.year with h | ⟨sign, hsign, h⟩
    · rw [h] at hc
      exact isBlank_of_isDigit (isDigit_of_head?_padded hc)
    · rw [h] at hc
      cases hc
      rcases hsign with rfl | rfl <;> decide
  · intro c hc
    have hfront : t.minuteText.toList = (yearText t.date.year).toList ++ '-' ::
        (paddedDigits 2 t.date.month ++ '-' :: (paddedDigits 2 t.date.day ++ ' ' ::
          (paddedDigits 2 (t.secondOfDay / 3600) ++ [':']))) ++
            paddedDigits 2 (t.secondOfDay / 60 % 60) := by
      simp [toList_minuteText]
    rw [hfront, List.getLast?_append,
      List.getLast?_eq_some_getLast (padded_ne_nil 2 (t.secondOfDay / 60 % 60))] at hc
    cases hc
    exact isBlank_of_isDigit (isDigit_of_mem_padded (List.getLast_mem _))

/-- What is read off as a number holds no bracket. -/
theorem mem_of_readNumber {limit n : Nat} {cs rest : List Char}
    (h : readNumber limit cs = .ok (n, rest)) (hmem : '[' ∈ cs) : '[' ∈ rest := by
  unfold readNumber at h
  split at h
  · cases h
  · simp only at h
    split at h
    · cases h
    · split at h
      · cases h
      · cases h
        generalize hds : (cs.take limit).takeWhile Char.isDigit = ds
        have hprefix : ds <+: cs :=
          hds ▸ (List.takeWhile_prefix _).trans (List.take_prefix _ _)
        obtain ⟨more, rfl⟩ := hprefix
        rw [List.drop_left]
        rcases List.mem_append.mp hmem with hbracket | hbracket
        · rw [← hds] at hbracket
          exact absurd (List.all_eq_true.mp List.all_takeWhile _ hbracket) (by decide)
        · exact hbracket

theorem mem_trimStart {cs : List Char} (hmem : '[' ∈ cs) : '[' ∈ Text.trimStart cs := by
  rw [← List.takeWhile_append_dropWhile (p := Text.isBlank) (l := cs)] at hmem
  rcases List.mem_append.mp hmem with hblank | hrest
  · exact absurd (List.all_eq_true.mp List.all_takeWhile _ hblank) (by decide)
  · exact hrest

theorem mem_of_readPair {low high n : Nat} {cs rest : List Char}
    (h : readPair low high cs = .ok (n, rest)) (hmem : '[' ∈ cs) : '[' ∈ rest := by
  unfold readPair at h
  split at h
  · cases h
  next hread =>
    split at h
    · cases h
      exact mem_of_readNumber hread (mem_trimStart hmem)
    · cases h

theorem mem_of_readYear {n : Int} {cs rest : List Char} (h : readYear cs = .ok (n, rest))
    (hmem : '[' ∈ cs) : '[' ∈ rest := by
  have hstart := mem_trimStart hmem
  unfold readYear at h
  simp only at h
  split at h
  · cases h
  next m more hresult =>
    split at h
    · cases h
      split at hresult
      next tail heq =>
        obtain ⟨⟨k, rest'⟩, hread, hpair⟩ := map_eq_ok_iff.mp hresult
        cases hpair
        rw [heq] at hstart
        exact mem_of_readNumber hread (by simpa using hstart)
      next tail heq =>
        obtain ⟨⟨k, rest'⟩, hread, hpair⟩ := map_eq_ok_iff.mp hresult
        cases hpair
        rw [heq] at hstart
        exact mem_of_readNumber hread (by simpa using hstart)
      next =>
        obtain ⟨⟨k, rest'⟩, hread, hpair⟩ := map_eq_ok_iff.mp hresult
        cases hpair
        exact mem_of_readNumber hread hstart
    · cases h

/-- What is read off as a part of a stamp holds no bracket. -/
theorem mem_of_read {f f' : Fields} {cs rest : List Char} {part : Part}
    (hmark : ∀ c, part = .mark c → c ≠ '[') (h : part.read f cs = .ok (f', rest))
    (hmem : '[' ∈ cs) : '[' ∈ rest := by
  cases part with
  | year =>
      obtain ⟨⟨n, more⟩, hread, hpair⟩ := map_eq_ok_iff.mp h
      cases hpair
      exact mem_of_readYear hread hmem
  | month | day | hour | minute =>
      obtain ⟨⟨n, more⟩, hread, hpair⟩ := map_eq_ok_iff.mp h
      cases hpair
      exact mem_of_readPair hread hmem
  | blanks =>
      cases h
      exact mem_trimStart hmem
  | mark c =>
      simp only [Part.read] at h
      split at h
      · cases h
      · split at h
        next heq =>
          cases h
          subst heq
          simpa [(hmark c rfl).symm] using hmem
        · cases h

theorem not_mem_of_readParts {f f' : Fields} {cs : List Char} {parts : List Part}
    (hmark : ∀ c, .mark c ∈ parts → c ≠ '[') (h : readParts f cs parts = .ok f') : '[' ∉ cs := by
  induction parts generalizing f cs with
  | nil =>
      rw [readParts] at h
      split at h
      next hempty =>
        rw [List.isEmpty_iff] at hempty
        simp [hempty]
      · cases h
  | cons part parts ih =>
      rw [readParts] at h
      split at h
      · cases h
      next hread =>
        intro hmem
        refine ih (fun c hc => hmark c (List.mem_cons_of_mem _ hc)) h (mem_of_read ?_ hread hmem)
        rintro c rfl
        exact hmark c List.mem_cons_self

/-- What is read as a stamp holds no bracket. -/
theorem not_mem_of_readMinute {cs : List Char} {t : Instant} (h : readMinute cs = .ok t) :
    '[' ∉ cs := by
  obtain ⟨f, hparts, -⟩ := bind_eq_ok_iff.mp h
  refine not_mem_of_readParts ?_ hparts
  intro c hc
  simp only [minutePattern, datePattern, List.cons_append, List.nil_append, List.mem_cons,
    Part.mark.injEq, List.not_mem_nil, or_false, reduceCtorEq, false_or] at hc
  rcases hc with rfl | rfl | rfl <;> decide

end SiteSafety.Calendar
