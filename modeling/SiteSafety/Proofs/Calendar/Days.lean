import SiteSafety.Calendar.Instant

/-!
# Proofs — Calendar — Days

Days and their dates.  A day is counted by its era, the year `y` of the era and the day `doy` of
that year, years counted from March; `Date.ofDays` finds the three by division alone, and the date
is read off them (`exists_ofYearDay`).

* `toDays_ofDays`: the date of a day leads back to the day.
* `isValid_ofDays`: the date of a day exists, within the years that a date may have.
-/

namespace SiteSafety.Calendar

/-! ### Days of an era -/

/-- A day of a year of an era, both counted from March. -/
structure IsYearDay (y doy : Int) : Prop where
  year : 0 ≤ y ∧ y < 400
  day : 0 ≤ doy ∧ doy ≤ 365
  leap : doy = 365 → (y + 1) % 4 = 0 ∧ ((y + 1) % 100 ≠ 0 ∨ y = 399)

/-- The days of an era before a year of it. -/
def daysBefore (y : Int) : Int := 365 * y + y.fdiv 4 - y.fdiv 100

/-! ### The year of a day -/

section Split
variable {c q r doy : Int}

/-- A year by its century, the four years within the century, and the year of these. -/
structure IsSplit (c q r doy : Int) : Prop where
  century : 0 ≤ c ∧ c ≤ 3
  four : 0 ≤ q ∧ q ≤ 24
  year : 0 ≤ r ∧ r ≤ 3
  day : 0 ≤ doy ∧ doy ≤ 365
  leap : doy = 365 → r = 3 ∧ (q < 24 ∨ c = 3)

theorem exists_split {doe : Int} (h0 : 0 ≤ doe) (h1 : doe < 146097) :
    ∃ c q r doy, IsSplit c q r doy ∧ doe = 36524 * c + 1461 * q + 365 * r + doy := by
  -- the last day of an era and the leap day of four years are one more than the divisions allow for
  by_cases hlast : doe = 146096
  · exact ⟨3, 24, 3, 365, ⟨by omega, by omega, by omega, by omega, by omega⟩, by omega⟩
  · obtain ⟨c, hc⟩ : ∃ c, c = doe / 36524 := ⟨_, rfl⟩
    obtain ⟨q, hq⟩ : ∃ q, q = (doe - 36524 * c) / 1461 := ⟨_, rfl⟩
    obtain ⟨d, hd⟩ : ∃ d, d = doe - 36524 * c - 1461 * q := ⟨_, rfl⟩
    by_cases hleap : d = 1460
    · exact ⟨c, q, 3, 365, ⟨by omega, by omega, by omega, by omega, by omega⟩, by omega⟩
    · exact ⟨c, q, d / 365, d % 365, ⟨by omega, by omega, by omega, by omega, by omega⟩,
        by omega⟩

theorem daysBefore_split (h : IsSplit c q r doy) :
    daysBefore (100 * c + 4 * q + r) = 36524 * c + 1461 * q + 365 * r := by
  obtain ⟨hc, hq, hr, -, -⟩ := h
  simp (disch := omega) only [daysBefore, Int.fdiv_eq_ediv_of_nonneg]
  omega

theorem IsSplit.isYearDay (h : IsSplit c q r doy) : IsYearDay (100 * c + 4 * q + r) doy where
  year := by
    obtain ⟨hc, hq, hr, -, -⟩ := h
    omega
  day := h.day
  leap hlast := by
    obtain ⟨rfl, hcase⟩ := h.leap hlast
    obtain ⟨hc, hq, -, -, -⟩ := h
    omega

/-- The year of a day of an era is found by division alone. -/
theorem yearOfEra_split (h : IsSplit c q r doy) {doe : Int}
    (hdoe : doe = 36524 * c + 1461 * q + 365 * r + doy) :
    (doe - doe.fdiv 1460 + doe.fdiv 36524 - doe.fdiv 146096).fdiv 365 = 100 * c + 4 * q + r := by
  simp (disch := omega) only [Int.fdiv_eq_ediv_of_nonneg]
  obtain ⟨hc, hq, hr, hd, hl⟩ := h
  -- the last two corrections count the centuries, the first one the groups of four years
  have ha : doe / 36524 - doe / 146096 = c := by
    have hrem : 1461 * q + 365 * r + doy < 36524 ∨ doe = 146096 ∧ c = 3 := by omega
    rcases hrem with hrem | ⟨rfl, rfl⟩
    · have hdiv : doe / 36524 = c := by omega
      omega
    · rfl
  have hb : doe / 1460 = 25 * c + q + if 1460 ≤ 24 * c + q + 365 * r + doy then 1 else 0 := by
    split <;> omega
  split at hb <;> omega

end Split

/-! ### The date of a day -/

/-- The date of a day of a year of an era. -/
def Date.ofYearDay (era y doy : Int) : Date :=
  let month := (5 * doy + 2).fdiv 153
  let civil := if month < 10 then month + 3 else month - 9
  let year := y + era * 400
  ⟨if civil ≤ 2 then year + 1 else year, civil.toNat, (doy - (153 * month + 2).fdiv 5 + 1).toNat⟩

theorem ofDays_eq {days era doe y doy : Int} (hera : (days + 719468).fdiv 146097 = era)
    (hdoe : days + 719468 - era * 146097 = doe)
    (hy : (doe - doe.fdiv 1460 + doe.fdiv 36524 - doe.fdiv 146096).fdiv 365 = y)
    (hdoy : doe - daysBefore y = doy) : Date.ofDays days = Date.ofYearDay era y doy := by
  subst hera hdoe hy hdoy
  rfl

theorem exists_ofYearDay (days : Int) :
    ∃ era y doy, IsYearDay y doy ∧ days + 719468 = era * 146097 + (daysBefore y + doy) ∧
      Date.ofDays days = Date.ofYearDay era y doy := by
  obtain ⟨era, hera⟩ : ∃ era, (days + 719468).fdiv 146097 = era := ⟨_, rfl⟩
  obtain ⟨doe, hdoe⟩ : ∃ doe, days + 719468 - era * 146097 = doe := ⟨_, rfl⟩
  have hrange : 0 ≤ doe ∧ doe < 146097 := by
    rw [Int.fdiv_eq_ediv_of_nonneg _ (by omega)] at hera
    omega
  have hdays : days + 719468 = era * 146097 + doe := by omega
  obtain ⟨c, q, r, doy, hsplit, h⟩ := exists_split hrange.1 hrange.2
  have hbefore := daysBefore_split hsplit
  have hdoy : doe - daysBefore (100 * c + 4 * q + r) = doy := by
    rw [hbefore, h]
    omega
  refine ⟨era, 100 * c + 4 * q + r, doy, hsplit.isYearDay, ?_,
    ofDays_eq hera hdoe (yearOfEra_split hsplit h) hdoy⟩
  rw [hdays, hbefore, h]

variable {era y doy : Int}

/-- A date by the year counted from March, the month counted from March, and the day of it. -/
theorem ofYearDay_cases (era : Int) (h : IsYearDay y doy) :
    ∃ m k : Nat, m ≤ 11 ∧ (m : Int) = (5 * doy + 2) / 153 ∧ (k : Int) = doy - (153 * m + 2) / 5 ∧
      Date.ofYearDay era y doy =
        if m < 10 then ⟨y + era * 400, m + 3, k + 1⟩ else ⟨y + era * 400 + 1, m - 9, k + 1⟩ := by
  obtain ⟨-, hd, -⟩ := h
  obtain ⟨m, hm⟩ : ∃ m : Nat, (m : Int) = (5 * doy + 2) / 153 :=
    ⟨((5 * doy + 2) / 153).toNat, by omega⟩
  obtain ⟨k, hk⟩ : ∃ k : Nat, (k : Int) = doy - (153 * m + 2) / 5 :=
    ⟨(doy - (153 * m + 2) / 5).toNat, by omega⟩
  refine ⟨m, k, by omega, hm, hk, ?_⟩
  have hday : ((k : Int) + 1).toNat = k + 1 := by omega
  simp (disch := omega) only [Date.ofYearDay, Int.fdiv_eq_ediv_of_nonneg, ← hm, ← hk, hday]
  by_cases hlate : m < 10
  · have hearly : (m : Int) < 10 := by omega
    have hcivil : ¬(m : Int) + 3 ≤ 2 := by omega
    have hmonth : ((m : Int) + 3).toNat = m + 3 := by omega
    simp only [if_pos hearly, if_pos hlate, if_neg hcivil, hmonth]
  · have hearly : ¬(m : Int) < 10 := by omega
    have hcivil : (m : Int) - 9 ≤ 2 := by omega
    have hmonth : ((m : Int) - 9).toNat = m - 9 := by omega
    simp only [if_neg hearly, if_neg hlate, if_pos hcivil, hmonth]

theorem toDays_ofYearDay (h : IsYearDay y doy) :
    (Date.ofYearDay era y doy).toDays = era * 146097 + (daysBefore y + doy) - 719468 := by
  obtain ⟨m, k, hm, hmonth, hday, heq⟩ := ofYearDay_cases era h
  have hera : (y + era * 400).fdiv 400 = era := by
    rw [Int.fdiv_eq_ediv_of_nonneg _ (by omega)]
    have := h.year
    omega
  have hyear : y + era * 400 - era * 400 = y := by omega
  have hdoy : (153 * (m : Int) + 2).fdiv 5 + ((k + 1 : Nat) : Int) - 1 = doy := by
    rw [Int.fdiv_eq_ediv_of_nonneg _ (by omega)]
    omega
  rw [heq]
  by_cases hlate : m < 10
  · have hcivil : ¬m + 3 ≤ 2 := by omega
    have hback : ((m + 3 : Nat) : Int) - 3 = m := by omega
    simp only [if_pos hlate, Date.toDays, if_neg hcivil, hera, hyear, hback, hdoy, daysBefore,
      Int.mul_comm y]
  · have hcivil : m - 9 ≤ 2 := by omega
    have hback : ((m - 9 : Nat) : Int) + 9 = m := by omega
    have hprev : y + era * 400 + 1 - 1 = y + era * 400 := by omega
    simp only [if_neg hlate, Date.toDays, if_pos hcivil, hprev, hera, hyear, hback, hdoy,
      daysBefore, Int.mul_comm y]

/-- A day and the date it is written as are the same day. -/
theorem toDays_ofDays (days : Int) : (Date.ofDays days).toDays = days := by
  obtain ⟨era, y, doy, h, hdays, heq⟩ := exists_ofYearDay days
  rw [heq, toDays_ofYearDay h]
  omega

/-! ### Dates that exist -/

theorem isLeap_iff {year : Int} :
    isLeap year = true ↔ year % 4 = 0 ∧ (year % 100 ≠ 0 ∨ year % 400 = 0) := by
  simp only [isLeap, Bool.and_eq_true, Bool.or_eq_true, decide_eq_true_eq, bne_iff_ne]
  exact Iff.rfl

/-- A day lies within its month. -/
theorem day_le_monthLength (year : Int) {m k : Nat} (hm : m ≤ 11)
    (hmonth : (m : Int) = (5 * doy + 2) / 153) (hday : (k : Int) = doy - (153 * m + 2) / 5)
    (hd : 0 ≤ doy ∧ doy ≤ 365) (hleap : 10 ≤ m → doy = 365 → isLeap year = true) :
    k + 1 ≤ monthLength year (if m < 10 then m + 3 else m - 9) := by
  have hcases : m = 0 ∨ m = 1 ∨ m = 2 ∨ m = 3 ∨ m = 4 ∨ m = 5 ∨ m = 6 ∨ m = 7 ∨ m = 8 ∨ m = 9 ∨
      m = 10 ∨ m = 11 := by omega
  rcases hcases with rfl | rfl | rfl | rfl | rfl | rfl | rfl | rfl | rfl | rfl | rfl | rfl
  case inr.inr.inr.inr.inr.inr.inr.inr.inr.inr.inr =>
    show k + 1 ≤ if isLeap year then 29 else 28
    by_cases hlast : doy = 365
    · rw [hleap (by omega) hlast]
      simp only [if_true]
      omega
    · split <;> omega
  all_goals
    first
      | show k + 1 ≤ 31
        omega
      | show k + 1 ≤ 30
        omega

/-- The date of every day within the years of the calendar exists. -/
theorem isValid_ofDays {days : Int} (hfirst : firstYear ≤ (Date.ofDays days).year)
    (hlast : (Date.ofDays days).year ≤ lastYear) : (Date.ofDays days).isValid = true := by
  obtain ⟨era, y, doy, h, -, heq⟩ := exists_ofYearDay days
  obtain ⟨m, k, hm, hmonth, hday, hdate⟩ := ofYearDay_cases era h
  have hleap : doy = 365 → isLeap (y + era * 400 + 1) = true := by
    intro hlast
    obtain ⟨hfour, hcase⟩ := h.leap hlast
    have h4 : (y + era * 400 + 1) % 4 = 0 := by omega
    have h100 : (y + era * 400 + 1) % 100 ≠ 0 ∨ (y + era * 400 + 1) % 400 = 0 := by omega
    exact isLeap_iff.mpr ⟨h4, h100⟩
  rw [heq, hdate] at hfirst hlast ⊢
  by_cases hlate : m < 10
  · have hlen := day_le_monthLength (y + era * 400) hm hmonth hday h.day (by omega)
    simp only [if_pos hlate] at hfirst hlast hlen ⊢
    simp only [Date.isValid, Bool.and_eq_true, decide_eq_true_eq]
    omega
  · have hlen := day_le_monthLength _ hm hmonth hday h.day fun _ => hleap
    simp only [if_neg hlate] at hfirst hlast hlen ⊢
    simp only [Date.isValid, Bool.and_eq_true, decide_eq_true_eq]
    omega

end SiteSafety.Calendar
