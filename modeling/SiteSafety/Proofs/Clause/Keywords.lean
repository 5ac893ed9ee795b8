import SiteSafety.Clause.Scan

/-!
# Proofs — Clause — Keywords

What the parts of a clause may take.  A metric is recognised by its first word alone
(`metricAt_isSome_iff`), and the words that units and trailing comparisons are spelled with are
none of these: behind the first word of a unit no metric is passed over (`metricAt_unit`), and
none in a trailing comparison (`metricAt_trailing`).

The first word of a unit is the exception.  **Every word that names a metric looks like a unit**
(`unitAt_keyword`), so directly behind a number it is taken for one.
-/

namespace SiteSafety.Clause
open Measurement

/-- The words that a metric is recognised by. -/
def keywords : List String := [
  "wind", "winds", "windspeed", "windspeeds", "gust", "gusts", "rain", "rainfall",
  "precipitation", "temperature", "temperatures", "temp", "visibility"]

/-- The word at a position, if there is one. -/
def wordAt? (ts : List Token) (i : Nat) : Option String := ts[i]?.bind Token.word?

theorem wordAt?_drop (ts : List Token) (i j : Nat) :
    wordAt? (ts.drop i) j = wordAt? ts (i + j) := by
  simp [wordAt?, List.getElem?_drop]

/-- A metric is recognised where one of its words stands. -/
theorem metricAt_isSome_iff (ts : List Token) :
    (metricAt ts).isSome ↔ ∃ w ∈ keywords, wordAt? ts 0 = some w := by
  cases ts with
  | nil => simp [metricAt, wordAt?]
  | cons t rest =>
      have hat : wordAt? (t :: rest) 0 = t.word? := rfl
      simp only [hat, metricAt, keywords, List.mem_cons, List.not_mem_nil, or_false]
      constructor
      · intro h
        split at h <;> simp_all
      · rintro ⟨w, hw, hword⟩
        split <;> simp_all

theorem metricAt_eq_none {ts : List Token} (h : ∀ w ∈ keywords, wordAt? ts 0 ≠ some w) :
    metricAt ts = none := by
  rw [← Option.not_isSome_iff_eq_none, metricAt_isSome_iff]
  rintro ⟨w, hw, hword⟩
  exact h w hw hword

/-- The name of a metric is one word or two. -/
theorem words_of_metricAt {ts : List Token} {m : Metric} {k : Nat}
    (h : metricAt ts = some (m, k)) : k = 1 ∨ k = 2 ∧ (wordAt? ts 1).isSome := by
  cases ts with
  | nil => cases h
  | cons t rest =>
      have hat : wordAt? (t :: rest) 1 = rest.head?.bind Token.word? := by
        cases rest <;> rfl
      simp only [metricAt] at h
      split at h <;> simp_all

/-! ### Units -/

/-- The further words of a spelled unit name no metric. -/
theorem of_spelledUnit? {first : String} {second third : Option String} {u : String} {n : Nat}
    (h : spelledUnit? first second third = some (u, n)) :
    (n = 2 ∧ ∃ w, second = some w ∧ w ∉ keywords) ∨
      (n = 3 ∧ (∃ w, second = some w ∧ w ∉ keywords) ∧ ∃ w, third = some w ∧ w ∉ keywords) := by
  have hper : "per" ∉ keywords := by decide
  have hhour : "hour" ∉ keywords := by decide
  have hsecond : "second" ∉ keywords := by decide
  unfold spelledUnit? at h
  split at h
  · simp_all
  · split at h
    · simp_all
    · split at h
      · simp_all
      · split at h
        · split at h <;> simp_all [keywords]
        · cases h

theorem isUnitLike_keyword : ∀ w ∈ keywords, isUnitLike w = true := by decide

/-- A metric behind a number is taken for the unit of the number. -/
theorem unitAt_keyword {ts : List Token} (h : (metricAt ts).isSome) : 1 ≤ (unitAt ts).2 := by
  obtain ⟨w, hw, hword⟩ := (metricAt_isSome_iff ts).mp h
  cases ts with
  | nil => cases hword
  | cons t rest =>
      have hat : t.word? = some w := hword
      simp only [unitAt, hat]
      split
      next found hfound =>
        obtain ⟨u, n⟩ := found
        rcases of_spelledUnit? hfound with ⟨rfl, -⟩ | ⟨rfl, -⟩ <;> simp
      next => simp [isUnitLike_keyword w hw]

/-- A unit is made of words, and behind its first one no metric is named. -/
theorem wordAt?_unit {ts : List Token} {i : Nat} (h : i < (unitAt ts).2) :
    ∃ w, wordAt? ts i = some w ∧ (1 ≤ i → w ∉ keywords) := by
  cases ts with
  | nil => simp [unitAt] at h
  | cons t rest =>
      have hfirst : wordAt? (t :: rest) 0 = t.word? := rfl
      have hsecond : wordAt? (t :: rest) 1 = rest.head?.bind Token.word? := by
        cases rest <;> rfl
      have hthird : wordAt? (t :: rest) 2 = (rest.drop 1).head?.bind Token.word? := by
        rcases rest with _ | ⟨_, _ | ⟨_, _⟩⟩ <;> rfl
      simp only [unitAt, ← hsecond, ← hthird] at h
      split at h
      · simp at h
      next first hword =>
        have hzero : ∃ w, wordAt? (t :: rest) 0 = some w ∧ (1 ≤ 0 → w ∉ keywords) :=
          ⟨first, hword, by omega⟩
        split at h
        next found hfound =>
          obtain ⟨u, n⟩ := found
          rcases of_spelledUnit? hfound with ⟨rfl, w, hw, hnot⟩ | ⟨rfl, ⟨w, hw, hnot⟩, w', hw', hnot'⟩
          · have hi : i = 0 ∨ i = 1 := by omega
            rcases hi with rfl | rfl
            · exact hzero
            · exact ⟨w, hw, fun _ => hnot⟩
          · have hi : i = 0 ∨ i = 1 ∨ i = 2 := by omega
            rcases hi with rfl | rfl | rfl
            · exact hzero
            · exact ⟨w, hw, fun _ => hnot⟩
            · exact ⟨w', hw', fun _ => hnot'⟩
        next =>
          split at h
          · obtain rfl : i = 0 := by simpa using h
            exact hzero
          · simp at h

/-- A trailing comparison is made of words that name no metric. -/
theorem wordAt?_trailing {ts : List Token} {i : Nat} (h : i < (trailingComparison ts).2) :
    ∃ w, wordAt? ts i = some w ∧ w ∉ keywords := by
  match ts with
  | [] => simp [trailingComparison] at h
  | [_] => simp [trailingComparison] at h
  | t :: t' :: rest =>
      simp only [trailingComparison] at h
      split at h
      next hor =>
        have hzero : ∃ w, wordAt? (t :: t' :: rest) 0 = some w ∧ w ∉ keywords :=
          ⟨"or", beq_iff_eq.mp hor, by decide⟩
        split at h
        case h_9 => simp at h
        all_goals
          have hi : i = 0 ∨ i = 1 := by omega
          rcases hi with rfl | rfl
          · exact hzero
          · exact ⟨_, ‹_›, by decide⟩
      next => simp at h

end SiteSafety.Clause
