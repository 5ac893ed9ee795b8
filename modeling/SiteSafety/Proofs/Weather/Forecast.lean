import Mathlib.Data.List.Forall2
import Mathlib.Data.List.Pairwise
import SiteSafety.Weather.Forecast

/-!
# Proofs — Weather — Forecast

The readings of a forecast, field by field.  A field gives one reading for each number in its list,
in the order of the list.  Each has what stands **at its own place** (`IsReadingOf`): the number,
and the day at the same place of the list of days.  What stands at other places does not matter, and
neither does the length of either list.

* `isRow_fieldReadings`: the readings of a field.
* `readForecast_rows`: the readings of a document, and when it has none.
-/

namespace SiteSafety

variable {α β γ : Type}

/-! ### Items at their places -/

theorem pairwise_zipIdx (l : List α) (n : Nat) : (l.zipIdx n).Pairwise fun p q => p.2 < q.2 := by
  rw [← List.pairwise_map, List.zipIdx_map_snd]
  exact List.pairwise_lt_range'

/-- Reading the items of a list keeps their order, and the place of each that can be read. -/
theorem exists_places (read : α → Option β) (build : Nat → β → γ) (l : List α) :
    ∃ places : List Nat, places.Pairwise (· < ·) ∧
      (∀ i, i ∈ places ↔ ∃ a b, l[i]? = some a ∧ read a = some b) ∧
      List.Forall₂ (fun i c => ∃ a b, l[i]? = some a ∧ read a = some b ∧ c = build i b) places
        (l.zipIdx.filterMap fun (a, i) => (read a).map (build i)) := by
  generalize hkept : (l.zipIdx.filterMap fun p => (read p.1).map (Prod.mk p.2)) = kept
  have hmem : ∀ p, p ∈ kept ↔ ∃ a, l[p.1]? = some a ∧ read a = some p.2 := by
    rintro ⟨i, b⟩
    simp [← hkept, List.mem_zipIdx_iff_getElem?]
  have hbuilt : (l.zipIdx.filterMap fun (a, i) => (read a).map (build i)) =
      kept.map fun p => build p.1 p.2 := by
    rw [← hkept, List.map_filterMap]
    simp only [Option.map_map, Function.comp_def]
  refine ⟨kept.map Prod.fst, ?_, ?_, ?_⟩
  · rw [List.pairwise_map, ← hkept]
    refine (pairwise_zipIdx l 0).filterMap _ ?_
    intro p q hlt p' hp q' hq
    obtain ⟨_, -, rfl⟩ := Option.map_eq_some_iff.mp hp
    obtain ⟨_, -, rfl⟩ := Option.map_eq_some_iff.mp hq
    exact hlt
  · intro i
    simp only [List.mem_map, Prod.exists, exists_and_right, exists_eq_right, hmem]
    exact exists_comm
  · rw [hbuilt, List.forall₂_map_left_iff, List.forall₂_map_right_iff, List.forall₂_same]
    rintro ⟨i, b⟩ hp
    obtain ⟨a, ha, hb⟩ := (hmem _).mp hp
    exact ⟨a, b, ha, hb, rfl⟩

end SiteSafety

namespace SiteSafety.Weather
open Document Measurement

variable {now : Calendar.Instant} {body daily : Json} {f : Field} {i : Nat} {name : String}

/-! ### What a document says -/

/-- The list under a name holds an item at a place. -/
def Holds (daily : Json) (name : String) (i : Nat) (item : Json) : Prop :=
  ∃ items, daily.get? name = some (.array items) ∧ items[i]? = some item

/-- A number stands in the list of a field. -/
def Measured (daily : Json) (f : Field) (i : Nat) (x : Float) : Prop :=
  ∃ item, Holds daily f.name i item ∧ item.float? = some x

/-- A day stands in the list of days. -/
def Dated (daily : Json) (i : Nat) (d : Calendar.Date) : Prop :=
  ∃ s, Holds daily "time" i (.text s) ∧ Calendar.readDate s.toList = .ok d

/-- The document names a unit for a field. -/
def Reported (body : Json) (f : Field) (unit : String) : Prop :=
  ∃ units, body.get? "daily_units" = some units ∧ units.get? f.name = some (.text unit)

/-- The reading that a place in the list of a field gives. -/
structure IsReadingOf (now : Calendar.Instant) (body daily : Json) (f : Field) (i : Nat)
    (r : Reading) : Prop where
  value : Measured daily f i r.value
  metric : r.metric = f.metric
  unit : Reported body f r.unit ∨ (¬∃ u, Reported body f u) ∧ r.unit = f.unit
  time : (∃ d, Dated daily i d ∧ r.time = Calendar.Instant.ofDate d 0 0 0) ∨
    (¬∃ d, Dated daily i d) ∧ r.time = now

/-- The readings of a field: one for each place that holds a number, in order. -/
def IsRow (now : Calendar.Instant) (body daily : Json) (f : Field) (row : List Reading) : Prop :=
  ∃ places : List Nat, places.Pairwise (· < ·) ∧ (∀ i, i ∈ places ↔ ∃ x, Measured daily f i x) ∧
    List.Forall₂ (IsReadingOf now body daily f) places row

theorem getElem?_itemsOf {item : Json} :
    (itemsOf daily name)[i]? = some item ↔ Holds daily name i item := by
  rw [itemsOf, Holds]
  cases daily.get? name with
  | none => simp
  | some j => cases j <;> simp [Json.array?]

theorem text?_eq_some_iff {j : Json} {s : String} : j.text? = some s ↔ j = .text s := by
  cases j <;> simp [Json.text?, Json.text]

theorem unitOf_cases (body : Json) (f : Field) : Reported body f (unitOf body f) ∨
    (¬∃ u, Reported body f u) ∧ unitOf body f = f.unit := by
  have hreported : ∀ u, ((body.get? "daily_units").bind (·.get? f.name)).bind Json.text? = some u ↔
      Reported body f u := by
    intro u
    simp only [Option.bind_eq_some_iff, text?_eq_some_iff, Reported, exists_eq_right]
  rw [unitOf]
  cases h : ((body.get? "daily_units").bind (·.get? f.name)).bind Json.text? with
  | some u => exact .inl ((hreported u).mp h)
  | none =>
      refine .inr ⟨?_, rfl⟩
      rintro ⟨u, hu⟩
      cases h.symm.trans ((hreported u).mpr hu)

theorem dayStart_cases (now : Calendar.Instant) (j : Json) :
    (∃ s d, j = .text s ∧ Calendar.readDate s.toList = .ok d ∧
      dayStart now j = Calendar.Instant.ofDate d 0 0 0) ∨
    (¬∃ s d, j = .text s ∧ Calendar.readDate s.toList = .ok d) ∧ dayStart now j = now := by
  simp only [← text?_eq_some_iff, dayStart]
  cases j.text? with
  | none => simp
  | some s => cases h : Calendar.readDate s.toList <;> simp [h]

/-- The time of the reading at a place. -/
def dayAt (now : Calendar.Instant) (daily : Json) (i : Nat) : Calendar.Instant :=
  ((itemsOf daily "time").map (dayStart now)).getD i now

theorem dayAt_cases (now : Calendar.Instant) (daily : Json) (i : Nat) :
    (∃ d, Dated daily i d ∧ dayAt now daily i = Calendar.Instant.ofDate d 0 0 0) ∨
      (¬∃ d, Dated daily i d) ∧ dayAt now daily i = now := by
  have hday : dayAt now daily i = ((itemsOf daily "time")[i]?.map (dayStart now)).getD now := by
    rw [← List.getElem?_map]
    rfl
  have hdated : ∀ d, Dated daily i d ↔ ∃ s, (itemsOf daily "time")[i]? = some (.text s) ∧
      Calendar.readDate s.toList = .ok d := fun d => by
    simp only [Dated, getElem?_itemsOf]
  simp only [hday, hdated]
  cases (itemsOf daily "time")[i]? with
  | none => simp
  | some j =>
      simp only [Option.some.injEq, Option.map_some, Option.getD_some]
      rcases dayStart_cases now j with ⟨s, d, hj, hd, hstart⟩ | ⟨hnone, hstart⟩
      · exact .inl ⟨d, ⟨s, hj, hd⟩, hstart⟩
      · refine .inr ⟨?_, hstart⟩
        rintro ⟨d, s, hj, hd⟩
        exact hnone ⟨s, d, hj, hd⟩

/-- **The readings of a field** are those of the places in its list that hold a number. -/
theorem isRow_fieldReadings (now : Calendar.Instant) (body daily : Json) (f : Field) :
    IsRow now body daily f (fieldReadings now body daily f) := by
  obtain ⟨places, hordered, hplaces, hrow⟩ := exists_places Json.float?
    (fun i x => (⟨f.metric, x, unitOf body f, dayAt now daily i⟩ : Reading)) (itemsOf daily f.name)
  refine ⟨places, hordered, fun i => ?_, hrow.imp ?_⟩
  · simp only [hplaces, getElem?_itemsOf, Measured]
    exact exists_comm
  · rintro i r ⟨item, x, hitem, hx, rfl⟩
    exact ⟨⟨item, getElem?_itemsOf.mp hitem, hx⟩, rfl, unitOf_cases body f, dayAt_cases now daily i⟩

/-- **The readings of a forecast** are those of its fields, one field after the other.  A document
without a daily block, and no other, is an invalid response. -/
theorem readForecast_rows (now : Calendar.Instant) (body : Json) :
    (∀ members, body.get? "daily" = some (.object members) →
      ∃ rows, readForecast now body = .ok rows.flatten ∧
        List.Forall₂ (IsRow now body (.object members)) dailyFields rows) ∧
    ∀ e, readForecast now body = .error e ↔
      e = .invalidResponse .weather "forecast has no daily block" ∧
        ¬∃ members, body.get? "daily" = some (.object members) := by
  constructor
  · intro members hdaily
    refine ⟨dailyFields.map (fieldReadings now body (.object members)), ?_, ?_⟩
    · rw [readForecast, hdaily]
      rfl
    · rw [List.forall₂_map_right_iff, List.forall₂_same]
      exact fun f _ => isRow_fieldReadings now body (.object members) f
  · intro e
    rw [readForecast]
    split
    next members hdaily => simp [hdaily]
    next hdaily => simpa [eq_comm] using fun _ => hdaily

/-- A forecast with no wind for the first of two days. -/
def windOnSecondDay : List (String × Json) := [
  ("time", .array [.text "2026-03-01", .text "2026-03-02"]),
  ("wind_speed_10m_max", .array [.null, .ofNat 40])]

/-- The wind of the second day keeps its day. -/
theorem wind_keeps_second_day :
    (Json.object [("daily", .object windOnSecondDay)]).get? "daily" =
        some (.object windOnSecondDay) ∧
      (∃ rows, readForecast ⟨0⟩ (.object [("daily", .object windOnSecondDay)]) =
          .ok rows.flatten ∧
        List.Forall₂ (IsRow ⟨0⟩ (.object [("daily", .object windOnSecondDay)])
          (.object windOnSecondDay)) dailyFields rows) ∧
      readForecast ⟨0⟩ (.object [("daily", .object windOnSecondDay)]) =
        .ok [⟨.windSpeed, 40.0, "km/h", Calendar.Instant.ofDate ⟨2026, 3, 2⟩ 0 0 0⟩] := by
  have hdaily : (Json.object [("daily", .object windOnSecondDay)]).get? "daily" =
      some (.object windOnSecondDay) := rfl
  exact ⟨hdaily, (readForecast_rows ⟨0⟩ _).1 _ hdaily, rfl⟩

end SiteSafety.Weather
