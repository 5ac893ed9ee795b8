import Mathlib.Data.Set.List
import SiteSafety.Proofs.Files.Frame

/-!
# Proofs — Files — Spelling

Paths that are spelled differently and name one place.  Followed from a directory, a path that does
not start at the root names a place below it (`fromDirectory`).  A leading point and a step up are
steps like others when paths are compared, and lead nowhere or back when they are followed: so **two
paths may differ and name the same file**.

* `placeOf_fromDirectory`: the place of a path without a step up, name by name.
* `steps_eq_of_placeOf_eq`: among paths that are written alike only those with the same steps name
  the same place.
-/

namespace SiteSafety.Files

variable {path directory a b : String} {cs ds : List Char}

/-! ### Directories -/

/-- A path that starts at the root. -/
def isRooted (path : String) : Bool := path.toList.head? == some '/'

/-- A path as it is followed from a directory. -/
def fromDirectory (directory path : String) : String :=
  if isRooted path then path else inDirectory directory path

/-- The steps between the separators of a text. -/
def innerSteps (cs : List Char) : List Step := (cs.splitOnP (· == '/')).filterMap stepOf?

theorem isRooted_iff : isRooted path = true ↔ ∃ ds, path = String.ofList ('/' :: ds) := by
  rw [isRooted, beq_iff_eq, List.head?_eq_some_iff]
  refine exists_congr fun ds => ?_
  rw [← String.toList_inj, String.toList_ofList]

theorem steps_of_isRooted (ds : List Char) :
    steps (String.ofList ('/' :: ds)) = .root :: innerSteps ds := steps_root ds

/-- A path that does not start at the root has the steps between its separators, perhaps behind a
leading point. -/
theorem steps_of_not_isRooted (h : isRooted path = false) :
    steps path = .here :: innerSteps path.toList ∨ steps path = innerSteps path.toList := by
  simp only [steps, innerSteps]
  split
  next heq =>
    rw [isRooted, heq] at h
    cases h
  next => exact .inl rfl
  next => exact .inr rfl

theorem steps_inDirectory_path (h : isRooted directory = true) (path : String) :
    steps (inDirectory directory path) = steps directory ++ innerSteps path.toList := by
  refine steps_inDirectory_of_ne ?_ path
  rintro rfl
  cases h

/-- Between separators there are names and steps up only. -/
theorem exists_names (h : Step.up ∉ innerSteps cs) :
    ∃ names : List String, innerSteps cs = names.map .name := by
  have hname : ∀ s ∈ innerSteps cs, ∃ name, Step.name name = s := by
    intro s hs
    obtain ⟨piece, -, hstep⟩ := List.mem_filterMap.mp hs
    unfold stepOf? at hstep
    split at hstep
    · cases hstep
    · split at hstep
      · cases hstep
        exact absurd hs h
      · exact ⟨_, Option.some.inj hstep⟩
  have hrange : innerSteps cs ∈ Set.range (List.map Step.name) := by
    rw [Set.range_list_map]
    exact hname
  exact hrange.imp fun _ heq => heq.symm

theorem placeFrom_names (here : Place) (names : List String) :
    placeFrom here (names.map .name) = here ++ names := by
  induction names generalizing here with
  | nil => exact (List.append_nil here).symm
  | cons s names ih =>
      rw [List.map_cons, placeFrom, ih, List.append_assoc]
      rfl

/-! ### Paths that are written alike -/

/-- The root that a path starts at, or its leading point. -/
def opening (path : String) : List Step := (steps path).filter fun s => s == .root || s == .here

theorem opening_of_names (front : List Step) {names : List String}
    (hfront : ∀ s ∈ front, s = .root ∨ s = .here) (h : steps path = front ++ names.map .name) :
    opening path = front := by
  have hkept : front.filter (fun s => s == .root || s == .here) = front :=
    List.filter_eq_self.mpr fun s hs => by simpa using hfront s hs
  have hnames : (names.map Step.name).filter (fun s => s == .root || s == .here) = [] := by
    simp [List.filter_eq_nil_iff]
  rw [opening, h, List.filter_append, hkept, hnames, List.append_nil]

/-- **The place of a path** that never steps up: its names below the root, or below the directory it
is followed from. -/
theorem placeOf_fromDirectory (hdirectory : isRooted directory = true) (hup : .up ∉ steps path) :
    ∃ names : List String, steps path = opening path ++ names.map .name ∧
      placeOf (fromDirectory directory path) =
        placeFrom (placeOf directory) (opening path) ++ names := by
  cases hrooted : isRooted path with
  | true =>
      obtain ⟨ds, rfl⟩ := isRooted_iff.mp hrooted
      rw [steps_of_isRooted, List.mem_cons, not_or] at hup
      obtain ⟨names, hnames⟩ := exists_names hup.2
      have hsteps : steps (String.ofList ('/' :: ds)) = [.root] ++ names.map .name := by
        rw [steps_of_isRooted, hnames]
        rfl
      rw [opening_of_names [.root] (by simp) hsteps, fromDirectory, if_pos hrooted, placeOf, hsteps,
        placeFrom_append, placeFrom_names]
      exact ⟨names, rfl, rfl⟩
  | false =>
      have hsteps := steps_of_not_isRooted hrooted
      have hinner : .up ∉ innerSteps path.toList := by
        rcases hsteps with h | h <;> rw [h] at hup
        · exact fun hmem => hup (List.mem_cons_of_mem _ hmem)
        · exact hup
      obtain ⟨names, hnames⟩ := exists_names hinner
      rw [fromDirectory, if_neg (Bool.eq_false_iff.mp hrooted), placeOf,
        steps_inDirectory_path hdirectory, placeFrom_append, hnames, placeFrom_names]
      rw [hnames] at hsteps
      refine ⟨names, ?_⟩
      -- a leading point leads nowhere
      rcases hsteps with h | h
      · rw [opening_of_names [.here] (by simp) h, h]
        exact ⟨rfl, rfl⟩
      · rw [opening_of_names [] (by simp) h, h]
        exact ⟨rfl, rfl⟩

/-- Two paths without a step up, both from the root or neither, and both with a leading point or
neither. -/
structure WrittenAlike (a b : String) : Prop where
  first : .up ∉ steps a
  second : .up ∉ steps b
  opening : opening a = opening b

/-- **Paths that are written alike** name the same place only if they are the same. -/
theorem steps_eq_of_placeOf_eq (hdirectory : isRooted directory = true) (h : WrittenAlike a b)
    (hplace : placeOf (fromDirectory directory a) = placeOf (fromDirectory directory b)) :
    steps a = steps b := by
  obtain ⟨names, ha, hplaceA⟩ := placeOf_fromDirectory hdirectory h.first
  obtain ⟨names', hb, hplaceB⟩ := placeOf_fromDirectory hdirectory h.second
  rw [hplaceA, hplaceB, h.opening, List.append_cancel_left_eq] at hplace
  rw [ha, hb, h.opening, hplace]

end SiteSafety.Files
