import SiteSafety.Proofs.Files.Tree
import SiteSafety.Proofs.Text.Words

/-!
# Proofs — Files — Frame

What operations on a tree leave alone, place by place.  Two trees agree but for some files and some
directories (`Tree.Frame`) when every other place holds what it held, and no bytes change outside of
the files.  Directories are made where nothing stands, so making them changes no bytes at all.

* `frame_of_makeParent`, `frame_of_append`: the frames of the two operations.
* `placeOf_inDirectory`: a name in a directory stands one step below it.
-/

namespace SiteSafety.Files

variable {t t' t'' : Tree} {path : String} {p : Place} {files files' dirs dirs' : List Place}

/-! ### Frames -/

/-- The bytes of the file at a place, if a file stands there. -/
def Tree.bytesAt? (t : Tree) (p : Place) : Option ByteArray :=
  match t.at? p with
  | some (.file bytes) => some bytes
  | _                  => none

theorem bytesAt?_congr (h : t'.at? p = t.at? p) : t'.bytesAt? p = t.bytesAt? p := by
  rw [Tree.bytesAt?, h, Tree.bytesAt?]

/-- Nothing changes but the files and the directories given, and no bytes but those of the files. -/
structure Tree.Frame (files dirs : List Place) (t t' : Tree) : Prop where
  bytes : ∀ p ∉ files, t'.bytesAt? p = t.bytesAt? p
  nodes : ∀ p ∉ files, p ∉ dirs → t'.at? p = t.at? p

namespace Tree.Frame

theorem refl (files dirs : List Place) (t : Tree) : Frame files dirs t t :=
  ⟨fun _ _ => rfl, fun _ _ _ => rfl⟩

theorem trans (h : Frame files dirs t t') (h' : Frame files' dirs' t' t'') :
    Frame (files ++ files') (dirs ++ dirs') t t'' where
  bytes p hp := by
    rw [List.mem_append, not_or] at hp
    rw [h'.bytes p hp.2, h.bytes p hp.1]
  nodes p hp hd := by
    rw [List.mem_append, not_or] at hp hd
    rw [h'.nodes p hp.2 hd.2, h.nodes p hp.1 hd.1]

/-- A frame that names more places says less. -/
theorem mono (h : Frame files dirs t t') (hfiles : files ⊆ files') (hdirs : dirs ⊆ dirs') :
    Frame files' dirs' t t' where
  bytes p hp := h.bytes p (mt (@hfiles p) hp)
  nodes p hp hd := h.nodes p (mt (@hfiles p) hp) (mt (@hdirs p) hd)

end Tree.Frame

/-! ### Making directories -/

/-- The places that steps lead through, one for each name. -/
def stopsFrom (here : Place) : List Step → List Place
  | []             => []
  | .root :: rest   => stopsFrom ["/"] rest
  | .here :: rest   => stopsFrom here rest
  | .up :: rest     => stopsFrom (above here) rest
  | .name s :: rest => (here ++ [s]) :: stopsFrom (here ++ [s]) rest

/-- The directories that a path lies in. -/
def parentsOf (path : String) : List Place :=
  match parent? path with
  | none           => []
  | some directory => stopsFrom [] (steps directory)

theorem frame_put_directory (h : t.at? p = none) :
    Tree.Frame [] [p] t (t.put p .directory) where
  bytes q _ := by
    by_cases hq : q = p
    · subst hq
      have hfixed : isFixed q = false := not_isFixed_of_at? (t := t) (by simp [h])
      simp only [Tree.bytesAt?, at?_put_self t q _ hfixed, h]
    · exact bytesAt?_congr (at?_put_of_ne t _ hq)
  nodes q _ hq := at?_put_of_ne t _ (mt List.mem_singleton.mpr hq)

theorem frame_makeAlong (t : Tree) (made : Bool) (here : Place) (ss : List Step) :
    Tree.Frame [] (stopsFrom here ss) t (leftBy (t.makeAlong made here ss)) := by
  fun_induction Tree.makeAlong t made here ss with
  | case1 | case6 => exact .refl _ _ _
  | case2 _ _ _ _ ih | case3 _ _ _ _ ih | case4 _ _ _ _ ih => exact ih
  | case5 t made here s rest next hnone ih => exact (frame_put_directory hnone).trans ih
  | case7 t made here s rest next hdir ih =>
      exact ih.mono (List.Subset.refl _) (List.subset_cons_self _ _)

theorem frame_makeParent (t : Tree) (path : String) :
    Tree.Frame [] (parentsOf path) t (leftBy (t.makeParent path)) := by
  have hparents : parentsOf path = stopsFrom [] (((parent? path).map steps).getD []) := by
    unfold parentsOf
    cases parent? path <;> rfl
  rw [makeParent_eq, hparents]
  exact frame_makeAlong t _ _ _

theorem frame_of_makeParent (h : t.makeParent path = .ok t') :
    Tree.Frame [] (parentsOf path) t t' := by
  have hframe := frame_makeParent t path
  rwa [h] at hframe

theorem frame_of_makeParent_error {cause : Failure}
    (h : t.makeParent path = .error (cause, t')) : Tree.Frame [] (parentsOf path) t t' := by
  have hframe := frame_makeParent t path
  rwa [h] at hframe

/-! ### Writing -/

theorem frame_of_append {more : ByteArray → ByteArray} (h : t.append path more = .ok t') :
    Tree.Frame [placeOf path] [] t t' := by
  obtain ⟨bytes, -, -, -, rfl⟩ := of_append_eq_ok h
  have hsame : ∀ q ∉ [placeOf path],
      (t.put (placeOf path) (.file (bytes ++ more bytes))).at? q = t.at? q :=
    fun q hq => at?_put_of_ne t _ (mt List.mem_singleton.mpr hq)
  exact ⟨fun q hq => bytesAt?_congr (hsame q hq), fun q hq _ => hsame q hq⟩

/-- The bytes of a file are kept, and more are put behind them. -/
theorem bytesAt?_append {more : ByteArray → ByteArray} (h : t.append path more = .ok t') :
    t'.bytesAt? (placeOf path) = some ((t.bytesAt? (placeOf path)).getD .empty ++
      more ((t.bytesAt? (placeOf path)).getD .empty)) := by
  obtain ⟨bytes, hat, -, -, rfl⟩ := of_append_eq_ok h
  have hbytes : (t.bytesAt? (placeOf path)).getD .empty = bytes := by
    rcases hat with hfile | ⟨hnone, rfl⟩
    · simp only [Tree.bytesAt?, hfile, Option.getD_some]
    · simp only [Tree.bytesAt?, hnone, Option.getD_none]
  rw [hbytes, Tree.bytesAt?, at?_put_self t _ _ (not_isFixed_of_at? (not_directory_of_append hat))]

/-! ### Names -/

/-- A text that is one step of a path: a name without a separator, and not one of the two names that
mean a directory. -/
structure IsName (s : String) : Prop where
  separator : '/' ∉ s.toList
  nonempty : s.toList ≠ []
  here : s.toList ≠ ['.']
  up : s.toList ≠ ['.', '.']

theorem stepOf?_of_isName {s : String} (h : IsName s) : stepOf? s.toList = some (.name s) := by
  simp [stepOf?, h.nonempty, h.here, h.up]

theorem IsName.splitOnP {s : String} (h : IsName s) :
    s.toList.splitOnP (· == '/') = [s.toList] := by
  refine List.splitOnP_eq_singleton fun c hc => ?_
  rw [beq_eq_false_iff_ne]
  rintro rfl
  exact h.separator hc

/-- A separator parts what stands before it from what stands behind it. -/
theorem splitOnP_separator (cs ds : List Char) : (cs ++ '/' :: ds).splitOnP (· == '/') =
    cs.splitOnP (· == '/') ++ ds.splitOnP (· == '/') :=
  List.splitOnP_append_cons cs ds rfl

/-- What stands behind a separator adds its steps to those before it. -/
theorem steps_append {cs : List Char} (hcs : cs ≠ []) (ds : List Char) :
    steps (String.ofList (cs ++ '/' :: ds)) =
      steps (String.ofList cs) ++ (ds.splitOnP (· == '/')).filterMap stepOf? := by
  obtain ⟨c, cs, rfl⟩ := List.exists_cons_of_ne_nil hcs
  have hsplit := splitOnP_separator (c :: cs) ds
  obtain ⟨piece, pieces, hpieces⟩ :=
    List.exists_cons_of_ne_nil (List.splitOnP_ne_nil (· == '/') (c :: cs))
  rw [hpieces] at hsplit
  rw [List.cons_append] at hsplit ⊢
  simp only [steps, String.toList_ofList, hsplit, hpieces]
  rw [List.filterMap_append, ← List.append_assoc]
  congr 2
  -- a first step that is no name shows in the first character or in the first piece
  by_cases hroot : c = '/'
  · subst hroot
    rfl
  · by_cases hhere : piece = ['.'] <;> simp [hroot, hhere]

theorem steps_append_separator {cs : List Char} (hcs : cs ≠ []) :
    steps (String.ofList (cs ++ ['/'])) = steps (String.ofList cs) :=
  (steps_append hcs []).trans (List.append_nil _)

theorem steps_root (ds : List Char) :
    steps (String.ofList ('/' :: ds)) =
      [.root] ++ (ds.splitOnP (· == '/')).filterMap stepOf? := by
  have hsplit := splitOnP_separator [] ds
  rw [List.nil_append] at hsplit
  simp only [steps, String.toList_ofList, hsplit]
  rfl

theorem steps_name {name : String} (h : IsName name) : steps name = [.name name] := by
  obtain ⟨c, ns, hns⟩ := List.exists_cons_of_ne_nil h.nonempty
  have hroot : c ≠ '/' := by
    rintro rfl
    exact h.separator (hns ▸ List.mem_cons_self)
  have hhere : c :: ns ≠ ['.'] := hns ▸ h.here
  have hsplit := h.splitOnP
  have hstep := stepOf?_of_isName h
  rw [hns] at hsplit hstep
  simp only [steps, hns, hsplit, List.filterMap_cons_some hstep, List.filterMap_nil]
  simp [hroot, hhere]

/-- What is put in a directory adds its steps to those of the directory. -/
theorem steps_inDirectory_of_ne {directory : String} (hne : directory ≠ "") (path : String) :
    steps (inDirectory directory path) =
      steps directory ++ (path.toList.splitOnP (· == '/')).filterMap stepOf? := by
  obtain ⟨front, c, hfront⟩ : ∃ front c, directory = String.ofList (front ++ [c]) := by
    obtain ⟨front, c, hfront⟩ := (List.eq_nil_or_concat directory.toList).resolve_left
      (mt String.toList_eq_nil_iff.mp hne)
    exact ⟨front, c, by rw [← List.concat_eq_append, ← hfront, String.ofList_toList]⟩
  subst hfront
  by_cases hc : c = '/'
  · subst hc
    have hplace : inDirectory (String.ofList (front ++ ['/'])) path =
        String.ofList (front ++ '/' :: path.toList) := by
      simp [inDirectory, endsInSeparator, ← String.toList_inj]
    rw [hplace]
    cases front with
    | nil => rw [List.nil_append, steps_root, List.nil_append, steps_root]; rfl
    | cons a front =>
        rw [steps_append (List.cons_ne_nil a front),
          steps_append_separator (List.cons_ne_nil a front)]
  · have hplace : inDirectory (String.ofList (front ++ [c])) path =
        String.ofList ((front ++ [c]) ++ '/' :: path.toList) := by
      simp [inDirectory, endsInSeparator, hc, ← String.toList_inj]
    rw [hplace, steps_append (List.concat_ne_nil c front)]

/-- A name in a directory is one more step. -/
theorem steps_inDirectory (directory : String) {name : String} (h : IsName name) :
    steps (inDirectory directory name) = steps directory ++ [.name name] := by
  by_cases hne : directory = ""
  · subst hne
    exact steps_name h
  · rw [steps_inDirectory_of_ne hne, h.splitOnP, List.filterMap_cons_some (stepOf?_of_isName h),
      List.filterMap_nil]

theorem placeOf_inDirectory (directory : String) {name : String} (h : IsName name) :
    placeOf (inDirectory directory name) = placeOf directory ++ [name] := by
  rw [placeOf, steps_inDirectory directory h, placeFrom_append]
  rfl

/-- A step of a path that is a name is a name. -/
theorem isName_of_mem_steps {s : String} (h : .name s ∈ steps path) : IsName s := by
  obtain ⟨piece, hpiece, hstep⟩ : ∃ piece ∈ path.toList.splitOnP (· == '/'),
      stepOf? piece = some (.name s) := by
    rw [steps, List.mem_append] at h
    rcases h with h | h
    · split at h <;> simp at h
    · exact List.mem_filterMap.mp h
  have hseparator : '/' ∉ piece := fun hmem => by
    simpa using Text.not_mem_of_mem_splitOnP hpiece '/' hmem
  unfold stepOf? at hstep
  split at hstep
  · cases hstep
  next hplain =>
    split at hstep
    · cases hstep
    next hup =>
      cases hstep
      simp only [List.isEmpty_iff, Bool.or_eq_true, beq_iff_eq, not_or] at hplain hup
      constructor <;> rw [String.toList_ofList]
      exacts [hseparator, hplain.1, hplain.2, hup]

/-- A path that ends in a name names a place that ends in it. -/
theorem placeOf_of_fileName? {s : String} (h : fileName? path = some s) :
    IsName s ∧ ∃ p, placeOf path = p ++ [s] := by
  have hlast : (steps path).getLast? = some (.name s) := by
    unfold fileName? at h
    split at h
    next name hname =>
      cases h
      exact hname
    · cases h
  obtain ⟨front, hfront⟩ := List.getLast?_eq_some_iff.mp hlast
  refine ⟨isName_of_mem_steps (List.mem_of_getLast? hlast), placeFrom [] front, ?_⟩
  rw [placeOf, hfront, placeFrom_append]
  rfl

/-- A name with an ending is a name, and a longer one. -/
theorem IsName.append {s ending : String} (hs : IsName s) (h : IsName ending)
    (hlong : 2 < ending.length) : IsName (s ++ ending) where
  separator := by
    rw [String.toList_append, List.mem_append, not_or]
    exact ⟨hs.separator, h.separator⟩
  nonempty := by simp [hs.nonempty]
  here heq := by
    have hlength := congrArg List.length heq
    rw [String.length_toList, String.length_append, List.length_singleton] at hlength
    omega
  up heq := by
    have hlength : (s ++ ending).toList.length = 2 := congrArg List.length heq
    rw [String.length_toList, String.length_append] at hlength
    omega

/-- A longer name at the end of a path makes another place. -/
theorem placeOf_withFileName_ne (path : String) {ending : String} (h : IsName ending)
    (hlong : 2 < ending.length) :
    placeOf (withFileName path ((fileName? path).getD "" ++ ending)) ≠ placeOf path := by
  cases hname : fileName? path with
  | none =>
      rw [withFileName, hname, if_neg (by simp), Option.getD_none, String.empty_append,
        placeOf_inDirectory path h]
      intro heq
      simpa using congrArg List.length heq
  | some s =>
      obtain ⟨hs, p, hp⟩ := placeOf_of_fileName? hname
      rw [withFileName, hname, if_pos Option.isSome_some, Option.getD_some, hp,
        placeOf_inDirectory _ (hs.append h hlong)]
      intro heq
      have hlast := congrArg String.length (List.append_inj_right' heq rfl |> List.singleton_inj.mp)
      rw [String.length_append] at hlast
      omega

end SiteSafety.Files
