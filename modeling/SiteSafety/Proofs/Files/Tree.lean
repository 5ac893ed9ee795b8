import SiteSafety.Files.Tree

/-!
# Proofs — Files — Tree

What operations on a tree leave as it was.  Making directories and empty files only ever adds to a
tree (`Grows`), also where it fails, and a path that can be followed can be followed in every tree
with the same directories.

* `readText_append`: bytes put behind those of a file are read behind them.
* `makeParent_again`: directories that were made can be made again.
-/

namespace SiteSafety.Files

variable {t t' t'' : Tree} {path : String}

/-! ### Places -/

/-- The place that steps lead to, whatever stands on the way. -/
def placeFrom (here : Place) : List Step → Place
  | [] => here
  | .root :: rest => placeFrom ["/"] rest
  | .here :: rest => placeFrom here rest
  | .up :: rest => placeFrom (above here) rest
  | .name s :: rest => placeFrom (here ++ [s]) rest

/-- The place that a path names. -/
def placeOf (path : String) : Place := placeFrom [] (steps path)

theorem walk_eq_placeFrom {here p : Place} {ss : List Step} (h : t.walk here ss = .ok p) :
    p = placeFrom here ss := by
  fun_induction Tree.walk t here ss with
  | case1 here => cases h; rfl
  | case2 here rest ih => exact ih h
  | case3 here rest ih => exact ih h
  | case4 here rest ih => exact ih h
  | case5 here s => cases h; rfl
  | case6 here s rest hne hnone => cases h
  | case7 here s rest hne bytes hfile => cases h
  | case8 here s rest hne hdir ih => exact ih h

theorem placeFrom_append (here : Place) (ss ss' : List Step) :
    placeFrom here (ss ++ ss') = placeFrom (placeFrom here ss) ss' := by
  induction ss generalizing here with
  | nil => rfl
  | cons s ss ih => cases s <;> exact ih _

/-- A point at the end of a path leads nowhere else. -/
theorem placeFrom_route (path : String) : placeFrom [] (route path) = placeOf path := by
  rw [route, placeFrom_append, placeOf]
  split <;> rfl

theorem resolve_eq_placeOf {p : Place} (h : t.resolve path = .ok p) : p = placeOf path := by
  unfold Tree.resolve at h
  split at h
  · cases h
  · rw [walk_eq_placeFrom h, placeFrom_route]

/-! ### Directories -/

/-- Every directory of a tree is one of the other. -/
def Tree.KeepsDirectories (t t' : Tree) : Prop :=
  ∀ p, t.at? p = some .directory → t'.at? p = some .directory

/-- What can be followed depends on the directories alone. -/
theorem walk_of_keepsDirectories (hkeeps : t.KeepsDirectories t') {here p : Place} {ss : List Step}
    (h : t.walk here ss = .ok p) : t'.walk here ss = .ok p := by
  fun_induction Tree.walk t here ss with
  | case1 here => exact h
  | case2 here rest ih => exact ih h
  | case3 here rest ih => exact ih h
  | case4 here rest ih => exact ih h
  | case5 here s => exact h
  | case6 here s rest hne hnone => cases h
  | case7 here s rest hne bytes hfile => cases h
  | case8 here s rest hne hdir ih =>
      rw [Tree.walk.eq_6 _ _ _ _ hne, hkeeps _ hdir]
      exact ih h

theorem resolve_of_keepsDirectories (hkeeps : t.KeepsDirectories t') {p : Place}
    (h : t.resolve path = .ok p) : t'.resolve path = .ok p := by
  unfold Tree.resolve at h ⊢
  split at h
  · cases h
  next hne =>
    rw [if_neg hne]
    exact walk_of_keepsDirectories hkeeps h

/-! ### Growth -/

/-- What stands in a tree stands in the other, and the further files of that one are empty. -/
structure Tree.Grows (t t' : Tree) : Prop where
  kept : ∀ p n, t.at? p = some n → t'.at? p = some n
  made : ∀ p bytes, t.at? p = none → t'.at? p = some (.file bytes) → bytes = .empty

theorem Tree.Grows.refl (t : Tree) : t.Grows t where
  kept _ _ h := h
  made p bytes hnone hfile := by
    rw [hnone] at hfile
    cases hfile

theorem Tree.Grows.trans (h : t.Grows t') (h' : t'.Grows t'') : t.Grows t'' where
  kept p n hn := h'.kept p n (h.kept p n hn)
  made p bytes hnone hfile := by
    cases hmid : t'.at? p with
    | none => exact h'.made p bytes hmid hfile
    | some n =>
        rw [h'.kept p n hmid] at hfile
        cases hfile
        exact h.made p bytes hnone hmid

/-- A file that a tree has gained holds no bytes, and one that held none still holds none. -/
theorem Tree.Grows.eq_empty (h : t.Grows t') {p : Place}
    (hempty : ∀ bytes, t.at? p = some (.file bytes) → bytes = .empty) {bytes : ByteArray}
    (hfile : t'.at? p = some (.file bytes)) : bytes = .empty := by
  cases hat : t.at? p with
  | none => exact h.made p bytes hat hfile
  | some n =>
      rw [h.kept p _ hat] at hfile
      cases hfile
      exact hempty bytes hat

theorem Tree.Grows.keepsDirectories (h : t.Grows t') : t.KeepsDirectories t' :=
  fun p hp => h.kept p _ hp

theorem not_isFixed_of_at? {p : Place} (h : t.at? p ≠ some .directory) : isFixed p = false := by
  refine Bool.eq_false_iff.mpr fun hfixed => h ?_
  rw [Tree.at?, if_pos hfixed]

/-- A node put where nothing stands lets a tree grow, unless it is a file with bytes. -/
theorem grows_put {p : Place} {n : Node} (hnone : t.at? p = none)
    (hempty : ∀ bytes, n = .file bytes → bytes = .empty) : t.Grows (t.put p n) := by
  have hfixed : isFixed p = false := not_isFixed_of_at? (t := t) (by simp [hnone])
  constructor
  · intro q m hq
    have hne : q ≠ p := by
      rintro rfl
      rw [hnone] at hq
      cases hq
    rw [at?_put_of_ne t n hne, hq]
  · intro q bytes hq hfile
    by_cases hqp : q = p
    · subst hqp
      rw [at?_put_self t q n hfixed] at hfile
      cases hfile
      exact hempty bytes rfl
    · rw [at?_put_of_ne t n hqp, hq] at hfile
      cases hfile

/-! ### Making directories -/

/-- The tree that is left when directories were made, or could not all be made. -/
def leftBy : Except (Failure × Tree) Tree → Tree
  | .ok t         => t
  | .error (_, t) => t

theorem grows_makeAlong (t : Tree) (made : Bool) (here : Place) (ss : List Step) :
    t.Grows (leftBy (t.makeAlong made here ss)) := by
  fun_induction Tree.makeAlong t made here ss with
  | case1 | case6 => exact .refl _
  | case2 _ _ _ _ ih | case3 _ _ _ _ ih | case4 _ _ _ _ ih | case7 _ _ _ _ _ _ _ ih => exact ih
  | case5 t made here s rest next hnone ih => exact (grows_put hnone (by simp)).trans ih

theorem grows_of_makeAlong {made : Bool} {here : Place} {ss : List Step}
    (h : t.makeAlong made here ss = .ok t') : t.Grows t' := by
  have hgrows := grows_makeAlong t made here ss
  rwa [h] at hgrows

theorem grows_of_makeAlong_error {made : Bool} {here : Place} {ss : List Step} {cause : Failure}
    (h : t.makeAlong made here ss = .error (cause, t')) : t.Grows t' := by
  have hgrows := grows_makeAlong t made here ss
  rwa [h] at hgrows

/-- Directories that were made are found where they are kept. -/
theorem makeAlong_again {made again : Bool} {here : Place} {ss : List Step}
    (h : t.makeAlong made here ss = .ok t') (hkeeps : t'.KeepsDirectories t'') :
    t''.makeAlong again here ss = .ok t'' := by
  fun_induction Tree.makeAlong t made here ss with
  | case1 => rw [Tree.makeAlong]
  | case2 _ _ _ _ ih | case3 _ _ _ _ ih | case4 _ _ _ _ ih => rw [Tree.makeAlong, ih h]
  | case5 t made here s rest next hnone ih =>
      have hfixed : isFixed next = false := not_isFixed_of_at? (t := t) (by simp [hnone])
      have hmade : t'.at? next = some .directory :=
        (grows_of_makeAlong h).kept next _ (at?_put_self t next _ hfixed)
      rw [Tree.makeAlong, hkeeps next hmade]
      exact ih h
  | case6 => cases h
  | case7 t made here s rest next hdir ih =>
      have hkept : t'.at? next = some .directory := (grows_of_makeAlong h).kept next _ hdir
      rw [Tree.makeAlong, hkeeps next hkept]
      exact ih h

/-- Of a path that lies in no directory, no step leads to one. -/
theorem makeParent_eq (t : Tree) (path : String) :
    t.makeParent path = t.makeAlong false [] (((parent? path).map steps).getD []) := by
  unfold Tree.makeParent
  cases parent? path with
  | none => rfl
  | some directory =>
      by_cases hempty : directory = ""
      · subst hempty
        rfl
      · exact if_neg (by simpa using hempty)

theorem grows_makeParent (t : Tree) (path : String) : t.Grows (leftBy (t.makeParent path)) := by
  rw [makeParent_eq]
  exact grows_makeAlong t _ _ _

theorem grows_of_makeParent (h : t.makeParent path = .ok t') : t.Grows t' := by
  have hgrows := grows_makeParent t path
  rwa [h] at hgrows

theorem grows_of_makeParent_error {cause : Failure} (h : t.makeParent path = .error (cause, t')) :
    t.Grows t' := by
  have hgrows := grows_makeParent t path
  rwa [h] at hgrows

theorem makeParent_again (h : t.makeParent path = .ok t') (hkeeps : t'.KeepsDirectories t'') :
    t''.makeParent path = .ok t'' := by
  rw [makeParent_eq] at h ⊢
  exact makeAlong_again h hkeeps

/-! ### Appending -/

/-- What an append does: the bytes go behind those that are there, none where there is no file. -/
theorem of_append_eq_ok {more : ByteArray → ByteArray} (h : t.append path more = .ok t') :
    ∃ bytes, (t.at? (placeOf path) = some (.file bytes) ∨
        t.at? (placeOf path) = none ∧ bytes = .empty) ∧
      t.resolve path = .ok (placeOf path) ∧ endsInSeparator path = false ∧
      t' = t.put (placeOf path) (.file (bytes ++ more bytes)) := by
  unfold Tree.append at h
  split at h
  · cases h
  next p hp =>
    obtain rfl := resolve_eq_placeOf hp
    split at h
    · cases h
    next hsep =>
      rw [Bool.not_eq_true] at hsep
      split at h
      · cases h
      next bytes hfile =>
        cases h
        exact ⟨bytes, .inl hfile, hp, hsep, rfl⟩
      next hnone =>
        split at h
        · cases h
          exact ⟨.empty, .inr ⟨hnone, rfl⟩, hp, hsep, by rw [ByteArray.empty_append]⟩
        · cases h
        · cases h

theorem keepsDirectories_put {p : Place} {bytes : ByteArray} (h : t.at? p ≠ some .directory) :
    t.KeepsDirectories (t.put p (.file bytes)) := by
  intro q hq
  have hne : q ≠ p := by
    rintro rfl
    exact h hq
  rw [at?_put_of_ne t _ hne, hq]

theorem not_directory_of_append {bytes : ByteArray} {p : Place}
    (h : t.at? p = some (.file bytes) ∨ t.at? p = none ∧ bytes = .empty) :
    t.at? p ≠ some .directory := by
  rcases h with h | ⟨h, -⟩ <;> simp [h]

theorem keepsDirectories_of_append {more : ByteArray → ByteArray}
    (h : t.append path more = .ok t') : t.KeepsDirectories t' := by
  obtain ⟨bytes, hat, -, -, rfl⟩ := of_append_eq_ok h
  exact keepsDirectories_put (not_directory_of_append hat)

theorem isFile_of_append {more : ByteArray → ByteArray} (h : t.append path more = .ok t')
    {p : Place} {bytes : ByteArray} (hfile : t.at? p = some (.file bytes)) :
    ∃ bytes', t'.at? p = some (.file bytes') := by
  obtain ⟨-, -, -, -, rfl⟩ := of_append_eq_ok h
  by_cases hp : p = placeOf path
  · subst hp
    have hne : t.at? (placeOf path) ≠ some .directory := by simp [hfile]
    exact ⟨_, at?_put_self t _ _ (not_isFixed_of_at? hne)⟩
  · exact ⟨bytes, by rw [at?_put_of_ne t _ hp, hfile]⟩

/-- What stands at a place and is put there again changes nothing. -/
theorem at?_put_again {p : Place} {n : Node} (hfixed : isFixed p = false) (h : t.at? p = some n)
    (q : Place) : (t.put p n).at? q = t.at? q := by
  by_cases hq : q = p
  · rw [hq, at?_put_self t _ _ hfixed, h]
  · rw [at?_put_of_ne t _ hq]

/-- A file that is touched is there, and nothing else changes. -/
theorem grows_of_touch (h : t.touch path = .ok t') : t.Grows t' := by
  obtain ⟨bytes, hat, -, -, rfl⟩ := of_append_eq_ok h
  have hfixed := not_isFixed_of_at? (not_directory_of_append hat)
  -- the bytes that were there are put again, so every place holds what it held
  rw [ByteArray.append_empty]
  rcases hat with hfile | ⟨hnone, rfl⟩
  · have hsame := at?_put_again hfixed hfile
    constructor
    · intro p n hn
      rw [hsame, hn]
    · intro p bytes hnone hfile
      rw [hsame, hnone] at hfile
      cases hfile
  · exact grows_put hnone (by simp)

/-- A file that was touched can be touched again wherever it is still a file. -/
theorem touch_again (h : t.touch path = .ok t') (hkeeps : t'.KeepsDirectories t'')
    {bytes : ByteArray} (hfile : t''.at? (placeOf path) = some (.file bytes)) :
    ∃ more, t''.touch path = .ok more := by
  obtain ⟨-, -, hresolve, hsep, -⟩ := of_append_eq_ok h
  have hresolve' := resolve_of_keepsDirectories hkeeps
    (resolve_of_keepsDirectories (grows_of_touch h).keepsDirectories hresolve)
  refine ⟨t''.put (placeOf path) (.file (bytes ++ .empty)), ?_⟩
  rw [Tree.touch, Tree.append, hresolve']
  simp only [hsep, Bool.false_eq_true, if_false, hfile]

theorem isFile_of_touch (h : t.touch path = .ok t') :
    ∃ bytes, t'.at? (placeOf path) = some (.file bytes) := by
  obtain ⟨bytes, hat, -, -, rfl⟩ := of_append_eq_ok h
  exact ⟨_, at?_put_self t _ _ (not_isFixed_of_at? (not_directory_of_append hat))⟩

/-! ### Texts -/

theorem fromUTF8?_eq_some_iff {bytes : ByteArray} {text : String} :
    String.fromUTF8? bytes = some text ↔ bytes = text.toUTF8 := by
  rw [String.toUTF8_eq_toByteArray, String.fromUTF8?]
  constructor
  · intro h
    split at h
    · cases h
      rfl
    · cases h
  · rintro rfl
    rw [dif_pos text.isValidUTF8]
    rfl

/-- Bytes are read where they are at the end of the path. -/
theorem readBytes_eq_ok_iff {bytes : ByteArray} :
    t.readBytes path = .ok bytes ↔ t.resolve path = .ok (placeOf path) ∧
      endsInSeparator path = false ∧ t.at? (placeOf path) = some (.file bytes) := by
  unfold Tree.readBytes Tree.find
  constructor
  · intro h
    cases hp : t.resolve path with
    | error e => simp [hp] at h
    | ok p =>
        obtain rfl := resolve_eq_placeOf hp
        rw [hp] at h
        cases hat : t.at? (placeOf path) with
        | none => simp [hat] at h
        | some n =>
            cases n with
            | directory => simp [hat] at h
            | file bytes =>
                cases hsep : endsInSeparator path with
                | true => simp [hat, hsep] at h
                | false =>
                    simp only [hat, hsep, Bool.false_eq_true, if_false] at h
                    cases h
                    exact ⟨rfl, rfl, rfl⟩
  · rintro ⟨hp, hsep, hat⟩
    simp only [hp, hsep, hat, Bool.false_eq_true, if_false]

/-- A text is read where its bytes are. -/
theorem readText_eq_ok_iff {text : String} :
    t.readText path = .ok text ↔ t.resolve path = .ok (placeOf path) ∧
      endsInSeparator path = false ∧ t.at? (placeOf path) = some (.file text.toUTF8) := by
  rw [← readBytes_eq_ok_iff, Tree.readText]
  cases hread : t.readBytes path with
  | error cause => simp
  | ok bytes =>
      rw [Except.ok.injEq, ← fromUTF8?_eq_some_iff]
      dsimp only
      cases String.fromUTF8? bytes <;> simp

theorem readText_of_grows (hgrows : t.Grows t') {text : String} (h : t.readText path = .ok text) :
    t'.readText path = .ok text := by
  obtain ⟨hp, hsep, hat⟩ := readText_eq_ok_iff.mp h
  exact readText_eq_ok_iff.mpr
    ⟨resolve_of_keepsDirectories hgrows.keepsDirectories hp, hsep, hgrows.kept _ _ hat⟩

/-- Text put behind that of a file is read behind it; a file that is not there has no text. -/
theorem readText_append {more : ByteArray → ByteArray} {old new : String}
    (h : t.append path more = .ok t')
    (hold : t.readText path = .ok old ∨
      old = "" ∧ ∀ bytes, t.at? (placeOf path) = some (.file bytes) → bytes = .empty)
    (hnew : more old.toUTF8 = new.toUTF8) : t'.readText path = .ok (old ++ new) := by
  obtain ⟨bytes, hat, hresolve, hsep, rfl⟩ := of_append_eq_ok h
  have hbytes : bytes = old.toUTF8 := by
    rcases hold with hold | ⟨rfl, hempty⟩
    · rw [(readText_eq_ok_iff.mp hold).2.2] at hat
      rcases hat with hfile | ⟨hnone, -⟩
      · cases hfile
        rfl
      · cases hnone
    · rcases hat with hfile | ⟨-, rfl⟩
      · exact hempty bytes hfile
      · rfl
  refine readText_eq_ok_iff.mpr ⟨?_, hsep, ?_⟩
  · exact resolve_of_keepsDirectories (keepsDirectories_put (not_directory_of_append hat)) hresolve
  · rw [at?_put_self t _ _ (not_isFixed_of_at? (not_directory_of_append hat)), hbytes, hnew]
    simp

end SiteSafety.Files
