import SiteSafety.Proofs.Files.Tree

/-!
# Proofs — Files — Room

When files can be made, and go on being made, whatever else is made beside them.  A tree lies
within another one when no place is a directory in one of them and a file in the other
(`Tree.Within`).  A path has room when a file can be made there and the tree it is made in lies
within one fixed tree (`Tree.HasRoom`): that tree says of every place what it may become.

* `HasRoom.makes`: a path that has room at first still has room in every later tree that lies
  within the fixed one; making its directories and writing to it never fail.
* `HasRoom.reads`: reading it finds the file, or that there is none.
-/

namespace SiteSafety.Files

variable {t t' t'' full : Tree} {path : String}

/-! ### Trees within others -/

/-- Every directory of a tree is a directory of the other, and every file a file. -/
structure Tree.Within (t t' : Tree) : Prop where
  directories : t.KeepsDirectories t'
  files : ∀ p bytes, t.at? p = some (.file bytes) → ∃ bytes', t'.at? p = some (.file bytes')

namespace Tree.Within

theorem refl (t : Tree) : t.Within t where
  directories _ h := h
  files _ bytes h := ⟨bytes, h⟩

theorem trans (h : t.Within t') (h' : t'.Within t'') : t.Within t'' where
  directories p hp := h'.directories p (h.directories p hp)
  files p bytes hp := by
    obtain ⟨bytes', hp'⟩ := h.files p bytes hp
    exact h'.files p bytes' hp'

theorem of_grows (h : t.Grows t') : t.Within t' where
  directories := h.keepsDirectories
  files p bytes hp := ⟨bytes, h.kept p _ hp⟩

theorem of_append {more : ByteArray → ByteArray} (h : t.append path more = .ok t') :
    t.Within t' where
  directories := keepsDirectories_of_append h
  files _ _ hp := isFile_of_append h hp

/-- Where there is to be a directory, there is no file. -/
theorem not_file (h : t.Within full) {p : Place} (hp : full.at? p = some .directory)
    (bytes : ByteArray) : t.at? p ≠ some (.file bytes) := by
  intro hfile
  obtain ⟨bytes', hp'⟩ := h.files p bytes hfile
  rw [hp] at hp'
  cases hp'

/-- Where there is to be a file, there is no directory. -/
theorem not_directory (h : t.Within full) {p : Place} {bytes : ByteArray}
    (hp : full.at? p = some (.file bytes)) : t.at? p ≠ some .directory := by
  intro hdir
  rw [h.directories p hdir] at hp
  cases hp

/-- A node may be put where the other tree has one of its kind. -/
theorem put (h : t.Within full) {p : Place} {n : Node} (hfixed : isFixed p = false)
    (hdir : n = .directory → full.at? p = some .directory)
    (hfile : ∀ bytes, n = .file bytes → ∃ bytes', full.at? p = some (.file bytes')) :
    (t.put p n).Within full := by
  constructor
  · intro q hq
    by_cases hqp : q = p
    · subst hqp
      rw [at?_put_self t q n hfixed] at hq
      exact hdir (Option.some.inj hq)
    · exact h.directories q (by rw [← hq, at?_put_of_ne t n hqp])
  · intro q bytes hq
    by_cases hqp : q = p
    · subst hqp
      rw [at?_put_self t q n hfixed] at hq
      exact hfile bytes (Option.some.inj hq)
    · exact h.files q bytes (by rw [← hq, at?_put_of_ne t n hqp])

theorem of_empty (full : Tree) : ({} : Tree).Within full where
  directories p hp := by
    simp only [Tree.at?] at hp ⊢
    split at hp
    next hfixed => rw [if_pos hfixed]
    next => cases hp
  files p bytes hp := by
    simp only [Tree.at?] at hp
    split at hp <;> cases hp

end Tree.Within

/-! ### Making directories -/

/-- Directories that can be made in a tree can be made in every larger one within the tree that
they are to be in. -/
theorem makeAlong_within {made again : Bool} {here : Place} {ss : List Step}
    (h : t.makeAlong made here ss = .ok t') (hfull : t'.Within full) {u : Tree} (htu : t.Within u)
    (hu : u.Within full) :
    ∃ u', u.makeAlong again here ss = .ok u' ∧ t'.Within u' ∧ u'.Within full := by
  revert u again
  fun_induction Tree.makeAlong t made here ss with
  | case1 =>
      intro again u htu hu
      cases h
      exact ⟨u, by rw [Tree.makeAlong], htu, hu⟩
  | case2 _ _ _ _ ih | case3 _ _ _ _ ih | case4 _ _ _ _ ih =>
      intro again u htu hu
      rw [Tree.makeAlong]
      exact ih h htu hu
  | case5 t made here s rest next hnone ih =>
      intro again u htu hu
      have hfixed : isFixed next = false := not_isFixed_of_at? (t := t) (by simp [hnone])
      have hmade : full.at? next = some .directory :=
        hfull.directories _ ((grows_of_makeAlong h).kept _ _ (at?_put_self t next _ hfixed))
      rw [Tree.makeAlong]
      -- the larger tree may have the directory already, but no file in its place
      cases hat : u.at? next with
      | none =>
          have hput : (t.put next .directory).Within (u.put next .directory) :=
            (htu.trans (.of_grows (grows_put hat (by simp)))).put hfixed
              (fun _ => at?_put_self u next _ hfixed) (by simp)
          exact ih h hput (hu.put hfixed (fun _ => hmade) (by simp))
      | some n =>
          cases n with
          | file bytes => exact absurd hat (hu.not_file hmade bytes)
          | directory => exact ih h (htu.put hfixed (fun _ => hat) (by simp)) hu
  | case6 => cases h
  | case7 t made here s rest next hdir ih =>
      intro again u htu hu
      rw [Tree.makeAlong, htu.directories next hdir]
      exact ih h htu hu

theorem makeParent_within {u : Tree} (h : t.makeParent path = .ok t') (hfull : t'.Within full)
    (htu : t.Within u) (hu : u.Within full) :
    ∃ u', u.makeParent path = .ok u' ∧ t'.Within u' ∧ u'.Within full := by
  rw [makeParent_eq] at h ⊢
  exact makeAlong_within h hfull htu hu

/-! ### Making files -/

/-- Where an append made a file, there was a directory for it. -/
theorem directory_of_append {more : ByteArray → ByteArray} (h : t.append path more = .ok t')
    (hnone : t.at? (placeOf path) = none) :
    t.at? (placeOf path).dropLast = some .directory := by
  obtain ⟨-, -, hresolve, hsep, -⟩ := of_append_eq_ok h
  unfold Tree.append at h
  simp only [hresolve, hsep, hnone, Bool.false_eq_true, if_false] at h
  split at h
  next hdir => exact hdir
  · cases h
  · cases h

/-- What can be written to in a tree can be written to in every larger one within the tree that
the file is to be in. -/
theorem append_within {more more' : ByteArray → ByteArray} {u : Tree}
    (h : t.append path more = .ok t') (hfull : t'.Within full) (htu : t.Within u)
    (hu : u.Within full) : ∃ u', u.append path more' = .ok u' ∧ u'.Within full := by
  obtain ⟨bytes, hat, hresolve, hsep, rfl⟩ := of_append_eq_ok h
  have hfixed := not_isFixed_of_at? (not_directory_of_append hat)
  obtain ⟨last, hfile⟩ := hfull.files _ _ (at?_put_self t _ _ hfixed)
  have hput (bytes : ByteArray) : (u.put (placeOf path) (.file bytes)).Within full :=
    hu.put hfixed (by simp) fun _ _ => ⟨last, hfile⟩
  have hresolve' := resolve_of_keepsDirectories htu.directories hresolve
  unfold Tree.append
  simp only [hresolve', hsep, Bool.false_eq_true, if_false]
  cases hnow : u.at? (placeOf path) with
  | some n =>
      cases n with
      | directory => exact absurd hnow (hu.not_directory hfile)
      | file old => exact ⟨_, rfl, hput _⟩
  | none =>
      -- the file is new in both trees, so the smaller one has the directory for it
      have hnone : t.at? (placeOf path) = none := by
        obtain hold | ⟨hnone, -⟩ := hat
        · obtain ⟨old, hold'⟩ := htu.files _ _ hold
          rw [hnow] at hold'
          cases hold'
        · exact hnone
      simp only [htu.directories _ (directory_of_append h hnone)]
      exact ⟨_, rfl, hput _⟩

/-! ### Room -/

/-- A file can be made at a path, and what is made lies within the full tree. -/
def Tree.HasRoom (t full : Tree) (path : String) : Prop :=
  ∃ made tree, t.makeParent path = .ok made ∧ made.touch path = .ok tree ∧ tree.Within full

/-- In an empty tree there is room for a file that the full tree has, if it needs no directory. -/
theorem hasRoom_of_empty {p : Place} {bytes : ByteArray}
    (hmake : ({} : Tree).makeParent path = .ok {})
    (htouch : ({} : Tree).touch path = .ok (Tree.put {} p (.file .empty)))
    (hfixed : isFixed p = false) (hfile : full.at? p = some (.file bytes)) :
    ({} : Tree).HasRoom full path :=
  ⟨_, _, hmake, htouch, (Tree.Within.of_empty full).put hfixed (by simp) fun _ _ => ⟨_, hfile⟩⟩

theorem Tree.HasRoom.endsInSeparator_eq (h : t.HasRoom full path) :
    endsInSeparator path = false := by
  obtain ⟨made, tree, -, htouch, -⟩ := h
  obtain ⟨-, -, -, hsep, -⟩ := of_append_eq_ok htouch
  exact hsep

/-- **A path that has room keeps it.** -/
theorem Tree.HasRoom.makes {u : Tree} (h : t.HasRoom full path) (htu : t.Within u)
    (hu : u.Within full) (more : ByteArray → ByteArray) :
    ∃ made tree, u.makeParent path = .ok made ∧ made.append path more = .ok tree ∧
      t.Within tree ∧ tree.Within full := by
  obtain ⟨made₀, tree₀, hmade₀, htouch₀, hfull⟩ := h
  have hmadefull : made₀.Within full := (Within.of_append htouch₀).trans hfull
  obtain ⟨made, hmade, hmadein, hmadewithin⟩ := makeParent_within hmade₀ hmadefull htu hu
  obtain ⟨tree, happend, htree⟩ := append_within htouch₀ hfull hmadein hmadewithin
  exact ⟨made, tree, hmade, happend,
    (htu.trans (.of_grows (grows_of_makeParent hmade))).trans (.of_append happend), htree⟩

/-- What cannot be followed within a tree that has the directories is not there yet. -/
theorem walk_within (h : t.Within full) {here p : Place} {ss : List Step}
    (hfull : full.walk here ss = .ok p) :
    t.walk here ss = .ok p ∨ t.walk here ss = .error .notFound := by
  fun_induction Tree.walk t here ss with
  | case1 here => exact .inl hfull
  | case2 here rest ih => exact ih hfull
  | case3 here rest ih => exact ih hfull
  | case4 here rest ih => exact ih hfull
  | case5 here s => exact .inl hfull
  | case6 here s rest hne hnone => exact .inr rfl
  | case7 here s rest hne bytes hfile =>
      obtain ⟨bytes', hfile'⟩ := h.files _ _ hfile
      rw [Tree.walk.eq_6 _ _ _ _ hne, hfile'] at hfull
      cases hfull
  | case8 here s rest hne hdir ih =>
      rw [Tree.walk.eq_6 _ _ _ _ hne, h.directories _ hdir] at hfull
      exact ih hfull

/-- **A path that has room can be read**: there is a file, or none. -/
theorem Tree.HasRoom.reads {u : Tree} (h : t.HasRoom full path) (hu : u.Within full) :
    (∃ bytes, u.at? (placeOf path) = some (.file bytes) ∧ u.readBytes path = .ok bytes) ∨
      u.readBytes path = .error .notFound := by
  obtain ⟨made, tree, -, htouch, hfull⟩ := h
  obtain ⟨last, hfile⟩ := isFile_of_touch htouch
  obtain ⟨last', hfile'⟩ := hfull.files _ _ hfile
  obtain ⟨-, -, hresolve, hsep, -⟩ := of_append_eq_ok htouch
  have hresolve' := resolve_of_keepsDirectories
    ((Within.of_append htouch).trans hfull).directories hresolve
  have hwalk : u.resolve path = .ok (placeOf path) ∨ u.resolve path = .error .notFound := by
    unfold Tree.resolve at hresolve' ⊢
    split at hresolve'
    · cases hresolve'
    next hne =>
      rw [if_neg hne]
      exact walk_within hu hresolve'
  unfold Tree.readBytes Tree.find
  obtain hok | hmissing := hwalk
  · simp only [hok, hsep]
    cases hnow : u.at? (placeOf path) with
    | none => simp
    | some n =>
        cases n with
        | directory => exact absurd hnow (hu.not_directory hfile')
        | file bytes => exact .inl ⟨bytes, rfl, rfl⟩
  · simp [hmissing]

end SiteSafety.Files
