import SiteSafety.Proofs.Files.Frame
import SiteSafety.Proofs.Memory.Refinement

/-!
# Proofs — Memory — Preservation

What an append leaves alone in the files.  An append that is refused or fails makes directories and
a lock file at most; one that is done changes the file of its scope as well, behind the bytes that
were there.  **Nothing is written before all that can fail has been tried**, and the file of the
other scope keeps its bytes throughout.

* `frame_of_lock`, `frame_of_write`: the frames of the two halves of an append.
* `frame_of_refused`, `frame_of_appended`: the frames of an append.
* `refused_commit_keeps_bytes`: the bytes of both files after a commit.
-/

namespace SiteSafety.Memory
open Files

variable {l l' locked : Logbook} {e : Entry} {scope : Scope} {err : StoreError}

/-! ### Places -/

/-- The place of the file of a scope. -/
def Logbook.file (l : Logbook) (scope : Scope) : Place := placeOf (l.path scope)

/-- The place of the lock beside it. -/
def Logbook.lockFile (l : Logbook) (scope : Scope) : Place := placeOf (lockPath (l.path scope))

/-- The directories that the lock and the file lie in. -/
def Logbook.directories (l : Logbook) (scope : Scope) : List Place :=
  parentsOf (lockPath (l.path scope)) ++ parentsOf (l.path scope)

/-- The two files have nothing to do with each other: they are different files, and neither is the
lock of the other or a directory that the other lies in. -/
structure Logbook.Unrelated (l : Logbook) : Prop where
  files : l.file .user ≠ l.file .organization
  locks : ∀ scope other, other ≠ scope → l.file other ≠ l.lockFile scope
  directories : ∀ scope other, other ≠ scope → l.file other ∉ l.directories scope

/-- A file is not its own lock. -/
theorem file_ne_lockFile (l : Logbook) (scope : Scope) : l.file scope ≠ l.lockFile scope :=
  (placeOf_withFileName_ne (l.path scope) (by constructor <;> decide) (by decide)).symm

/-- Two different scopes are the two there are. -/
theorem file_ne_of_ne (h : l.file .user ≠ l.file .organization) {other : Scope}
    (hne : other ≠ scope) : l.file other ≠ l.file scope := by
  cases other <;> cases scope
  · exact absurd rfl hne
  · exact h
  · exact h.symm
  · exact absurd rfl hne

theorem Logbook.Unrelated.file_ne (h : l.Unrelated) {other : Scope} (hne : other ≠ scope) :
    l.file other ≠ l.file scope := file_ne_of_ne h.files hne

/-! ### The halves of an append -/

theorem frame_of_lock (h : l.lock scope = .ok locked) :
    Tree.Frame [l.lockFile scope] (parentsOf (lockPath (l.path scope))) l.tree locked.tree := by
  obtain ⟨made, hmade, htouch, -⟩ := of_lock h
  exact (frame_of_makeParent hmade).trans (frame_of_append htouch)
    |>.mono (List.Subset.refl _) (by simp)

theorem frame_of_lock_error (h : l.lock scope = .error (err, l')) :
    Tree.Frame [] (parentsOf (lockPath (l.path scope))) l.tree l'.tree := by
  rcases (of_lock_error h).1 with ⟨cause, hcause⟩ | ⟨cause, hmade, -⟩
  · exact frame_of_makeParent_error hcause
  · exact frame_of_makeParent hmade

theorem frame_of_write (h : (l.write e).value = (.ok (), l')) :
    Tree.Frame [l.file e.scope] (parentsOf (l.path e.scope)) l.tree l'.tree := by
  obtain ⟨made, hmade, happend, -⟩ := of_write h
  exact (frame_of_makeParent hmade).trans (frame_of_append happend)
    |>.mono (List.Subset.refl _) (by simp)

/-- A write that fails has made directories at most. -/
theorem frame_of_write_error (h : (l.write e).value = (.error err, l')) :
    Tree.Frame [] (parentsOf (l.path e.scope)) l.tree l'.tree := by
  rcases (of_write_error h).1 with ⟨cause, hcause⟩ | ⟨cause, hmade, -⟩
  · exact frame_of_makeParent_error hcause
  · exact frame_of_makeParent hmade

/-! ### Appends -/

/-- **An append that is refused or fails** changes nothing but its lock and directories. -/
theorem frame_of_refused (h : (l.append e).value.1 ≠ .ok .appended) :
    Tree.Frame [l.lockFile e.scope] (l.directories e.scope) l.tree (l.append e).value.2.tree := by
  have hcourse := course_append l e
  generalize (l.append e).value = outcome at h hcourse ⊢
  cases hcourse with
  | unlocked hlock =>
      exact (frame_of_lock_error hlock).mono (List.nil_subset _) (List.subset_append_left _ _)
  | unread hlock | known hlock =>
      exact (frame_of_lock hlock).mono (List.Subset.refl _) (List.subset_append_left _ _)
  | unwritten hlock _ _ hwrite =>
      obtain ⟨-, -, -, hlocked⟩ := of_lock hlock
      have hframe := frame_of_write_error hwrite
      rw [path_of_tree_eq hlocked] at hframe
      exact (frame_of_lock hlock).trans hframe
  | done => exact absurd rfl h

/-- **An append that is done** changes its file as well. -/
theorem frame_of_appended (h : (l.append e).value = (.ok .appended, l')) :
    Tree.Frame [l.lockFile e.scope, l.file e.scope] (l.directories e.scope) l.tree l'.tree := by
  obtain ⟨locked, entries, hlock, -, -, hwrite⟩ := of_appended h
  obtain ⟨-, -, -, hsame⟩ := of_lock hlock
  have hframe := frame_of_write hwrite
  rw [Logbook.file, path_of_tree_eq hsame] at hframe
  exact (frame_of_lock hlock).trans hframe

/-- The bytes that were there are kept, and the record is put behind them. -/
theorem bytesAt?_of_appended (h : (l.append e).value = (.ok .appended, l')) :
    l'.tree.bytesAt? (l.file e.scope) = some ((l.tree.bytesAt? (l.file e.scope)).getD .empty ++
      payload l.clock e ((l.tree.bytesAt? (l.file e.scope)).getD .empty)) := by
  obtain ⟨locked, entries, hlock, -, -, hwrite⟩ := of_appended h
  obtain ⟨-, -, -, hsame⟩ := of_lock hlock
  obtain ⟨made, hmade, happend, -⟩ := of_write hwrite
  have hclock : locked.clock = l.clock := by rw [hsame]
  rw [path_of_tree_eq hsame, hclock] at happend
  -- neither the lock nor a directory touches the bytes that the record is put behind
  have hbytes : made.bytesAt? (l.file e.scope) = l.tree.bytesAt? (l.file e.scope) :=
    ((frame_of_makeParent hmade).bytes _ List.not_mem_nil).trans ((frame_of_lock hlock).bytes _
      (mt List.mem_singleton.mp (file_ne_lockFile l e.scope)))
  rw [← hbytes]
  exact bytesAt?_append happend

/-- A frame of an append leaves the file of the other scope as it is. -/
theorem Logbook.Unrelated.at?_file (h : l.Unrelated) {other : Scope} (hne : other ≠ scope)
    {t : Tree}
    (hframe : Tree.Frame [l.lockFile scope, l.file scope] (l.directories scope) l.tree t) :
    t.at? (l.file other) = l.tree.at? (l.file other) := by
  refine hframe.nodes _ ?_ (h.directories scope other hne)
  simp only [List.mem_cons, List.not_mem_nil, or_false, not_or]
  exact ⟨h.locks scope other hne, h.file_ne hne⟩

/-- What stands in the file of the other scope stays. -/
theorem at?_append_other (h : l.Unrelated) {other : Scope} (hne : other ≠ e.scope) :
    (l.append e).value.2.tree.at? (l.file other) = l.tree.at? (l.file other) := by
  by_cases hdone : (l.append e).value.1 = .ok .appended
  · exact h.at?_file hne (frame_of_appended (append_eq_after hdone))
  · exact h.at?_file hne ((frame_of_refused hdone).mono (by simp) (List.Subset.refl _))

/-- The bytes of both files stay where an append is refused or fails. -/
theorem bytesAt?_of_refused (h : l.Unrelated) (hrefused : (l.append e).value.1 ≠ .ok .appended)
    (scope : Scope) :
    (l.append e).value.2.tree.bytesAt? (l.file scope) = l.tree.bytesAt? (l.file scope) := by
  by_cases hscope : scope = e.scope
  · subst hscope
    exact (frame_of_refused hrefused).bytes _
      (mt List.mem_singleton.mp (file_ne_lockFile l e.scope))
  · exact bytesAt?_congr (at?_append_other h hscope)

/-! ### Commits -/

/-- The outcome is no entry: the files failed, or the candidate was rejected. -/
def IsRefused (outcome : Except StoreError Commit) : Prop :=
  (∃ err, outcome = .error err) ∨ ∃ reason, outcome = .ok (.rejected reason)

/-- A commit that is refused changes no bytes, wherever it was refused. -/
theorem bytesAt?_of_refused_commit (h : l.Unrelated) {policy : Policy} {now : Calendar.Instant}
    {c : Candidate} (hrefused : IsRefused (policy.commit now c l).value.1) (scope : Scope) :
    (policy.commit now c l).value.2.tree.bytesAt? (l.file scope) =
      l.tree.bytesAt? (l.file scope) := by
  rw [value_commit] at hrefused ⊢
  cases hscreen : policy.screen c with
  | some reason => rfl
  | none =>
      simp only [hscreen, value_append_logbook] at hrefused ⊢
      have hbytes (hnot : (l.append (Entry.ofCandidate c now)).value.1 ≠ .ok .appended) :=
        bytesAt?_of_refused h hnot scope
      revert hrefused hbytes
      rcases (l.append (Entry.ofCandidate c now)).value with ⟨err | known, l'⟩
      · exact fun _ hbytes => hbytes nofun
      · cases known with
        | appended => simp [IsRefused]
        | duplicate => exact fun _ hbytes => hbytes nofun

/-- **What failures and rejections leave alone.**  For files that have nothing to do with each
other, a commit that fails or is rejected leaves the bytes of both as they were, and one that is
rejected by the screening does nothing at all.  An append leaves alone what stands in the file of
the other scope, and one that is done keeps the bytes of its file in front of what it writes. -/
theorem refused_commit_keeps_bytes (h : l.Unrelated) :
    (∀ (policy : Policy) (now : Calendar.Instant) (c : Candidate),
      IsRefused (policy.commit now c l).value.1 → ∀ scope,
        (policy.commit now c l).value.2.tree.bytesAt? (l.file scope) =
          l.tree.bytesAt? (l.file scope)) ∧
    (∀ (policy : Policy) (now : Calendar.Instant) (c : Candidate) (reason : Rejection),
      policy.screen c = some reason →
        (policy.commit now c l).value = (.ok (.rejected reason), l)) ∧
    (∀ (e : Entry) (other : Scope), other ≠ e.scope →
      (l.append e).value.2.tree.at? (l.file other) = l.tree.at? (l.file other)) ∧
    (∀ e : Entry, (l.append e).value.1 = .ok .appended →
      ∃ more, (l.append e).value.2.tree.bytesAt? (l.file e.scope) =
        some ((l.tree.bytesAt? (l.file e.scope)).getD .empty ++ more)) := by
  refine ⟨fun _ _ _ => bytesAt?_of_refused_commit h, ?_, fun _ _ => at?_append_other h, ?_⟩
  · intro policy now c reason hscreen
    rw [value_commit, hscreen]
  · intro e hdone
    exact ⟨_, bytesAt?_of_appended (append_eq_after hdone)⟩

/-! ### A file that is no text -/

/-- A logbook whose file for the user is no text. -/
def garbledLogbook : Logbook :=
  { logbookOf "" with tree := Tree.put {} ["USER_MEMORY.md"] (.file ⟨#[255]⟩) }

/-- A commit fails after its lock was made, and the bytes are still there. -/
theorem garbled_file_keeps_its_byte :
    garbledLogbook.Unrelated ∧
      IsRefused (Policy.commit {} dawn ⟨"Leads crew B", .other, 0.9, "", .user⟩
        garbledLogbook).value.1 ∧
      (Policy.commit {} dawn ⟨"Leads crew B", .other, 0.9, "", .user⟩
        garbledLogbook).value.2.tree.bytesAt? ["USER_MEMORY.md"] = some ⟨#[255]⟩ ∧
      (Policy.commit {} dawn ⟨"Leads crew B", .other, 0.9, "", .user⟩
        garbledLogbook).value.2.tree.bytesAt? ["USER_MEMORY.md.lock"] = some .empty := by
  have hunrelated : garbledLogbook.Unrelated := by
    constructor
    · decide
    · rintro ⟨⟩ ⟨⟩ hne <;> first | exact absurd rfl hne | decide
    · rintro ⟨⟩ ⟨⟩ hne <;> first | exact absurd rfl hne | decide
  have hrefused : IsRefused (Policy.commit {} dawn ⟨"Leads crew B", .other, 0.9, "", .user⟩
      garbledLogbook).value.1 := .inl ⟨⟨"USER_MEMORY.md", _⟩, rfl⟩
  refine ⟨hunrelated, hrefused, ?_, by decide +kernel⟩
  exact (refused_commit_keeps_bytes hunrelated).1 _ _ _ hrefused .user

end SiteSafety.Memory
