import SiteSafety.Cli.Run
import SiteSafety.Proofs.Config.Layers
import SiteSafety.Proofs.Files.Spelling
import SiteSafety.Proofs.Memory.Preservation

/-!
# Proofs — Memory — Scopes

Whether what is appended to one scope can be read from the other.  Files at different places keep
the scopes apart (`load_append_other`).  Paths that lead to one place do not: each scope reads what
was told to the other, as its own (`load_append_shared`).

A configuration is refused when its two paths have the same steps, whatever place the steps lead to.
That keeps the scopes apart as long as both paths are written alike, and **no longer**: a leading
point is enough to pass one file for two.

* `scopes_apart_of_valid`: what a valid configuration guarantees.
* `leading_point_joins_scopes`: a valid configuration with one file for both scopes.
-/

namespace SiteSafety.Memory
open Files

variable {l l' : Logbook} {e : Entry} {scope other : Scope} {start full : Tree} {text : String}

/-! ### What an append leaves -/

theorem fits_append (h : l.Fits start full) (e : Entry) :
    (l.append e).value.2.Fits start full := by
  obtain ⟨locked, hlocked, hfits⟩ := exists_lock_of_fits h e.scope
  have hcourse := course_append l e
  generalize (l.append e).value = outcome at hcourse ⊢
  cases hcourse with
  | unlocked hlock => cases hlocked.symm.trans hlock
  | unread hlock | known hlock =>
      cases hlocked.symm.trans hlock
      exact hfits
  | unwritten hlock _ _ hwrite =>
      cases hlocked.symm.trans hlock
      obtain ⟨written, hwritten, -⟩ := exists_write_of_fits hfits e
      cases hwritten.symm.trans hwrite
  | done hlock _ _ hwrite =>
      cases hlocked.symm.trans hlock
      obtain ⟨written, hwritten, hfits'⟩ := exists_write_of_fits hfits e
      cases hwritten.symm.trans hwrite
      exact hfits'

theorem Logbook.Leaves.keepsDirectories (h : l.Leaves e l') :
    l.tree.KeepsDirectories l'.tree := by
  cases h with
  | grown h => exact h.keepsDirectories
  | written h happend =>
      exact fun p hp => keepsDirectories_of_append happend p (h.keepsDirectories p hp)

/-- At other places than that of its file, an append leaves what is there and makes no bytes. -/
theorem Logbook.Leaves.at?_of_ne (h : l.Leaves e l') {p : Place} (hp : p ≠ l.file e.scope) :
    (∀ n, l.tree.at? p = some n → l'.tree.at? p = some n) ∧
      ∀ bytes, l.tree.at? p = none → l'.tree.at? p = some (.file bytes) → bytes = .empty := by
  cases h with
  | grown h => exact ⟨h.kept p, h.made p⟩
  | @written grown tree h happend =>
      have hsame : tree.at? p = grown.at? p := by
        obtain ⟨-, -, -, -, rfl⟩ := of_append_eq_ok happend
        exact at?_put_of_ne _ _ hp
      exact ⟨fun n hn => hsame.trans (h.kept p n hn),
        fun bytes hnone hfile => h.made p bytes hnone (hsame.symm.trans hfile)⟩

/-! ### Files at different places -/

/-- A file that stands at the end of a path is found by it. -/
def Logbook.FindsFiles (l : Logbook) : Prop :=
  ∀ scope bytes, l.tree.at? (l.file scope) = some (.file bytes) →
    l.tree.resolve (l.path scope) = .ok (l.file scope)

/-- **Files at different places keep the scopes apart.** -/
theorem load_append_other (hroom : l.HasRoom) (hfound : l.FindsFiles)
    (hne : l.file other ≠ l.file e.scope) :
    ((l.append e).value.2.load other).value = (l.load other).value := by
  obtain ⟨full, hfits⟩ := hroom.fits
  have hafter := fits_append hfits e
  have hleaves := leaves_append l e
  have hpath := path_append l e other
  generalize (l.append e).value.2 = l' at hafter hleaves hpath ⊢
  obtain ⟨hkept, hmade⟩ := hleaves.at?_of_ne hne
  rcases (hfits.file other).reads hfits.within with ⟨bytes, hat, hread⟩ | hmissing
  · obtain ⟨hresolve, hsep, -⟩ := readBytes_eq_ok_iff.mp hread
    have hread' : l'.tree.readBytes (l.path other) = .ok bytes := readBytes_eq_ok_iff.mpr
      ⟨resolve_of_keepsDirectories hleaves.keepsDirectories hresolve, hsep, hkept _ hat⟩
    simp only [Logbook.load, Tree.readText, hpath, hread, hread']
  · have hnone : (l.load other).value = .ok [] := by
      simp only [Logbook.load, Tree.readText, hmissing]
      rfl
    rw [hnone]
    rcases (hafter.file other).reads hafter.within with ⟨bytes, hat', hread'⟩ | hmissing'
    · -- a file has appeared: it is new, or it would have been found before
      rw [hpath] at hat' hread'
      obtain ⟨-, hsep, -⟩ := readBytes_eq_ok_iff.mp hread'
      have hempty : bytes = .empty := by
        cases hat : l.tree.at? (l.file other) with
        | none => exact hmade bytes hat hat'
        | some n =>
            cases n with
            | directory => cases (hkept _ hat).symm.trans hat'
            | file old =>
                have hread := readBytes_eq_ok_iff.mpr ⟨hfound other old hat, hsep, hat⟩
                cases hread.symm.trans hmissing
      subst hempty
      have hutf8 : String.fromUTF8? .empty = some "" := fromUTF8?_eq_some_iff.mpr rfl
      simp only [Logbook.load, Tree.readText, hpath, hread', hutf8]
      rfl
    · simp only [Logbook.load, Tree.readText, hmissing']
      rfl

/-! ### One file for both scopes -/

theorem file_eq_of_eq (h : l.file .user = l.file .organization) {other : Scope} :
    l.file other = l.file scope := by
  cases other <;> cases scope
  · rfl
  · exact h
  · exact h.symm
  · rfl

/-- The text that one scope holds is read from the other as well. -/
theorem load_of_shared (hfits : l.Fits start full) (hsame : l.file other = l.file scope)
    (hfollow : l.tree.resolve (l.path other) = .ok (l.file other)) (htext : l.Holds scope text) :
    (l.load other).value = .ok (entriesOf other text.toList) := by
  have hsep := (hfits.file other).endsInSeparator_eq
  cases htext with
  | file hread =>
      obtain ⟨-, -, hat⟩ := readText_eq_ok_iff.mp hread
      exact load_of_readText (readText_eq_ok_iff.mpr ⟨hfollow, hsep,
        (congrArg l.tree.at? hsame).trans hat⟩)
  | missing _ hplace =>
      rcases (hfits.file other).reads hfits.within with ⟨bytes, hat, -⟩ | hmissing
      · exact absurd ((congrArg l.tree.at? hsame).symm.trans hat) (hplace bytes)
      · simp only [Logbook.load, Tree.readText, hmissing]
        rfl

/-- **Paths to one place join the scopes**: what is appended to one is read from the other behind
all that was there, as if it had been told to that. -/
theorem load_append_shared (hroom : l.HasRoom) (hproper : e.IsProper)
    (hsame : l.file other = l.file e.scope)
    (hfollow : l.tree.resolve (l.path other) = .ok (l.file other))
    (htext : l.Holds e.scope text) (hends : EndsLine text.toList)
    (happended : (l.append e).value.1 = .ok .appended) :
    (l.load other).value = .ok (entriesOf other text.toList) ∧
      ((l.append e).value.2.load other).value =
        .ok (entriesOf other text.toList ++ [Entry.kept { e with scope := other }]) := by
  obtain ⟨full, hfits⟩ := hroom.fits
  refine ⟨load_of_shared hfits hsame hfollow htext, ?_⟩
  have hafter := fits_append hfits e
  have hkeeps := (leaves_append l e).keepsDirectories
  have hpath := path_append l e
  have hread := readText_of_appended htext (append_eq_after happended)
  rw [Logbook.after] at hread
  generalize (l.append e).value.2 = l' at hafter hkeeps hpath hread ⊢
  have hfile (scope : Scope) : l'.file scope = l.file scope := congrArg placeOf (hpath scope)
  have hsame' : l'.file other = l'.file e.scope := by rw [hfile, hfile, hsame]
  have hfollow' : l'.tree.resolve (l'.path other) = .ok (l'.file other) := by
    rw [hfile, hpath]
    exact resolve_of_keepsDirectories hkeeps hfollow
  rw [load_of_shared hafter hsame' hfollow' (.file hread)]
  -- the record does not say which scope it was written for
  have hproper' : Entry.IsProper { e with scope := other } :=
    ⟨hproper.content, hproper.key, hproper.dated⟩
  have hwritten : entriesOf other (text ++ written l.clock { e with scope := other } text).toList =
      entriesOf other text.toList ++ [Entry.kept { e with scope := other }] :=
    entriesOf_written_of_endsLine hproper' hends
  exact congrArg Except.ok hwritten

/-! ### Valid configurations -/

/-- No append to one scope changes what is read from the other. -/
def Logbook.KeepsApart (l : Logbook) : Prop :=
  ∀ (e : Entry) (other : Scope), other ≠ e.scope →
    ((l.append e).value.2.load other).value = (l.load other).value

/-- Every append to one scope is read from the other as well, behind all that was there, unless the
file does not end its last line or the other path leads through a directory that is missing. -/
def Logbook.Shares (l : Logbook) : Prop :=
  ∀ (e : Entry) (other : Scope) (text : String), e.IsProper → l.Holds e.scope text →
    EndsLine text.toList → l.tree.resolve (l.path other) = .ok (l.file other) →
    (l.append e).value.1 = .ok .appended →
      (l.load other).value = .ok (entriesOf other text.toList) ∧
      ((l.append e).value.2.load other).value =
        .ok (entriesOf other text.toList ++ [Entry.kept { e with scope := other }])

/-- The logbook of a configuration, its paths followed from a working directory. -/
def logbookIn (directory : String) (w : Cli.World) (c : Config) : Logbook :=
  { Cli.logbookOf w c with
    userPath := fromDirectory directory c.memory.userPath
    organizationPath := fromDirectory directory c.memory.organizationPath }

variable {directory : String} {w : Cli.World} {c : Config}

/-- In a valid configuration paths that are written alike name different files. -/
theorem file_ne_of_writtenAlike (hdirectory : isRooted directory = true) (hvalid : c.faults = [])
    (h : WrittenAlike c.memory.userPath c.memory.organizationPath) :
    (logbookIn directory w c).file .user ≠ (logbookIn directory w c).file .organization := by
  intro hplace
  have hsteps := steps_eq_of_placeOf_eq hdirectory h hplace
  have hdistinct := ((Config.faults_eq_nil_iff c).mp hvalid).memory.paths
  simp [samePath, hsteps] at hdistinct

/-- **What a valid configuration guarantees.**  Its scopes are kept apart if its paths lead to
different places, and share what is told to either if they lead to one; paths that are written alike
lead to different places.  The files have room, and are found where they stand. -/
theorem scopes_apart_of_valid (directory : String) (w : Cli.World) (c : Config)
    (hdirectory : isRooted directory = true) (hvalid : c.faults = [])
    (hroom : (logbookIn directory w c).HasRoom) (hfound : (logbookIn directory w c).FindsFiles) :
    ((logbookIn directory w c).file .user ≠ (logbookIn directory w c).file .organization →
      (logbookIn directory w c).KeepsApart) ∧
    ((logbookIn directory w c).file .user = (logbookIn directory w c).file .organization →
      (logbookIn directory w c).Shares) ∧
    (WrittenAlike c.memory.userPath c.memory.organizationPath →
      (logbookIn directory w c).file .user ≠ (logbookIn directory w c).file .organization) := by
  refine ⟨?_, ?_, file_ne_of_writtenAlike hdirectory hvalid⟩
  · exact fun hne e other hother => load_append_other hroom hfound (file_ne_of_ne hne hother)
  · intro hsame e other text hproper htext hends hfollow
    exact load_append_shared hroom hproper (file_eq_of_eq hsame) hfollow htext hends

/-! ### Two configurations -/

/-- A configuration with two paths, all else as it is without any settings. -/
def configOn (userPath organizationPath : String) : Config :=
  { memory := { userPath := userPath, organizationPath := organizationPath } }

/-- A world without a file. -/
def emptyWorld : Cli.World where
  tree := {}
  environment := {}
  clock := dawn

theorem hasRoom_logbookIn : (logbookIn "/" emptyWorld (configOn "USER.md" "ORG.md")).HasRoom := by
  let full : Tree := ⟨[(["/", "USER.md"], .file .empty), (["/", "USER.md.lock"], .file .empty),
    (["/", "ORG.md"], .file .empty), (["/", "ORG.md.lock"], .file .empty)]⟩
  refine ⟨full, fun scope => ?_⟩
  cases scope with
  | user => exact ⟨hasRoom_of_empty rfl rfl rfl rfl, hasRoom_of_empty rfl rfl rfl rfl⟩
  | organization => exact ⟨hasRoom_of_empty rfl rfl rfl rfl, hasRoom_of_empty rfl rfl rfl rfl⟩

/-- Two names in one directory keep the scopes apart. -/
theorem two_names_keep_apart :
    (configOn "USER.md" "ORG.md").faults = [] ∧
      (logbookIn "/" emptyWorld (configOn "USER.md" "ORG.md")).KeepsApart := by
  have hvalid : (configOn "USER.md" "ORG.md").faults = [] := by decide
  have halike : WrittenAlike "USER.md" "ORG.md" := ⟨by decide, by decide, by decide⟩
  have hfound : (logbookIn "/" emptyWorld (configOn "USER.md" "ORG.md")).FindsFiles := by
    rintro ⟨⟩ bytes <;> exact nofun
  obtain ⟨hapart, -, hplaces⟩ := scopes_apart_of_valid "/" emptyWorld _ rfl hvalid
    hasRoom_logbookIn hfound
  exact ⟨hvalid, hapart (hplaces halike)⟩

/-- **A leading point joins the scopes**: the configuration is valid, and what is told to the user
is read of the organization. -/
theorem leading_point_joins_scopes :
    (configOn "MEMORY.md" "./MEMORY.md").faults = [] ∧
      ((logbookIn "/" emptyWorld (configOn "MEMORY.md" "./MEMORY.md")).load .organization).value =
        .ok [] ∧
      (((logbookIn "/" emptyWorld (configOn "MEMORY.md" "./MEMORY.md")).append
        briefing).value.2.load .organization).value =
          .ok [{ briefing.joined with scope := .organization }] := by
  exact ⟨by decide +kernel, by decide +kernel, by decide +kernel⟩

end SiteSafety.Memory
