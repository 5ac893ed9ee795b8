import SiteSafety.Memory.Ledger
import SiteSafety.Proofs.Files.Room
import SiteSafety.Proofs.Memory.Append

/-!
# Proofs — Memory — Mirror

A logbook beside a ledger.  The logbook mirrors the ledger (`Logbook.Mirrors`) when each of its
files ends its last line and is read as the entries of the ledger, each as it is kept on one line
and to the minute.

* `mirrors_of_append`: an append that the files allow has the same outcome in both, and leaves a
  logbook that mirrors the ledger.
* `append_ok_of_fits`: where the paths have room the files do allow it.
-/

namespace SiteSafety.Memory
open Files

/-! ### Entries as they are kept -/

/-- An entry that was made from content that is not blank, at a time that has a date. -/
inductive Entry.IsMade : Entry → Prop
  | new {content : String} (category : Category) (scope : Scope) {createdAt : Calendar.Instant}
      (hcontent : Text.isBlankText content = false) (hdated : createdAt.IsDated) :
      IsMade (Entry.new content category scope createdAt)

theorem Entry.IsMade.isProper {e : Entry} (h : e.IsMade) : e.IsProper := by
  obtain ⟨category, scope, hcontent, hdated⟩ := h
  exact isProper_new hcontent hdated

/-- The entry on one line, and to the minute. -/
def Entry.joined (e : Entry) : Entry :=
  { e with content := oneLine e.content, createdAt := e.createdAt.toMinute }

/-- Putting trimmed content on one line leaves no blanks at its ends. -/
theorem trimmed_oneLine_trimmed (content : String) :
    Text.trimmed (oneLine (Text.trimmed content)) = oneLine (Text.trimmed content) := by
  simp only [Text.trimmed, oneLine, String.toList_ofList, Text.trim_join_lines]

/-- What is read from the record of an entry is the entry on one line, to the minute. -/
theorem kept_eq_joined {e : Entry} (h : e.IsMade) : e.kept = e.joined := by
  have hkey := key_kept h.isProper
  obtain ⟨category, scope, -, -⟩ := h
  simp only [Entry.kept, Entry.new, trimmed_oneLine_trimmed, Entry.joined] at hkey ⊢
  rw [hkey]

/-! ### What is read of two files -/

variable {l l' locked : Logbook} {m : Ledger} {e : Entry} {scope : Scope} {text : String}

/-- Writing to one place does not change what is read at another one. -/
theorem Logbook.Reads.of_append_other {path : String} {more : ByteArray → ByteArray}
    (h : l.Reads scope text) (happend : l.tree.append path more = .ok l'.tree)
    (hpath : l'.path scope = l.path scope) (hne : placeOf (l.path scope) ≠ placeOf path) :
    l'.Reads scope text := by
  have hkeeps := keepsDirectories_of_append happend
  obtain ⟨bytes, -, -, -, htree⟩ := of_append_eq_ok happend
  have hat : l'.tree.at? (placeOf (l.path scope)) = l.tree.at? (placeOf (l.path scope)) := by
    rw [htree, at?_put_of_ne _ _ hne]
  cases h with
  | file hread =>
      obtain ⟨hresolve, hsep, hfile⟩ := readText_eq_ok_iff.mp hread
      refine .file ?_
      rw [hpath]
      exact readText_eq_ok_iff.mpr
        ⟨resolve_of_keepsDirectories hkeeps hresolve, hsep, hat.trans hfile⟩
  | empty hempty =>
      refine .empty fun bytes hfile => hempty bytes ?_
      rw [← hat, ← hpath]
      exact hfile

/-- A record behind any text ends a line. -/
theorem endsLine_written (now : Calendar.Instant) (e : Entry) (old : String) :
    EndsLine (old ++ written now e old).toList := by
  have htext : (old ++ written now e old).toList =
      old.toList ++ (if old.isEmpty then header now else "").toList ++ recordBody e ++ ['\n'] := by
    simp only [written, toList_formatRecord, String.toList_append, List.append_assoc]
  rw [EndsLine, htext, Text.openLine_append_line (not_mem_recordBody e)]
  exact fun c hc => absurd hc List.not_mem_nil

/-! ### Appends -/

/-- What is done when an append is reported as a duplicate. -/
theorem of_duplicate (h : (l.append e).value = (.ok .duplicate, l')) :
    ∃ entries, l.lock e.scope = .ok l' ∧ (l'.load e.scope).value = .ok entries ∧
      ∃ e' ∈ entries, e'.key = e.key := by
  cases course_of_append h with
  | known hlock hload hknown => exact ⟨_, hlock, hload, hknown⟩

/-- A logbook whose files are read as the entries of a ledger. -/
structure Logbook.Mirrors (l : Logbook) (m : Ledger) : Prop where
  separate : placeOf l.userPath ≠ placeOf l.organizationPath
  read : ∀ scope, ∃ text, l.Reads scope text ∧ EndsLine text.toList ∧
    entriesOf scope text.toList = (m.entries scope).map Entry.joined
  made : ∀ scope, ∀ e ∈ m.entries scope, e.IsMade

theorem Logbook.Mirrors.placeOf_ne (h : l.Mirrors m) {s s' : Scope} (hne : s ≠ s') :
    placeOf (l.path s) ≠ placeOf (l.path s') := by
  cases s <;> cases s' <;> first | exact absurd rfl hne | exact h.separate | exact h.separate.symm

/-- The paths of a logbook do not change, so only what is read has to be looked at. -/
theorem Logbook.Mirrors.of_reads (h : l.Mirrors m) (hl : l' = { l with tree := l'.tree })
    (hreads : ∀ s text, l.Reads s text → l'.Reads s text) : l'.Mirrors m where
  separate := by
    rw [hl]
    exact h.separate
  read s := by
    obtain ⟨text, htext, hends, hentries⟩ := h.read s
    exact ⟨text, hreads s text htext, hends, hentries⟩
  made := h.made

theorem Logbook.Mirrors.of_lock (h : l.Mirrors m) (hlock : l.lock scope = .ok locked) :
    locked.Mirrors m := by
  obtain ⟨-, -, -, hlocked⟩ := Memory.of_lock hlock
  exact h.of_reads hlocked fun s text htext =>
    htext.of_grows (grows_of_lock hlock) (path_of_tree_eq hlocked)

/-- What is read from a logbook is what the ledger holds. -/
theorem Logbook.Mirrors.load (h : l.Mirrors m) {entries : List Entry}
    (hload : (l.load scope).value = .ok entries) :
    entries = (m.entries scope).map Entry.joined := by
  obtain ⟨text, htext, -, hentries⟩ := h.read scope
  rw [eq_entriesOf_of_load htext hload, hentries]

/-- A key is known to the ledger when it is read from the logbook. -/
theorem has_iff_exists_joined {m : Ledger} {scope : Scope} {key : String} :
    m.has scope key = true ↔ ∃ e' ∈ (m.entries scope).map Entry.joined, e'.key = key := by
  simp [Ledger.has, Entry.joined]

/-- A record that was written is read behind the entries of the ledger. -/
theorem Logbook.Mirrors.of_write (h : l.Mirrors m) (hmade : e.IsMade)
    (hwrite : (l.write e).value = (.ok (), l')) : l'.Mirrors (m.push e) := by
  obtain ⟨made, hparent, happend, hwritten⟩ := Memory.of_write hwrite
  have hgrows : l.tree.Grows made := grows_of_makeParent hparent
  refine ⟨by rw [hwritten]; exact h.separate, ?_, ?_⟩
  · intro s
    obtain ⟨text, htext, hends, hentries⟩ := h.read s
    rw [entries_push]
    -- the record ends the text of its own scope; the other file is left alone
    by_cases hs : s = e.scope
    · subst hs
      refine ⟨_, .file (readText_of_write htext hwrite), endsLine_written _ _ _, ?_⟩
      rw [entriesOf_written_of_endsLine hmade.isProper hends, hentries, if_pos rfl,
        List.map_append, kept_eq_joined hmade]
      rfl
    · rw [if_neg hs]
      have hgrown : Logbook.Reads { l with tree := made } s text := htext.of_grows hgrows rfl
      exact ⟨text, hgrown.of_append_other happend (path_of_tree_eq hwritten) (h.placeOf_ne hs),
        hends, hentries⟩
  · intro s e' he'
    rw [entries_push] at he'
    split at he'
    · obtain he' | he' := List.mem_append.mp he'
      · exact h.made s e' he'
      · rw [List.mem_singleton.mp he']
        exact hmade
    · exact h.made s e' he'

/-- **An append has the same outcome in both stores.** -/
theorem mirrors_of_append (h : l.Mirrors m) (hmade : e.IsMade) {outcome : Appended}
    (happend : (l.append e).value = (.ok outcome, l')) :
    (m.append e).1 = outcome ∧ l'.Mirrors (m.append e).2 := by
  cases outcome with
  | duplicate =>
      obtain ⟨entries, hlock, hload, hknown⟩ := of_duplicate happend
      have hmirrors := h.of_lock hlock
      rw [hmirrors.load hload] at hknown
      rw [Ledger.append, if_pos (has_iff_exists_joined.mpr hknown)]
      exact ⟨rfl, hmirrors⟩
  | appended =>
      -- the keys that are looked through are those of the ledger, since keeping an entry on one
      -- line does not change its key
      obtain ⟨locked, entries, hlock, hload, hnew, hwrite⟩ := of_appended happend
      have hmirrors := h.of_lock hlock
      rw [hmirrors.load hload] at hnew
      have hunknown : ¬ m.has e.scope e.key = true := fun hhas => by
        obtain ⟨e', he', hkey⟩ := has_iff_exists_joined.mp hhas
        exact hnew e' he' hkey
      rw [Ledger.append, if_neg hunknown]
      exact ⟨rfl, hmirrors.of_write hmade hwrite⟩

/-! ### Room for the files -/

/-- The lock and the file of each scope have room in the tree that a logbook started with, and the
tree has only grown within that room. -/
structure Logbook.Fits (start full : Tree) (l : Logbook) : Prop where
  lock : ∀ scope, start.HasRoom full (lockPath (l.path scope))
  file : ∀ scope, start.HasRoom full (l.path scope)
  grown : start.Within l.tree
  within : l.tree.Within full

variable {start full : Tree}

theorem Logbook.Fits.put (h : l.Fits start full) {tree : Tree} (hgrown : start.Within tree)
    (hwithin : tree.Within full) : Logbook.Fits start full { l with tree := tree } :=
  ⟨h.lock, h.file, hgrown, hwithin⟩

theorem exists_load_of_fits (h : l.Fits start full) (htext : l.Reads scope text) :
    ∃ entries, (l.load scope).value = .ok entries := by
  cases htext with
  | file hread => exact ⟨_, load_of_readText hread⟩
  | empty hempty =>
      obtain ⟨bytes, hat, hread⟩ | hread := (h.file scope).reads h.within
      · obtain rfl := hempty bytes hat
        have hutf8 : String.fromUTF8? .empty = some "" := fromUTF8?_eq_some_iff.mpr rfl
        have htext : l.tree.readText (l.path scope) = .ok "" := by
          simp only [Tree.readText, hread, hutf8]
        exact ⟨_, load_of_readText htext⟩
      · refine ⟨[], ?_⟩
        simp only [Logbook.load, Tree.readText, hread]
        rfl

theorem exists_lock_of_fits (h : l.Fits start full) (scope : Scope) :
    ∃ locked, l.lock scope = .ok locked ∧ locked.Fits start full := by
  obtain ⟨made, tree, hmade, htouch, hgrown, hwithin⟩ :=
    (h.lock scope).makes h.grown h.within fun _ => .empty
  refine ⟨{ l with tree := tree }, ?_, h.put hgrown hwithin⟩
  have htouched : made.touch (lockPath (l.path scope)) = .ok tree := htouch
  unfold Logbook.lock
  simp only [hmade, htouched]

theorem exists_write_of_fits (h : l.Fits start full) (e : Entry) :
    ∃ l', (l.write e).value = (.ok (), l') ∧ l'.Fits start full := by
  obtain ⟨made, tree, hmade, happend, hgrown, hwithin⟩ :=
    (h.file e.scope).makes h.grown h.within (payload l.clock e)
  refine ⟨{ l with tree := tree }, ?_, h.put hgrown hwithin⟩
  simp only [Logbook.write, hmade, happend]
  rw [apply_ite Noted.value, value_bind, value_pure, ite_self]

/-- **An append succeeds** where the files have room. -/
theorem append_ok_of_fits (hfits : l.Fits start full) (h : l.Mirrors m) (e : Entry) :
    ∃ outcome l', (l.append e).value = (.ok outcome, l') ∧ l'.Fits start full := by
  obtain ⟨locked, hlock, hlockedfits⟩ := exists_lock_of_fits hfits e.scope
  obtain ⟨text, htext, -⟩ := (h.of_lock hlock).read e.scope
  obtain ⟨entries, hload⟩ := exists_load_of_fits hlockedfits htext
  obtain ⟨l', hwrite, hwrittenfits⟩ := exists_write_of_fits hlockedfits e
  unfold Logbook.append
  simp only [hlock, value_bind, hload]
  split
  · exact ⟨_, locked, rfl, hlockedfits⟩
  · rw [value_bind, hwrite]
    exact ⟨_, l', rfl, hwrittenfits⟩

end SiteSafety.Memory
