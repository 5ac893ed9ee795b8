import SiteSafety.Proofs.Files.Tree
import SiteSafety.Proofs.Memory.Record

/-!
# Proofs — Memory — Append

What an append does to a log file, and what is read afterwards.  The record is put behind the last
byte of the file, so it stands on a line of its own exactly when the file ends with a line break,
blanks aside (`EndsLine`).

* `entriesOf_written`: what is read after a record was written behind a text.
* `course_append`: how an append goes, and where it can fail.
* `durable_iff`: an append that is reported as done keeps the entries that were there and adds the
  new one exactly when the file ended so; only then is the next append of the same key a duplicate.
* `unended_file_loses_record`: a file whose last line is not ended.
-/

namespace SiteSafety.Memory
open Files

/-! ### Texts -/

/-- Nothing but blanks stands behind the last line break. -/
def EndsLine (cs : List Char) : Prop := ∀ c ∈ Text.openLine cs, Text.isBlank c = true

instance (cs : List Char) : Decidable (EndsLine cs) :=
  decidable_of_iff ((Text.openLine cs).all Text.isBlank = true) List.all_eq_true

theorem entriesOf_eq (scope : Scope) (cs : List Char) :
    entriesOf scope cs = (Text.endedLines cs).filterMap (entryOn? scope) ++
      (entryOn? scope (Text.openLine cs)).toList := by
  rw [entriesOf, Text.lines_eq, List.filterMap_append]
  cases h : Text.openLine cs with
  | nil => rw [entryOn?_of_blank (by simp)]; rfl
  | cons c line => cases hentry : entryOn? scope (c :: line) <;> simp [hentry]

/-- A record is read from the line that the text before it left open. -/
theorem entriesOf_append_record (scope : Scope) (cs : List Char) (e : Entry) :
    entriesOf scope (cs ++ recordBody e ++ ['\n']) =
      (Text.endedLines cs).filterMap (entryOn? scope) ++
        (entryOn? scope (Text.openLine cs ++ recordBody e)).toList := by
  rw [entriesOf, Text.lines_append_line (not_mem_recordBody e), List.filterMap_append]
  cases hentry : entryOn? scope (Text.openLine cs ++ recordBody e) <;>
    simp [entryOn?_dropReturn, hentry]

/-! ### Titles -/

/-- The lines of the title of a file. -/
def headerLines (now : Calendar.Instant) : List (List Char) :=
  ["# Memory Log".toList, [], "Generated: ".toList ++ now.offsetText.toList, []]

theorem toList_header (now : Calendar.Instant) :
    (header now).toList = (headerLines now).flatMap (· ++ ['\n']) := by
  have htext : (header now).toList =
      "# Memory Log\n\nGenerated: ".toList ++ now.offsetText.toList ++ "\n\n".toList := by
    unfold header
    generalize now.offsetText = date
    simp only [toString, String.toList_append]
  have hopening : "# Memory Log\n\nGenerated: ".toList =
      "# Memory Log".toList ++ '\n' :: '\n' :: "Generated: ".toList := by decide
  have hclosing : "\n\n".toList = ['\n', '\n'] := by decide
  rw [htext, hopening, hclosing]
  simp only [headerLines, List.flatMap_cons, List.flatMap_nil, List.append_assoc, List.cons_append,
    List.nil_append, List.append_nil]

theorem not_mem_headerLines (now : Calendar.Instant) : ∀ l ∈ headerLines now, '\n' ∉ l := by
  have htitle : '\n' ∉ "# Memory Log".toList := by decide
  have hdate : '\n' ∉ "Generated: ".toList := by decide
  simp only [headerLines, List.forall_mem_cons, List.mem_append, not_or, List.not_mem_nil]
  exact ⟨htitle, nofun, ⟨hdate, Calendar.not_mem_offsetText now⟩, nofun, nofun⟩

/-- The title of a file holds no entries. -/
theorem filterMap_headerLines (scope : Scope) (now : Calendar.Instant) :
    ((headerLines now).map Text.dropReturn).filterMap (entryOn? scope) = [] := by
  have htitle : entryOn? scope "# Memory Log".toList = none :=
    entryOn?_of_head (by decide) (by decide)
  have hdate : entryOn? scope ("Generated: ".toList ++ now.offsetText.toList) = none :=
    entryOn?_of_head (by decide) (by decide)
  have hempty : entryOn? scope [] = none := entryOn?_of_blank (by simp)
  rw [List.filterMap_map, List.filterMap_eq_nil_iff]
  simp only [headerLines, List.forall_mem_cons, Function.comp_apply, entryOn?_dropReturn, htitle,
    hdate, hempty, List.not_mem_nil, false_implies, implies_true, and_self]

/-! ### What is written -/

/-- The text that is written for an entry behind a text. -/
def written (now : Calendar.Instant) (e : Entry) (old : String) : String :=
  (if old.isEmpty then header now else "") ++ formatRecord e

theorem payload_toUTF8 (now : Calendar.Instant) (e : Entry) (old : String) :
    payload now e old.toUTF8 = (written now e old).toUTF8 := by
  have hempty : old.toUTF8.isEmpty = old.isEmpty := rfl
  rw [payload, hempty, written]

/-- **What is read after a record was written**: the lines that were ended, and whatever the open
line and the record make up together. -/
theorem entriesOf_written (scope : Scope) (now : Calendar.Instant) (e : Entry) (old : String) :
    entriesOf scope (old ++ written now e old).toList =
      (Text.endedLines old.toList).filterMap (entryOn? scope) ++
        (entryOn? scope (Text.openLine old.toList ++ recordBody e)).toList := by
  by_cases hold : old = ""
  · subst hold
    have htext : ("" ++ written now e "").toList =
        (header now).toList ++ recordBody e ++ ['\n'] := by
      simp [written, toList_formatRecord]
    rw [htext, entriesOf_append_record, toList_header,
      Text.endedLines_flatMap_lines (not_mem_headerLines now), filterMap_headerLines,
      Text.openLine_flatMap_lines (not_mem_headerLines now)]
    rfl
  · have htext : (old ++ written now e old).toList = old.toList ++ recordBody e ++ ['\n'] := by
      simp [written, hold, toList_formatRecord]
    rw [htext, entriesOf_append_record]

variable {e : Entry} {now : Calendar.Instant} {old : String}

/-- Behind an ended line the entry is read as it was written. -/
theorem entriesOf_written_of_endsLine (h : e.IsProper) (hends : EndsLine old.toList) :
    entriesOf e.scope (old ++ written now e old).toList =
      entriesOf e.scope old.toList ++ [e.kept] := by
  rw [entriesOf_written, entriesOf_eq, entryOn?_of_blank hends, entryOn?_record hends h]
  simp

/-- Behind a line that was left open no entry with the key of the record is read. -/
theorem key_ne_of_not_endsLine (h : e.IsProper) (hopen : ¬ EndsLine old.toList) {e' : Entry}
    (hentry : entryOn? e.scope (Text.openLine old.toList ++ recordBody e) = some e') :
    e'.key ≠ e.key := by
  have hline : ∃ c ∈ Text.openLine old.toList, Text.isBlank c = false := by
    simpa [EndsLine] using hopen
  exact key_ne_of_joined hline h.key hentry

theorem eq_some_of_toList_eq {x y : Option Entry} {a : Entry}
    (h : x.toList = y.toList ++ [a]) : x = some a := by
  cases x <;> cases y <;> simp_all

/-- The entry is read behind those that were there exactly when the text ends a line. -/
theorem entriesOf_written_iff (h : e.IsProper) :
    (∃ e', entriesOf e.scope (old ++ written now e old).toList =
        entriesOf e.scope old.toList ++ [e'] ∧
      e'.key = e.key ∧ e'.category = e.category ∧ e'.scope = e.scope) ↔ EndsLine old.toList := by
  constructor
  · rintro ⟨e', hentries, hkey, -, -⟩
    -- the ended lines give the same entries before and after, so the new entry is on the open line
    by_cases hends : EndsLine old.toList
    · exact hends
    · rw [entriesOf_written, entriesOf_eq, List.append_assoc, List.append_cancel_left_eq] at hentries
      exact absurd hkey (key_ne_of_not_endsLine h hends (eq_some_of_toList_eq hentries))
  · intro hends
    exact ⟨e.kept, entriesOf_written_of_endsLine h hends, key_kept h, category_kept e,
      scope_kept e⟩

/-- The key of a new entry is found exactly when the text ends a line. -/
theorem key_mem_written_iff (h : e.IsProper)
    (hnew : ∀ e' ∈ entriesOf e.scope old.toList, e'.key ≠ e.key) :
    (∃ e' ∈ entriesOf e.scope (old ++ written now e old).toList, e'.key = e.key) ↔
      EndsLine old.toList := by
  constructor
  · rintro ⟨e', hmem, hkey⟩
    by_cases hends : EndsLine old.toList
    · exact hends
    · rw [entriesOf_written] at hmem
      rcases List.mem_append.mp hmem with hmem | hmem
      · refine absurd hkey (hnew e' ?_)
        rw [entriesOf_eq]
        exact List.mem_append_left _ hmem
      · rw [Option.mem_toList] at hmem
        exact absurd hkey (key_ne_of_not_endsLine h hends hmem)
  · intro hends
    refine ⟨e.kept, ?_, key_kept h⟩
    rw [entriesOf_written_of_endsLine h hends]
    simp

/-! ### Logbooks -/

variable {l l' locked : Logbook} {scope : Scope} {text : String}

/-- What a file of a logbook holds: its text, or nothing where no file stands. -/
inductive Logbook.Holds (l : Logbook) (scope : Scope) : String → Prop
  | file {text : String} (h : l.tree.readText (l.path scope) = .ok text) : l.Holds scope text
  | missing (h : l.tree.readText (l.path scope) = .error .notFound)
      (hplace : ∀ bytes, l.tree.at? (placeOf (l.path scope)) ≠ some (.file bytes)) :
      l.Holds scope ""

theorem load_of_readText (h : l.tree.readText (l.path scope) = .ok text) :
    (l.load scope).value = .ok (entriesOf scope text.toList) := by
  rw [Logbook.load]
  simp only [h]
  exact congrArg Except.ok (value_readLines _ _ _ _)

theorem load_of_holds (h : l.Holds scope text) :
    (l.load scope).value = .ok (entriesOf scope text.toList) := by
  cases h with
  | file h => exact load_of_readText h
  | missing h hplace =>
      rw [Logbook.load]
      simp only [h]
      rfl

/-- Taking the lock makes directories and a lock file, and nothing else. -/
theorem of_lock (h : l.lock scope = .ok locked) :
    ∃ made, l.tree.makeParent (lockPath (l.path scope)) = .ok made ∧
      made.touch (lockPath (l.path scope)) = .ok locked.tree ∧
      locked = { l with tree := locked.tree } := by
  unfold Logbook.lock at h
  simp only at h
  split at h
  · cases h
  next made hmade =>
    split at h
    · cases h
    next tree htouch =>
      cases h
      exact ⟨made, hmade, htouch, rfl⟩

/-- A lock that cannot be taken leaves the directories behind that could be made. -/
theorem of_lock_error {err : StoreError} (h : l.lock scope = .error (err, l')) :
    ((∃ cause, l.tree.makeParent (lockPath (l.path scope)) = .error (cause, l'.tree)) ∨
      ∃ cause, l.tree.makeParent (lockPath (l.path scope)) = .ok l'.tree ∧
        l'.tree.touch (lockPath (l.path scope)) = .error cause) ∧
      l' = { l with tree := l'.tree } := by
  unfold Logbook.lock at h
  simp only at h
  split at h
  next cause left hcause =>
    cases h
    exact ⟨.inl ⟨cause, hcause⟩, rfl⟩
  next made hmade =>
    split at h
    next cause hcause =>
      cases h
      exact ⟨.inr ⟨cause, hmade, hcause⟩, rfl⟩
    · cases h

theorem grows_of_lock (h : l.lock scope = .ok locked) : l.tree.Grows locked.tree := by
  obtain ⟨made, hmade, htouch, -⟩ := of_lock h
  exact (grows_of_makeParent hmade).trans (grows_of_touch htouch)

/-- A lock that was taken can be taken again wherever its directories and its file are kept. -/
theorem lock_again (h : l.lock scope = .ok locked) (hpath : l'.path scope = l.path scope)
    (hkeeps : locked.tree.KeepsDirectories l'.tree)
    (hfiles : ∀ p bytes, locked.tree.at? p = some (.file bytes) →
      ∃ bytes', l'.tree.at? p = some (.file bytes')) : ∃ again, l'.lock scope = .ok again := by
  obtain ⟨made, hmade, htouch, -⟩ := of_lock h
  obtain ⟨bytes, hfile⟩ := isFile_of_touch htouch
  obtain ⟨bytes', hfile'⟩ := hfiles _ _ hfile
  have hmade' : l'.tree.makeParent (lockPath (l.path scope)) = .ok l'.tree :=
    makeParent_again hmade fun p hp => hkeeps p ((grows_of_touch htouch).keepsDirectories p hp)
  obtain ⟨tree, htree⟩ := touch_again htouch hkeeps hfile'
  refine ⟨{ l' with tree := tree }, ?_⟩
  unfold Logbook.lock
  simp only [hpath, hmade', htree]

/-- Writing makes directories and puts the record behind the bytes of the file. -/
theorem of_write (h : (l.write e).value = (.ok (), l')) :
    ∃ made, l.tree.makeParent (l.path e.scope) = .ok made ∧
      made.append (l.path e.scope) (payload l.clock e) = .ok l'.tree ∧
      l' = { l with tree := l'.tree } := by
  unfold Logbook.write at h
  simp only at h
  split at h
  · cases h
  next made hmade =>
    split at h
    · cases h
    next tree happend =>
      rw [apply_ite Noted.value, value_bind, value_pure, ite_self] at h
      cases h
      exact ⟨made, hmade, happend, rfl⟩

/-- A write that fails leaves the directories behind that could be made. -/
theorem of_write_error {err : StoreError} (h : (l.write e).value = (.error err, l')) :
    ((∃ cause, l.tree.makeParent (l.path e.scope) = .error (cause, l'.tree)) ∨
      ∃ cause, l.tree.makeParent (l.path e.scope) = .ok l'.tree ∧
        l'.tree.append (l.path e.scope) (payload l.clock e) = .error cause) ∧
      l' = { l with tree := l'.tree } := by
  unfold Logbook.write at h
  simp only at h
  split at h
  next cause left hcause =>
    cases h
    exact ⟨.inl ⟨cause, hcause⟩, rfl⟩
  next made hmade =>
    split at h
    next cause hcause =>
      cases h
      exact ⟨.inr ⟨cause, hmade, hcause⟩, rfl⟩
    next =>
      rw [apply_ite Noted.value, value_bind, value_pure, ite_self] at h
      cases h

/-- The logbook after an append. -/
def Logbook.after (l : Logbook) (e : Entry) : Logbook := (l.append e).value.2

theorem append_eq_after (h : (l.append e).value.1 = .ok .appended) :
    (l.append e).value = (.ok .appended, l.after e) := Prod.ext h rfl

/-- How an append goes: it fails at its lock, at what is read under it or at its record, or it finds
its key, or it is done. -/
inductive Logbook.Course (l : Logbook) (e : Entry) :
    Except StoreError Appended × Logbook → Prop
  | unlocked {err : StoreError} {l' : Logbook} (hlock : l.lock e.scope = .error (err, l')) :
      l.Course e (.error err, l')
  | unread {err : StoreError} {locked : Logbook} (hlock : l.lock e.scope = .ok locked)
      (hload : (locked.load e.scope).value = .error err) : l.Course e (.error err, locked)
  | known {locked : Logbook} {entries : List Entry} (hlock : l.lock e.scope = .ok locked)
      (hload : (locked.load e.scope).value = .ok entries)
      (hknown : ∃ e' ∈ entries, e'.key = e.key) : l.Course e (.ok .duplicate, locked)
  | unwritten {err : StoreError} {locked l' : Logbook} {entries : List Entry}
      (hlock : l.lock e.scope = .ok locked) (hload : (locked.load e.scope).value = .ok entries)
      (hnew : ∀ e' ∈ entries, e'.key ≠ e.key)
      (hwrite : (locked.write e).value = (.error err, l')) : l.Course e (.error err, l')
  | done {locked l' : Logbook} {entries : List Entry}
      (hlock : l.lock e.scope = .ok locked) (hload : (locked.load e.scope).value = .ok entries)
      (hnew : ∀ e' ∈ entries, e'.key ≠ e.key)
      (hwrite : (locked.write e).value = (.ok (), l')) : l.Course e (.ok .appended, l')

theorem course_append (l : Logbook) (e : Entry) : l.Course e (l.append e).value := by
  unfold Logbook.append
  cases hlock : l.lock e.scope with
  | error failed => exact .unlocked hlock
  | ok locked =>
      simp only [value_bind]
      cases hload : (locked.load e.scope).value with
      | error err => exact .unread hlock hload
      | ok entries =>
          dsimp only
          split
          next hknown => exact .known hlock hload (by simpa using hknown)
          next hnew =>
            rw [value_bind]
            rcases hwrite : (locked.write e).value with ⟨err | _, l'⟩
            · exact .unwritten hlock hload (by simpa using hnew) hwrite
            · exact .done hlock hload (by simpa using hnew) hwrite

theorem course_of_append {outcome : Except StoreError Appended × Logbook}
    (h : (l.append e).value = outcome) : l.Course e outcome :=
  h ▸ course_append l e

/-- What is done when an append is reported as done. -/
theorem of_appended (h : (l.append e).value = (.ok .appended, l')) :
    ∃ locked entries, l.lock e.scope = .ok locked ∧ (locked.load e.scope).value = .ok entries ∧
      (∀ e' ∈ entries, e'.key ≠ e.key) ∧ (locked.write e).value = (.ok (), l') := by
  cases course_of_append h with
  | done hlock hload hnew hwrite => exact ⟨_, _, hlock, hload, hnew, hwrite⟩

/-- What an append leaves behind, whether it is done or fails: directories and empty files, or a
record behind the bytes of its file as well. -/
inductive Logbook.Leaves (l : Logbook) (e : Entry) : Logbook → Prop
  | grown {grown : Tree} (h : l.tree.Grows grown) : l.Leaves e { l with tree := grown }
  | written {grown tree : Tree} (h : l.tree.Grows grown)
      (happend : grown.append (l.path e.scope) (payload l.clock e) = .ok tree) :
      l.Leaves e { l with tree := tree }

theorem Logbook.Leaves.of_grows {grown : Tree} (hgrows : l.tree.Grows grown)
    (h : Logbook.Leaves { l with tree := grown } e l') : l.Leaves e l' := by
  cases h with
  | grown h => exact .grown (hgrows.trans h)
  | written h happend => exact .written (hgrows.trans h) happend

theorem leaves_write (l : Logbook) (e : Entry) : l.Leaves e (l.write e).value.2 := by
  unfold Logbook.write
  simp only
  split
  next cause left hcause => exact .grown (grows_of_makeParent_error hcause)
  next made hmade =>
    split
    next => exact .grown (grows_of_makeParent hmade)
    next tree happend =>
      rw [apply_ite Noted.value, value_bind, value_pure, ite_self]
      exact .written (grows_of_makeParent hmade) happend

theorem leaves_of_write {outcome : Except StoreError Unit}
    (h : (l.write e).value = (outcome, l')) : l.Leaves e l' := by
  have hleaves := leaves_write l e
  rwa [h] at hleaves

theorem leaves_of_lock (h : l.lock scope = .ok locked)
    (hleaves : locked.Leaves e l') : l.Leaves e l' := by
  obtain ⟨-, -, -, hlocked⟩ := of_lock h
  rw [hlocked] at hleaves
  exact hleaves.of_grows (grows_of_lock h)

theorem leaves_append (l : Logbook) (e : Entry) : l.Leaves e (l.append e).value.2 := by
  have hcourse := course_append l e
  generalize (l.append e).value = outcome at hcourse ⊢
  cases hcourse with
  | unlocked hlock =>
      obtain ⟨hmade, hafter⟩ := of_lock_error hlock
      rw [hafter]
      rcases hmade with ⟨cause, hcause⟩ | ⟨cause, hmade, -⟩
      · exact .grown (grows_of_makeParent_error hcause)
      · exact .grown (grows_of_makeParent hmade)
  | unread hlock | known hlock => exact leaves_of_lock hlock (.grown (.refl _))
  | unwritten hlock _ _ hwrite | done hlock _ _ hwrite =>
      exact leaves_of_lock hlock (leaves_of_write hwrite)

/-- An append leaves the paths of a logbook alone. -/
theorem path_append (l : Logbook) (e : Entry) (scope : Scope) :
    (l.append e).value.2.path scope = l.path scope := by
  have hleaves := leaves_append l e
  generalize (l.append e).value.2 = after at hleaves ⊢
  cases hleaves <;> rfl

/-- A duplicate is reported when the key is found after the lock was taken. -/
theorem append_of_lock {entries : List Entry} (hlock : l.lock e.scope = .ok locked)
    (hload : (locked.load e.scope).value = .ok entries) :
    (l.append e).value.1 = .ok .duplicate ↔ ∃ e' ∈ entries, e'.key = e.key := by
  have hany : (∃ e' ∈ entries, e'.key = e.key) ↔ entries.any (·.key == e.key) = true := by
    simp
  unfold Logbook.append
  simp only [hlock, value_bind, hload, hany]
  split
  next hfound => simp [hfound]
  next hnew =>
    simp only [hnew]
    rw [value_bind]
    generalize (locked.write e).value = outcome
    obtain ⟨_ | _, _⟩ := outcome <;> simp

/-! ### What is read -/

theorem path_of_tree_eq (h : l' = { l with tree := l'.tree }) : l'.path scope = l.path scope := by
  rw [h]
  rfl

/-- What the file of a scope is read as; a file that is missing or holds no bytes has no text. -/
inductive Logbook.Reads (l : Logbook) (scope : Scope) : String → Prop
  | file {text : String} (h : l.tree.readText (l.path scope) = .ok text) : l.Reads scope text
  | empty (h : ∀ bytes, l.tree.at? (placeOf (l.path scope)) = some (.file bytes) →
      bytes = .empty) : l.Reads scope ""

theorem eq_entriesOf_of_load {entries : List Entry} (htext : l.Reads scope text)
    (h : (l.load scope).value = .ok entries) : entries = entriesOf scope text.toList := by
  cases htext with
  | file hread =>
      rw [load_of_readText hread] at h
      exact (Except.ok.inj h).symm
  | empty hempty =>
      -- the file may have been made by its lock, and then has no lines to read
      cases hread : l.tree.readText (l.path scope) with
      | ok text =>
          obtain rfl : text = "" :=
            String.toByteArray_inj.mp (hempty _ (readText_eq_ok_iff.mp hread).2.2)
          rw [load_of_readText hread] at h
          exact (Except.ok.inj h).symm
      | error cause =>
          rw [Logbook.load] at h
          simp only [hread] at h
          cases cause with
          | notFound => exact (Except.ok.inj h).symm
          | _ => cases h

/-- Directories and empty files do not change what is read. -/
theorem Logbook.Reads.of_grows (h : l.Reads scope text) (hgrows : l.tree.Grows l'.tree)
    (hpath : l'.path scope = l.path scope) : l'.Reads scope text := by
  cases h with
  | file hread => exact .file (hpath ▸ readText_of_grows hgrows hread)
  | empty hempty => exact .empty fun bytes hfile => hgrows.eq_empty hempty (hpath ▸ hfile)

theorem Logbook.Holds.reads (h : l.Holds scope text) : l.Reads scope text := by
  cases h with
  | file h => exact .file h
  | missing h hplace => exact .empty fun bytes hfile => absurd hfile (hplace bytes)

/-- Writing a record puts it behind the text. -/
theorem readText_of_write (htext : l.Reads e.scope text)
    (hwrite : (l.write e).value = (.ok (), l')) :
    l'.tree.readText (l'.path e.scope) = .ok (text ++ written l.clock e text) := by
  obtain ⟨made, hmade, happend, hwritten⟩ := of_write hwrite
  have hgrown : Logbook.Reads { l with tree := made } e.scope text :=
    htext.of_grows (grows_of_makeParent hmade) rfl
  rw [path_of_tree_eq hwritten]
  refine readText_append happend ?_ (payload_toUTF8 l.clock e text)
  cases hgrown with
  | file hread => exact .inl hread
  | empty hempty => exact .inr ⟨rfl, hempty⟩

theorem reads_of_lock (htext : l.Reads scope text) (hlock : l.lock scope = .ok locked) :
    locked.Reads scope text := by
  obtain ⟨-, -, -, hlocked⟩ := of_lock hlock
  exact htext.of_grows (grows_of_lock hlock) (path_of_tree_eq hlocked)

/-- Whoever holds the lock reads what was there before. -/
theorem load_of_lock {entries : List Entry} (hlock : l.lock scope = .ok locked)
    (htext : l.Holds scope text) (hload : (locked.load scope).value = .ok entries) :
    entries = entriesOf scope text.toList :=
  eq_entriesOf_of_load (reads_of_lock htext.reads hlock) hload

/-! ### Appends -/

/-- The text of the file after an append. -/
theorem readText_of_appended (htext : l.Holds e.scope text)
    (h : (l.append e).value = (.ok .appended, l')) :
    l'.tree.readText (l'.path e.scope) = .ok (text ++ written l.clock e text) := by
  obtain ⟨locked, entries, hlock, -, -, hwrite⟩ := of_appended h
  obtain ⟨-, -, -, hlocked⟩ := of_lock hlock
  have hclock : locked.clock = l.clock := by rw [hlocked]
  rw [← hclock]
  exact readText_of_write (reads_of_lock htext.reads hlock) hwrite

/-- The lock can be taken again after an append. -/
theorem lock_of_appended (h : (l.append e).value = (.ok .appended, l')) :
    ∃ again, l'.lock e.scope = .ok again := by
  obtain ⟨locked, entries, hlock, -, -, hwrite⟩ := of_appended h
  obtain ⟨-, -, -, hlocked⟩ := of_lock hlock
  obtain ⟨made, hmade, happend, hwritten⟩ := of_write hwrite
  have hgrows : locked.tree.Grows made := grows_of_makeParent hmade
  refine lock_again hlock ((path_of_tree_eq hwritten).trans (path_of_tree_eq hlocked)) ?_ ?_
  · exact fun p hp => keepsDirectories_of_append happend p (hgrows.keepsDirectories p hp)
  · exact fun p bytes hfile => isFile_of_append happend (hgrows.kept p _ hfile)

/-- What is read after an append that is reported as done. -/
theorem load_of_appended (htext : l.Holds e.scope text)
    (h : (l.append e).value = (.ok .appended, l')) : (l'.load e.scope).value =
      .ok (entriesOf e.scope (text ++ written l.clock e text).toList) :=
  load_of_readText (readText_of_appended htext h)

/-- The entry is read behind those that were there exactly when the file ended a line. -/
theorem load_appended_iff (hproper : e.IsProper) (htext : l.Holds e.scope text)
    (h : (l.append e).value = (.ok .appended, l')) :
    (∃ e', (l'.load e.scope).value = .ok (entriesOf e.scope text.toList ++ [e']) ∧
      e'.key = e.key ∧ e'.category = e.category ∧ e'.scope = e.scope) ↔ EndsLine text.toList := by
  rw [load_of_appended htext h]
  simp only [Except.ok.injEq]
  exact entriesOf_written_iff hproper

/-- The key is known to the next append exactly when the file ended a line. -/
theorem duplicate_iff (hproper : e.IsProper) (htext : l.Holds e.scope text)
    (h : (l.append e).value = (.ok .appended, l')) {again : Entry} (hkey : again.key = e.key)
    (hscope : again.scope = e.scope) :
    (l'.append again).value.1 = .ok .duplicate ↔ EndsLine text.toList := by
  obtain ⟨locked, entries, hlock, hentries, hnew, -⟩ := of_appended h
  rw [load_of_lock hlock htext hentries] at hnew
  obtain ⟨relocked, hrelock⟩ := lock_of_appended h
  obtain ⟨-, -, -, hrelocked⟩ := of_lock hrelock
  have hreload := load_of_readText (l := relocked) (path_of_tree_eq hrelocked ▸
    readText_of_grows (grows_of_lock hrelock) (readText_of_appended htext h))
  rw [← hscope] at hrelock hreload
  rw [append_of_lock hrelock hreload, hkey, hscope, key_mem_written_iff hproper hnew]

/-- **What a reported append does.**  The entries that were there are kept and the new one is read
behind them exactly when the file ended with a line break, blanks aside; only then is the next
append of the same key a duplicate. -/
theorem durable_iff (hproper : e.IsProper) (htext : l.Holds e.scope text)
    (h : (l.append e).value = (.ok .appended, l')) :
    (l.load e.scope).value = .ok (entriesOf e.scope text.toList) ∧
      ((∃ e', (l'.load e.scope).value = .ok (entriesOf e.scope text.toList ++ [e']) ∧
        e'.key = e.key ∧ e'.category = e.category ∧ e'.scope = e.scope) ↔ EndsLine text.toList) ∧
      ∀ again : Entry, again.key = e.key → again.scope = e.scope →
        ((l'.append again).value.1 = .ok .duplicate ↔ EndsLine text.toList) :=
  ⟨load_of_holds htext, load_appended_iff hproper htext h,
    fun _ hkey hscope => duplicate_iff hproper htext h hkey hscope⟩

/-! ### A file with one record -/

/-- A record with its line break. -/
def endedRecord : String := "- [2020-01-01 08:00] [location] Manages Site Alpha\n"

/-- The record as people leave it, without a line break. -/
def openRecord : String := "- [2020-01-01 08:00] [location] Manages Site Alpha"

/-- A logbook whose file for the user holds a text. -/
def logbookOf (text : String) : Logbook where
  userPath := "USER_MEMORY.md"
  organizationPath := "ORG_MEMORY.md"
  tree := Tree.put {} ["USER_MEMORY.md"] (.file text.toUTF8)
  clock := ⟨1588748889⟩

def briefing : Entry := Entry.new "Prefers morning briefings" .preference .user ⟨1588748889⟩

theorem holds_logbookOf (text : String) : (logbookOf text).Holds .user text := by
  have hplace : placeOf "USER_MEMORY.md" = ["USER_MEMORY.md"] := by decide
  have hread : (logbookOf text).tree.readText "USER_MEMORY.md" = .ok text := by
    rw [readText_eq_ok_iff, hplace]
    exact ⟨rfl, by decide, at?_put_self _ _ _ (by decide)⟩
  exact .file hread

theorem isProper_briefing : briefing.IsProper := isProper_new (by decide) (by
  unfold Calendar.Instant.IsDated
  decide)

/-- A record behind an ended line. -/
theorem ended_file_keeps_record :
    ((logbookOf endedRecord).append briefing).value.1 = .ok .appended ∧
      (((logbookOf endedRecord).after briefing).append briefing).value.1 = .ok .duplicate := by
  have happended : ((logbookOf endedRecord).append briefing).value.1 = .ok .appended := rfl
  have hends : EndsLine endedRecord.toList := by decide
  obtain ⟨-, -, hagain⟩ :=
    durable_iff isProper_briefing (holds_logbookOf endedRecord) (append_eq_after happended)
  exact ⟨happended, (hagain briefing rfl rfl).mpr hends⟩

/-- **A file whose last line is not ended** loses the record: it is reported as appended, what is
read afterwards is not what was read before with the entry behind it, and the same append is no
duplicate. -/
theorem unended_file_loses_record :
    ((logbookOf openRecord).append briefing).value.1 = .ok .appended ∧
      ((logbookOf openRecord).load .user).value =
        .ok [Entry.new "Manages Site Alpha" .location .user ⟨1577865600⟩] ∧
      (¬ ∃ e', (((logbookOf openRecord).after briefing).load .user).value =
        .ok ([Entry.new "Manages Site Alpha" .location .user ⟨1577865600⟩] ++ [e']) ∧
          e'.key = briefing.key ∧ e'.category = briefing.category ∧ e'.scope = briefing.scope) ∧
      (((logbookOf openRecord).after briefing).append briefing).value.1 ≠ .ok .duplicate := by
  have happended : ((logbookOf openRecord).append briefing).value.1 = .ok .appended := rfl
  have hload : ((logbookOf openRecord).load .user).value =
      .ok [Entry.new "Manages Site Alpha" .location .user ⟨1577865600⟩] := rfl
  have hopen : ¬ EndsLine openRecord.toList := by decide
  have hholds := holds_logbookOf openRecord
  have hentries : entriesOf .user openRecord.toList =
      [Entry.new "Manages Site Alpha" .location .user ⟨1577865600⟩] :=
    Except.ok.inj ((load_of_holds hholds).symm.trans hload)
  have happend := append_eq_after happended
  refine ⟨happended, hload, ?_, ?_⟩
  · rw [← hentries]
    exact fun hread => hopen ((load_appended_iff isProper_briefing hholds happend).mp hread)
  · exact fun hagain =>
      hopen ((duplicate_iff isProper_briefing hholds happend rfl rfl).mp hagain)

end SiteSafety.Memory
