import SiteSafety.Memory.Logbook
import SiteSafety.Proofs.Calendar.Minute
import SiteSafety.Proofs.Text.Lower

/-!
# Proofs — Memory — Record

The line that is written for an entry, and what is read from lines.

* `entryOn?_record`: a record on a line of its own is read as the entry, its content on one line
  and its time cut to the minute; key, category and scope are kept.
* `key_ne_of_joined`: behind text that is not blank the same record is lost.  Whatever is read
  from the joined line has a longer key, since the category and all that stands before it have
  become part of the content or of the tag.
-/

namespace SiteSafety.Memory

/-! ### Entries in a text -/

/-- The entry on a line, if the line is a record. -/
def entryOn? (scope : Scope) (line : List Char) : Option Entry :=
  (recordOn? scope line).bind Except.toOption

/-- The entries in a text. -/
def entriesOf (scope : Scope) (cs : List Char) : List Entry :=
  (Text.lines cs).filterMap (entryOn? scope)

theorem value_readLines (path : String) (scope : Scope) (number : Nat) (ls : List (List Char)) :
    (readLines path scope number ls).value = ls.filterMap (entryOn? scope) := by
  induction ls generalizing number with
  | nil => rfl
  | cons line rest ih =>
      rw [readLines, List.filterMap_cons, entryOn?]
      cases h : recordOn? scope line with
      | none => exact ih (number + 1)
      | some outcome =>
          cases outcome with
          | error reason => exact ih (number + 1)
          | ok e => exact congrArg (e :: ·) (ih (number + 1))

/-- Only the characters between blanks count. -/
theorem entryOn?_dropReturn (scope : Scope) (line : List Char) :
    entryOn? scope (Text.dropReturn line) = entryOn? scope line := by
  rw [entryOn?, recordOn?, Text.trim_dropReturn]
  rfl

theorem entryOn?_of_blank {scope : Scope} {line : List Char}
    (h : ∀ c ∈ line, Text.isBlank c = true) : entryOn? scope line = none := by
  rw [entryOn?, recordOn?, Text.trim_of_blank h]
  rfl

theorem entryOn?_of_head {scope : Scope} {c : Char} {cs : List Char}
    (hblank : Text.isBlank c = false) (hmark : c ≠ '-') : entryOn? scope (c :: cs) = none := by
  have htrim : Text.trim ([] ++ c :: cs) = Text.trimStart [] ++ c :: Text.trimEnd cs :=
    Text.trim_append_cons hblank
  rw [List.nil_append, Text.trimStart, List.dropWhile_nil, List.nil_append] at htrim
  have hprefix : recordMark.isPrefixOf (c :: Text.trimEnd cs) = false := by
    simp [recordMark, List.isPrefixOf, Ne.symm hmark]
  simp [entryOn?, recordOn?, htrim, hprefix]

/-! ### Keys -/

/-- An entry whose content is not blank, whose key is that of its content, and whose time has a
date. -/
structure Entry.IsProper (e : Entry) : Prop where
  content : Text.isBlankText e.content = false
  key : e.key = normalizeKey e.content
  dated : e.createdAt.IsDated

theorem separates_of_isBlank (c : Char) (h : Text.isBlank c = true) :
    (!Text.isAlphanumeric c) = true := by
  rw [Text.isAlphanumeric_of_isBlank h]
  rfl

theorem contentWords_trim (cs : List Char) : contentWords (Text.trim cs) = contentWords cs :=
  Text.fields_trim separates_of_isBlank cs

theorem normalizeKey_trimmed (content : String) :
    normalizeKey (Text.trimmed content) = normalizeKey content := by
  rw [normalizeKey, Text.trimmed, String.toList_ofList, contentWords_trim]
  rfl

/-- Putting a content on one line keeps its words. -/
theorem contentWords_oneLine (content : String) :
    contentWords (oneLine content).toList = contentWords content.toList := by
  rw [oneLine, String.toList_ofList]
  exact Text.fields_join_lines separates_of_isBlank _

theorem normalizeKey_oneLine (content : String) :
    normalizeKey (oneLine content) = normalizeKey content := by
  rw [normalizeKey, contentWords_oneLine]
  rfl

theorem isProper_new {content : String} {category : Category} {scope : Scope}
    {createdAt : Calendar.Instant} (hcontent : Text.isBlankText content = false)
    (hdated : createdAt.IsDated) : (Entry.new content category scope createdAt).IsProper where
  content := by
    rw [Text.isBlankText, Entry.new, Text.trimmed, String.toList_ofList, Text.all_isBlank_trim]
    exact hcontent
  key := rfl
  dated := hdated

/-- What is read from the record of an entry. -/
def Entry.kept (e : Entry) : Entry :=
  Entry.new (oneLine e.content) e.category e.scope e.createdAt.toMinute

theorem category_kept (e : Entry) : e.kept.category = e.category := by
  rw [Entry.kept, Entry.new]

theorem scope_kept (e : Entry) : e.kept.scope = e.scope := by
  rw [Entry.kept, Entry.new]

theorem key_kept {e : Entry} (h : e.IsProper) : e.kept.key = e.key := by
  rw [h.key, Entry.kept, Entry.new, normalizeKey_trimmed, normalizeKey_oneLine]

/-! ### The line of an entry -/

/-- The line of an entry without its line break. -/
def recordBody (e : Entry) : List Char :=
  recordMark ++ (e.createdAt.minuteText.toList ++ ']' :: ' ' :: '[' :: (e.category.name.toList ++
    ']' :: ' ' :: (oneLine e.content).toList))

theorem toList_formatRecord (e : Entry) : (formatRecord e).toList = recordBody e ++ ['\n'] := by
  simp [formatRecord, recordBody, recordMark, toString]

theorem not_mem_oneLine (content : String) : '\n' ∉ (oneLine content).toList := by
  rw [oneLine, String.toList_ofList]
  intro h
  rcases Text.mem_join h with heq | ⟨line, hline, hmem⟩
  · cases heq
  · obtain ⟨l, hl, rfl⟩ := List.mem_map.mp hline
    exact Text.not_mem_of_mem_lines hl (Text.mem_of_mem_trim hmem)

theorem not_mem_recordBody (e : Entry) : '\n' ∉ recordBody e := by
  have hstamp : '\n' ∉ e.createdAt.minuteText.toList :=
    Calendar.not_mem_minuteText _ (by decide) (by decide)
  have hname : '\n' ∉ e.category.name.toList := by
    cases e.category <;> decide
  simp [recordBody, recordMark, hstamp, hname, not_mem_oneLine]

/-- The trimmed line, behind text that ends the trimming at its start. -/
theorem trim_append_recordBody (line : List Char) (e : Entry) :
    Text.trim (line ++ recordBody e) = Text.trimStart line ++ (recordMark ++
      (e.createdAt.minuteText.toList ++ ']' :: ' ' :: '[' :: (e.category.name.toList ++
        ']' :: Text.trimEnd (' ' :: (oneLine e.content).toList)))) := by
  have hmark : line ++ recordBody e = line ++ '-' :: ([' ', '['] ++ (e.createdAt.minuteText.toList
      ++ ']' :: ' ' :: '[' :: (e.category.name.toList ++
        ']' :: ' ' :: (oneLine e.content).toList))) := rfl
  have hclose : ([' ', '['] ++ (e.createdAt.minuteText.toList ++ ']' :: ' ' :: '[' ::
      (e.category.name.toList ++ ']' :: ' ' :: (oneLine e.content).toList))) =
      ([' ', '['] ++ e.createdAt.minuteText.toList ++ ']' :: ' ' :: '[' :: e.category.name.toList) ++
        ']' :: ' ' :: (oneLine e.content).toList := by simp
  rw [hmark, Text.trim_append_cons (by decide), hclose, Text.trimEnd,
    Text.dropEndWhile_append_cons (by decide)]
  simp [recordMark, Text.trimEnd]

theorem ofLabel_name (c : Category) : Category.ofLabel c.name = c := by
  cases c <;> decide

theorem trim_content (content : String) :
    Text.trim (Text.trimEnd (' ' :: (oneLine content).toList)) =
      Text.trim (oneLine content).toList := by
  have hspace : ∀ c ∈ [' '], Text.isBlank c = true := List.forall_mem_singleton.mpr (by decide)
  rw [Text.trim_trimEnd, ← List.singleton_append, Text.trim_of_blank_append hspace]

/-- Putting a content on one line keeps what is not blank. -/
theorem trim_oneLine_ne_nil {content : String} (h : Text.isBlankText content = false) :
    Text.trim (oneLine content).toList ≠ [] := by
  rw [Ne, Text.trim_eq_nil_iff, Text.all_isBlank_iff, oneLine, String.toList_ofList, Text.words,
    Text.fields_join_lines fun _ h => h, ← Text.words, ← Text.all_isBlank_iff]
  exact Bool.eq_false_iff.mp h

theorem new_trim (cs : List Char) (category : Category) (scope : Scope)
    (createdAt : Calendar.Instant) :
    Entry.new (String.ofList (Text.trim cs)) category scope createdAt =
      Entry.new (String.ofList cs) category scope createdAt := by
  simp [Entry.new, Text.trimmed]

theorem readTag_name (category : Category) (cs : List Char) :
    readTag ('[' :: (category.name.toList ++ ']' :: cs)) = (category, cs) := by
  have hname : ']' ∉ category.name.toList := by
    cases category <;> decide
  simp only [readTag, Text.cut?_singleton_append hname, String.ofList_toList, ofLabel_name]

theorem readRecord_body {e : Entry} (h : e.IsProper) :
    readRecord e.scope (e.createdAt.minuteText.toList ++ ']' :: ' ' :: '[' ::
      (e.category.name.toList ++ ']' :: Text.trimEnd (' ' :: (oneLine e.content).toList))) =
      .ok e.kept := by
  have hstamp : ']' ∉ e.createdAt.minuteText.toList :=
    Calendar.not_mem_minuteText _ (by decide) (by decide)
  have hspace (cs : List Char) : Text.trimStart (' ' :: '[' :: cs) = '[' :: cs := rfl
  have hempty : (Text.trim (oneLine e.content).toList).isEmpty = false := by
    simpa using trim_oneLine_ne_nil h.content
  simp only [readRecord, Text.cut?_singleton_append hstamp, Calendar.trim_minuteText,
    Calendar.readMinute_minuteText h.dated, hspace, readTag_name, trim_content, hempty,
    Bool.false_eq_true, if_false, new_trim, String.ofList_toList, Entry.kept]

/-- **A record on a line of its own** is read as the entry it was written for. -/
theorem entryOn?_record {line : List Char} {e : Entry}
    (hline : ∀ c ∈ line, Text.isBlank c = true) (h : e.IsProper) :
    entryOn? e.scope (line ++ recordBody e) = some e.kept := by
  have hstart : Text.trimStart line = [] := List.dropWhile_eq_nil_iff.mpr hline
  have hmark (cs : List Char) : recordMark.isPrefixOf (recordMark ++ cs) = true := by simp
  rw [entryOn?, recordOn?, trim_append_recordBody, hstart, List.nil_append]
  simp only [hmark, if_true, List.drop_left, readRecord_body h]
  rfl

/-- Whatever the time of an entry, an entry that is read from its record has its content on one line
and the key of that content. -/
theorem content_of_entryOn?_record {scope : Scope} {line : List Char} {e e' : Entry}
    (hline : ∀ c ∈ line, Text.isBlank c = true)
    (h : entryOn? scope (line ++ recordBody e) = some e') :
    e'.content = Text.trimmed (oneLine e.content) ∧ e'.key = normalizeKey e'.content := by
  have hstart : Text.trimStart line = [] := List.dropWhile_eq_nil_iff.mpr hline
  have hmark (cs : List Char) : recordMark.isPrefixOf (recordMark ++ cs) = true := by simp
  have hstamp : ']' ∉ e.createdAt.minuteText.toList :=
    Calendar.not_mem_minuteText _ (by decide) (by decide)
  have hspace (cs : List Char) : Text.trimStart (' ' :: '[' :: cs) = '[' :: cs := rfl
  rw [entryOn?, recordOn?, trim_append_recordBody, hstart, List.nil_append] at h
  simp only [hmark, if_true, List.drop_left, Option.bind_some, readRecord,
    Text.cut?_singleton_append hstamp, hspace, readTag_name, trim_content, new_trim,
    String.ofList_toList] at h
  cases hread : Calendar.readMinute (Text.trim e.createdAt.minuteText.toList) with
  | error cause =>
      rw [hread] at h
      cases h
  | ok createdAt =>
      simp only [hread] at h
      split at h
      next => cases h
      next =>
        obtain rfl := Option.some.inj h
        exact ⟨rfl, rfl⟩

/-! ### Records behind other text -/

/-- A text that is cut at its first mark keeps what stands behind a later one. -/
theorem contentWords_of_cut {cs ds before after : List Char}
    (h : Text.cut? [']'] (cs ++ ']' :: ds) = some (before, after)) :
    ∃ ws, contentWords after = ws ++ contentWords ds := by
  obtain ⟨heq, hnot⟩ := Text.cut?_singleton_eq_some.mp h
  rcases List.append_eq_append_iff.mp heq with ⟨more, rfl, hmore⟩ | ⟨more, rfl, hmore⟩
  · cases more with
    | nil =>
        cases hmore
        exact ⟨[], rfl⟩
    | cons c more =>
        obtain ⟨rfl, -⟩ := List.cons.inj hmore
        simp at hnot
  · cases more with
    | nil =>
        cases hmore
        exact ⟨[], rfl⟩
    | cons c more =>
        obtain ⟨rfl, rfl⟩ := List.cons.inj hmore
        exact ⟨_, Text.fields_append_cons (by decide)⟩

/-- The content behind a tag ends like the text. -/
theorem contentWords_readTag (cs ds : List Char) :
    ∃ ws, contentWords (readTag (cs ++ ']' :: ds)).2 = ws ++ contentWords ds := by
  have hwhole : contentWords (cs ++ ']' :: ds) = contentWords cs ++ contentWords ds :=
    Text.fields_append_cons (by decide)
  cases cs with
  | nil => exact ⟨_, hwhole⟩
  | cons c cs =>
      unfold readTag
      split
      next tagged heq =>
        obtain ⟨rfl, rfl⟩ := List.cons.inj heq
        split
        next tag content hcut => exact contentWords_of_cut hcut
        next => exact ⟨_, hwhole⟩
      next => exact ⟨_, hwhole⟩

/-- An entry that is read where a later record was written ends like that record. -/
theorem contentWords_of_readRecord {scope : Scope} {cs ds : List Char} {e : Entry}
    (h : readRecord scope (cs ++ ']' :: ds) = .ok e) (hbracket : '[' ∈ cs) :
    ∃ ws, e.key = normalizeKey e.content ∧
      contentWords e.content.toList = ws ++ contentWords ds := by
  unfold readRecord at h
  split at h
  · cases h
  next stamp rest hcut =>
    split at h
    · cases h
    next createdAt hread =>
      obtain ⟨heq, hnot⟩ := Text.cut?_singleton_eq_some.mp hcut
      have hstamp : '[' ∉ stamp := fun hmem =>
        Calendar.not_mem_of_readMinute hread (Text.mem_trim (by decide) hmem)
      -- a stamp holds no bracket, so it ends before the record's own tag
      have hrest : ∃ more, rest = more ++ ']' :: ds := by
        rcases List.append_eq_append_iff.mp heq with ⟨more, rfl, -⟩ | ⟨more, rfl, hmore⟩
        · simp [hbracket] at hstamp
        · cases more with
          | nil => simp [hstamp] at hbracket
          | cons c more => exact ⟨more, (List.cons.inj hmore).2⟩
      obtain ⟨more, rfl⟩ := hrest
      rw [Text.trimStart_append_cons (by decide)] at h
      obtain ⟨ws, hws⟩ := contentWords_readTag (Text.trimStart more) ds
      dsimp only at h
      split at h
      · cases h
      · have he := Except.ok.inj h
        rw [← he]
        refine ⟨ws, rfl, ?_⟩
        rw [← hws]
        simp only [Entry.new, Text.trimmed, String.toList_ofList, contentWords_trim]

theorem contentWords_name_ne_nil (category : Category) :
    contentWords category.name.toList ≠ [] := by
  have hletter : ∃ c ∈ category.name.toList, Text.isAlphanumeric c = true := by
    cases category with
    | location => exact ⟨'l', by decide, by decide⟩
    | preference | siteIssue | decisionLog | other => exact ⟨'e', by decide, by decide⟩
  obtain ⟨c, hc, halnum⟩ := hletter
  intro hnil
  have hsep := Text.fields_eq_nil_iff.mp hnil c hc
  simp [halnum] at hsep

/-- Words before others make a key longer. -/
theorem normalizeKey_ne {long short : String} {ws : List (List Char)} (hws : ws ≠ [])
    (h : contentWords long.toList = ws ++ contentWords short.toList) :
    normalizeKey long ≠ normalizeKey short := by
  intro heq
  obtain ⟨w, rest, rfl⟩ := List.exists_cons_of_ne_nil hws
  have hw : w ≠ [] := by
    have hmem : w ∈ contentWords long.toList := by simp [h]
    exact Text.ne_nil_of_mem_fields hmem
  have hpos := List.length_pos_iff.mpr (Text.lower_ne_nil hw)
  have hjoin := congrArg String.toList heq
  simp only [normalizeKey, String.toList_ofList, h, List.cons_append, List.map_cons,
    List.map_append] at hjoin
  have hlength := Text.length_join_append_le (c := ' ') (Text.lower w) (rest.map Text.lower)
    ((contentWords short.toList).map Text.lower)
  rw [hjoin] at hlength
  omega

theorem contentWords_recordTail (e : Entry) :
    contentWords (' ' :: '[' :: (e.category.name.toList ++
      ']' :: Text.trimEnd (' ' :: (oneLine e.content).toList))) =
      contentWords e.category.name.toList ++ contentWords e.content.toList := by
  have hopen (cs : List Char) : contentWords (' ' :: '[' :: cs) = contentWords cs := by
    have hmarks : ∀ c ∈ [' ', '['], (!Text.isAlphanumeric c) = true :=
      List.all_eq_true.mp (by decide)
    exact Text.fields_append_of_all hmarks
  have hclose (cs ds : List Char) :
      contentWords (cs ++ ']' :: ds) = contentWords cs ++ contentWords ds :=
    Text.fields_append_cons (by decide)
  rw [hopen, hclose, ← contentWords_trim (Text.trimEnd _), trim_content, contentWords_trim,
    contentWords_oneLine]

/-- A mark that lines start with lies before a record or is its own. -/
theorem eq_recordMark_append {start cs : List Char} (hne : start ≠ [])
    (h : recordMark.isPrefixOf (start ++ (recordMark ++ cs)) = true) :
    ∃ more, start = recordMark ++ more := by
  match start, hne with
  | [a], _ => simp [recordMark, List.isPrefixOf] at h
  | [a, b], _ => simp [recordMark, List.isPrefixOf] at h
  | a :: b :: c :: more, _ =>
      simp only [recordMark, List.cons_append] at h
      simp [List.isPrefixOf] at h
      obtain ⟨rfl, rfl, rfl⟩ := h
      exact ⟨more, rfl⟩

/-- **A record behind text that is not blank** is lost: what is read from the line has another
key. -/
theorem key_ne_of_joined {scope : Scope} {line : List Char} {e e' : Entry}
    (hline : ∃ c ∈ line, Text.isBlank c = false) (hkey : e.key = normalizeKey e.content)
    (h : entryOn? scope (line ++ recordBody e) = some e') : e'.key ≠ e.key := by
  -- the line starts with a mark of its own, so the stamp, the tag or the content that is read from
  -- it runs on into the record
  have hstart : Text.trimStart line ≠ [] := by
    intro hnil
    obtain ⟨c, hc, hblank⟩ := hline
    rw [List.dropWhile_eq_nil_iff.mp hnil c hc] at hblank
    cases hblank
  generalize hmark : Text.trimStart line = start at hstart
  rw [entryOn?, recordOn?, trim_append_recordBody, hmark] at h
  split at h
  next hprefix =>
    obtain ⟨more, rfl⟩ := eq_recordMark_append hstart hprefix
    rw [List.append_assoc, List.drop_left, Option.bind_some] at h
    have hread : readRecord scope ((more ++ recordMark ++ e.createdAt.minuteText.toList) ++
        ']' :: ' ' :: '[' :: (e.category.name.toList ++
          ']' :: Text.trimEnd (' ' :: (oneLine e.content).toList))) = .ok e' := by
      simp only [List.append_assoc]
      revert h
      cases readRecord scope _ with
      | error reason => intro h; cases h
      | ok e'' => intro h; cases h; rfl
    obtain ⟨ws, hkey', hwords⟩ := contentWords_of_readRecord hread (by simp [recordMark])
    rw [contentWords_recordTail, ← List.append_assoc] at hwords
    rw [hkey, hkey']
    exact normalizeKey_ne (List.append_ne_nil_of_right_ne_nil _ (contentWords_name_ne_nil _)) hwords
  · cases h

end SiteSafety.Memory
