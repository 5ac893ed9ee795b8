import SiteSafety.Proofs.Memory.Refinement
import SiteSafety.Proofs.Memory.Screening
import SiteSafety.Proofs.Memory.Texts

/-!
# Proofs — Memory — Secrets

What can be read of a store that is only written to by commits.  Every entry was told by a
candidate that passed the screening (`ToldBy`), in the form that the store gives to its content: a
ledger trims it, a logbook also puts it on one line.

* `Keeps.facts`: what one call preserves holds of all that is read in any number of calls.
* `keeps_ledger`, `keeps_logbook`: both stores preserve where their entries come from, whether the
  files fail or not.
* `screened_facts`: **no entry has an empty key, and none of a ledger looks sensitive**; one of a
  logbook does exactly when its candidate broke a phrase over two lines.
* `broken_phrase_is_read_whole`: such a candidate passes the screening.
-/

namespace SiteSafety.Memory
open Files

/-! ### Calls -/

/-- Nothing is appended without being screened. -/
def Call.IsScreened : Call → Prop
  | .append _ => False
  | .commit .. | .read _ | .readAll | .reopen => True

/-- The candidates that pass the screening of a call satisfy a condition. -/
def Call.Passes (passes : Candidate → Prop) : Call → Prop
  | .append _ => False
  | .commit policy _ c => policy.screen c = none → passes c
  | .read _ | .readAll | .reopen => True

/-- One of the calls commits a candidate that passes its screening. -/
def Passed (calls : List (Calendar.Instant × Call)) (c : Candidate) : Prop :=
  ∃ time policy now, (time, .commit policy now c) ∈ calls ∧ policy.screen c = none

theorem passes_passed {calls : List (Calendar.Instant × Call)}
    (h : ∀ c ∈ calls, c.2.IsScreened) : ∀ c ∈ calls, c.2.Passes (Passed calls) := by
  rintro ⟨time, call⟩ hmem
  cases call with
  | append e => exact h _ hmem
  | commit policy now c => exact fun hscreen => ⟨time, policy, now, hmem, hscreen⟩
  | read | readAll | reopen => trivial

/-! ### What a store keeps -/

variable {σ : Type} [Store σ]

/-- A property of stores that gives a property of all entries that are read, and that stays when a
store is taken up again or a candidate that passes is appended, with whatever outcome. -/
structure Keeps (take : Calendar.Instant → σ → σ) (I : σ → Prop) (passes : Candidate → Prop)
    (P : Entry → Prop) : Prop where
  take {s : σ} (now : Calendar.Instant) : I s → I (take now s)
  read {s : σ} {scope : Scope} {entries : List Entry} : I s →
    (Store.read scope s).value = .ok entries → ∀ e ∈ entries, P e
  append {s : σ} {c : Candidate} (now : Calendar.Instant) : I s → passes c →
    I (Store.append (Entry.ofCandidate c now) s).value.2

namespace Keeps

variable {take : Calendar.Instant → σ → σ} {I : σ → Prop} {passes : Candidate → Prop}
  {P : Entry → Prop} {s : σ}

theorem commit (h : Keeps take I passes P) (hs : I s) {policy : Policy} {now : Calendar.Instant}
    {c : Candidate} (hpasses : policy.screen c = none → passes c) :
    I (policy.commit now c s).value.2 := by
  rw [value_commit]
  cases hscreen : policy.screen c with
  | some reason => exact hs
  | none =>
      have hafter := h.append now hs (hpasses hscreen)
      simp only
      generalize (Store.append (Entry.ofCandidate c now) s).value = outcome at hafter ⊢
      obtain ⟨_ | _ | _, after⟩ := outcome <;> exact hafter

theorem readScopes (h : Keeps take I passes P) (hs : I s) {scopes : List Scope}
    {entries : List Entry} (hread : (Memory.readScopes s scopes).value = .ok entries) :
    ∀ e ∈ entries, P e := by
  induction scopes generalizing entries with
  | nil =>
      cases hread
      exact nofun
  | cons scope rest ih =>
      rw [value_readScopes_cons] at hread
      cases hfirst : (Store.read scope s).value with
      | error e =>
          rw [hfirst] at hread
          cases hread
      | ok first =>
          rw [hfirst] at hread
          obtain ⟨more, hmore, rfl⟩ := map_eq_ok_iff.mp hread
          intro e he
          obtain he | he := List.mem_append.mp he
          · exact h.read hs hfirst e he
          · exact ih hmore e he

/-- **One call** keeps the property of the store, and what it reads has the property of entries. -/
theorem perform (h : Keeps take I passes P) (hs : I s) {call : Call} (hcall : call.Passes passes) :
    (∀ entries, (call.perform s).1 = .facts (.ok entries) → ∀ e ∈ entries, P e) ∧
      I (call.perform s).2 := by
  cases call with
  | append e => exact absurd hcall id
  | commit policy now c =>
      rw [perform_commit]
      dsimp only
      exact ⟨fun entries hread => by simp at hread, h.commit hs hcall⟩
  | read scope =>
      rw [perform_read]
      exact ⟨fun entries hread => h.read hs (Response.facts.inj hread), hs⟩
  | readAll =>
      exact ⟨fun entries hread => h.readScopes hs (Response.facts.inj hread), hs⟩
  | reopen => exact ⟨nofun, hs⟩

/-- **Any number of calls** read entries with the property alone. -/
theorem facts (h : Keeps take I passes P) (hs : I s) {calls : List (Calendar.Instant × Call)}
    (hcalls : ∀ c ∈ calls, c.2.Passes passes) {entries : List Entry}
    (hread : .facts (.ok entries) ∈ responses take calls s) : ∀ e ∈ entries, P e := by
  induction calls generalizing s with
  | nil => cases hread
  | cons c rest ih =>
      obtain ⟨now, call⟩ := c
      simp only [List.forall_mem_cons] at hcalls
      obtain ⟨hfacts, hafter⟩ := h.perform (h.take now hs) hcalls.1
      rw [responses_cons] at hread
      obtain hfirst | hlater := List.mem_cons.mp hread
      · exact hfacts entries hfirst.symm
      · exact ih hafter hcalls.2 hlater

end Keeps

/-! ### Where entries come from -/

variable {form : String → String} {passes : Candidate → Prop} {e e' : Entry}

/-- The content of an entry is that of a candidate that passed, in the form that a store gives to
contents, and its key is that of its content. -/
def ToldBy (form : String → String) (passes : Candidate → Prop) (e : Entry) : Prop :=
  ∃ c, passes c ∧ e.content = form c.content ∧ e.key = normalizeKey e.content

theorem toldBy_ofCandidate {c : Candidate} (h : passes c) (now : Calendar.Instant) :
    ToldBy Text.trimmed passes (Entry.ofCandidate c now) :=
  ⟨c, h, rfl, rfl⟩

/-- The form of the contents in a logbook. -/
def lineOf (content : String) : String := oneLine (Text.trimmed content)

theorem normalizeKey_lineOf (content : String) :
    normalizeKey (lineOf content) = normalizeKey content := by
  rw [lineOf, normalizeKey_oneLine, normalizeKey_trimmed]

/-- On a line of its own, the record of an entry is read as one of the same candidate. -/
theorem toldBy_of_record {scope : Scope} {line : List Char} (h : ToldBy Text.trimmed passes e)
    (hline : ∀ c ∈ line, Text.isBlank c = true)
    (hread : entryOn? scope (line ++ recordBody e) = some e') : ToldBy lineOf passes e' := by
  obtain ⟨c, hc, hcontent, -⟩ := h
  obtain ⟨hcontent', hkey'⟩ := content_of_entryOn?_record hline hread
  refine ⟨c, hc, ?_, hkey'⟩
  rw [hcontent', hcontent, trimmed_oneLine_trimmed, lineOf]

/-! ### Ledgers -/

theorem keeps_ledger (passes : Candidate → Prop) :
    Keeps Ledger.take (fun m => ∀ scope, ∀ e ∈ m.entries scope, ToldBy Text.trimmed passes e) passes
      (ToldBy Text.trimmed passes) where
  take _ hs := hs
  read {m scope entries} hs hread := by
    obtain rfl := Except.ok.inj hread
    exact hs scope
  append {m c} now hs hc := by
    rw [value_append_ledger, Ledger.append]
    split
    · exact hs
    · intro scope e he
      rw [entries_push] at he
      split at he
      · obtain he | he := List.mem_append.mp he
        · exact hs scope e he
        · rw [List.mem_singleton.mp he]
          exact toldBy_ofCandidate hc now
      · exact hs scope e he

/-! ### Logbooks -/

variable {l l' : Logbook}

/-- A text that ends its last line, and in which only entries of candidates that passed are read. -/
structure IsTold (passes : Candidate → Prop) (cs : List Char) : Prop where
  ends : EndsLine cs
  entries : ∀ scope, ∀ e ∈ entriesOf scope cs, ToldBy lineOf passes e

theorem isTold_nil (passes : Candidate → Prop) : IsTold passes [] := ⟨nofun, fun _ => nofun⟩

/-- **A record behind such a text** leaves one. -/
theorem IsTold.written {old : String} (h : IsTold passes old.toList)
    (he : ToldBy Text.trimmed passes e) (now : Calendar.Instant) :
    IsTold passes (old ++ Memory.written now e old).toList where
  ends := endsLine_written now e old
  entries scope e' he' := by
    rw [entriesOf_written] at he'
    obtain he' | he' := List.mem_append.mp he'
    · refine h.entries scope e' ?_
      rw [entriesOf_eq]
      exact List.mem_append_left _ he'
    · exact toldBy_of_record he h.ends (Option.mem_toList.mp he')

/-- The files of a logbook hold such texts, where there are files. -/
def Logbook.Told (passes : Candidate → Prop) (l : Logbook) : Prop :=
  ∀ scope bytes, l.tree.at? (placeOf (l.path scope)) = some (.file bytes) →
    ∃ text : String, bytes = text.toUTF8 ∧ IsTold passes text.toList

theorem Logbook.Told.load (h : l.Told passes) {scope : Scope} {entries : List Entry}
    (hload : (l.load scope).value = .ok entries) : ∀ e ∈ entries, ToldBy lineOf passes e := by
  cases hread : l.tree.readText (l.path scope) with
  | ok text =>
      have htold : IsTold passes text.toList := Logbook.HoldsOnly.of_readText h hread
      rw [load_of_readText hread] at hload
      obtain rfl := Except.ok.inj hload
      exact htold.entries scope
  | error cause =>
      rw [Logbook.load] at hload
      simp only [hread] at hload
      cases cause with
      | notFound =>
          obtain rfl := Except.ok.inj hload
          exact fun e he => absurd he List.not_mem_nil
      | _ => cases hload

theorem Logbook.Told.leaves (h : l.Told passes) (he : ToldBy Text.trimmed passes e)
    (hleaves : l.Leaves e l') : l'.Told passes :=
  Logbook.HoldsOnly.leaves h (isTold_nil passes) (fun now _ hold => hold.written he now) hleaves

theorem keeps_logbook (passes : Candidate → Prop) :
    Keeps Logbook.take (Logbook.Told passes) passes (ToldBy lineOf passes) where
  take _ hs := hs
  read hs hread := hs.load hread
  append {l c} now hs hc := by
    rw [value_append_logbook]
    exact hs.leaves (toldBy_ofCandidate hc now) (leaves_append l _)

/-! ### Screened calls -/

variable {calls : List (Calendar.Instant × Call)}

/-- **What is read after screened calls**, on a store that is empty at first. -/
theorem screened_facts (hcalls : ∀ c ∈ calls, c.2.IsScreened)
    (hempty : ∀ scope bytes, l.tree.at? (placeOf (l.path scope)) = some (.file bytes) →
      bytes = .empty) :
    (∀ entries, .facts (.ok entries) ∈ responses Ledger.take calls {} → ∀ e ∈ entries,
      e.key = normalizeKey e.content ∧ e.key ≠ "" ∧ looksSensitive e.content = false) ∧
    (∀ entries, .facts (.ok entries) ∈ responses Logbook.take calls l → ∀ e ∈ entries,
      e.key = normalizeKey e.content ∧ e.key ≠ "" ∧
        ∃ c, Passed calls c ∧ e.content = oneLine (Text.trimmed c.content) ∧
          (looksSensitive e.content = true ↔ BreaksPhrase c.content)) := by
  have hpasses := passes_passed hcalls
  constructor
  · intro entries hread e he
    have hnew : ∀ scope, ∀ e ∈ ({} : Ledger).entries scope,
        ToldBy Text.trimmed (Passed calls) e := by
      rintro ⟨⟩ <;> exact nofun
    obtain ⟨c, ⟨time, policy, now, -, hscreen⟩, hcontent, hkey⟩ :=
      (keeps_ledger (Passed calls)).facts hnew hpasses hread e he
    obtain ⟨hne, -, -, hsensitive⟩ := screen_eq_none_iff.mp hscreen
    refine ⟨hkey, ?_, ?_⟩
    · rwa [hkey, hcontent, normalizeKey_trimmed]
    · rw [hcontent, looksSensitive_trimmed, hsensitive]
  · intro entries hread e he
    have hnew : l.Told (Passed calls) := fun scope bytes hfile =>
      ⟨"", hempty scope bytes hfile, isTold_nil _⟩
    obtain ⟨c, hpassed, hcontent, hkey⟩ :=
      (keeps_logbook (Passed calls)).facts hnew hpasses hread e he
    obtain ⟨time, policy, now, -, hscreen⟩ := id hpassed
    obtain ⟨hne, -, -, hsensitive⟩ := screen_eq_none_iff.mp hscreen
    refine ⟨hkey, ?_, c, hpassed, hcontent, ?_⟩
    · rwa [hkey, hcontent, normalizeKey_lineOf]
    · rw [hcontent, lineOf, looksSensitive_oneLine_iff, hsensitive]
      simp

/-! ### A phrase over two lines -/

/-- A secret that is told over two lines. -/
def brokenSecret : Candidate where
  content := "The api\nkey is 42"
  category := .other
  confidence := 0.9
  reasoning := "stated by the user"
  scope := .user

/-- The secret is committed under the policy that asks for the least confidence, and read. -/
def secretCalls : List (Calendar.Instant × Call) :=
  [(dawn, .commit {} dawn brokenSecret), (dawn, .read .user)]

/-- The secret on one line, as it is read. -/
def wholeSecret : Entry :=
  ⟨"The api key is 42", .other, .user, ⟨1588748880⟩, "the api key is 42"⟩

theorem facts_secretCalls : .facts (.ok [wholeSecret]) ∈
    responses Logbook.take secretCalls (freshLogbook "USER.md" "ORG.md") := by
  have hread : (Store.read .user ((Policy.commit {} dawn brokenSecret
      ((freshLogbook "USER.md" "ORG.md").take dawn)).value.2.take dawn)).value =
      .ok [wholeSecret] := by decide +kernel
  rw [secretCalls, responses_cons, responses_cons, perform_commit, perform_read, hread]
  simp

/-- **A phrase that is broken over two lines** passes the screening and is read as a whole: what is
read of the logbook looks sensitive. -/
theorem broken_phrase_is_read_whole :
    ∃ entries, .facts (.ok entries) ∈
        responses Logbook.take secretCalls (freshLogbook "USER.md" "ORG.md") ∧
      ∃ e ∈ entries, e.content = "The api key is 42" ∧ looksSensitive e.content = true :=
  ⟨_, facts_secretCalls, _, List.mem_singleton_self _, rfl, by decide⟩

/-- The entry that looks sensitive is told by the one candidate there is, so that candidate breaks a
phrase; the ledger reads nothing that looks sensitive. -/
theorem secretCalls_break_phrase :
    BreaksPhrase brokenSecret.content ∧
      ∀ entries, .facts (.ok entries) ∈ responses Ledger.take secretCalls {} →
        ∀ e ∈ entries, looksSensitive e.content = false := by
  have hcalls : ∀ c ∈ secretCalls, c.2.IsScreened := by
    simp only [secretCalls, List.forall_mem_cons]
    exact ⟨trivial, trivial, nofun⟩
  obtain ⟨hledger, hlogbook⟩ := screened_facts (l := freshLogbook "USER.md" "ORG.md") hcalls
    (by rintro ⟨⟩ bytes <;> exact nofun)
  obtain ⟨-, -, c, ⟨time, policy, now, hmem, -⟩, -, hbroken⟩ :=
    hlogbook _ facts_secretCalls wholeSecret (List.mem_singleton_self _)
  have honly : c = brokenSecret := by
    simp only [secretCalls, List.mem_cons, Prod.mk.injEq, Call.commit.injEq] at hmem
    rcases hmem with ⟨-, -, -, rfl⟩ | ⟨-, hread⟩ | hnil
    · rfl
    · cases hread
    · cases hnil
  refine ⟨honly ▸ hbroken.mp (by decide), fun entries hread e he => ?_⟩
  exact (hledger entries hread e he).2.2

end SiteSafety.Memory
