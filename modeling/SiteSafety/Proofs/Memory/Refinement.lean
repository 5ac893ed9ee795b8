import SiteSafety.Proofs.Memory.Mirror
import SiteSafety.Proofs.Outcome

/-!
# Proofs — Memory — Refinement

The logbook refines the ledger.  Both are put through the same calls (`Call`): appends, commits,
reads of one scope or of both, and being opened again.  What a logbook gives back is what the
ledger gives back, the facts that are read being on one line and to the minute (`Response.joined`).

Only content that is blank tells the two apart: the ledger keeps it, and a record without content
is passed over when the file is read.

* `mirrors_perform`, `perform_of_fits`: one call.
* `logbook_refines_ledger`: **any number of calls**, from missing files and an empty ledger.
* `blank_content_is_appended_twice`: blank content, and two scopes that share a file.
-/

namespace SiteSafety.Memory
open Files

/-! ### Calls -/

/-- What is asked of a store. -/
inductive Call where
  | append (e : Entry)
  | commit (policy : Policy) (now : Calendar.Instant) (c : Candidate)
  | read (scope : Scope)
  | readAll
  | reopen

/-- What a store gives back. -/
inductive Response where
  | append (result : Except StoreError Appended)
  | commit (result : Except StoreError Commit)
  | facts (result : Except StoreError (List Entry))
  | reopened

/-- The files failed. -/
def Response.IsFailure : Response → Prop
  | .append (.error _) | .commit (.error _) | .facts (.error _) => True
  | _ => False

/-- The response with the facts that were read on one line each, and to the minute. -/
def Response.joined : Response → Response
  | .facts (.ok entries) => .facts (.ok (entries.map Entry.joined))
  | a => a

variable {σ : Type} [Store σ]

/-- What a call gives back, and the store after it. -/
def Call.perform : Call → σ → Response × σ
  | .append e, s => let outcome := (Store.append e s).value; (.append outcome.1, outcome.2)
  | .commit policy now c, s =>
    let outcome := (policy.commit now c s).value
    (.commit outcome.1, outcome.2)
  | .read scope, s => (.facts (Store.read scope s).value, s)
  | .readAll, s => (.facts (Memory.readAll s).value, s)
  | .reopen, s => (.reopened, s)

theorem perform_append (e : Entry) (s : σ) : (Call.append e).perform s =
    (.append (Store.append e s).value.1, (Store.append e s).value.2) := rfl

theorem perform_read (scope : Scope) (s : σ) :
    (Call.read scope).perform s = (.facts (Store.read scope s).value, s) := rfl

theorem perform_commit (policy : Policy) (now : Calendar.Instant) (c : Candidate) (s : σ) :
    (Call.commit policy now c).perform s =
      (.commit (policy.commit now c s).value.1, (policy.commit now c s).value.2) := rfl

/-- What calls that are made at given times give back.  `take` takes a store up at a time. -/
def responses (take : Calendar.Instant → σ → σ) :
    List (Calendar.Instant × Call) → σ → List Response
  | [], _ => []
  | (now, call) :: rest, s =>
    let outcome := call.perform (take now s)
    outcome.1 :: responses take rest outcome.2

/-- A logbook keeps nothing but its paths, so it is opened anew on its files at every call. -/
def Logbook.take (now : Calendar.Instant) (l : Logbook) : Logbook :=
  ⟨l.userPath, l.organizationPath, l.tree, now⟩

theorem path_take (l : Logbook) (now : Calendar.Instant) (scope : Scope) :
    (l.take now).path scope = l.path scope := by
  cases scope <;> rfl

/-- A ledger is as it was left. -/
def Ledger.take (_ : Calendar.Instant) (m : Ledger) : Ledger := m

/-- Entries are made from content that is not blank, and all times have dates. -/
def Call.IsMade : Call → Prop
  | .append e => e.IsMade
  | .commit _ now _ => now.IsDated
  | .read _ | .readAll | .reopen => True

/-! ### Commits -/

/-- A commit is an append of what was screened. -/
theorem value_commit (policy : Policy) (now : Calendar.Instant) (c : Candidate) (s : σ) :
    (policy.commit now c s).value = match policy.screen c with
      | some reason => (.ok (.rejected reason), s)
      | none => match (Store.append (Entry.ofCandidate c now) s).value with
        | (.error e, s') => (.error e, s')
        | (.ok .appended, s') => (.ok (.committed (Entry.ofCandidate c now)), s')
        | (.ok .duplicate, s') => (.ok (.rejected .duplicate), s') := by
  unfold Policy.commit
  cases policy.screen c with
  | some reason => rfl
  | none =>
      simp only [value_bind]
      rcases (Store.append (Entry.ofCandidate c now) s).value with ⟨_ | _ | _, _⟩ <;> rfl

/-- What passes the screening is not blank. -/
theorem isMade_of_screen {policy : Policy} {c : Candidate} {now : Calendar.Instant}
    (h : policy.screen c = none) (hnow : now.IsDated) : (Entry.ofCandidate c now).IsMade := by
  refine .new c.category c.scope ?_ hnow
  cases hblank : Text.isBlankText c.content with
  | false => rfl
  | true =>
      -- a blank content has no words, so its key is empty and the screening refuses it
      have hkey : normalizeKey c.content = "" := by
        have hwords : contentWords c.content.toList = [] :=
          Text.fields_of_all fun x hx => separates_of_isBlank x (List.all_eq_true.mp hblank x hx)
        rw [normalizeKey, hwords]
        rfl
      simp [Policy.screen, hkey] at h

/-! ### Reads -/

/-- Scopes are read one after the other. -/
theorem value_readScopes_cons (scope : Scope) (rest : List Scope) (s : σ) :
    (readScopes s (scope :: rest)).value = match (Store.read scope s).value with
      | .error e => .error e
      | .ok entries => (readScopes s rest).value.map (entries ++ ·) := by
  rw [readScopes, value_bind]
  cases (Store.read scope s).value with
  | error e => rfl
  | ok entries =>
      dsimp only
      rw [value_bind]
      cases (readScopes s rest).value <;> rfl

variable {l : Logbook} {m : Ledger}

theorem value_read_logbook (scope : Scope) : (Store.read scope l).value = (l.load scope).value :=
  rfl

theorem value_readScopes_ledger (m : Ledger) (scopes : List Scope) :
    (readScopes m scopes).value = .ok (scopes.flatMap m.entries) := by
  induction scopes with
  | nil => rfl
  | cons scope rest ih =>
      rw [value_readScopes_cons, ih]
      rfl

/-- What is read of several scopes is what the ledger holds in them. -/
theorem Logbook.Mirrors.readScopes (h : l.Mirrors m) {scopes : List Scope} {entries : List Entry}
    (hread : (Memory.readScopes l scopes).value = .ok entries) :
    entries = (scopes.flatMap m.entries).map Entry.joined := by
  induction scopes generalizing entries with
  | nil => exact (Except.ok.inj hread).symm
  | cons scope rest ih =>
      rw [value_readScopes_cons, value_read_logbook] at hread
      cases hfirst : (l.load scope).value with
      | error e =>
          rw [hfirst] at hread
          cases hread
      | ok first =>
          rw [hfirst] at hread
          obtain ⟨more, hmore, rfl⟩ := map_eq_ok_iff.mp hread
          rw [h.load hfirst, ih hmore, List.flatMap_cons, List.map_append]

/-! ### One call -/

theorem value_append_logbook (e : Entry) : (Store.append e l).value = (l.append e).value := rfl

theorem value_append_ledger (e : Entry) :
    (Store.append e m).value = (.ok (m.append e).1, (m.append e).2) := rfl

/-- A commit that the files allow has the same outcome in both stores. -/
theorem mirrors_of_commit (h : l.Mirrors m) {policy : Policy} {now : Calendar.Instant}
    {c : Candidate} (hnow : now.IsDated) {outcome : Commit} {l' : Logbook}
    (hcommit : (policy.commit now c l).value = (.ok outcome, l')) :
    ∃ m', (policy.commit now c m).value = (.ok outcome, m') ∧ l'.Mirrors m' := by
  rw [value_commit] at hcommit ⊢
  cases hscreen : policy.screen c with
  | some reason =>
      rw [hscreen] at hcommit
      cases hcommit
      exact ⟨m, rfl, h⟩
  | none =>
      simp only [hscreen, value_append_logbook, value_append_ledger] at hcommit ⊢
      rcases happend : (l.append (Entry.ofCandidate c now)).value with ⟨_ | known, after⟩
      · rw [happend] at hcommit
        cases hcommit
      · obtain ⟨houtcome, hmirrors⟩ := mirrors_of_append h (isMade_of_screen hscreen hnow) happend
        rw [happend] at hcommit
        rw [houtcome]
        cases known <;> cases hcommit <;> exact ⟨_, rfl, hmirrors⟩

/-- **One call**: unless the files fail, both stores give back the same, and the logbook mirrors the
ledger afterwards. -/
theorem mirrors_perform (h : l.Mirrors m) {call : Call} (hcall : call.IsMade)
    (hok : ¬ (call.perform l).1.IsFailure) :
    (call.perform l).1 = (call.perform m).1.joined ∧
      (call.perform l).2.Mirrors (call.perform m).2 := by
  cases call with
  | append e =>
      rw [perform_append, value_append_logbook] at hok ⊢
      rw [perform_append, value_append_ledger]
      rcases happend : (l.append e).value with ⟨_ | outcome, l'⟩
      · simp [happend, Response.IsFailure] at hok
      · obtain ⟨houtcome, hmirrors⟩ := mirrors_of_append h hcall happend
        rw [houtcome]
        exact ⟨rfl, hmirrors⟩
  | commit policy now c =>
      rw [perform_commit] at hok ⊢
      rw [perform_commit]
      rcases hcommit : (policy.commit now c l).value with ⟨_ | outcome, l'⟩
      · simp [hcommit, Response.IsFailure] at hok
      · obtain ⟨m', hcommit', hmirrors⟩ := mirrors_of_commit h hcall hcommit
        rw [hcommit']
        exact ⟨rfl, hmirrors⟩
  | read scope =>
      rw [perform_read, value_read_logbook] at hok ⊢
      rw [perform_read]
      cases hload : (l.load scope).value with
      | error e => simp [hload, Response.IsFailure] at hok
      | ok entries =>
          rw [h.load hload]
          exact ⟨rfl, h⟩
  | readAll =>
      simp only [Call.perform, readAll, value_readScopes_ledger] at hok ⊢
      cases hread : (readScopes l Scope.all).value with
      | error e => simp [hread, Response.IsFailure] at hok
      | ok entries =>
          rw [h.readScopes hread]
          exact ⟨rfl, h⟩
  | reopen => exact ⟨rfl, h⟩

/-! ### Calls that the files allow -/

variable {start full : Tree}

theorem exists_readScopes_of_fits (hfits : l.Fits start full) (h : l.Mirrors m)
    (scopes : List Scope) : ∃ entries, (readScopes l scopes).value = .ok entries := by
  induction scopes with
  | nil => exact ⟨[], rfl⟩
  | cons scope rest ih =>
      obtain ⟨text, htext, -⟩ := h.read scope
      obtain ⟨first, hfirst⟩ := exists_load_of_fits hfits htext
      obtain ⟨more, hmore⟩ := ih
      exact ⟨first ++ more, by
        rw [value_readScopes_cons, value_read_logbook, hfirst, hmore]
        rfl⟩

/-- Where the files have room, no call fails. -/
theorem perform_of_fits (hfits : l.Fits start full) (h : l.Mirrors m) (call : Call) :
    ¬ (call.perform l).1.IsFailure ∧ (call.perform l).2.Fits start full := by
  cases call with
  | append e =>
      obtain ⟨outcome, l', happend, hfits'⟩ := append_ok_of_fits hfits h e
      rw [perform_append, value_append_logbook, happend]
      exact ⟨id, hfits'⟩
  | commit policy now c =>
      rw [perform_commit, value_commit]
      cases policy.screen c with
      | some reason => exact ⟨id, hfits⟩
      | none =>
          obtain ⟨outcome, l', happend, hfits'⟩ :=
            append_ok_of_fits hfits h (Entry.ofCandidate c now)
          simp only [value_append_logbook, happend]
          cases outcome <;> exact ⟨id, hfits'⟩
  | read scope =>
      obtain ⟨text, htext, -⟩ := h.read scope
      obtain ⟨entries, hload⟩ := exists_load_of_fits hfits htext
      rw [perform_read, value_read_logbook, hload]
      exact ⟨id, hfits⟩
  | readAll =>
      obtain ⟨entries, hread⟩ := exists_readScopes_of_fits hfits h Scope.all
      simp only [Call.perform, readAll, hread]
      exact ⟨id, hfits⟩
  | reopen => exact ⟨id, hfits⟩

/-! ### Any number of calls -/

variable {calls : List (Calendar.Instant × Call)}

theorem responses_cons (take : Calendar.Instant → σ → σ) (now : Calendar.Instant) (call : Call)
    (rest : List (Calendar.Instant × Call)) (s : σ) : responses take ((now, call) :: rest) s =
      (call.perform (take now s)).1 :: responses take rest (call.perform (take now s)).2 := rfl

/-- The time at which a logbook is taken up makes no difference to what is read. -/
theorem Logbook.Mirrors.take (h : l.Mirrors m) (now : Calendar.Instant) :
    (l.take now).Mirrors (m.take now) where
  separate := h.separate
  read s := by
    obtain ⟨text, htext, hends, hentries⟩ := h.read s
    refine ⟨text, ?_, hends, hentries⟩
    exact htext.of_grows (.refl _) rfl
  made := h.made

theorem responses_eq_joined (h : l.Mirrors m) (hcalls : ∀ c ∈ calls, c.2.IsMade)
    (hok : ∀ r ∈ responses Logbook.take calls l, ¬ r.IsFailure) :
    responses Logbook.take calls l = (responses Ledger.take calls m).map Response.joined := by
  induction calls generalizing l m with
  | nil => rfl
  | cons c rest ih =>
      obtain ⟨now, call⟩ := c
      rw [responses_cons] at hok ⊢
      rw [responses_cons]
      simp only [List.forall_mem_cons] at hcalls hok
      obtain ⟨hresponse, hmirrors⟩ := mirrors_perform (h.take now) hcalls.1 hok.1
      rw [hresponse, ih hmirrors hcalls.2 hok.2, List.map_cons]

theorem not_isFailure_of_fits (h : l.Mirrors m) (hfits : l.Fits start full)
    (hcalls : ∀ c ∈ calls, c.2.IsMade) :
    ∀ r ∈ responses Logbook.take calls l, ¬ r.IsFailure := by
  induction calls generalizing l m with
  | nil => exact nofun
  | cons c rest ih =>
      obtain ⟨now, call⟩ := c
      have htaken : (l.take now).Fits start full :=
        ⟨hfits.lock, hfits.file, hfits.grown, hfits.within⟩
      simp only [List.forall_mem_cons] at hcalls
      obtain ⟨hok, hfits'⟩ := perform_of_fits htaken (h.take now) call
      rw [responses_cons, List.forall_mem_cons]
      exact ⟨hok, ih (mirrors_perform (h.take now) hcalls.1 hok).2 hfits' hcalls.2⟩

/-! ### From missing files -/

theorem mirrors_of_missing (hseparate : placeOf l.userPath ≠ placeOf l.organizationPath)
    (hmissing : ∀ scope bytes, l.tree.at? (placeOf (l.path scope)) ≠ some (.file bytes)) :
    l.Mirrors {} where
  separate := hseparate
  read scope := by
    have hentries : (({} : Ledger).entries scope) = [] := by cases scope <;> rfl
    refine ⟨"", .empty fun bytes h => absurd h (hmissing scope bytes), ?_, ?_⟩
    · exact nofun
    · rw [hentries]
      rfl
  made scope e he := by cases scope <;> cases he

/-- The lock and the file of each scope can be made, and none of them stands where another one
needs a directory. -/
def Logbook.HasRoom (l : Logbook) : Prop :=
  ∃ full, ∀ scope, l.tree.HasRoom full (lockPath (l.path scope)) ∧
    l.tree.HasRoom full (l.path scope)

theorem Logbook.HasRoom.fits (h : l.HasRoom) : ∃ full, l.Fits l.tree full := by
  obtain ⟨full, hroom⟩ := h
  refine ⟨full, fun s => (hroom s).1, fun s => (hroom s).2, .refl _, ?_⟩
  obtain ⟨made, tree, hmade, htouch, hfull⟩ := (hroom .user).1
  exact ((Tree.Within.of_grows (grows_of_makeParent hmade)).trans (.of_append htouch)).trans hfull

/-- **The logbook refines the ledger.**  From missing files and an empty ledger, any calls with
entries made from content that is not blank give back the same, what is read being on one line and
to the minute, as long as the files do not fail; and they do not where they have room. -/
theorem logbook_refines_ledger (hseparate : placeOf l.userPath ≠ placeOf l.organizationPath)
    (hmissing : ∀ scope bytes, l.tree.at? (placeOf (l.path scope)) ≠ some (.file bytes))
    (hcalls : ∀ c ∈ calls, c.2.IsMade) :
    ((∀ r ∈ responses Logbook.take calls l, ¬ r.IsFailure) →
      responses Logbook.take calls l = (responses Ledger.take calls {}).map Response.joined) ∧
    (l.HasRoom → ∀ r ∈ responses Logbook.take calls l, ¬ r.IsFailure) := by
  have hmirrors := mirrors_of_missing hseparate hmissing
  refine ⟨responses_eq_joined hmirrors hcalls, fun hroom => ?_⟩
  obtain ⟨full, hfits⟩ := hroom.fits
  exact not_isFailure_of_fits hmirrors hfits hcalls

/-! ### Short histories -/

/-- The time at which these histories start. -/
def dawn : Calendar.Instant := ⟨1588748889⟩

/-- A logbook on two paths in an empty tree. -/
def freshLogbook (userPath organizationPath : String) : Logbook :=
  ⟨userPath, organizationPath, {}, dawn⟩

/-- A leak, told in two lines of which one looks like a record. -/
def leak : Entry :=
  Entry.new " Roof leak:\n- [2020-01-01] [east] stairwell " .siteIssue .organization dawn

/-- The leak is told twice, an hour apart. -/
def leakCalls : List (Calendar.Instant × Call) := [
  (dawn, .append leak), (⟨1588752489⟩, .reopen), (⟨1588752489⟩, .append leak),
  (⟨1588752489⟩, .readAll)]

theorem hasRoom_freshLogbook : (freshLogbook "USER.md" "ORG.md").HasRoom := by
  let full : Tree := ⟨[(["USER.md"], .file .empty), (["USER.md.lock"], .file .empty),
    (["ORG.md"], .file .empty), (["ORG.md.lock"], .file .empty)]⟩
  refine ⟨full, fun scope => ?_⟩
  cases scope with
  | user => exact ⟨hasRoom_of_empty rfl rfl rfl rfl, hasRoom_of_empty rfl rfl rfl rfl⟩
  | organization => exact ⟨hasRoom_of_empty rfl rfl rfl rfl, hasRoom_of_empty rfl rfl rfl rfl⟩

/-- Told again after the program was started again, the leak is a duplicate, and it is read on one
line. -/
theorem leak_is_told_once :
    responses Logbook.take leakCalls (freshLogbook "USER.md" "ORG.md") =
      [.append (.ok .appended), .reopened, .append (.ok .duplicate),
        .facts (.ok [⟨"Roof leak: - [2020-01-01] [east] stairwell", .siteIssue, .organization,
          ⟨1588748880⟩, "roof leak 2020 01 01 east stairwell"⟩])] := by
  have hmade : leak.IsMade := .new _ _ (by decide) (by
    unfold Calendar.Instant.IsDated
    decide)
  have hcalls : ∀ c ∈ leakCalls, c.2.IsMade := by
    simp only [leakCalls, List.forall_mem_cons]
    exact ⟨hmade, trivial, hmade, trivial, nofun⟩
  obtain ⟨hagree, hroom⟩ := logbook_refines_ledger (l := freshLogbook "USER.md" "ORG.md")
    (by decide) (by rintro ⟨⟩ bytes <;> exact nofun) hcalls
  rw [hagree (hroom hasRoom_freshLogbook)]
  rfl

/-- Content that is blank. -/
def blankEntry : Entry := Entry.new "  " .other .user dawn

/-- **Blank content** is appended twice to a logbook, and is a duplicate in a ledger.  And where
both scopes share one file, what was told to the user is read of the organization. -/
theorem blank_content_is_appended_twice :
    (responses Logbook.take [(dawn, .append blankEntry), (dawn, .append blankEntry)]
        (freshLogbook "USER.md" "ORG.md") =
        [.append (.ok .appended), .append (.ok .appended)] ∧
      responses Ledger.take [(dawn, .append blankEntry), (dawn, .append blankEntry)] {} =
        [.append (.ok .appended), .append (.ok .duplicate)]) ∧
    (responses Logbook.take
        [(dawn, .append briefing), (dawn, .read .organization)]
        (freshLogbook "MEMORY.md" "MEMORY.md") =
        [.append (.ok .appended), .facts (.ok [{ briefing.joined with scope := .organization }])] ∧
      responses Ledger.take
        [(dawn, .append briefing), (dawn, .read .organization)] {} =
        [.append (.ok .appended), .facts (.ok [])]) := by
  have hfirst : (Store.append blankEntry ((freshLogbook "USER.md" "ORG.md").take dawn)).value.1 =
      .ok .appended := by decide +kernel
  have hsecond : (Store.append blankEntry ((Store.append blankEntry
      ((freshLogbook "USER.md" "ORG.md").take dawn)).value.2.take dawn)).value.1 =
      .ok .appended := by decide +kernel
  have happended : (Store.append briefing
      ((freshLogbook "MEMORY.md" "MEMORY.md").take dawn)).value.1 =
      .ok .appended := by decide +kernel
  have hread : (Store.read .organization ((Store.append briefing
      ((freshLogbook "MEMORY.md" "MEMORY.md").take dawn)).value.2.take dawn)).value =
      .ok [{ briefing.joined with scope := .organization }] := by decide +kernel
  refine ⟨⟨?_, rfl⟩, ?_, rfl⟩
  · simp only [perform_append, hfirst, hsecond, responses]
  · simp only [perform_append, perform_read, happended, hread, responses]

end SiteSafety.Memory
