import SiteSafety.Proofs.Judge.Cues
import SiteSafety.Proofs.Memory.Failures
import SiteSafety.Proofs.Memory.Refinement
import SiteSafety.Proofs.Memory.Texts

/-!
# Proofs — Memory — Repetition

A message that is told twice.  To remember a message is to read all facts, to learn the fact in the
message by its cues and to commit it (`remember`); a store is changed by this only when the message
holds news for it (`IsNews`).

* `not_isNews_of_read`: a fact that is read is no news, under whatever scope.
* `load_of_appended_endsLine`, `exists_key_of_append`: a logbook that was reached by appends alone
  (`Logbook.IsReached`) reads every fact that it was given.
* `message_is_stored_once`: **the second time changes nothing**, in both stores.
-/

namespace SiteSafety.Memory
open Files

/-! ### Remembering a message -/

section Remember

variable {σ : Type} [Store σ]

/-- Commits the fact that is learnt of a message: what came of it, unless there was nothing to
commit, and the store after it. -/
def remember (policy : Policy) (judge : Judge) (now : Calendar.Instant) (interaction : String)
    (s : σ) : Noted (Option (Except StoreError Commit) × σ) := do
  match ← readAll s with
  | .error e => return (some (.error e), s)
  | .ok known =>
    match ← learn judge interaction known with
    | .ok (some c) =>
      let (result, s) ← policy.commit now c s
      return (some result, s)
    | _ => return (none, s)

theorem value_remember (policy : Policy) (judge : Judge) (now : Calendar.Instant)
    (interaction : String) (s : σ) :
    (remember policy judge now interaction s).value = match (readAll s).value with
      | .error e => (some (.error e), s)
      | .ok known => match (learn judge interaction known).value with
        | .ok (some c) =>
          (some (policy.commit now c s).value.1, (policy.commit now c s).value.2)
        | _ => (none, s) := by
  unfold remember
  rw [value_bind]
  cases (readAll s).value with
  | error e => rfl
  | ok known =>
      simp only [value_bind]
      rcases (learn judge interaction known).value with _ | _ | c <;> rfl

/-- The candidate in a message, where it passes the screening and its key is not known. -/
structure IsNews (policy : Policy) (interaction : String) (s : σ) (c : Candidate) : Prop where
  learnt : Judge.learnt interaction = some c
  passes : policy.screen c = none
  unknown : ∃ known, (readAll s).value = .ok known ∧ ∀ e ∈ known, e.key ≠ normalizeKey c.content

variable {policy : Policy} {now : Calendar.Instant} {interaction : String} {s : σ} {c : Candidate}

/-- News is appended. -/
theorem remember_of_isNews (h : IsNews policy interaction s c) :
    (remember policy Judge.cues now interaction s).value =
      match (Store.append (Entry.ofCandidate c now) s).value with
      | (.error e, s') => (some (.error e), s')
      | (.ok .appended, s') => (some (.ok (.committed (Entry.ofCandidate c now))), s')
      | (.ok .duplicate, s') => (some (.ok (.rejected .duplicate)), s') := by
  obtain ⟨known, hread, hnew⟩ := h.unknown
  have hlearn : (learn Judge.cues interaction known).value = .ok (some c) := by
    have hany : known.any (·.key == normalizeKey c.content) = false := by simpa using hnew
    rw [Judge.value_learn_cues, h.learnt, Option.filter_some, hany]
    rfl
  simp only [value_remember, hread, hlearn, value_commit, h.passes]
  rcases (Store.append (Entry.ofCandidate c now) s).value with ⟨_ | _ | _, _⟩ <;> rfl

/-- Where there is no news, nothing is done. -/
theorem remember_of_no_news (h : ∀ c, ¬ IsNews policy interaction s c) :
    (remember policy Judge.cues now interaction s).value.2 = s ∧
      ∀ e, (remember policy Judge.cues now interaction s).value.1 ≠ some (.ok (.committed e)) := by
  rw [value_remember]
  cases hread : (readAll s).value with
  | error e => exact ⟨rfl, nofun⟩
  | ok known =>
      simp only [Judge.value_learn_cues]
      cases hfilter : (Judge.learnt interaction).filter
          fun c => !known.any (·.key == normalizeKey c.content) with
      | none => exact ⟨rfl, nofun⟩
      | some c =>
          obtain ⟨hlearnt, hnew⟩ := Option.filter_eq_some_iff.mp hfilter
          cases hscreen : policy.screen c with
          | some reason =>
              have hcommit : (policy.commit now c s).value = (.ok (.rejected reason), s) := by
                rw [value_commit, hscreen]
              dsimp only
              rw [hcommit]
              exact ⟨rfl, nofun⟩
          | none =>
              refine absurd ⟨hlearnt, hscreen, known, hread, ?_⟩ (h c)
              simpa using hnew

/-- The store is left as it is, or as the append leaves it. -/
theorem store_remember_of_isNews (h : IsNews policy interaction s c) :
    (remember policy Judge.cues now interaction s).value.2 =
      (Store.append (Entry.ofCandidate c now) s).value.2 := by
  rw [remember_of_isNews h]
  rcases (Store.append (Entry.ofCandidate c now) s).value with ⟨_ | _ | _, _⟩ <;> rfl

/-- What is news afterwards was news before. -/
theorem isNews_of_remember
    (h : IsNews policy interaction (remember policy Judge.cues now interaction s).value.2 c) :
    IsNews policy interaction s c := by
  by_contra hnot
  have hnone : ∀ c', ¬ IsNews policy interaction s c' := by
    intro c' h'
    obtain rfl : c' = c := Option.some.inj (h'.learnt.symm.trans h.learnt)
    exact hnot h'
  rw [(remember_of_no_news hnone).1] at h
  exact hnot h

/-- What is read of one scope is read of all of them. -/
theorem exists_read_of_readScopes {scope : Scope} {scopes : List Scope} {known : List Entry}
    (h : (readScopes s scopes).value = .ok known) (hscope : scope ∈ scopes) :
    ∃ entries, (Store.read scope s).value = .ok entries ∧ entries ⊆ known := by
  induction scopes generalizing known with
  | nil => cases hscope
  | cons first rest ih =>
      rw [value_readScopes_cons] at h
      cases hfirst : (Store.read first s).value with
      | error e =>
          rw [hfirst] at h
          cases h
      | ok entries =>
          rw [hfirst] at h
          obtain ⟨more, hmore, rfl⟩ := map_eq_ok_iff.mp h
          obtain rfl | hrest := List.mem_cons.mp hscope
          · exact ⟨entries, hfirst, List.subset_append_left _ _⟩
          · obtain ⟨found, hfound, hsubset⟩ := ih hmore hrest
            exact ⟨found, hfound, List.Subset.trans hsubset (List.subset_append_right _ _)⟩

/-- A fact that is read of any scope is no news. -/
theorem not_isNews_of_read {scope : Scope} {entries : List Entry}
    (hread : (Store.read scope s).value = .ok entries)
    (hknown : ∃ e ∈ entries, e.key = normalizeKey c.content) : ¬ IsNews policy interaction s c := by
  rintro ⟨-, -, known, hall, hnew⟩
  have hscope : scope ∈ Scope.all := by cases scope <;> decide
  obtain ⟨entries', hread', hsubset⟩ := exists_read_of_readScopes hall hscope
  obtain rfl : entries = entries' := Except.ok.inj (hread.symm.trans hread')
  obtain ⟨e, he, hkey⟩ := hknown
  exact hnew e (hsubset he) hkey

end Remember

/-! ### Ledgers -/

variable {policy : Policy} {now later : Calendar.Instant} {interaction : String}

theorem key_ofCandidate (c : Candidate) (now : Calendar.Instant) :
    (Entry.ofCandidate c now).key = normalizeKey c.content :=
  normalizeKey_trimmed c.content

theorem exists_key_of_append_ledger (m : Ledger) (e : Entry) :
    ∃ e' ∈ (m.append e).2.entries e.scope, e'.key = e.key := by
  unfold Ledger.append
  split
  next hhas => simpa [Ledger.has] using hhas
  next => exact ⟨e, by simp, rfl⟩

/-- What was remembered is no news to a ledger. -/
theorem not_isNews_of_remember_ledger (m : Ledger) (c : Candidate) :
    ¬ IsNews policy interaction (remember policy Judge.cues now interaction m).value.2 c := by
  intro hagain
  have hfirst := isNews_of_remember hagain
  rw [store_remember_of_isNews hfirst, value_append_ledger] at hagain
  obtain ⟨e, he, hkey⟩ := exists_key_of_append_ledger m (Entry.ofCandidate c now)
  exact not_isNews_of_read rfl ⟨e, he, hkey.trans (key_ofCandidate c now)⟩ hagain

/-! ### Logbooks -/

variable {l l' : Logbook} {e : Entry}

/-- A logbook that started with no files, or with empty ones, and was appended to. -/
inductive Logbook.IsReached : Logbook → Prop
  | fresh {l : Logbook} (h : ∀ scope bytes,
      l.tree.at? (placeOf (l.path scope)) = some (.file bytes) → bytes = .empty) : l.IsReached
  | take {l : Logbook} (now : Calendar.Instant) (h : l.IsReached) : (l.take now).IsReached
  | append {l : Logbook} (e : Entry) (h : l.IsReached) : (l.append e).value.2.IsReached

theorem carries_endsLine (e : Entry) : e.Carries EndsLine := fun now old _ =>
  endsLine_written now e old

/-- **A logbook that was reached by appends alone** has files that end their lines. -/
theorem Logbook.IsReached.holdsOnly (h : l.IsReached) : l.HoldsOnly EndsLine := by
  induction h with
  | fresh h => exact fun scope bytes hfile => ⟨"", h scope bytes hfile, nofun⟩
  | take now _ ih => exact ih
  | append e _ ih => exact ih.leaves nofun (carries_endsLine e) (leaves_append _ e)

/-- What is read after a fact was appended. -/
theorem load_of_appended_endsLine (h : l.HoldsOnly EndsLine) (hproper : e.IsProper)
    (happend : (l.append e).value = (.ok .appended, l')) :
    ∃ old, (l'.load e.scope).value = .ok (old ++ [e.kept]) := by
  obtain ⟨locked, entries, hlock, -, -, hwrite⟩ := of_appended happend
  obtain ⟨-, -, -, hlocked⟩ := of_lock hlock
  obtain ⟨made, hmade, hwrote, hwritten⟩ := of_write hwrite
  have hgrows : l.tree.Grows made := (grows_of_lock hlock).trans (grows_of_makeParent hmade)
  have hclock : locked.clock = l.clock := by rw [hlocked]
  rw [path_of_tree_eq hlocked, hclock] at hwrote
  obtain ⟨old, hends, hread⟩ := (h.grown nofun hgrows).readText_append nofun hwrote
  have hafter : l'.tree.readText (l'.path e.scope) = .ok (old ++ written l.clock e old) := by
    rw [path_of_tree_eq hwritten, path_of_tree_eq hlocked]
    exact hread
  refine ⟨entriesOf e.scope old.toList, ?_⟩
  rw [load_of_readText hafter, entriesOf_written_of_endsLine hproper hends]

/-- After an append that did not fail, the key is read. -/
theorem exists_key_of_append (h : l.HoldsOnly EndsLine) (hproper : e.IsProper) {outcome : Appended}
    (happend : (l.append e).value = (.ok outcome, l')) :
    ∃ entries, (l'.load e.scope).value = .ok entries ∧ ∃ e' ∈ entries, e'.key = e.key := by
  cases outcome with
  | duplicate =>
      obtain ⟨entries, -, hload, hknown⟩ := of_duplicate happend
      exact ⟨entries, hload, hknown⟩
  | appended =>
      obtain ⟨old, hload⟩ := load_of_appended_endsLine h hproper happend
      have hmem : e.kept ∈ old ++ [e.kept] := List.mem_append_right _ (List.mem_singleton_self _)
      exact ⟨_, hload, e.kept, hmem, key_kept hproper⟩

/-- What is news does not depend on the time. -/
theorem isNews_take_iff {c : Candidate} :
    IsNews policy interaction (l.take now) c ↔ IsNews policy interaction l c := by
  have hread : (readAll (l.take now)).value = (readAll l).value := rfl
  constructor <;> rintro ⟨hlearnt, hpasses, hunknown⟩
  · exact ⟨hlearnt, hpasses, hread ▸ hunknown⟩
  · exact ⟨hlearnt, hpasses, hread ▸ hunknown⟩

/-- News that could be appended is no news any more. -/
theorem not_isNews_of_append {c : Candidate} (h : l.HoldsOnly EndsLine)
    (hproper : (Entry.ofCandidate c now).IsProper) {outcome : Appended}
    (happend : (l.append (Entry.ofCandidate c now)).value = (.ok outcome, l')) :
    ¬ IsNews policy interaction l' c := by
  obtain ⟨entries, hload, e, he, hkey⟩ := exists_key_of_append h hproper happend
  exact not_isNews_of_read hload ⟨e, he, hkey.trans (key_ofCandidate c now)⟩

/-- What was remembered is no news to a logbook, unless its files failed; then they fail again. -/
theorem agrees_remember_again (h : l.IsReached) (hnow : now.IsDated) {once : Logbook}
    (honce : (remember policy Judge.cues now interaction (l.take now)).value.2 = once) :
    once.tree.Agrees
      (remember policy Judge.cues later interaction (once.take later)).value.2.tree := by
  by_cases hnews : ∃ c, IsNews policy interaction (once.take later) c
  · obtain ⟨c, hagain⟩ := hnews
    have hafter : IsNews policy interaction once c := isNews_take_iff.mp hagain
    have hfirst : IsNews policy interaction (l.take now) c := isNews_of_remember (honce ▸ hafter)
    rw [store_remember_of_isNews hagain, value_append_logbook]
    rw [store_remember_of_isNews hfirst, value_append_logbook] at honce
    have hpath := path_append (l.take now) (Entry.ofCandidate c now) (Entry.ofCandidate c now).scope
    rw [honce, ← path_take once later] at hpath
    rcases happend : ((l.take now).append (Entry.ofCandidate c now)).value with
      ⟨err | outcome, l'⟩
    · have htree : (once.take later).tree = l'.tree := by
        rw [happend] at honce
        rw [← honce]
        rfl
      have hscope : (Entry.ofCandidate c later).scope = (Entry.ofCandidate c now).scope := rfl
      change (once.take later).tree.Agrees _
      exact agrees_append_again happend hpath htree hscope
    · rw [happend] at honce
      have hproper := (isMade_of_screen hfirst.passes hnow).isProper
      exact absurd (honce ▸ hafter) (not_isNews_of_append (h.take now).holdsOnly hproper happend)
  · rw [(remember_of_no_news fun c hc => hnews ⟨c, hc⟩).1]
    exact .refl _

/-- A sentence is kept as it is, but for the seconds of its time. -/
theorem kept_ofCandidate {c : Candidate} (hmade : (Entry.ofCandidate c now).IsMade)
    (h : Judge.IsSentence interaction c.content) : (Entry.ofCandidate c now).kept =
      { Entry.ofCandidate c now with createdAt := now.toMinute } := by
  have hcontent :
      oneLine (Entry.ofCandidate c now).content = (Entry.ofCandidate c now).content := by
    have htrimmed : (Entry.ofCandidate c now).content = c.content := h.trimmed
    rw [htrimmed, Judge.oneLine_of_isSentence h]
  rw [kept_eq_joined hmade, Entry.joined, hcontent]
  rfl

/-- What was committed is a sentence of the message, and is read as it is. -/
theorem load_of_committed (h : l.IsReached) (hnow : now.IsDated) {once : Logbook}
    (hcommit : (remember policy Judge.cues now interaction (l.take now)).value =
      (some (.ok (.committed e)), once)) : Judge.IsSentence interaction e.content ∧
      ∃ old, (once.load e.scope).value =
        .ok (old ++ [{ e with createdAt := e.createdAt.toMinute }]) := by
  by_cases hnews : ∃ c, IsNews policy interaction (l.take now) c
  · obtain ⟨c, hfirst⟩ := hnews
    rw [remember_of_isNews hfirst, value_append_logbook] at hcommit
    rcases happend : ((l.take now).append (Entry.ofCandidate c now)).value with
      ⟨err | outcome, l'⟩
    · rw [happend] at hcommit
      cases hcommit
    · cases outcome with
      | duplicate =>
          rw [happend] at hcommit
          cases hcommit
      | appended =>
          rw [happend] at hcommit
          cases hcommit
          have hmade := isMade_of_screen hfirst.passes hnow
          have hsentence := Judge.isSentence_of_learnt hfirst.learnt
          have hkept := kept_ofCandidate hmade hsentence
          have hcontent : (Entry.ofCandidate c now).content = c.content := hsentence.trimmed
          exact ⟨hcontent.symm ▸ hsentence, hkept ▸
            load_of_appended_endsLine (h.take now).holdsOnly hmade.isProper happend⟩
  · exact absurd (congrArg Prod.fst hcommit)
      ((remember_of_no_news fun c hc => hnews ⟨c, hc⟩).2 e)

/-! ### A message that is told twice -/

/-- **A message that is told twice is stored once.**  What is learnt of a message by its cues is a
sentence of it.  After it was remembered, remembering it again leaves a ledger as it is, and a
logbook that was reached by appends alone keeps what stands at every place, also where its files
fail.  A fact that was committed is read of the logbook with the content that it had.  The first
time is one within the years of the calendar. -/
theorem message_is_stored_once (policy : Policy) (interaction : String)
    (now later : Calendar.Instant) :
    (∀ known c, (learn Judge.cues interaction known).value = .ok (some c) →
      Judge.IsSentence interaction c.content) ∧
    (∀ m once : Ledger, (remember policy Judge.cues now interaction m).value.2 = once →
      (remember policy Judge.cues later interaction once).value.2 = once) ∧
    (now.IsDated → ∀ l once : Logbook, l.IsReached →
      (remember policy Judge.cues now interaction (l.take now)).value.2 = once →
        once.tree.Agrees
          (remember policy Judge.cues later interaction (once.take later)).value.2.tree) ∧
    (now.IsDated → ∀ (l once : Logbook) (e : Entry), l.IsReached →
      (remember policy Judge.cues now interaction (l.take now)).value =
          (some (.ok (.committed e)), once) →
        Judge.IsSentence interaction e.content ∧ ∃ old, (once.load e.scope).value =
          .ok (old ++ [{ e with createdAt := e.createdAt.toMinute }])) := by
  refine ⟨fun known c h => ?_, ?_, ?_, ?_⟩
  · rw [Judge.value_learn_cues] at h
    exact Judge.isSentence_of_learnt (Option.filter_eq_some_iff.mp (Except.ok.inj h)).1
  · rintro m once rfl
    exact (remember_of_no_news (not_isNews_of_remember_ledger m)).1
  · exact fun hnow l once hreached honce => agrees_remember_again hreached hnow honce
  · exact fun hnow l once e hreached hcommit => load_of_committed hreached hnow hcommit

/-- The fact that was committed, if one was. -/
def committed? : Option (Except StoreError Commit) → Option Entry
  | some (.ok (.committed e)) => some e
  | _ => none

theorem eq_of_committed? {outcome : Option (Except StoreError Commit)} {e : Entry}
    (h : committed? outcome = some e) : outcome = some (.ok (.committed e)) := by
  unfold committed? at h
  split at h <;> cases h
  rfl

/-- A message in which the second sentence carries a cue. -/
def latchMessage : String := " Hello there! The gate latch is broken. "

/-- The fact in it. -/
def brokenLatch : Entry := Entry.new "The gate latch is broken" .siteIssue .organization dawn

/-- The broken latch is remembered, read with the content that it had, and known the next time. -/
theorem broken_latch_is_stored_once : ∃ once,
    (remember {} Judge.cues dawn latchMessage ((freshLogbook "USER.md" "ORG.md").take dawn)).value =
      (some (.ok (.committed brokenLatch)), once) ∧
    once.tree.Agrees (remember {} Judge.cues dawn latchMessage (once.take dawn)).value.2.tree ∧
    ∃ old, (once.load .organization).value =
      .ok (old ++ [{ brokenLatch with createdAt := dawn.toMinute }]) := by
  have hdawn : dawn.IsDated := by
    unfold Calendar.Instant.IsDated
    decide
  have hfresh : (freshLogbook "USER.md" "ORG.md").IsReached :=
    .fresh (by rintro ⟨⟩ bytes <;> exact nofun)
  have hfirst : committed? (remember {} Judge.cues dawn latchMessage
      ((freshLogbook "USER.md" "ORG.md").take dawn)).value.1 = some brokenLatch := by
    decide +kernel
  obtain ⟨-, -, hagain, hread⟩ := message_is_stored_once {} latchMessage dawn dawn
  rcases hrun : (remember {} Judge.cues dawn latchMessage
    ((freshLogbook "USER.md" "ORG.md").take dawn)).value with ⟨outcome, once⟩
  rw [hrun] at hfirst
  obtain rfl := eq_of_committed? hfirst
  exact ⟨once, rfl, hagain hdawn _ once hfresh (congrArg Prod.snd hrun),
    (hread hdawn _ once _ hfresh hrun).2⟩

end SiteSafety.Memory
