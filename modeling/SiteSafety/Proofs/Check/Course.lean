import SiteSafety.Check.Run

/-!
# Proofs — Check — Course

What the steps of a check come to.  A step is read through its result (`Course.result`): the value
or the error, and how far the check has come then.  Every step has one equation for its result, and
`Course.result_bind_ok` puts them in a row.

* `run_of_rulesInvalid`, `run_of_rulesUsable`: a check is given up exactly when rules were found and
  none of them can be used, and leaves the store as it was; otherwise **its decision is the one on
  what was gathered**, whatever becomes of the facts to be remembered.
-/

namespace SiteSafety.Check
open Memory Workflow

variable {σ α β : Type}

/-! ### Results -/

/-- What a part of a check comes to, and how far the check has come then. -/
def Course.result (x : Course σ α) (p : Progress σ) : Except CheckError α × Progress σ :=
  (x.run.run p).value

namespace Course
variable {p q : Progress σ}

@[simp] theorem result_pure (a : α) : (pure a : Course σ α).result p = (.ok a, p) := rfl

@[simp] theorem result_throw (e : CheckError) :
    (throw e : Course σ α).result p = (.error e, p) := rfl

@[simp] theorem result_get : (get : Course σ (Progress σ)).result p = (.ok p, p) := rfl

@[simp] theorem result_set : (set q : Course σ PUnit).result p = (.ok ⟨⟩, q) := rfl

@[simp] theorem result_liftM (x : Noted α) :
    (liftM x : Course σ α).result p = (.ok x.value, p) := rfl

@[simp] theorem result_tell (n : Note) : (tell n : Course σ Unit).result p = (.ok (), p) := rfl

/-- The second step starts where the first one ends; an error ends both. -/
theorem result_bind (x : Course σ α) (f : α → Course σ β) :
    (x >>= f).result p = match x.result p with
      | (.ok a, q) => (f a).result q
      | (.error e, q) => (.error e, q) := by
  -- running the two in a row is running the second on whatever the first one came to
  have hbind : (x >>= f).result p =
      (ExceptT.bindCont f (x.result p).1 (x.result p).2).value := rfl
  rw [hbind]
  rcases x.result p with ⟨_ | _, _⟩ <;> rfl

theorem result_bind_ok {x : Course σ α} {f : α → Course σ β} {a : α}
    (h : x.result p = (.ok a, q)) : (x >>= f).result p = (f a).result q := by
  rw [result_bind, h]

theorem result_bind_error {x : Course σ α} {f : α → Course σ β} {e : CheckError}
    (h : x.result p = (.error e, q)) : (x >>= f).result p = (.error e, q) := by
  rw [result_bind, h]

/-- A step that is taken only on a condition. -/
theorem result_when {b : Prop} [Decidable b] {x : Course σ PUnit} {f : PUnit → Course σ α}
    (h : b → x.result p = (.ok ⟨⟩, q)) :
    (if b then x >>= f else f ⟨⟩).result p = (f ⟨⟩).result (if b then q else p) := by
  split
  · exact result_bind_ok (h ‹_›)
  · rfl

end Course

/-! ### Single steps -/

variable {p : Progress σ}

/-- The records kept after one more was filed. -/
def Sink.filed : Sink → Record → List Record → List Record
  | .kept, r, rs => rs ++ [r]
  | .told, _, rs => rs

@[simp] theorem result_file (sink : Sink) (r : Record) :
    (file sink r : Course σ Unit).result p =
      (.ok (), { p with records := Sink.filed sink r p.records }) := by
  cases sink <;> rfl

/-- The record of a move that a check makes. -/
def Request.recordOf (r : Request) (t : Transition) : Record :=
  Workflow.recordOf ⟨r.id, some r.site, r.actor⟩ (.ok t)

/-- How far a check has come after a move. -/
def Progress.after (p : Progress σ) (sink : Sink) (r : Request) (t : Transition) : Progress σ :=
  { p with
    state := t.target
    trace := p.trace ++ [t]
    records := Sink.filed sink (r.recordOf t) p.records }

/-- How far a check has come after moves in a row. -/
def Progress.along (p : Progress σ) (sink : Sink) (r : Request) : List Transition → Progress σ
  | []        => p
  | t :: rest => (p.after sink r t).along sink r rest

theorem trace_along (sink : Sink) (r : Request) (ts : List Transition) (p : Progress σ) :
    (p.along sink r ts).trace = p.trace ++ ts := by
  induction ts generalizing p with
  | nil => exact (List.append_nil _).symm
  | cons t rest ih =>
      rw [Progress.along, ih]
      exact List.append_assoc _ [_] _

theorem records_along (r : Request) (ts : List Transition) (p : Progress σ) :
    (p.along .kept r ts).records = p.records ++ ts.map r.recordOf := by
  induction ts generalizing p with
  | nil => exact (List.append_nil _).symm
  | cons t rest ih =>
      rw [Progress.along, ih]
      exact List.append_assoc _ [_] _

theorem result_advance {sink : Sink} {r : Request} {c : Context} {e : Event} {t : Transition}
    (h : transition c p.state e = .ok t) :
    (advance sink r c e : Course σ Unit).result p = (.ok (), p.after sink r t) := by
  simp only [advance, Course.result_bind, Course.result_get, apply, h, result_file,
    Course.result_set, Progress.after, Request.recordOf]

@[simp] theorem result_tellSkipped (requestId : String) (ss : List Clause.Skipped) :
    (tellSkipped requestId ss).result p = (.ok (), p) := by
  induction ss with
  | nil => rfl
  | cons s rest ih => simp only [tellSkipped, Course.result_bind, Course.result_tell, ih]

variable [Store σ]

theorem result_collect (s : Setting) (r : Request) :
    (collect s r).result p =
      (.ok (gather s.settings s.parties r p.store).value.1,
        { p with elapsedMs := (gather s.settings s.parties r p.store).value.2 }) := rfl

/-- Candidates committed one after the other: what came of each, and the store they leave. -/
def commitEach (policy : Policy) (now : Calendar.Instant) :
    List Candidate → σ → List (Except StoreError Commit) × σ
  | [], store => ([], store)
  | c :: rest, store =>
    let (result, store) := (policy.commit now c store).value
    let (results, store) := commitEach policy now rest store
    (result :: results, store)

/-- **Commits change the store alone.**  None of them stops a check, and those that fail leave no
trace in it. -/
theorem result_persist (policy : Policy) (now : Calendar.Instant) (requestId : String)
    (cs : List Candidate) (p : Progress σ) :
    (persist policy now requestId cs).result p =
      (.ok ((commitEach policy now cs p.store).1.filterMap Except.toOption),
        { p with store := (commitEach policy now cs p.store).2 }) := by
  induction cs generalizing p with
  | nil => rfl
  | cons c rest ih =>
      cases hcommit : (policy.commit now c p.store).value with
      | mk result store =>
        cases result with
        | ok commit =>
            simp only [persist, Course.result_bind, Course.result_get, Course.result_liftM, hcommit,
              Course.result_set, ih, Course.result_pure, commitEach, List.filterMap_cons,
              Except.toOption]
        | error e =>
            simp only [persist, Course.result_bind, Course.result_get, Course.result_liftM, hcommit,
              Course.result_set, ih, Course.result_tell, commitEach, List.filterMap_cons,
              Except.toOption]

/-! ### Rules that were found -/

section
variable {c : Context} {st : State}

theorem transition_rulesAccepted (hst : st = .join ∨ st = .degraded)
    (hc : c.rulesInvalid = false) :
    transition c st .rulesAccepted = .ok ⟨st, .extract, .rulesAccepted, [.extractThresholds]⟩ := by
  obtain rfl | rfl := hst <;> simp [transition, next, acceptRules, hc, Except.map]

theorem transition_rulesInvalid (hst : st = .join ∨ st = .degraded) (hc : c.rulesInvalid = true) :
    transition c st .rulesInvalid = .ok ⟨st, .fatal, .rulesInvalid, [.abortRequest]⟩ := by
  obtain rfl | rfl := hst <;> simp [transition, next, refuseRules, hc, Except.map]

end

/-- A check from the moment on that its rules are accepted. -/
def settle (s : Setting) (now : Calendar.Instant) (r : Request) (g : Gathered) :
    Course σ Outcome := do
  advance s.sink r g.context .rulesAccepted
  tellSkipped r.id (Decision.extract g.snippets).skipped
  advance s.sink r g.context .thresholdsExtracted
  advance s.sink r g.context .complianceEvaluated
  let decision := Decision.make Decision.defaultSurfaced (g.input r) now
  advance s.sink r g.context .decisionSynthesized
  let commits ← persist s.policy now r.id decision.newMemories
  advance s.sink r g.context .memoryPersisted
  file s.sink (issuedRecord r decision)
  tell (issuedNote r decision)
  return ⟨decision, (← get).trace, commits⟩

/-- A check from the moment on that all branches are joined. -/
def weigh (s : Setting) (now : Calendar.Instant) (r : Request) (g : Gathered) :
    Course σ Outcome := do
  if g.context.rulesInvalid then abort s.sink r g.context
  if g.context.wellFormed < g.context.retrieved then
    tellDropped r.id (g.context.retrieved - g.context.wellFormed)
  settle s now r g

/-- The moves up to where the branches are joined, with or without degradations. -/
def opening (degraded : Bool) : List Transition :=
  ⟨.start, .fanOut, .dispatched, [.fanOutReads]⟩ :: ⟨.fanOut, .join, .branchesJoined, []⟩ ::
    if degraded then [⟨.join, .degraded, .branchDegraded, [.recordDegradations]⟩] else []

/-- The moves from the stage on in which rules are accepted. -/
def closing (st : State) : List Transition := [
  ⟨st, .extract, .rulesAccepted, [.extractThresholds]⟩,
  ⟨.extract, .evaluate, .thresholdsExtracted, [.evaluateCompliance]⟩,
  ⟨.evaluate, .decide, .complianceEvaluated, [.synthesizeDecision]⟩,
  ⟨.decide, .persist, .decisionSynthesized, [.commitMemories]⟩,
  ⟨.persist, .done, .memoryPersisted, []⟩]

/-- The move by which a check is given up. -/
def refusal (st : State) : Transition := ⟨st, .fatal, .rulesInvalid, [.abortRequest]⟩

section
variable (s : Setting) (now : Calendar.Instant) (r : Request) (g : Gathered)

/-- The decision on what was gathered. -/
def Gathered.decision (g : Gathered) (r : Request) (now : Calendar.Instant) : Decision :=
  Decision.make Decision.defaultSurfaced (g.input r) now

/-- Once its rules are accepted, a check comes to the decision on what was gathered. -/
theorem result_settle (hp : p.state = .join ∨ p.state = .degraded)
    (hc : g.context.rulesInvalid = false) :
    (settle s now r g).result p =
      let commits := commitEach s.policy now (g.decision r now).newMemories p.store
      let q := p.along s.sink r (closing p.state)
      (.ok ⟨g.decision r now, q.trace, commits.1.filterMap Except.toOption⟩,
        { q with
          records := Sink.filed s.sink (issuedRecord r (g.decision r now)) q.records
          store := commits.2 }) := by
  rw [settle, Course.result_bind_ok (result_advance (transition_rulesAccepted hp hc)),
    Course.result_bind_ok (result_tellSkipped _ _), Course.result_bind_ok (result_advance rfl),
    Course.result_bind_ok (result_advance rfl), Course.result_bind_ok (result_advance rfl),
    Course.result_bind_ok (result_persist _ _ _ _ _), Course.result_bind_ok (result_advance rfl),
    Course.result_bind_ok (result_file _ _), Course.result_bind_ok (Course.result_tell _),
    Course.result_bind_ok Course.result_get]
  rfl

theorem result_weigh_of_rulesUsable (hc : g.context.rulesInvalid = false) :
    (weigh s now r g).result p = (settle s now r g).result p := by
  rw [weigh, hc, if_neg Bool.false_ne_true]
  -- a note on snippets that are left out changes nothing
  exact (Course.result_when fun _ => Course.result_tell _).trans (by rw [ite_self])

/-- Giving up tells how many rules were found. -/
theorem result_weigh_of_rulesInvalid (hp : p.state = .join ∨ p.state = .degraded)
    (hc : g.context.rulesInvalid = true) :
    (weigh s now r g).result p =
      (.error (.unusableRules g.context.retrieved), p.after s.sink r (refusal p.state)) := by
  have habort : (abort s.sink r g.context : Course σ Unit).result p =
      (.error (.unusableRules g.context.retrieved), p.after s.sink r (refusal p.state)) := by
    rw [abort, Course.result_bind_ok (result_advance (transition_rulesInvalid hp hc)),
      Course.result_bind_ok (Course.result_tell _), Course.result_throw, refusal]
  rw [weigh, if_pos hc, Course.result_bind_error habort]

end

/-! ### The whole check -/

section
variable (s : Setting) (now : Calendar.Instant) (r : Request) (store : σ)

/-- What a check gathers. -/
def gathered (s : Setting) (r : Request) (store : σ) : Gathered :=
  (gather s.settings s.parties r store).value.1

/-- Whether a check has to do without something. -/
def Gathered.isDegraded (g : Gathered) : Bool := !g.degradations.isEmpty

/-- The stage in which rules are accepted or given up. -/
def Gathered.joined (g : Gathered) : State := if g.isDegraded then .degraded else .join

/-- How far a check has come when its branches are joined, with degradations or without. -/
def begunWith (s : Setting) (r : Request) (store : σ) (degraded : Bool) : Progress σ :=
  { ({ store := store } : Progress σ).along s.sink r (opening degraded) with
    elapsedMs := (gather s.settings s.parties r store).value.2 }

/-- How far a check has come when its branches are joined. -/
def begun (s : Setting) (r : Request) (store : σ) : Progress σ :=
  begunWith s r store (gathered s r store).isDegraded

theorem course_eq : (course s now r : Course σ Outcome) = (do
    advance s.sink r {} .dispatched
    let g ← collect s r
    advance s.sink r g.context .branchesJoined
    if !g.degradations.isEmpty then advance s.sink r g.context .branchDegraded
    weigh s now r g) := rfl

theorem state_begun : (begun s r store).state = (gathered s r store).joined := by
  unfold begun Gathered.joined
  cases (gathered s r store).isDegraded <;> rfl

theorem store_begun : (begun s r store).store = store := by
  unfold begun
  cases (gathered s r store).isDegraded <;> rfl

theorem trace_begun : (begun s r store).trace = opening (gathered s r store).isDegraded := by
  unfold begun
  cases (gathered s r store).isDegraded <;> rfl

theorem state_begun_cases :
    (begun s r store).state = .join ∨ (begun s r store).state = .degraded := by
  rw [state_begun]
  unfold Gathered.joined
  split
  · exact .inr rfl
  · exact .inl rfl

/-- However the branches went, a check comes to weigh what was gathered. -/
theorem result_course : (course s now r).result { store := store } =
    (weigh s now r (gathered s r store)).result (begun s r store) := by
  have hmoves : (course s now r).result { store := store } =
      (do
        if !(gathered s r store).degradations.isEmpty then
          advance s.sink r (gathered s r store).context .branchDegraded
        weigh s now r (gathered s r store)).result (begunWith s r store false) := by
    rw [course_eq, Course.result_bind_ok
        (result_advance (t := ⟨.start, .fanOut, .dispatched, [.fanOutReads]⟩) rfl),
      Course.result_bind_ok (result_collect _ _),
      Course.result_bind_ok (result_advance (t := ⟨.fanOut, .join, .branchesJoined, []⟩) rfl)]
    rfl
  -- degradations make one more move, after which rules are accepted as well as before it
  have hbegun : begun s r store =
      if !(gathered s r store).degradations.isEmpty
      then begunWith s r store true else begunWith s r store false := by
    unfold begun Gathered.isDegraded
    cases !(gathered s r store).degradations.isEmpty <;> rfl
  rw [hmoves, hbegun]
  exact Course.result_when fun _ => result_advance
    (t := ⟨.join, .degraded, .branchDegraded, [.recordDegradations]⟩) rfl

theorem value_run : (run s now r store).value =
    let x := (course s now r).result { store := store }
    ⟨x.1, x.2.records, x.2.elapsedMs, x.2.store⟩ := rfl

/-- **A check is given up** when rules were found and none of them can be used; it leaves the store
as it was. -/
theorem run_of_rulesInvalid (hc : (gathered s r store).context.rulesInvalid = true) :
    (run s now r store).value =
      let q := (begun s r store).along s.sink r [refusal (gathered s r store).joined]
      ⟨.error (.unusableRules (gathered s r store).snippets.length), q.records, q.elapsedMs,
        store⟩ := by
  have hresult := result_weigh_of_rulesInvalid s now r (gathered s r store)
    (state_begun_cases s r store) hc
  rw [value_run, result_course, hresult, state_begun]
  exact congrArg (Run.mk _ _ _) (store_begun s r store)

/-- **Otherwise it comes to the decision on what was gathered**, whatever becomes of the facts to
be remembered. -/
theorem run_of_rulesUsable (hc : (gathered s r store).context.rulesInvalid = false) :
    (run s now r store).value =
      let decision := (gathered s r store).decision r now
      let commits := commitEach s.policy now decision.newMemories store
      let q := (begun s r store).along s.sink r (closing (gathered s r store).joined)
      ⟨.ok ⟨decision, q.trace, commits.1.filterMap Except.toOption⟩,
        Sink.filed s.sink (issuedRecord r decision) q.records, q.elapsedMs, commits.2⟩ := by
  have hresult := result_settle s now r (gathered s r store) (state_begun_cases s r store) hc
  rw [value_run, result_course, result_weigh_of_rulesUsable s now r _ hc, hresult, state_begun,
    store_begun]

theorem outcome_of_rulesInvalid (hc : (gathered s r store).context.rulesInvalid = true) :
    (run s now r store).value.outcome =
      .error (.unusableRules (gathered s r store).context.retrieved) := by
  rw [run_of_rulesInvalid s now r store hc]
  rfl

theorem outcome_of_rulesUsable (hc : (gathered s r store).context.rulesInvalid = false) :
    ∃ trace commits, (run s now r store).value.outcome = .ok
      ⟨Decision.make Decision.defaultSurfaced ((gathered s r store).input r) now, trace,
        commits⟩ := by
  rw [run_of_rulesUsable s now r store hc]
  exact ⟨_, _, rfl⟩

/-- A decision that a check comes to is the one on what was gathered. -/
theorem decision_of_outcome {o : Outcome} (h : (run s now r store).value.outcome = .ok o) :
    o.decision = Decision.make Decision.defaultSurfaced ((gathered s r store).input r) now := by
  cases hc : (gathered s r store).context.rulesInvalid with
  | true => rw [outcome_of_rulesInvalid s now r store hc] at h; cases h
  | false =>
      obtain ⟨trace, commits, hok⟩ := outcome_of_rulesUsable s now r store hc
      rw [hok] at h
      cases h
      rfl

end

end SiteSafety.Check
