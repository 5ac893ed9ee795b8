import Mathlib.Data.List.Infix
import Mathlib.Data.List.Nodup
import SiteSafety.Workflow.Audit

/-!
# Proofs — Workflow — Runs

Events that are put to the workflow one after the other, each with a context of its own; an event
that does not apply leaves the stage as it is.  `Move` lists what an event can do.  All that holds
of runs is read off its constructors, and carried through a run by induction on the events.

* `Move.rank_lt`: a move goes forward, so there are at most eight of them (`length_moves_le`).
* `Move.ahead`: what a move is told to do comes first in what was ahead before it, so what a run
  does is the beginning of one of four plans (`exists_ahead`).
* `tellsMove_run`, `linkedFrom_run`: the records that tell of moves are those of the moves of the
  run, one for each, and each is linked to the one before it.
* `run_is_safe`: **every run from the first stage**.
-/

namespace SiteSafety.Workflow

/-! ### Moves -/

/-- The moves that a context allows, with what is to be done on the way. -/
inductive Move (c : Context) : State → Event → State → List Action → Prop where
  | dispatch : Move c .start .dispatched .fanOut [.fanOutReads]
  | gather : Move c .fanOut .branchesJoined .join []
  | degrade : Move c .join .branchDegraded .degraded [.recordDegradations]
  | accept {s : State} (hs : s = .join ∨ s = .degraded) (hrules : c.rulesInvalid = false) :
      Move c s .rulesAccepted .extract [.extractThresholds]
  | refuse {s : State} (hs : s = .join ∨ s = .degraded) (hrules : c.rulesInvalid = true) :
      Move c s .rulesInvalid .fatal [.abortRequest]
  | extract : Move c .extract .thresholdsExtracted .evaluate [.evaluateCompliance]
  | evaluate : Move c .evaluate .complianceEvaluated .decide [.synthesizeDecision]
  | decide : Move c .decide .decisionSynthesized .persist [.commitMemories]
  | persist : Move c .persist .memoryPersisted .done []

variable {c : Context} {s target : State} {e : Event} {actions : List Action} {t : Transition}

theorem acceptRules_eq_ok_iff : acceptRules s c = .ok (target, actions) ↔
    c.rulesInvalid = false ∧ target = .extract ∧ actions = [.extractThresholds] := by
  unfold acceptRules
  cases c.rulesInvalid <;> simp [eq_comm]

theorem refuseRules_eq_ok_iff : refuseRules s c = .ok (target, actions) ↔
    c.rulesInvalid = true ∧ target = .fatal ∧ actions = [.abortRequest] := by
  unfold refuseRules
  cases c.rulesInvalid <;> simp [eq_comm]

theorem move_of_next (h : next c s e = .ok (target, actions)) : Move c s e target actions := by
  unfold next at h
  split at h
  case h_4 =>
    obtain ⟨hrules, rfl, rfl⟩ := acceptRules_eq_ok_iff.mp h
    exact .accept (.inl rfl) hrules
  case h_5 =>
    obtain ⟨hrules, rfl, rfl⟩ := acceptRules_eq_ok_iff.mp h
    exact .accept (.inr rfl) hrules
  case h_6 =>
    obtain ⟨hrules, rfl, rfl⟩ := refuseRules_eq_ok_iff.mp h
    exact .refuse (.inl rfl) hrules
  case h_7 =>
    obtain ⟨hrules, rfl, rfl⟩ := refuseRules_eq_ok_iff.mp h
    exact .refuse (.inr rfl) hrules
  case h_12 => cases h
  all_goals
    cases h
    constructor

theorem next_of_move (h : Move c s e target actions) : next c s e = .ok (target, actions) := by
  cases h with
  | accept hs hrules =>
      have haccept := acceptRules_eq_ok_iff (s := s).mpr ⟨hrules, rfl, rfl⟩
      obtain rfl | rfl := hs <;> exact haccept
  | refuse hs hrules =>
      have hrefuse := refuseRules_eq_ok_iff (s := s).mpr ⟨hrules, rfl, rfl⟩
      obtain rfl | rfl := hs <;> exact hrefuse
  | _ => rfl

/-- What the workflow accepts is a move from the stage it is in. -/
theorem transition_eq_ok_iff : transition c s e = .ok t ↔
    t.source = s ∧ t.event = e ∧ Move c s e t.target t.actions := by
  unfold transition
  constructor
  · intro h
    cases hnext : next c s e with
    | error err =>
        rw [hnext] at h
        cases h
    | ok outcome =>
        rw [hnext] at h
        cases h
        exact ⟨rfl, rfl, move_of_next hnext⟩
  · rintro ⟨rfl, rfl, hmove⟩
    rw [next_of_move hmove]
    rfl

/-! ### The order of the stages -/

/-- The place of a stage in the order in which a check comes to them; the two last ones share the
last place. -/
def State.rank : State → Nat
  | .start         => 0
  | .fanOut        => 1
  | .join          => 2
  | .degraded      => 3
  | .extract       => 4
  | .evaluate      => 5
  | .decide        => 6
  | .persist       => 7
  | .done | .fatal => 8

theorem State.rank_le (s : State) : s.rank ≤ 8 := by
  cases s <;> decide

/-- A move goes forward. -/
theorem Move.rank_lt (h : Move c s e target actions) : s.rank < target.rank := by
  cases h with
  | accept hs | refuse hs => obtain rfl | rfl := hs <;> decide
  | _ => decide

/-- A check is given up only when rules were found and none of them can be used. -/
theorem Move.rules_of_fatal (h : Move c s e .fatal actions) :
    0 < c.retrieved ∧ c.wellFormed = 0 := by
  cases h with
  | refuse hs hrules => simpa [Context.rulesInvalid] using hrules

/-- Limits are read only when it is not given up. -/
theorem Move.rules_of_extract (h : Move c s e .extract actions) :
    ¬(0 < c.retrieved ∧ c.wellFormed = 0) := by
  cases h with
  | accept hs hrules => simpa [Context.rulesInvalid] using hrules

/-- Nothing moves a stage that is terminal. -/
theorem Move.not_isTerminal (h : Move c s e target actions) : s.isTerminal = false := by
  cases h with
  | accept hs | refuse hs => obtain rfl | rfl := hs <;> rfl
  | _ => rfl

/-! ### What is ahead -/

/-- What is done once the rules are accepted. -/
def decision : List Action :=
  [.extractThresholds, .evaluateCompliance, .synthesizeDecision, .commitMemories]

/-- What may still have to be done from a stage on, if the check goes on to its end. -/
def ahead : State → List (List Action)
  | .start         => [.fanOutReads :: decision, .fanOutReads :: .recordDegradations :: decision,
      [.fanOutReads, .abortRequest], [.fanOutReads, .recordDegradations, .abortRequest]]
  | .fanOut | .join => [decision, .recordDegradations :: decision, [.abortRequest],
      [.recordDegradations, .abortRequest]]
  | .degraded      => [decision, [.abortRequest]]
  | .extract       => [decision.drop 1]
  | .evaluate      => [decision.drop 2]
  | .decide        => [decision.drop 3]
  | .persist | .done | .fatal => [[]]

/-- A move does what comes first in what was ahead of it. -/
theorem Move.ahead (h : Move c s e target actions) :
    ∀ plan ∈ ahead target, actions ++ plan ∈ Workflow.ahead s := by
  cases h with
  | accept hs | refuse hs => obtain rfl | rfl := hs <;> decide
  | _ => decide

/-- Facts are committed only behind a decision, and never by a check that is given up. -/
theorem committed_of_prefix : ∀ plan ∈ ahead .start, ∀ done ∈ plan.inits,
    Action.commitMemories ∈ done →
      [Action.synthesizeDecision, .commitMemories].Sublist done ∧ Action.abortRequest ∉ done := by
  decide

/-! ### Records -/

/-- A record tells of a move: of the event, and of the stages that it led from and to. -/
structure TellsMove (subject : Subject) (t : Transition) (r : Record) : Prop where
  subject : r.subject = subject
  event : r.event = "workflow.transition_applied"
  category : r.category = .workflow
  outcome : r.outcome = if t.target = .degraded then .degraded else
    if t.target = .fatal then .failed else .success
  metadata : r.metadata =
    [("event", t.event.name), ("from", t.source.name), ("to", t.target.name)]

/-- A record tells that an event was refused, and why. -/
structure TellsRefusal (subject : Subject) (err : TransitionError) (r : Record) : Prop where
  subject : r.subject = subject
  event : r.event = "workflow.transition_rejected"
  category : r.category = .workflow
  outcome : r.outcome = .rejected
  metadata : r.metadata = [("error", err.message)]

theorem tellsMove_recordOf (subject : Subject) (t : Transition) :
    TellsMove subject t (recordOf subject (.ok t)) where
  subject := rfl
  event := rfl
  category := rfl
  outcome := by
    show outcomeOf t.target = _
    cases t.target <;> rfl
  metadata := rfl

theorem tellsRefusal_recordOf (subject : Subject) (err : TransitionError) :
    TellsRefusal subject err (recordOf subject (.error err)) := ⟨rfl, rfl, rfl, rfl, rfl⟩

theorem State.mem_all (s : State) : s ∈ State.all := by
  cases s <;> decide

/-- Stages have different names, so a record tells them apart. -/
theorem State.eq_of_name_eq {s s' : State} (h : s.name = s'.name) : s = s' :=
  have hnames : (State.all.map State.name).Nodup := by decide
  List.inj_on_of_nodup_map hnames s.mem_all s'.mem_all h

/-! ### Runs -/

/-- What one event came to, the stage after it, and its record. -/
abbrev Step := Except TransitionError Transition × State × Record

/-- The stages that a run goes through, the one it starts in first. -/
def stages (s : State) (steps : List Step) : List State := s :: steps.map (·.2.1)

/-- The moves of a run. -/
def moves (steps : List Step) : List Transition := steps.filterMap (·.1.toOption)

/-- What is to be done in a run. -/
def actionsOf (steps : List Step) : List Action := (moves steps).flatMap (·.actions)

/-- The records of a run. -/
def records (steps : List Step) : List Record := steps.map (·.2.2)

/-- The records that tell of moves among records. -/
def applied (rs : List Record) : List Record :=
  rs.filter (·.event == "workflow.transition_applied")

/-- Each record tells of a move from the stage that the one before it led to. -/
def LinkedFrom (s : State) : List Record → Prop
  | [] => True
  | r :: rest => r.metadata.lookup "from" = some s.name ∧
      ∃ s' : State, r.metadata.lookup "to" = some s'.name ∧ LinkedFrom s' rest

variable {subject : Subject} {calls : List (Event × Context)}

theorem run_cons (subject : Subject) (s : State) (e : Event) (c : Context)
    (rest : List (Event × Context)) : run subject s ((e, c) :: rest) =
      (transition c s e, stateAfter s (transition c s e), recordOf subject (transition c s e)) ::
        run subject (stateAfter s (transition c s e)) rest := rfl

theorem length_run (subject : Subject) (s : State) (calls : List (Event × Context)) :
    (run subject s calls).length = calls.length := by
  induction calls generalizing s with
  | nil => rfl
  | cons call rest ih => rw [run_cons, List.length_cons, List.length_cons, ih]

/-- Every event is put to the stage that the run has come to. -/
theorem run_getElem? (subject : Subject) (s : State) {i : Nat} (h : calls[i]? = some (e, c)) :
    ∃ st, (stages s (run subject s calls))[i]? = some st ∧
      (run subject s calls)[i]? = some
        (transition c st e, stateAfter st (transition c st e),
          recordOf subject (transition c st e)) := by
  induction calls generalizing s i with
  | nil => cases h
  | cons call rest ih =>
      obtain ⟨e', c'⟩ := call
      cases i with
      | zero =>
          cases h
          exact ⟨s, rfl, rfl⟩
      | succ i => exact ih (s := stateAfter s (transition c' s e')) h

theorem moves_run_of_ok {rest : List (Event × Context)} (h : transition c s e = .ok t) :
    moves (run subject s ((e, c) :: rest)) = t :: moves (run subject t.target rest) := by
  rw [run_cons, h]
  rfl

theorem moves_run_of_error {rest : List (Event × Context)} {err : TransitionError}
    (h : transition c s e = .error err) :
    moves (run subject s ((e, c) :: rest)) = moves (run subject s rest) := by
  rw [run_cons, h]
  rfl

/-- A run has no more moves than there are stages ahead. -/
theorem length_moves_le (subject : Subject) (s : State) (calls : List (Event × Context)) :
    (moves (run subject s calls)).length + s.rank ≤ 8 := by
  induction calls generalizing s with
  | nil => simpa [run, moves] using s.rank_le
  | cons call rest ih =>
      obtain ⟨e, c⟩ := call
      cases h : transition c s e with
      | error err =>
          rw [moves_run_of_error h]
          exact ih s
      | ok t =>
          have hforward := (transition_eq_ok_iff.mp h).2.2.rank_lt
          have hrest := ih t.target
          rw [moves_run_of_ok h, List.length_cons]
          omega

/-- What a run does is the beginning of what was ahead of it. -/
theorem exists_ahead (subject : Subject) (s : State) (calls : List (Event × Context)) :
    ∃ plan ∈ ahead s, actionsOf (run subject s calls) <+: plan := by
  induction calls generalizing s with
  | nil =>
      obtain ⟨plan, hplan⟩ : ∃ plan, plan ∈ ahead s := by
        cases s <;> exact ⟨_, List.mem_cons_self⟩
      exact ⟨plan, hplan, List.nil_prefix⟩
  | cons call rest ih =>
      obtain ⟨e, c⟩ := call
      cases h : transition c s e with
      | error err =>
          rw [actionsOf, moves_run_of_error h]
          exact ih s
      | ok t =>
          obtain ⟨plan, hplan, hprefix⟩ := ih t.target
          refine ⟨t.actions ++ plan, (transition_eq_ok_iff.mp h).2.2.ahead plan hplan, ?_⟩
          rw [actionsOf, moves_run_of_ok h, List.flatMap_cons]
          exact (List.prefix_append_right_inj _).mpr hprefix

/-- The records that tell of moves are those of the moves, one for each of them. -/
theorem tellsMove_run (subject : Subject) (s : State) (calls : List (Event × Context)) :
    List.Forall₂ (TellsMove subject) (moves (run subject s calls))
      (applied (records (run subject s calls))) := by
  induction calls generalizing s with
  | nil => exact .nil
  | cons call rest ih =>
      obtain ⟨e, c⟩ := call
      cases h : transition c s e with
      | error err =>
          rw [moves_run_of_error h, run_cons, h]
          exact ih s
      | ok t =>
          rw [moves_run_of_ok h, run_cons, h]
          exact .cons (tellsMove_recordOf subject t) (ih t.target)

/-- The records of the moves are linked. -/
theorem linkedFrom_run (subject : Subject) (s : State) (calls : List (Event × Context)) :
    LinkedFrom s (applied (records (run subject s calls))) := by
  induction calls generalizing s with
  | nil => exact trivial
  | cons call rest ih =>
      obtain ⟨e, c⟩ := call
      cases h : transition c s e with
      | error err =>
          rw [run_cons, h]
          exact ih s
      | ok t =>
          obtain ⟨rfl, -, -⟩ := transition_eq_ok_iff.mp h
          rw [run_cons, h]
          exact ⟨rfl, t.target, rfl, ih t.target⟩

/-- **Every run from the first stage is safe.**  An event is put to the stage the run has come to
and leaves one record.  A move starts in that stage and goes forward, to `fatal` only when rules
were found and none can be used, to `extract` only when not, and its record tells where it led from
and to; an event that is refused leaves the stage as it is, and its record tells that.  There are at
most eight moves and none from a terminal stage.  What is done is the beginning of one of the four
plans, so facts are committed only behind a decision and never by a check that is given up.  The
records that tell of moves are those of the moves, and are linked. -/
theorem run_is_safe (subject : Subject) (calls : List (Event × Context)) :
    let steps := run subject .start calls
    (∀ (i : Nat) e c, calls[i]? = some (e, c) → ∃ st next record,
      (stages .start steps)[i]? = some st ∧
      steps[i]? = some (transition c st e, next, record) ∧
      (∀ t, transition c st e = .ok t →
        t.source = st ∧ next = t.target ∧ st.rank < t.target.rank ∧
        (t.target = .fatal → 0 < c.retrieved ∧ c.wellFormed = 0) ∧
        (t.target = .extract → ¬(0 < c.retrieved ∧ c.wellFormed = 0)) ∧
        TellsMove subject t record) ∧
      ∀ err, transition c st e = .error err → next = st ∧ TellsRefusal subject err record) ∧
    (moves steps).length ≤ 8 ∧
    (∀ st c e t, State.isTerminal st = true → transition c st e ≠ .ok t) ∧
    (∃ plan ∈ ahead .start, actionsOf steps <+: plan) ∧
    (.commitMemories ∈ actionsOf steps →
      [.synthesizeDecision, .commitMemories].Sublist (actionsOf steps) ∧
        .abortRequest ∉ actionsOf steps) ∧
    (records steps).length = calls.length ∧
    List.Forall₂ (TellsMove subject) (moves steps) (applied (records steps)) ∧
    LinkedFrom .start (applied (records steps)) ∧
    ∀ s s' : State, s.name = s'.name → s = s' := by
  intro steps
  obtain ⟨plan, hplan, hprefix⟩ := exists_ahead subject .start calls
  refine ⟨?_, length_moves_le subject .start calls, ?_, ⟨plan, hplan, hprefix⟩, ?_, ?_,
    tellsMove_run subject .start calls, linkedFrom_run subject .start calls,
    fun _ _ => State.eq_of_name_eq⟩
  · intro i e c hcall
    obtain ⟨st, hstage, hstep⟩ := run_getElem? subject .start hcall
    refine ⟨st, _, _, hstage, hstep, fun t ht => ?_, fun err herr => ?_⟩
    · obtain ⟨hsource, -, hmove⟩ := transition_eq_ok_iff.mp ht
      rw [ht]
      refine ⟨hsource, rfl, hmove.rank_lt, fun hfatal => ?_, fun hextract => ?_,
        tellsMove_recordOf subject t⟩
      · exact Move.rules_of_fatal (hfatal ▸ hmove)
      · exact Move.rules_of_extract (hextract ▸ hmove)
    · rw [herr]
      exact ⟨rfl, tellsRefusal_recordOf subject err⟩
  · intro st c e t hterminal ht
    rw [(transition_eq_ok_iff.mp ht).2.2.not_isTerminal] at hterminal
    cases hterminal
  · exact committed_of_prefix plan hplan _ ((List.mem_inits _ _).mpr hprefix)
  · rw [records, List.length_map, length_run]

end SiteSafety.Workflow
