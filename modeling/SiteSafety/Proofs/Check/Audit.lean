import SiteSafety.Cli.Run
import SiteSafety.Proofs.Check.Course

/-!
# Proofs — Check — Audit

The records of a check are kept, or told as notes of the audit.  `Course.Echoes x y` says that `y`
does what `x` does and tells what `x` keeps; steps in a row echo each other when each of them does.

* `echoes_course`: a check that tells its records echoes one that keeps them.
* `audit_run_told`: **what is told is what would be kept**, record by record, provided that no party
  makes notes of the audit itself (`Discreet`).
* `discreet_command`: the parties and the files that the command asks do not.
-/

namespace SiteSafety

variable {α β : Type}

/-- The notes of the audit among those that were made. -/
def Noted.audit (x : Noted α) : List Note := x.notes.filter fun n => n.speaker = .audit

@[simp] theorem audit_pure (a : α) : (pure a : Noted α).audit = [] := rfl

@[simp] theorem audit_bind (x : Noted α) (f : α → Noted β) :
    (x >>= f).audit = x.audit ++ (f x.value).audit := List.filter_append _ _

@[simp] theorem audit_map (f : α → β) (x : Noted α) : (f <$> x).audit = x.audit := by
  rw [map_eq_pure_bind, audit_bind, audit_pure, List.append_nil]

end SiteSafety

namespace SiteSafety.Check
open Measurement Memory Workflow

variable {σ α β : Type}

/-! ### Parties that keep out of the audit -/

section
variable [Store σ]

/-- Neither the weather service nor the store makes notes of the audit. -/
structure Discreet (σ : Type) [Store σ] (p : Parties) : Prop where
  weather : ∀ ask ∈ p.weather, ∀ site, (ask site).audit = []
  read : ∀ scope (store : σ), (Store.read scope store).audit = []
  append : ∀ e (store : σ), (Store.append e store).audit = []

@[simp] theorem audit_received (requestId : String) (x : Except CollaboratorError (List α)) :
    (received requestId x).audit = [] := by
  cases x <;> rfl

@[simp] theorem audit_receivedRules (requestId : String)
    (x : Except CollaboratorError (List Rule.Snippet)) :
    (receivedRules requestId x).audit = [] := by
  unfold receivedRules
  split
  · rfl
  · exact audit_received _ _

@[simp] theorem audit_receivedWeather (requestId : String) (limitMs : Nat)
    (x : Option (Answer (List Reading))) : (receivedWeather requestId limitMs x).audit = [] := by
  cases x with
  | none => rfl
  | some answer => exact audit_received _ _

@[simp] theorem audit_settle (c : Candidate) : (Memory.settle c).audit = [] := by
  unfold Memory.settle
  split
  · rfl
  · dsimp only
    split <;> rfl

@[simp] theorem audit_learn (judge : Judge) (interaction : String) (existing : List Entry) :
    (learn judge interaction existing).audit = [] := by
  unfold learn learnFrom
  split
  · change (Memory.heed _).audit = []
    unfold Memory.heed
    split <;> simp
  · rfl

@[simp] theorem audit_judged (p : Parties) (requestId : String) (limitMs : Nat)
    (interaction : String) (memories : List Entry) :
    (judged p requestId limitMs interaction memories).audit = [] := by
  unfold judged
  dsimp only
  split <;> simp

variable {p : Parties} (h : Discreet σ p)
include h

theorem audit_recollect (readDelayMs : Nat) (store : σ) :
    (recollect readDelayMs store).audit = [] := by
  unfold recollect
  rw [audit_bind, h.read, List.nil_append]
  split
  · rfl
  · rw [audit_bind, h.read, List.nil_append]
    split <;> rfl

theorem audit_gather (settings : Settings) (r : Request) (store : σ) :
    (gather settings p r store).audit = [] := by
  unfold gather
  cases hweather : p.weather with
  | none => cases r.interaction <;> simp [audit_recollect h]
  | some ask =>
      have hask := h.weather ask hweather r.site
      cases r.interaction <;> simp [audit_recollect h, hask]

theorem audit_commit (policy : Policy) (now : Calendar.Instant) (c : Candidate) (store : σ) :
    (policy.commit now c store).audit = [] := by
  unfold Policy.commit
  split
  · rfl
  · rw [audit_bind, h.append, List.nil_append]
    split <;> rfl

end

/-! ### Steps that echo each other -/

/-- The notes of the audit that a part of a check makes. -/
def Course.audit (x : Course σ α) (p : Progress σ) : List Note := (x.run.run p).audit

/-- The same progress without records. -/
def Progress.unrecorded (p : Progress σ) : Progress σ := { p with records := [] }

/-- One part of a check does what another does, and tells the records that the other keeps. -/
def Course.Echoes (x y : Course σ α) : Prop :=
  ∀ p, ∃ rs, y.result p.unrecorded = ((x.result p).1, (x.result p).2.unrecorded) ∧
    (x.result p).2.records = p.records ++ rs ∧ y.audit p.unrecorded = rs.map Record.note

section
variable {x y : Course σ α} {f g : α → Course σ β} {p q : Progress σ}

namespace Course

@[simp] theorem audit_pure (a : α) : (pure a : Course σ α).audit p = [] := rfl

@[simp] theorem audit_throw (e : CheckError) : (throw e : Course σ α).audit p = [] := rfl

@[simp] theorem audit_get : (get : Course σ (Progress σ)).audit p = [] := rfl

@[simp] theorem audit_set : (set q : Course σ PUnit).audit p = [] := rfl

@[simp] theorem audit_liftM (x : Noted α) : (liftM x : Course σ α).audit p = x.audit := by
  have hlift : (liftM x : Course σ α).audit p = ((x >>= fun a => pure (a, p)) >>=
      fun z => pure (.ok z.1, z.2) : Noted (Except CheckError α × Progress σ)).audit := rfl
  simp only [hlift, SiteSafety.audit_bind, SiteSafety.audit_pure, List.append_nil]

/-- The notes of the second step come behind those of the first one, which may end both. -/
theorem audit_bind : (x >>= f).audit p = x.audit p ++ match x.result p with
    | (.ok a, q) => (f a).audit q
    | (.error _, _) => [] := by
  have hbind : (x >>= f).audit p =
      (x.run.run p >>= fun z => (ExceptT.bindCont f z.1).run z.2).audit := rfl
  have hresult : x.result p = (x.run.run p).value := rfl
  rw [hbind, SiteSafety.audit_bind, hresult]
  rcases (x.run.run p).value with ⟨_ | _, _⟩ <;> rfl

end Course

theorem Course.Echoes.bind (hx : x.Echoes y) (hf : ∀ a, (f a).Echoes (g a)) :
    (x >>= f).Echoes (y >>= g) := by
  intro p
  obtain ⟨rs, hy, hrecords, haudit⟩ := hx p
  rcases hxp : x.result p with ⟨e | a, q⟩
  case error =>
    rw [hxp] at hy hrecords
    refine ⟨rs, ?_, ?_, ?_⟩
    · rw [result_bind_error hxp, result_bind_error hy]
    · rw [result_bind_error hxp, hrecords]
    · rw [audit_bind, hy, haudit, List.append_nil]
  case ok =>
    rw [hxp] at hy hrecords
    obtain ⟨rs', hg, hrecords', haudit'⟩ := hf a q
    refine ⟨rs ++ rs', ?_, ?_, ?_⟩
    · rw [result_bind_ok hxp, result_bind_ok hy, hg]
    · rw [result_bind_ok hxp, hrecords', hrecords, List.append_assoc]
    · simp only [audit_bind, hy, haudit, haudit', List.map_append]

theorem Course.Echoes.when {b : Prop} [Decidable b] {x y : Course σ PUnit}
    {f g : PUnit → Course σ α} (hx : x.Echoes y) (hf : ∀ a, (f a).Echoes (g a)) :
    (if b then x >>= f else f ⟨⟩).Echoes (if b then y >>= g else g ⟨⟩) := by
  split
  · exact hx.bind hf
  · exact hf ⟨⟩

/-- A part of a check that neither reads nor adds records, nor makes notes of the audit, echoes
itself. -/
theorem Course.Echoes.refl
    (hresult : ∀ p, x.result p.unrecorded = ((x.result p).1, (x.result p).2.unrecorded))
    (hrecords : ∀ p, (x.result p).2.records = p.records)
    (haudit : ∀ p, x.audit p = []) : x.Echoes x :=
  fun p => ⟨[], hresult p, by rw [hrecords, List.append_nil], haudit _⟩

end

theorem echoes_throw (e : CheckError) :
    (throw e : Course σ α).Echoes (throw e) :=
  .refl (fun _ => rfl) (fun _ => rfl) (fun _ => rfl)

theorem audit_tell {n : Note} (h : n.speaker ≠ .audit) (p : Progress σ) :
    (tell n : Course σ Unit).audit p = [] := by
  rw [tell, Course.audit_liftM]
  simp [Noted.audit, h]

theorem echoes_tell {n : Note} (h : n.speaker ≠ .audit) :
    (tell n : Course σ Unit).Echoes (tell n) :=
  .refl (fun _ => rfl) (fun _ => rfl) (audit_tell h)

theorem echoes_tellSkipped (requestId : String) (ss : List Clause.Skipped) :
    (tellSkipped requestId ss : Course σ Unit).Echoes (tellSkipped requestId ss) := by
  induction ss with
  | nil => exact .refl (fun _ => rfl) (fun _ => rfl) (fun _ => rfl)
  | cons s rest ih => exact .bind (echoes_tell (by simp)) fun _ => ih

theorem echoes_file (r : Record) : (file .kept r : Course σ Unit).Echoes (file .told r) :=
  fun _ => ⟨[r], rfl, rfl, rfl⟩

@[simp] theorem audit_file_told (r : Record) {p : Progress σ} :
    (file .told r : Course σ Unit).audit p = [r.note] := rfl

theorem echoes_advance (r : Request) (c : Context) (e : Event) :
    (advance .kept r c e : Course σ Unit).Echoes (advance .told r c e) := by
  intro p
  refine ⟨[(apply ⟨r.id, some r.site, r.actor⟩ c p.state e).2], ?_⟩
  -- the stage that is read first is the same without records
  have hstate : p.unrecorded.state = p.state := rfl
  cases h : transition c p.state e <;>
    simp only [advance, Course.result_bind, Course.audit_bind, Course.result_get, Course.audit_get,
      hstate, apply, h, result_file, audit_file_told, Course.result_set, Course.audit_set,
      Course.result_throw, Course.audit_throw] <;>
    exact ⟨rfl, rfl, rfl⟩

section
variable [Store σ]

theorem echoes_collect {s : Setting} (h : Discreet σ s.parties) (r : Request) :
    (collect s r : Course σ Gathered).Echoes (collect s r) := by
  refine .refl (fun _ => rfl) (fun _ => rfl) fun p => ?_
  simp only [collect, Course.audit_bind, Course.result_get, Course.audit_get, Course.result_liftM,
    Course.audit_liftM, audit_gather h, Course.result_set, Course.audit_set, Course.audit_pure,
    List.append_nil]

theorem audit_persist {parties : Parties} (h : Discreet σ parties) (policy : Policy)
    (now : Calendar.Instant) (requestId : String) (cs : List Candidate) (p : Progress σ) :
    (persist policy now requestId cs).audit p = [] := by
  induction cs generalizing p with
  | nil => rfl
  | cons c rest ih =>
      have hcommit := audit_commit h policy now c p.store
      cases hresult : (policy.commit now c p.store).value with
      | mk result store =>
        cases result with
        | ok commit =>
            simp only [persist, Course.audit_bind, Course.result_get, Course.audit_get,
              Course.result_liftM, Course.audit_liftM, hcommit, hresult, Course.result_set,
              Course.audit_set, result_persist, ih, Course.audit_pure, List.nil_append]
        | error e => simp [persist, Course.audit_bind, hcommit, hresult, ih, audit_tell]

theorem echoes_persist {parties : Parties} (h : Discreet σ parties) (policy : Policy)
    (now : Calendar.Instant) (requestId : String) (cs : List Candidate) :
    (persist policy now requestId cs : Course σ (List Commit)).Echoes
      (persist policy now requestId cs) :=
  .refl (fun _ => by rw [result_persist, result_persist]; rfl)
    (fun _ => by rw [result_persist]) (audit_persist h policy now requestId cs)

variable {s : Setting} (h : Discreet σ s.parties)
include h

theorem echoes_settle (now : Calendar.Instant) (r : Request) (g : Gathered) :
    (settle { s with sink := .kept } now r g : Course σ Outcome).Echoes
      (settle { s with sink := .told } now r g) := by
  refine (echoes_advance _ _ _).bind fun _ => (echoes_tellSkipped _ _).bind fun _ =>
    (echoes_advance _ _ _).bind fun _ => (echoes_advance _ _ _).bind fun _ =>
    (echoes_advance _ _ _).bind fun _ => (echoes_persist h _ _ _ _).bind fun commits =>
    (echoes_advance _ _ _).bind fun _ => (echoes_file _).bind fun _ =>
    (echoes_tell (by simp [issuedNote])).bind fun _ => ?_
  exact .refl (fun _ => rfl) (fun _ => rfl) (fun _ => rfl)

theorem echoes_weigh (now : Calendar.Instant) (r : Request) (g : Gathered) :
    (weigh { s with sink := .kept } now r g : Course σ Outcome).Echoes
      (weigh { s with sink := .told } now r g) := by
  have habort : (abort .kept r g.context : Course σ Unit).Echoes (abort .told r g.context) :=
    (echoes_advance _ _ _).bind fun _ => (echoes_tell (by simp)).bind fun _ => echoes_throw _
  exact .when habort fun _ => .when (echoes_tell (by simp)) fun _ => echoes_settle h now r g

theorem echoes_course (now : Calendar.Instant) (r : Request) :
    (course { s with sink := .kept } now r : Course σ Outcome).Echoes
      (course { s with sink := .told } now r) := by
  rw [course_eq, course_eq]
  refine (echoes_advance _ _ _).bind fun _ => (echoes_collect h r).bind fun g =>
    (echoes_advance _ _ _).bind fun _ => ?_
  exact .when (echoes_advance _ _ _) fun _ => echoes_weigh h now r g

/-- **What a check tells is what it would keep**, record by record. -/
theorem audit_run_told (now : Calendar.Instant) (r : Request) (store : σ) :
    (run { s with sink := .told } now r store).audit =
      (run { s with sink := .kept } now r store).value.records.map Record.note := by
  obtain ⟨rs, -, hrecords, haudit⟩ := echoes_course h now r { store := store }
  have hkept : (run { s with sink := .kept } now r store).value.records = [] ++ rs := hrecords
  have htold : (run { s with sink := .told } now r store).audit = rs.map Record.note := by
    rw [run, audit_bind]
    exact (List.append_nil _).trans haudit
  rw [hkept, htold, List.nil_append]

end

end SiteSafety.Check

namespace SiteSafety.Cli
open Memory

/-! ### The parties of the command -/

theorem audit_locate (s : Weather.Service) (queries : List String) :
    (s.locate queries).audit = [] := by
  induction queries with
  | nil => rfl
  | cons query rest ih =>
      unfold Weather.Service.locate
      split
      · exact ih
      · exact ih
      · split
        · rfl
        · exact ih

theorem audit_readLines (path : String) (scope : Scope) (number : Nat) (lines : List (List Char)) :
    (readLines path scope number lines).audit = [] := by
  induction lines generalizing number with
  | nil => rfl
  | cons line rest ih =>
      unfold readLines
      split
      · exact ih _
      · simp [ih]
      · exact ih _

theorem audit_load (l : Logbook) (scope : Scope) : (l.load scope).audit = [] := by
  unfold Logbook.load
  dsimp only
  split
  · rfl
  · rfl
  · simp [audit_readLines]

theorem audit_fetch (s : Weather.Service) (now : Calendar.Instant) (location : String) :
    (s.fetch now location).audit = [] := by
  unfold Weather.Service.fetch
  rw [audit_bind, audit_locate, List.nil_append]
  split
  · rfl
  · split <;> rfl

theorem audit_write (l : Logbook) (e : Entry) : (l.write e).audit = [] := by
  unfold Logbook.write
  dsimp only
  split
  · rfl
  · split
    · rfl
    · split <;> split <;> rfl

theorem audit_append (e : Entry) (l : Logbook) : (l.append e).audit = [] := by
  unfold Logbook.append
  split
  · rfl
  · rw [audit_bind, audit_load, List.nil_append]
    split
    · rfl
    · split
      · rfl
      · rw [audit_bind, audit_write, List.nil_append]
        split <;> rfl

/-- No party that the command asks makes notes of the audit, nor do its log files. -/
theorem discreet_command (w : World) (c : Config) (index : Retrieval.Index) (noWeather : Bool) :
    Check.Discreet Logbook (partiesOf w c index noWeather) where
  weather ask hask site := by
    obtain ⟨-, rfl⟩ : _ ∧ _ = ask := by simpa [partiesOf] using hask
    simp [audit_fetch]
  read scope l := audit_load l scope
  append := audit_append

end SiteSafety.Cli
