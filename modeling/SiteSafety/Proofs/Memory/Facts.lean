import Mathlib.Data.List.Nodup
import SiteSafety.Proofs.Decimal.Order
import SiteSafety.Proofs.Memory.Refinement
import SiteSafety.Proofs.Memory.Screening

/-!
# Proofs — Memory — Facts

What a ledger holds that was empty at first and took nothing but commits.  Each of them has its own
policy, candidate and time (`Attempt`); a policy is the default or made from any number as its floor
(`Policy.IsBuilt`).

A commit that is accepted appends its fact to the scope of the candidate, and one that is not
changes nothing.  **So the ledger only grows**: the facts of a scope have different keys, a key that
was committed once is refused from then on, and each fact is that of a candidate whose confidence is
finite and not below the least floor, whatever floor its policy was made from.

* `not_lt_least_floor`: no policy lets a confidence pass that is below the least floor.
* `on_of_isAccepted`, `on_of_not_isAccepted`: one commit.
* `ledger_only_grows`: any number of commits.
-/

namespace SiteSafety.Memory

/-! ### Floors -/

/-- How a policy comes about: as the default, or from any number as its floor. -/
inductive Policy.IsBuilt : Policy → Prop where
  | default : IsBuilt {}
  | new (floor : Float) : IsBuilt (.new floor)

/-- The floor of a policy is a number, and not less than the least floor. -/
theorem Policy.IsBuilt.minConfidence {p : Policy} (h : p.IsBuilt) :
    p.minConfidence.isNaN = false ∧ ¬ p.minConfidence < minConfidenceFloor := by
  cases h with
  | default => decide
  | new floor =>
      unfold Policy.new
      by_cases hfinite : Decimal.isFinite floor = true
      · rw [if_pos hfinite]
        unfold clamp
        split_ifs with hlow hhigh
        · decide
        · decide
        · exact ⟨Decimal.isNaN_of_isFinite hfinite, hlow⟩
      · rw [if_neg hfinite]
        decide

/-- What is not below the floor of a policy is not below the least one. -/
theorem not_lt_least_floor {p : Policy} (hp : p.IsBuilt) {x : Float}
    (hx : Decimal.isFinite x = true) (h : ¬ x < p.minConfidence) : ¬ x < minConfidenceFloor := by
  obtain ⟨hnumber, hfloor⟩ := hp.minConfidence
  intro hlt
  exact h (Decimal.lt_of_lt_of_not_lt (Decimal.isNaN_of_isFinite hx) (by decide) hnumber hlt hfloor)

/-! ### One commit -/

/-- A commit: its policy, its time and its candidate. -/
structure Attempt where
  policy : Policy
  built : policy.IsBuilt
  now : Calendar.Instant
  candidate : Candidate

namespace Attempt

/-- The fact that the candidate tells. -/
def entry (a : Attempt) : Entry := Entry.ofCandidate a.candidate a.now

/-- What comes of a commit to a ledger, and the ledger after it. -/
def on (a : Attempt) (l : Ledger) : Except StoreError Commit × Ledger :=
  (a.policy.commit a.now a.candidate l).value

/-- The candidate passes the screening, and its scope has no fact with its key. -/
structure IsAccepted (a : Attempt) (l : Ledger) : Prop where
  screened : a.policy.screen a.candidate = none
  unknown : ∀ e ∈ l.entries a.candidate.scope, e.key ≠ normalizeKey a.candidate.content

variable {a : Attempt} {l : Ledger}

theorem scope_entry (a : Attempt) : a.entry.scope = a.candidate.scope := rfl

/-- The key of a fact is that of the content as the candidate has it, before it is trimmed. -/
theorem key_entry (a : Attempt) : a.entry.key = normalizeKey a.candidate.content :=
  normalizeKey_trimmed a.candidate.content

theorem has_entry_iff : l.has a.entry.scope a.entry.key = true ↔
    ∃ e ∈ l.entries a.candidate.scope, e.key = normalizeKey a.candidate.content := by
  rw [key_entry, scope_entry]
  simp [Ledger.has]

theorem on_of_isAccepted (h : a.IsAccepted l) :
    a.on l = (.ok (.committed a.entry), l.push a.entry) := by
  have hnew : ¬ l.has a.entry.scope a.entry.key = true := by
    rw [has_entry_iff]
    rintro ⟨e, he, hkey⟩
    exact h.unknown e he hkey
  rw [on, value_commit, h.screened]
  simp only [value_append_ledger, Ledger.append]
  rw [← entry, if_neg hnew]

theorem on_of_not_isAccepted (h : ¬ a.IsAccepted l) :
    ∃ reason, a.on l = (.ok (.rejected reason), l) := by
  rw [on, value_commit]
  cases hscreen : a.policy.screen a.candidate with
  | some reason => exact ⟨reason, rfl⟩
  | none =>
      have hknown : l.has a.entry.scope a.entry.key = true := by
        rw [has_entry_iff]
        by_contra hnone
        exact h ⟨hscreen, fun e he hkey => hnone ⟨e, he, hkey⟩⟩
      simp only [value_append_ledger, Ledger.append]
      rw [← entry, if_pos hknown]
      exact ⟨.duplicate, rfl⟩

theorem committed_iff {e : Entry} :
    (a.on l).1 = .ok (.committed e) ↔ a.IsAccepted l ∧ e = a.entry := by
  by_cases haccepted : a.IsAccepted l
  · rw [on_of_isAccepted haccepted]
    constructor
    · intro h
      cases h
      exact ⟨haccepted, rfl⟩
    · rintro ⟨-, rfl⟩
      rfl
  · obtain ⟨reason, hreason⟩ := on_of_not_isAccepted haccepted
    rw [hreason]
    constructor
    · exact nofun
    · exact fun h => absurd h.1 haccepted

/-- A commit keeps the facts of each scope where they are. -/
theorem entries_grow_on (a : Attempt) (l : Ledger) (s : Scope) :
    l.entries s <+: (a.on l).2.entries s := by
  by_cases h : a.IsAccepted l
  · rw [on_of_isAccepted h, entries_push]
    split
    · exact List.prefix_append _ _
    · exact List.prefix_refl _
  · obtain ⟨reason, hreason⟩ := on_of_not_isAccepted h
    rw [hreason]

end Attempt

/-! ### Any number of commits -/

/-- The ledger after commits, made in order on an empty one. -/
def ledgerAfter (as : List Attempt) : Ledger := as.foldl (fun l a => (a.on l).2) {}

theorem ledgerAfter_concat (as : List Attempt) (a : Attempt) :
    ledgerAfter (as ++ [a]) = (a.on (ledgerAfter as)).2 := by
  rw [ledgerAfter, List.foldl_concat, ← ledgerAfter]

theorem entries_grow (as bs : List Attempt) (s : Scope) :
    (ledgerAfter as).entries s <+: (ledgerAfter (as ++ bs)).entries s := by
  induction bs using List.reverseRecOn with
  | nil => rw [List.append_nil]
  | append_singleton bs b ih =>
      rw [← List.append_assoc, ledgerAfter_concat]
      exact ih.trans (b.entries_grow_on _ s)

/-- The facts of a scope have different keys, and each of them is that of a candidate which passed
its screening. -/
structure Ledger.IsToldBy (l : Ledger) (as : List Attempt) : Prop where
  distinct : ∀ s, ((l.entries s).map Entry.key).Nodup
  told : ∀ s, ∀ e ∈ l.entries s, ∃ a ∈ as, a.entry = e ∧ a.policy.screen a.candidate = none

/-- One commit keeps what holds of the ledger. -/
theorem Ledger.IsToldBy.on {l : Ledger} {as : List Attempt} (h : l.IsToldBy as) (a : Attempt) :
    (a.on l).2.IsToldBy (as ++ [a]) := by
  have holder : ∀ s, ∀ e ∈ l.entries s,
      ∃ b ∈ as ++ [a], b.entry = e ∧ b.policy.screen b.candidate = none := by
    intro s e he
    obtain ⟨b, hb, htold⟩ := h.told s e he
    exact ⟨b, List.mem_append_left _ hb, htold⟩
  by_cases haccepted : a.IsAccepted l
  · rw [Attempt.on_of_isAccepted haccepted]
    constructor
    · intro s
      rw [entries_push]
      split
      next hs =>
        subst hs
        rw [List.map_append, List.map_singleton, ← List.concat_eq_append, List.nodup_concat]
        refine ⟨?_, h.distinct _⟩
        rw [a.key_entry]
        intro hmem
        obtain ⟨e, he, hkey⟩ := List.mem_map.mp hmem
        exact haccepted.unknown e he hkey
      next => exact h.distinct s
    · intro s e he
      rw [entries_push] at he
      split at he
      next =>
        rcases List.mem_append.mp he with hold | hnew
        · exact holder s e hold
        · obtain rfl := List.mem_singleton.mp hnew
          exact ⟨a, List.mem_append_right _ (List.mem_singleton_self a), rfl, haccepted.screened⟩
      next => exact holder s e he
  · obtain ⟨reason, hreason⟩ := Attempt.on_of_not_isAccepted haccepted
    rw [hreason]
    exact ⟨h.distinct, holder⟩

theorem isToldBy_ledgerAfter (as : List Attempt) : (ledgerAfter as).IsToldBy as := by
  induction as using List.reverseRecOn with
  | nil =>
      have hempty : ∀ s, (ledgerAfter []).entries s = [] := by rintro ⟨⟩ <;> rfl
      constructor
      · intro s
        rw [hempty s]
        exact List.nodup_nil
      · intro s e he
        rw [hempty s] at he
        cases he
  | append_singleton as a ih =>
      rw [ledgerAfter_concat]
      exact ih.on a

/-- A key that was committed is refused from then on. -/
theorem not_isAccepted_again {earlier later : List Attempt} {a b : Attempt}
    (h : a.IsAccepted (ledgerAfter earlier)) (hscope : b.candidate.scope = a.candidate.scope)
    (hkey : normalizeKey b.candidate.content = normalizeKey a.candidate.content) :
    ¬ b.IsAccepted (ledgerAfter (earlier ++ a :: later)) := by
  have hafter : a.entry ∈ (ledgerAfter (earlier ++ [a])).entries a.candidate.scope := by
    rw [ledgerAfter_concat, Attempt.on_of_isAccepted h, entries_push, if_pos a.scope_entry.symm]
    exact List.mem_append_right _ (List.mem_singleton_self _)
  have hstill : a.entry ∈ (ledgerAfter (earlier ++ a :: later)).entries a.candidate.scope := by
    rw [List.append_cons]
    exact (entries_grow _ later _).subset hafter
  intro hb
  exact hb.unknown a.entry (hscope ▸ hstill) (a.key_entry.trans hkey.symm)

/-- **The ledger only grows.**  After any commits, the facts of a scope have different keys and are
those of candidates whose confidence is finite and not below the least floor.  A further commit is
accepted exactly when its candidate passes the screening and its scope has no fact with its key;
then the fact is appended to its scope, and otherwise nothing changes.  It is not accepted when one
with its scope and key was before. -/
theorem ledger_only_grows (as : List Attempt) :
    let l := ledgerAfter as
    (∀ s, ((l.entries s).map Entry.key).Nodup) ∧
    (∀ s, ∀ e ∈ l.entries s, ∃ a ∈ as, a.entry = e ∧
      Decimal.isFinite a.candidate.confidence = true ∧
        ¬ a.candidate.confidence < minConfidenceFloor) ∧
    (∀ a : Attempt, ((∃ e, (a.on l).1 = .ok (.committed e)) ↔ a.IsAccepted l) ∧
      (∀ e, (a.on l).1 = .ok (.committed e) → e = a.entry ∧
        ∀ s, (a.on l).2.entries s = if s = e.scope then l.entries s ++ [e] else l.entries s) ∧
      ((∀ e, (a.on l).1 ≠ .ok (.committed e)) →
        (∃ reason, (a.on l).1 = .ok (.rejected reason)) ∧ (a.on l).2 = l)) ∧
    (∀ earlier a later e, as = earlier ++ a :: later →
      (a.on (ledgerAfter earlier)).1 = .ok (.committed e) →
      ∀ b : Attempt, b.candidate.scope = a.candidate.scope →
        normalizeKey b.candidate.content = normalizeKey a.candidate.content →
        ∀ e', (b.on l).1 ≠ .ok (.committed e')) := by
  intro l
  have htold := isToldBy_ledgerAfter as
  refine ⟨htold.distinct, ?_, fun a => ⟨?_, ?_, ?_⟩, ?_⟩
  · intro s e he
    obtain ⟨a, ha, hentry, hscreen⟩ := htold.told s e he
    obtain ⟨-, hfinite, hfloor, -⟩ := screen_eq_none_iff.mp hscreen
    exact ⟨a, ha, hentry, hfinite, not_lt_least_floor a.built hfinite hfloor⟩
  · simp only [Attempt.committed_iff, exists_and_left, exists_eq, and_true]
  · intro e he
    obtain ⟨haccepted, rfl⟩ := Attempt.committed_iff.mp he
    rw [Attempt.on_of_isAccepted haccepted]
    exact ⟨rfl, entries_push l a.entry⟩
  · intro hnone
    have hnot : ¬ a.IsAccepted l := fun h => hnone a.entry (Attempt.committed_iff.mpr ⟨h, rfl⟩)
    obtain ⟨reason, hreason⟩ := Attempt.on_of_not_isAccepted hnot
    rw [hreason]
    exact ⟨⟨reason, rfl⟩, rfl⟩
  · rintro earlier a later e rfl he b hscope hkey e' he'
    exact not_isAccepted_again (Attempt.committed_iff.mp he).1 hscope hkey
      (Attempt.committed_iff.mp he').1

/-! ### The same fact again -/

/-- A fact under a policy whose floor is no number. -/
def siteManager (content : String) : Attempt where
  policy := .new Decimal.notNumber
  built := .new _
  now := dawn
  candidate := ⟨content, .location, 0.70, "stated by the user", .user⟩

/-- The fact is told once more in other letters, and is refused. -/
example : ((ledgerAfter [siteManager "Manages Site Alpha",
    siteManager " manages site-ALPHA. "]).entries .user).map (·.content) =
      ["Manages Site Alpha"] := by decide +kernel

end SiteSafety.Memory
