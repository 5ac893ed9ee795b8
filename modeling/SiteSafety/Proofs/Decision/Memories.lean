import Mathlib.Data.List.Induction
import SiteSafety.Proofs.Decision.Monotone
import SiteSafety.Proofs.Firsts
import SiteSafety.Proofs.Text.Runs

/-!
# Proofs — Decision — Memories

What a decision does with memory.  Of the remembered facts it shows **every site issue** and the
first few of the others that share a keyword with the site or the operation.  Site issues do not
count among these few, wherever they stand, and no fact ends the search: the facts behind some
others are selected by themselves, with as many fewer to show as the others are relevant
(`surfaceFrom_append`).  Of the new facts it hands on the first of each category, and behind them a
pause, where operations are blocked and none of the new facts is a decision.

* `isRelevant_keywords_iff`: which facts share a keyword with a text.
* `surfaceFrom_eq_filter`: which remembered facts are shown, by their places.
* `toRemember_eq`, `pairwise_toRemember`: which new facts are handed on.
* `memory_selected_without_loss`: both for a decision.
-/

namespace SiteSafety.Decision
open Compliance Memory

/-! ### Keywords -/

/-- A keyword is a maximal run of letters and numerals in lower case, if it is long enough and not
common. -/
theorem mem_keywords_iff_isRunAt {w text : String} : w ∈ keywords text ↔
    (∃ i run, Text.IsRunAt Text.isAlphanumeric text.toList i run ∧
      String.ofList (Text.lower run) = w) ∧ 1 < w.utf8ByteSize ∧ w ∉ commonWords := by
  have hruns (run : List Char) : run ∈ contentWords text.toList ↔
      ∃ i, Text.IsRunAt Text.isAlphanumeric text.toList i run :=
    (Text.isRuns_fields Text.isAlphanumeric text.toList).mem_iff
  rw [mem_keywords_iff]
  simp only [hruns]
  refine and_congr_left fun _ => ⟨?_, ?_⟩
  · rintro ⟨run, ⟨i, hi⟩, hw⟩
    exact ⟨i, run, hi, hw⟩
  · rintro ⟨i, run, hi, hw⟩
    exact ⟨run, ⟨i, hi⟩, hw⟩

/-! ### Remembered facts -/

/-- A fact other than a site issue shares a keyword with a query. -/
def IsRelevant (query : List String) (e : Entry) : Prop :=
  e.category ≠ .siteIssue ∧ ∃ w ∈ keywords e.content, w ∈ query

instance (query : List String) (e : Entry) : Decidable (IsRelevant query e) :=
  inferInstanceAs (Decidable (_ ∧ ∃ w ∈ keywords e.content, w ∈ query))

/-- **A fact is relevant to a text** when the two have a run of letters and numerals in common but
for its case, one that is long enough and not common. -/
theorem isRelevant_keywords_iff {text : String} {e : Entry} : IsRelevant (keywords text) e ↔
    e.category ≠ .siteIssue ∧ ∃ i j run run',
      Text.IsRunAt Text.isAlphanumeric e.content.toList i run ∧
      Text.IsRunAt Text.isAlphanumeric text.toList j run' ∧
      Text.lower run = Text.lower run' ∧
      1 < (String.ofList (Text.lower run)).utf8ByteSize ∧
      String.ofList (Text.lower run) ∉ commonWords := by
  refine and_congr_right fun _ => ?_
  simp only [mem_keywords_iff_isRunAt]
  constructor
  · rintro ⟨_, ⟨⟨i, run, hrun, rfl⟩, hlong, hrare⟩, ⟨j, run', hrun', hsame⟩, -, -⟩
    exact ⟨i, j, run, run', hrun, hrun', (String.ofList_injective hsame).symm, hlong, hrare⟩
  · rintro ⟨i, j, run, run', hrun, hrun', hsame, hlong, hrare⟩
    exact ⟨_, ⟨⟨i, run, hrun, rfl⟩, hlong, hrare⟩, ⟨j, run', hrun', by rw [hsame]⟩, hlong, hrare⟩

/-- A fact is shown if it is a site issue, or if it is relevant and fewer than `n` relevant ones
stand before it. -/
def IsShown (query : List String) (n before : Nat) (e : Entry) : Prop :=
  e.category = .siteIssue ∨ IsRelevant query e ∧ before < n

instance (query : List String) (n before : Nat) (e : Entry) :
    Decidable (IsShown query n before e) :=
  inferInstanceAs (Decidable (_ ∨ _))

variable {query : List String}

theorem sharesKeyword_iff {content : String} :
    sharesKeyword query content = true ↔ ∃ w ∈ keywords content, w ∈ query := by
  simp [sharesKeyword]

/-- A fact is shown or not by itself, and there is one fewer to show behind a relevant one. -/
theorem surfaceFrom_cons (query : List String) (n : Nat) (e : Entry) (es : List Entry) :
    surfaceFrom query n (e :: es) = (if IsShown query n 0 e then [e] else []) ++
      surfaceFrom query (n - if IsRelevant query e then 1 else 0) es := by
  by_cases hissue : e.category = .siteIssue
  · simp [surfaceFrom, IsShown, IsRelevant, hissue]
  · by_cases hshares : sharesKeyword query e.content = true
    · have hrelevant : IsRelevant query e := ⟨hissue, sharesKeyword_iff.mp hshares⟩
      cases n <;> simp [surfaceFrom, IsShown, hissue, hshares, hrelevant]
    · have hnot : ¬ IsRelevant query e := fun h => hshares (sharesKeyword_iff.mpr h.2)
      cases n <;> simp [surfaceFrom, IsShown, hissue, hshares, hnot]

/-- The facts behind others are selected with as many fewer to show as the others are relevant. -/
theorem surfaceFrom_append (n : Nat) (es fs : List Entry) :
    surfaceFrom query n (es ++ fs) =
      surfaceFrom query n es ++ surfaceFrom query (n - es.countP (IsRelevant query)) fs := by
  induction es generalizing n with
  | nil => rfl
  | cons e es ih =>
      rw [List.cons_append, surfaceFrom_cons, ih, surfaceFrom_cons, List.append_assoc, Nat.sub_sub,
        List.countP_cons, Nat.add_comm (es.countP _)]
      simp only [decide_eq_true_eq]

theorem surfaceFrom_concat (n : Nat) (es : List Entry) (e : Entry) :
    surfaceFrom query n (es ++ [e]) = surfaceFrom query n es ++
      if IsShown query n (es.countP (IsRelevant query)) e then [e] else [] := by
  have hshown (before : Nat) : IsShown query (n - before) 0 e ↔ IsShown query n before e := by
    simp only [IsShown, Nat.sub_pos_iff_lt]
  rw [surfaceFrom_append, surfaceFrom_cons, surfaceFrom, List.append_nil]
  simp only [hshown]

/-- A fact is shown as its kind and the number of the relevant ones before it say. -/
theorem surfaceFrom_eq_filter (n : Nat) (es : List Entry) :
    surfaceFrom query n es = (es.zipIdx.filter fun p =>
      IsShown query n ((es.take p.2).countP (IsRelevant query)) p.1).map (·.1) := by
  induction es using List.reverseRecOn with
  | nil => rfl
  | append_singleton es e ih =>
      have hbefore : ∀ p ∈ es.zipIdx, (es ++ [e]).take p.2 = es.take p.2 := by
        intro p hp
        exact List.take_append_of_le_length (Nat.le_of_lt (List.snd_lt_of_mem_zipIdx hp))
      rw [surfaceFrom_concat, ih, List.zipIdx_append, List.filter_append, List.map_append]
      congr 2
      · refine List.filter_congr fun p hp => ?_
        rw [hbefore p hp]
      · simp [List.filter_cons, apply_ite (List.map _)]

/-- The facts that are shown are remembered facts in their order. -/
theorem surfaceFrom_sublist (n : Nat) (es : List Entry) : (surfaceFrom query n es).Sublist es := by
  rw [surfaceFrom_eq_filter]
  refine (List.filter_sublist.map _).trans ?_
  rw [List.zipIdx_map_fst]

theorem filter_siteIssue_surfaceFrom (n : Nat) (es : List Entry) :
    (surfaceFrom query n es).filter (·.category = .siteIssue) =
      es.filter (·.category = .siteIssue) := by
  induction es generalizing n with
  | nil => rfl
  | cons e es ih =>
      rw [surfaceFrom_cons, List.filter_append, ih, List.filter_cons]
      by_cases hissue : e.category = .siteIssue
      · simp [IsShown, hissue]
      · by_cases hshown : IsShown query n 0 e <;> simp [hshown, hissue]

theorem filter_other_surfaceFrom (n : Nat) (es : List Entry) :
    (surfaceFrom query n es).filter (·.category ≠ .siteIssue) =
      (es.filter (IsRelevant query)).take n := by
  induction es generalizing n with
  | nil => simp [surfaceFrom]
  | cons e es ih =>
      rw [surfaceFrom_cons, List.filter_append, ih, List.filter_cons]
      by_cases hrelevant : IsRelevant query e
      · cases n <;> simp [IsShown, hrelevant, hrelevant.1]
      · by_cases hissue : e.category = .siteIssue <;> simp [IsShown, hissue, hrelevant]

/-- One more may be shown besides the site issue, and it is the first fact about cranes. -/
example : (surfaceFrom ["crane"] 1 [
    ⟨"Lunch is at noon.", .other, .user, ⟨0⟩, ""⟩, ⟨"The crane is new.", .other, .user, ⟨1⟩, ""⟩,
    ⟨"A crane is red.", .other, .user, ⟨2⟩, ""⟩, ⟨"Soft ground.", .siteIssue, .user, ⟨3⟩, ""⟩]).map
      (·.createdAt.seconds) = [1, 3] := by
  decide +kernel

/-! ### New facts -/

variable {cs : List Candidate} {violations : List Result} {k : Category}

theorem isFirsts_onePerCategory (cs : List Candidate) :
    IsFirsts Candidate.category cs (onePerCategory cs) :=
  isFirsts_foldl cs

theorem any_onePerCategory_iff :
    (onePerCategory cs).any (·.category = k) = true ↔ ∃ c ∈ cs, c.category = k := by
  simp only [List.any_eq_true, decide_eq_true_eq]
  constructor
  · rintro ⟨c, hc, hk⟩
    exact ⟨c, (isFirsts_onePerCategory cs).mem hc, hk⟩
  · rintro ⟨c, hc, hk⟩
    obtain ⟨first, hfirst, hsame⟩ := (isFirsts_onePerCategory cs).covers c hc
    exact ⟨first, hfirst, hsame.trans hk⟩

/-- A pause is added exactly where something is violated and no new fact is a decision. -/
theorem toRemember_eq (site operation : String) (cs : List Candidate) (violations : List Result) :
    toRemember site operation cs violations = onePerCategory cs ++
      if violations ≠ [] ∧ ∀ c ∈ cs, c.category ≠ .decisionLog
      then [pause site operation violations] else [] := by
  rw [toRemember]
  split
  next hnone =>
      rw [Bool.or_eq_true, List.isEmpty_iff, any_onePerCategory_iff] at hnone
      rw [if_neg, List.append_nil]
      rintro ⟨hviolated, hundecided⟩
      obtain hempty | ⟨c, hc, hlog⟩ := hnone
      · exact hviolated hempty
      · exact hundecided c hc hlog
  next hadd =>
      rw [Bool.or_eq_true, List.isEmpty_iff, any_onePerCategory_iff, not_or] at hadd
      rw [if_pos ⟨hadd.1, fun c hc hlog => hadd.2 ⟨c, hc, hlog⟩⟩]

/-- No two of the facts handed on have the same category. -/
theorem pairwise_toRemember (site operation : String) (cs : List Candidate)
    (violations : List Result) :
    (toRemember site operation cs violations).Pairwise fun a b => a.category ≠ b.category := by
  have hkept := isFirsts_onePerCategory cs
  rw [toRemember_eq]
  split
  next hadd =>
      refine List.pairwise_append.mpr ⟨hkept.distinct, List.pairwise_singleton _ _, ?_⟩
      intro c hc p hp
      obtain rfl := List.mem_singleton.mp hp
      exact hadd.2 c (hkept.mem hc)
  next =>
      rw [List.append_nil]
      exact hkept.distinct

theorem exists_decision_mem_toRemember (site operation : String) (h : violations ≠ []) :
    ∃ c ∈ toRemember site operation cs violations, c.category = .decisionLog := by
  rw [toRemember_eq]
  by_cases hundecided : ∀ c ∈ cs, c.category ≠ .decisionLog
  · rw [if_pos ⟨h, hundecided⟩]
    exact ⟨_, List.mem_append_right _ (List.mem_singleton_self _), rfl⟩
  · obtain ⟨c, hc, hlog⟩ : ∃ c ∈ cs, c.category = .decisionLog := by simpa using hundecided
    obtain ⟨first, hfirst, hsame⟩ := (isFirsts_onePerCategory cs).covers c hc
    exact ⟨first, List.mem_append_left _ hfirst, hsame.trans hlog⟩

/-! ### Decisions -/

/-- **Memory is selected without loss.**  The remembered facts that a decision shows stand in their
order; every site issue is among them, and of the others the first ones that share a keyword with
the site or the operation, as many as may be shown.  The new facts that it hands on are the first of
their categories in the order in which they were given, with a pause behind them exactly where a
threshold is violated and none of the new facts is a decision.  So they have different categories,
and a decision is among them wherever a threshold is violated. -/
theorem memory_selected_without_loss (maxSurfaced : Nat) (i : Input) (now : Calendar.Instant) :
    let d := make maxSurfaced i now
    let query := keywords (i.site ++ " " ++ i.operation)
    d.surfaced.Sublist i.memories ∧
    d.surfaced.filter (·.category = .siteIssue) = i.memories.filter (·.category = .siteIssue) ∧
    d.surfaced.filter (·.category ≠ .siteIssue) =
      (i.memories.filter (IsRelevant query)).take maxSurfaced ∧
    d.surfaced = (i.memories.zipIdx.filter fun p => p.1.category = .siteIssue ∨
      IsRelevant query p.1 ∧
        (i.memories.take p.2).countP (IsRelevant query) < maxSurfaced).map (·.1) ∧
    (∃ kept labels, IsFirsts Candidate.category i.candidates kept ∧
      IsFirsts id (d.violations.map (·.threshold.metric.label)) labels ∧
      d.newMemories = kept ++
        if d.violations ≠ [] ∧ ∀ c ∈ i.candidates, c.category ≠ .decisionLog then
          [{ content := s!"Safety pause at {i.site} for {i.operation} due to "
              ++ String.intercalate ", " labels
             category := .decisionLog
             confidence := pauseConfidence
             reasoning := "operation blocked by threshold violations"
             scope := .organization }]
        else []) ∧
    d.newMemories.Pairwise (fun a b => a.category ≠ b.category) ∧
    (d.violations ≠ [] → ∃ c ∈ d.newMemories, c.category = .decisionLog) := by
  intro d query
  refine ⟨surfaceFrom_sublist _ _, filter_siteIssue_surfaceFrom _ _, filter_other_surfaceFrom _ _,
    surfaceFrom_eq_filter _ _, ⟨onePerCategory i.candidates,
      (d.violations.map (·.threshold.metric.label)).eraseDups, isFirsts_onePerCategory _,
      isFirsts_eraseDups _, ?_⟩, pairwise_toRemember _ _ _ _, exists_decision_mem_toRemember _ _⟩
  exact toRemember_eq i.site i.operation i.candidates d.violations

end SiteSafety.Decision
