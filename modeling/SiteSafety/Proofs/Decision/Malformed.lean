import SiteSafety.Proofs.Compliance.Placement
import SiteSafety.Proofs.Decimal.Order
import SiteSafety.Proofs.Decision.Citations

/-!
# Proofs — Decision — Malformed

Snippets that cannot be used have no effect.  Rules are read from well-formed snippets only, but the
citations of a decision are put in the order in which all the snippets name their sources, the
others included.  Where the snippets have different sources, leaving some of them out changes no
place of a source before that of another (`rank_filter_lt_iff`), so **the decision is the same
without the malformed ones**.

* `isMalformed_iff`: which snippets are not well formed.
* `sources_filter`: the citations of a report without the snippets that it does not cite.
* `malformed_snippets_change_nothing`: the decision as a whole.
-/

namespace SiteSafety

/-! ### Malformed snippets -/

namespace Rule

/-- A snippet cannot be used if it is blank, or if its relevance is no number, infinite, or not
between 0 and 1. -/
def Snippet.IsMalformed (s : Snippet) : Prop :=
  Text.isBlankText s.text = true ∨ s.citation.relevance.isNaN = true ∨
    s.citation.relevance.isInf = true ∨ s.citation.relevance < 0.0 ∨ 1.0 < s.citation.relevance

instance (s : Snippet) : Decidable s.IsMalformed :=
  inferInstanceAs (Decidable (_ ∨ _ ∨ _ ∨ _ ∨ _))

variable {s : Snippet}

theorem hasValidRelevance_iff {c : Citation} : c.hasValidRelevance = true ↔
    c.relevance.isNaN = false ∧ c.relevance.isInf = false ∧ ¬ c.relevance < 0.0 ∧
      ¬ 1.0 < c.relevance := by
  have hzero : (0.0 : Float).isNaN = false := rfl
  have hone : (1.0 : Float).isNaN = false := rfl
  simp only [Citation.hasValidRelevance, Bool.and_eq_true, decide_eq_true_eq,
    Decimal.isFinite_iff, and_assoc]
  refine and_congr_right fun hnan => ?_
  rw [← Decimal.not_le_iff hzero hnan, ← Decimal.not_le_iff hnan hone, not_not, not_not]

/-- The malformed snippets are those that are not well formed. -/
theorem isMalformed_iff : s.IsMalformed ↔ s.isWellFormed = false := by
  have hwell : s.isWellFormed = true ↔ ¬ s.IsMalformed := by
    simp only [Snippet.isWellFormed, Bool.and_eq_true, hasValidRelevance_iff, Snippet.IsMalformed,
      not_or, Bool.not_eq_true, Bool.not_eq_true']
  rw [← Bool.not_eq_true, hwell, not_not]

end Rule

/-! ### Citations -/

namespace Decision
open Compliance Rule

variable {ss : List Snippet} {p : Snippet → Bool} {report : Report} {a b c : Citation}

/-- A snippet of the kept ones names the source of a citation. -/
def NamedBy (ss : List Snippet) (p : Snippet → Bool) (c : Citation) : Prop :=
  ∃ s ∈ ss, p s = true ∧ s.citation.sourceIndex = c.sourceIndex

/-- Where the sources differ, the snippets that are left out name none of the sources named. -/
theorem NamedBy.kept (hc : NamedBy ss p c)
    (hsources : (ss.map (·.citation.sourceIndex)).Nodup) {s : Snippet} (hs : s ∈ ss)
    (h : decide (s.citation.sourceIndex = c.sourceIndex) = true) : p s = true := by
  obtain ⟨named, hnamed, hp, hindex⟩ := hc
  have hsame : named.citation.sourceIndex = s.citation.sourceIndex :=
    hindex.trans (of_decide_eq_true h).symm
  rwa [← List.inj_on_of_nodup_map hsources hnamed hs hsame]

theorem rank_filter_lt_iff (hsources : (ss.map (·.citation.sourceIndex)).Nodup)
    (ha : NamedBy ss p a) (hb : NamedBy ss p b) :
    rank (ss.filter p) a < rank (ss.filter p) b ↔ rank ss a < rank ss b :=
  findIdx_filter_lt_iff (fun _ => ha.kept hsources) (fun _ => hb.kept hsources)

/-- The citations of a report are the same without the snippets that name none of them. -/
theorem sources_filter (hsources : (ss.map (·.citation.sourceIndex)).Nodup)
    (hnamed : ∀ c ∈ referenced report, NamedBy ss p c) :
    sources (ss.filter p) report = sources ss report := by
  -- both sides sort the same citations, in orders that agree on them
  rw [sources, ← List.map_id (List.mergeSort _ _), List.map_mergeSort, List.map_id, sources]
  intro a ha b hb
  have hkept := (standsFor_onePerSource (referenced report)).subset
  have hab := rank_filter_lt_iff hsources (hnamed a (hkept ha)) (hnamed b (hkept hb))
  have hba := rank_filter_lt_iff hsources (hnamed b (hkept hb)) (hnamed a (hkept ha))
  rw [id, id, Bool.eq_iff_iff, citedBefore_iff, citedBefore_iff]
  omega

/-! ### Decisions -/

variable {maxSurfaced : Nat} {i : Input} {now : Calendar.Instant} {t : Threshold}

theorem extract_filter (h : ∀ s ∈ ss, s.isWellFormed = true → p s = true) :
    extract (ss.filter p) = extract ss := by
  rw [extract, List.filter_filter, extract]
  congr 1
  refine List.filter_congr fun s hs => ?_
  cases hs : s.isWellFormed <;> simp_all

/-- What a decision refers to is a well-formed snippet. -/
theorem namedBy_of_mem_referenced (h : ∀ s ∈ i.snippets, s.isWellFormed = true → p s = true)
    (hc : c ∈ referenced i.report) : NamedBy i.snippets p c := by
  obtain ⟨t, ht, rfl⟩ := (mem_referenced_iff 0 ⟨0⟩).mp hc
  obtain ⟨s, hs, hwell, hts⟩ := mem_extract_thresholds.mp (mem_extract_of_judged ht)
  refine ⟨s, hs, h s hs hwell, ?_⟩
  rw [(Clause.of_mem_thresholds hts).1]

/-- Where the sources of the snippets differ, some that are not well formed may be left out. -/
theorem make_filter (hsources : (i.snippets.map (·.citation.sourceIndex)).Nodup)
    (h : ∀ s ∈ i.snippets, s.isWellFormed = true → p s = true) :
    make maxSurfaced { i with snippets := i.snippets.filter p } now = make maxSurfaced i now := by
  have hextract := extract_filter h
  have hcitations : sources (i.snippets.filter p) i.report = sources i.snippets i.report :=
    sources_filter hsources fun c => namedBy_of_mem_referenced h
  -- the report is made from the extraction alone, and only the citations look at all the snippets
  rw [Input.report] at hcitations
  simp only [make, synthesize, hextract, hcitations]

/-- **Malformed snippets have no effect.**  Where the sources of the snippets differ, the decision
on them is in all its parts the decision on those that are not malformed. -/
theorem malformed_snippets_change_nothing (maxSurfaced : Nat) (i : Input) (now : Calendar.Instant)
    (hsources : (i.snippets.map (·.citation.sourceIndex)).Nodup) :
    make maxSurfaced { i with snippets := i.snippets.filter fun s => ¬ s.IsMalformed } now =
      make maxSurfaced i now := by
  refine make_filter hsources fun s _ hwell => decide_eq_true fun hmalformed => ?_
  rw [isMalformed_iff, hwell] at hmalformed
  cases hmalformed

/-- A blank snippet and one whose relevance is no number around a rule about wind, and a rule about
rain behind them. -/
def litteredLift : Input where
  site := "Alpha"
  operation := "lift"
  snippets := [⟨" ", ⟨3, "blank.md", "", 1.0⟩⟩, gustRule,
    ⟨"No lifting in fog.", ⟨4, "fog.md", "", 0.0 / 0.0⟩⟩, rainRule]
  readings := [⟨.precipitation, 9.0, "mm", ⟨0⟩⟩, ⟨.windSpeed, 30.0, "mph", ⟨0⟩⟩]

/-- Without the two that cannot be used, the lift is blocked as it is with them. -/
theorem litter_changes_nothing :
    (litteredLift.snippets.filter fun s => ¬ s.IsMalformed).map (·.citation.sourceIndex) = [1, 2] ∧
    make 5 { litteredLift with
      snippets := litteredLift.snippets.filter fun s => ¬ s.IsMalformed } ⟨0⟩ =
        make 5 litteredLift ⟨0⟩ ∧
    (make 5 litteredLift ⟨0⟩).violations.length = 2 :=
  ⟨by decide +kernel, malformed_snippets_change_nothing 5 litteredLift ⟨0⟩ (by decide),
    by decide +kernel⟩

end Decision
end SiteSafety
