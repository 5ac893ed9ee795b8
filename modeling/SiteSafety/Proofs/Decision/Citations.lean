import Mathlib.Data.List.Nodup
import SiteSafety.Proofs.Check.Evidence
import SiteSafety.Proofs.Compliance.Placement
import SiteSafety.Proofs.Decision.Mentions
import SiteSafety.Proofs.Decision.Monotone
import SiteSafety.Proofs.Firsts

/-!
# Proofs — Decision — Citations

What a decision cites.  The citations are those of the thresholds that were judged, one for each
source, and **every judged threshold is cited, and nothing else**.  They stand in the order in which
the snippets name their sources, and two of them never share a place in it.

A source is known by its index.  Where two snippets have the same index, a threshold of the second
may be cited by the citation of the first.  **Where the indices of the snippets differ, a threshold
is cited by its own citation**, and the marker that its line puts behind it leads there and nowhere
else.  A line quotes rules as they are written, so a marker within the quotation may lead anywhere.

* `standsFor_sources`, `rank_pairwise_sources`: the citations of any report.
* `every_judged_rule_is_cited`: the citations of a decision.
* `quoted_marker_leads_nowhere`: a rule that quotes the marker of a source that is not cited.
-/

namespace SiteSafety.Decision
open Compliance Rule

/-! ### One citation for each source -/

/-- Some of the citations stand for all of them: no two have the same source, and each source has
one. -/
structure StandsFor (kept cs : List Citation) : Prop where
  distinct : kept.Pairwise fun a b => a.sourceIndex ≠ b.sourceIndex
  subset : kept ⊆ cs
  covers : ∀ c ∈ cs, ∃ k ∈ kept, k.sourceIndex = c.sourceIndex

variable {kept cs : List Citation}

theorem standsFor_onePerSource (cs : List Citation) : StandsFor (onePerSource cs) cs := by
  have hfirsts : IsFirsts Citation.sourceIndex cs (onePerSource cs) := isFirsts_foldl cs
  exact ⟨hfirsts.distinct, fun _ hk => hfirsts.mem hk, hfirsts.covers⟩

theorem StandsFor.perm {kept' : List Citation} (h : StandsFor kept cs) (hperm : kept'.Perm kept) :
    StandsFor kept' cs where
  distinct := (hperm.pairwise_iff fun h => h.symm).mpr h.distinct
  subset := fun _ hk => h.subset (hperm.mem_iff.mp hk)
  covers c hc := by
    obtain ⟨k, hk, heq⟩ := h.covers c hc
    exact ⟨k, hperm.mem_iff.mpr hk, heq⟩

/-! ### The order of the citations -/

variable {ss : List Snippet} {report : Report} {a b c : Citation}

theorem standsFor_sources (ss : List Snippet) (report : Report) :
    StandsFor (sources ss report) (referenced report) :=
  (standsFor_onePerSource _).perm (List.mergeSort_perm _ _)

theorem citedBefore_iff : citedBefore ss a b = true ↔
    rank ss a < rank ss b ∨ rank ss a = rank ss b ∧ a.sourceIndex ≤ b.sourceIndex := by
  simp [citedBefore]

theorem citedBefore_pairwise_sources (ss : List Snippet) (report : Report) :
    (sources ss report).Pairwise fun a b => citedBefore ss a b = true := by
  refine List.pairwise_mergeSort ?_ ?_ _
  · intro a b c hab hbc
    rw [citedBefore_iff] at hab hbc ⊢
    omega
  · intro a b
    rw [Bool.or_eq_true_iff, citedBefore_iff, citedBefore_iff]
    omega

/-- A source has a place among the snippets if one of them names it. -/
theorem rank_lt_iff : rank ss c < ss.length ↔ ∃ s ∈ ss, s.citation.sourceIndex = c.sourceIndex := by
  simp [rank, List.findIdx_lt_length]

/-- Only one source has a given place. -/
theorem source_eq_of_rank_eq (ha : rank ss a < ss.length) (h : rank ss a = rank ss b) :
    a.sourceIndex = b.sourceIndex := by
  have hat (c : Citation) (hc : rank ss c < ss.length) :
      (ss[rank ss c]).citation.sourceIndex = c.sourceIndex :=
    of_decide_eq_true (List.findIdx_getElem (w := hc))
  rw [← hat a ha, ← hat b (h ▸ ha)]
  simp only [h]

/-- The citations of a report stand in the order of the snippets, if the snippets name them. -/
theorem rank_pairwise_sources (h : ∀ c ∈ referenced report, rank ss c < ss.length) :
    (sources ss report).Pairwise fun a b => rank ss a < rank ss b := by
  have hkept := standsFor_sources ss report
  refine (hkept.distinct.and (citedBefore_pairwise_sources ss report)).imp_of_mem ?_
  rintro a b ha - ⟨hne, hbefore⟩
  rcases citedBefore_iff.mp hbefore with hlt | ⟨heq, -⟩
  · exact hlt
  · exact absurd (source_eq_of_rank_eq (h a (hkept.subset ha)) heq) hne

/-! ### Judged thresholds -/

variable {maxSurfaced : Nat} {i : Input} {now : Calendar.Instant} {t : Threshold}

/-- A decision gives a result of the threshold, or says why there is none. -/
def Judged (d : SiteSafety.Decision) (t : Threshold) : Prop :=
  (∃ r ∈ d.results, r.threshold = t) ∨ ∃ u ∈ d.unresolved, u.threshold = t

/-- The citations that a decision refers to are those of the judged thresholds. -/
theorem mem_referenced_iff (maxSurfaced : Nat) (now : Calendar.Instant) :
    c ∈ referenced i.report ↔ ∃ t, Judged (make maxSurfaced i now) t ∧ t.citation = c := by
  rw [referenced, List.mem_append, List.mem_map, List.mem_map]
  constructor
  · rintro (⟨r, hr, rfl⟩ | ⟨u, hu, rfl⟩)
    · exact ⟨r.threshold, .inl ⟨r, hr, rfl⟩, rfl⟩
    · exact ⟨u.threshold, .inr ⟨u, hu, rfl⟩, rfl⟩
  · rintro ⟨t, ⟨r, hr, rfl⟩ | ⟨u, hu, rfl⟩, rfl⟩
    · exact .inl ⟨r, hr, rfl⟩
    · exact .inr ⟨u, hu, rfl⟩

/-- A judged threshold was extracted. -/
theorem mem_extract_of_judged (h : Judged (make maxSurfaced i now) t) :
    t ∈ (extract i.snippets).thresholds := by
  rcases h with ⟨r, hr, rfl⟩ | ⟨u, hu, rfl⟩
  · exact (resolves_of_mem_results hr).1
  · obtain ⟨t, ht, hunresolved⟩ := List.mem_filterMap.mp hu
    obtain ⟨reason, -, rfl⟩ := Option.map_eq_some_iff.mp hunresolved
    exact ht

/-- A judged threshold was read from a snippet. -/
theorem exists_snippet_of_judged (h : Judged (make maxSurfaced i now) t) :
    ∃ s ∈ i.snippets, t ∈ (Clause.ofSnippet s).thresholds := by
  obtain ⟨s, hs, -, ht⟩ := mem_extract_thresholds.mp (mem_extract_of_judged h)
  exact ⟨s, hs, ht⟩

theorem rank_lt_of_mem_referenced (h : c ∈ referenced i.report) :
    rank i.snippets c < i.snippets.length := by
  obtain ⟨t, ht, rfl⟩ := (mem_referenced_iff 0 ⟨0⟩).mp h
  obtain ⟨s, hs, hts⟩ := exists_snippet_of_judged ht
  rw [rank_lt_iff, (Clause.of_mem_thresholds hts).1]
  exact ⟨s, hs, rfl⟩

/-- Where the indices of the snippets differ, judged thresholds of one source have one citation. -/
theorem citation_eq_of_source_eq {t' : Threshold}
    (hsnippets : (i.snippets.map (·.citation.sourceIndex)).Nodup)
    (ht : Judged (make maxSurfaced i now) t) (ht' : Judged (make maxSurfaced i now) t')
    (h : t.citation.sourceIndex = t'.citation.sourceIndex) : t.citation = t'.citation := by
  obtain ⟨s, hs, hts⟩ := exists_snippet_of_judged ht
  obtain ⟨s', hs', hts'⟩ := exists_snippet_of_judged ht'
  rw [(Clause.of_mem_thresholds hts).1, (Clause.of_mem_thresholds hts').1] at h ⊢
  rw [List.inj_on_of_nodup_map hsnippets hs hs' h]

/-- The account has a line for each result and for each unresolved threshold, behind the verdict. -/
theorem account_lines (site operation : String) (x : Clause.Extraction) (report : Report)
    (surfaced : List Memory.Entry) (degradations : List Degradation) :
    ∃ first rest, account site operation x report surfaced degradations =
      String.intercalate "\n" (first :: (report.results.map resultText ++
        report.unresolved.map unresolvedText ++ rest)) := by
  have hparts : ∀ (first : String) (as bs cs ds es fs : List String),
      [first] ++ as ++ bs ++ cs ++ ds ++ es ++ fs =
        first :: (as ++ bs ++ (cs ++ ds ++ es ++ fs)) := by
    simp
  exact ⟨_, _, congrArg (String.intercalate "\n") (hparts _ _ _ _ _ _ _)⟩

/-- **Every judged rule is cited, and nothing else.**  The citations of a decision have different
sources, are those of judged thresholds, with the source of each of them, and stand in the order in
which the snippets first name the sources.  Where the indices of the snippets differ, the citation
of a judged threshold is one of them, and the only one with its marker.  The account has a line for
each result and for each unresolved threshold, which puts the marker of its threshold at its end or
before the reason, and mentions no other source but those in what it quotes. -/
theorem every_judged_rule_is_cited (maxSurfaced : Nat) (i : Input) (now : Calendar.Instant) :
    let d := make maxSurfaced i now
    d.citations.Pairwise (fun a b => a.sourceIndex ≠ b.sourceIndex) ∧
    (∀ t, Judged d t → d.cites t.citation = true) ∧
    (∀ c ∈ d.citations, ∃ t, Judged d t ∧ t.citation = c) ∧
    (d.citations.Pairwise (fun a b => rank i.snippets a < rank i.snippets b) ∧
      ∀ c ∈ d.citations, rank i.snippets c < i.snippets.length) ∧
    ((i.snippets.map (·.citation.sourceIndex)).Nodup → ∀ t, Judged d t →
      t.citation ∈ d.citations ∧
        ∀ c ∈ d.citations, c.marker = t.citation.marker → c = t.citation) ∧
    (∃ first rest, d.reasoning = String.intercalate "\n"
      (first :: (d.results.map resultText ++ d.unresolved.map unresolvedText ++ rest))) ∧
    (∀ r ∈ d.results, r.threshold.citation.marker.toList <:+ (resultText r).toList ∧
      ∀ c, Mentions (resultText r) c ↔ c.sourceIndex = r.threshold.citation.sourceIndex ∨
        r.satisfied = false ∧ Mentions r.threshold.clause c) ∧
    (∀ u ∈ d.unresolved,
      (u.threshold.citation.marker ++ ": " ++ u.reason).toList <:+ (unresolvedText u).toList ∧
      ∀ c, Mentions (unresolvedText u) c ↔ c.sourceIndex = u.threshold.citation.sourceIndex ∨
        Mentions u.threshold.clause c ∨ Mentions u.reason c) := by
  intro d
  have hkept : StandsFor d.citations (referenced i.report) := standsFor_sources _ _
  have hcited : ∀ t, Judged d t → ∃ c ∈ d.citations, c.sourceIndex = t.citation.sourceIndex :=
    fun t ht => hkept.covers _ ((mem_referenced_iff maxSurfaced now).mpr ⟨t, ht, rfl⟩)
  have hjudged : ∀ c ∈ d.citations, ∃ t, Judged d t ∧ t.citation = c :=
    fun c hc => (mem_referenced_iff maxSurfaced now).mp (hkept.subset hc)
  refine ⟨hkept.distinct, ?_, hjudged, ⟨?_, ?_⟩, ?_, ?_, ?_, ?_⟩
  · intro t ht
    obtain ⟨c, hc, heq⟩ := hcited t ht
    exact List.any_eq_true.mpr ⟨c, hc, decide_eq_true heq⟩
  · exact rank_pairwise_sources fun c => rank_lt_of_mem_referenced
  · exact fun c hc => rank_lt_of_mem_referenced (hkept.subset hc)
  · intro hsnippets t ht
    have honly : ∀ c ∈ d.citations, c.sourceIndex = t.citation.sourceIndex → c = t.citation := by
      intro c hc heq
      obtain ⟨t', ht', rfl⟩ := hjudged c hc
      exact citation_eq_of_source_eq hsnippets ht' ht heq
    obtain ⟨c, hc, heq⟩ := hcited t ht
    refine ⟨honly c hc heq ▸ hc, fun c' hc' hmarker => ?_⟩
    exact honly c' hc' (marker_eq_iff.mp hmarker)
  · exact account_lines i.site i.operation (extract i.snippets) i.report _ i.degradations
  · intro r hr
    obtain ⟨s, -, ht⟩ := exists_snippet_of_judged (.inl ⟨r, hr, rfl⟩)
    obtain ⟨-, hmetric, hunit⟩ := Clause.of_mem_thresholds ht
    exact ⟨marker_suffix_resultText hmetric hunit, fun c => mentions_resultText_iff hmetric hunit⟩
  · exact fun u _ => ⟨marker_suffix_unresolvedText u, fun c => mentions_unresolvedText_iff⟩

/-- A rule on the wind that quotes the marker of another source, and a reading above its limit. -/
def quotingLift : Input where
  site := "Alpha"
  operation := "lift"
  snippets := [⟨"No lifting in wind above [Source 2] mph", ⟨1, "wind.md", "", 1.0⟩⟩,
    ⟨"Wear a helmet at all times.", ⟨2, "helmet.md", "", 0.5⟩⟩]
  readings := [⟨.windSpeed, 25.0, "mph", ⟨0⟩⟩]

/-- **A marker in a quoted clause may lead nowhere.**  The indices of the snippets differ, and the
line of a result mentions a source other than its own, which the decision does not cite. -/
theorem quoted_marker_leads_nowhere :
    let d := make 5 quotingLift ⟨0⟩
    (quotingLift.snippets.map (·.citation.sourceIndex)).Nodup ∧
      ∃ r ∈ d.results, ∃ s ∈ quotingLift.snippets, Mentions (resultText r) s.citation ∧
        s.citation.sourceIndex ≠ r.threshold.citation.sourceIndex ∧
        d.cites s.citation = false := by
  intro d
  have hresult : ∃ r ∈ d.results, r.threshold.metric = .windSpeed ∧ r.threshold.unit = "mph" ∧
      r.satisfied = false ∧ r.threshold.clause = "wind above [Source 2] mph" ∧
      r.threshold.citation.sourceIndex = 1 := by decide +kernel
  obtain ⟨r, hr, hmetric, hunit, hviolated, hclause, hsource⟩ := hresult
  have hquoted : Mentions r.threshold.clause ⟨2, "helmet.md", "", 0.5⟩ := by
    rw [hclause]
    exact ⟨"wind above ".toList, " mph".toList, by decide +kernel⟩
  refine ⟨by decide, r, hr, _, List.mem_cons_of_mem _ (List.mem_singleton_self _), ?_,
    by rw [hsource]; decide, by decide +kernel⟩
  rw [mentions_resultText_iff (by rw [hmetric]; decide) (by rw [hunit]; decide)]
  exact .inr ⟨hviolated, hquoted⟩

/-- Rules about rain and wind in this order, and a reading of the wind alone. -/
def dryLift : Input where
  site := "Alpha"
  operation := "lift"
  snippets := [⟨"No lifting in rain above 5 mm.", ⟨1, "rain.md", "", 1.0⟩⟩,
    ⟨"No lifting in wind above 20 mph.", ⟨2, "wind.md", "", 0.5⟩⟩]
  readings := [⟨.windSpeed, 12.0, "mph", ⟨0⟩⟩]

/-- The rule about rain was not judged, and is not cited. -/
example : (make 5 dryLift ⟨0⟩).citations.map (·.documentId) = ["wind.md"] := by decide +kernel

end SiteSafety.Decision
