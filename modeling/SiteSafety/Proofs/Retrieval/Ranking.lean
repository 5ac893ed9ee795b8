import Mathlib.Data.Finset.Card
import SiteSafety.Proofs.Check.Conclusion
import SiteSafety.Proofs.Decimal.Quotient
import SiteSafety.Proofs.Firsts
import SiteSafety.Proofs.Retrieval.Packing

/-!
# Proofs — Retrieval — Ranking

What a search of an index finds.  The pieces that share a term with the query are ranked by how many
they share (`IsRanking`), those that share as many in the order of their documents, and the first of
them are kept.  Each is given back with its rank and with the part of the terms of the query that it
shares, **which is a number from 0 to 1 however many terms there are**.

* `isRanking_ranked`: the pieces that are kept and those that are left out.
* `isWellFormed_of_mem_search`: every snippet that is given back can be used.
* `search_ranks`: **every search**, and every check whose rules are searched for.
-/

namespace SiteSafety.Retrieval
open Rule

variable {ix : Index} {ds : List Document} {query : String} {k : Nat} {p : Piece}

/-! ### Shared terms -/

/-- The terms that a query and a text share. -/
def sharedTerms (query text : String) : Finset String :=
  (terms query).toFinset ∩ (terms text).toFinset

/-- How many terms a piece shares with a query. -/
def Piece.share (query : String) (p : Piece) : Nat := (sharedTerms query p.text).card

theorem nodup_terms (text : String) : (terms text).Nodup := nodup_eraseDups _

theorem card_terms (text : String) : (terms text).toFinset.card = (terms text).length :=
  List.toFinset_card_of_nodup (nodup_terms text)

/-- The terms that are counted are the shared ones. -/
theorem overlap_eq_share (hp : p.terms = terms p.text) :
    p.overlap (terms query) = p.share query := by
  have hset : sharedTerms query p.text = (p.terms.filter (terms query).contains).toFinset := by
    ext t
    simp [sharedTerms, hp, and_comm]
  rw [Piece.share, hset, List.toFinset_card_of_nodup]
  · rfl
  · rw [hp]
    exact (nodup_terms _).filter _

theorem share_le (query : String) (p : Piece) : p.share query ≤ (terms query).length := by
  rw [← card_terms]
  exact Finset.card_le_card Finset.inter_subset_left

/-- A piece of documents is a chunk of one of them, with the terms of the chunk. -/
theorem of_mem_ofDocuments (h : p ∈ Index.ofDocuments ds) :
    (∃ d ∈ ds, p.documentId = d.id ∧ p.text ∈ chunks d.text) ∧ p.terms = terms p.text := by
  obtain ⟨d, hd, h⟩ := List.mem_flatMap.mp h
  obtain ⟨chunk, hchunk, rfl⟩ := List.mem_map.mp h
  exact ⟨⟨d, hd, rfl, hchunk⟩, rfl⟩

/-! ### Rankings -/

/-- A ranking of the pieces of an index for a query, cut into those that are kept and those that
are left out. -/
structure IsRanking (ix : Index) (query : String) (kept rest : List Piece) : Prop where
  /-- The pieces that share a term are ranked, and no others. -/
  perm : (kept ++ rest).Perm (ix.filter fun p => 0 < p.share query)
  /-- What shares more terms comes first. -/
  descending : (kept ++ rest).Pairwise fun a b => b.share query ≤ a.share query
  /-- Pieces that share as many terms keep their order. -/
  stable : ∀ n, (kept ++ rest).filter (·.share query = n) =
    (ix.filter fun p => 0 < p.share query).filter (·.share query = n)

/-- No piece that is left out shares more terms than one that is kept. -/
theorem IsRanking.share_le {kept rest : List Piece} (h : IsRanking ix query kept rest) {a b : Piece}
    (ha : a ∈ kept) (hb : b ∈ rest) : b.share query ≤ a.share query :=
  (List.pairwise_append.mp h.descending).2.2 a ha b hb

section Sorting
variable {α : Type} (f : α → Nat) (l : List α)

theorem descends_trans (a b c : α) (hab : decide (f b ≤ f a) = true)
    (hbc : decide (f c ≤ f b) = true) : decide (f c ≤ f a) = true := by
  rw [decide_eq_true_eq] at *
  omega

theorem descends_total (a b : α) : (decide (f b ≤ f a) || decide (f a ≤ f b)) = true := by
  rw [Bool.or_eq_true, decide_eq_true_eq, decide_eq_true_eq]
  omega

theorem pairwise_mergeSort_descends :
    (l.mergeSort fun a b => f b ≤ f a).Pairwise fun a b => f b ≤ f a :=
  (List.pairwise_mergeSort (descends_trans f) (descends_total f) l).imp of_decide_eq_true

/-- Sorting keeps the order of what is equal. -/
theorem filter_mergeSort_descends (n : Nat) :
    (l.mergeSort fun a b => f b ≤ f a).filter (f · = n) = l.filter (f · = n) := by
  -- what is equal is sorted already, so it stands in the sorted list as it stands here
  have hequal : (l.filter (f · = n)).Pairwise fun a b => decide (f b ≤ f a) = true := by
    refine List.pairwise_of_forall_mem_list fun a ha b hb => ?_
    have hfa := (List.mem_filter.mp ha).2
    have hfb := (List.mem_filter.mp hb).2
    rw [decide_eq_true_eq] at hfa hfb ⊢
    omega
  have hsublist := (List.sublist_mergeSort (descends_trans f) (descends_total f) hequal
    List.filter_sublist).filter (f · = n)
  rw [List.filter_filter] at hsublist
  simp only [Bool.and_self] at hsublist
  exact (hsublist.eq_of_length ((List.mergeSort_perm l _).filter _).length_eq.symm).symm

end Sorting

theorem ranked_eq (h : ∀ p ∈ ix, p.terms = terms p.text) :
    ix.ranked (terms query) = (ix.filter fun p => 0 < p.share query).mergeSort
      fun a b => b.share query ≤ a.share query := by
  have hfilter : (ix.filter fun p => 0 < p.overlap (terms query)) =
      ix.filter fun p => 0 < p.share query :=
    List.filter_congr fun p hp => by rw [overlap_eq_share (h p hp)]
  rw [Index.ranked, hfilter]
  -- both sides sort the same pieces, in orders that agree on them
  rw [← List.map_id (List.mergeSort _ _), List.map_mergeSort, List.map_id]
  intro a ha b hb
  rw [id, id, overlap_eq_share (h a (List.mem_of_mem_filter ha)),
    overlap_eq_share (h b (List.mem_of_mem_filter hb))]

/-- Sorted by what they share and cut, the pieces are a ranking. -/
theorem isRanking_ranked (h : ∀ p ∈ ix, p.terms = terms p.text) (k : Nat) :
    IsRanking ix query ((ix.ranked (terms query)).take k) ((ix.ranked (terms query)).drop k) := by
  rw [ranked_eq h]
  constructor <;> rw [List.take_append_drop]
  · exact List.mergeSort_perm _ _
  · exact pairwise_mergeSort_descends (Piece.share query) _
  · exact filter_mergeSort_descends (Piece.share query) _

/-! ### Searches -/

/-- The snippet quotes a piece, with the part of the terms of the query that the piece shares. -/
structure Quotes (query : String) (s : Snippet) (p : Piece) : Prop where
  text : s.text = p.text
  document : s.citation.documentId = p.documentId
  relevance : s.citation.relevance =
    Float.ofNat (p.share query) / Float.ofNat (terms query).toFinset.card

/-- Snippets are numbered by their ranks. -/
theorem ranks_search (ix : Index) (query : String) (k : Nat) :
    (ix.search query k).map (·.citation.sourceIndex) =
      List.range' 1 (ix.search query k).length := by
  have hranks : (ix.search query k).map (·.citation.sourceIndex) =
      ((ix.ranked (terms query)).take k).zipIdx.map ((1 + ·) ∘ Prod.snd) := by
    rw [Index.search, List.map_map]
    exact List.map_congr_left fun _ _ => Nat.add_comm _ _
  have hlength : (ix.search query k).length = ((ix.ranked (terms query)).take k).length := by
    rw [Index.search, List.length_map, List.length_zipIdx]
  rw [hranks, hlength, ← List.map_map, List.zipIdx_map_snd, List.map_add_range']

theorem forall₂_zipIdx {α : Type} {R : α × Nat → α → Prop} {l : List α}
    (h : ∀ a ∈ l, ∀ i, R (a, i) a) (n : Nat) : List.Forall₂ R (l.zipIdx n) l := by
  induction l generalizing n with
  | nil => exact .nil
  | cons a l ih =>
      rw [List.zipIdx_cons]
      exact .cons (h a List.mem_cons_self n) (ih (fun b hb => h b (List.mem_cons_of_mem a hb)) _)

theorem quotes_snippet (h : p.terms = terms p.text) (rank : Nat) :
    Quotes query (p.snippet (terms query) rank) p where
  text := rfl
  document := rfl
  relevance := by
    rw [card_terms, ← overlap_eq_share h]
    rfl

/-- What is ranked is a piece of the index that shares a term. -/
theorem of_mem_ranked (h : ∀ p ∈ ix, p.terms = terms p.text) (hp : p ∈ ix.ranked (terms query)) :
    p ∈ ix ∧ 0 < p.share query := by
  rw [ranked_eq h] at hp
  obtain ⟨hmem, hshare⟩ := List.mem_filter.mp ((List.mergeSort_perm _ _).subset hp)
  exact ⟨hmem, of_decide_eq_true hshare⟩

theorem quotes_search (h : ∀ p ∈ ix, p.terms = terms p.text) :
    List.Forall₂ (Quotes query) (ix.search query k) ((ix.ranked (terms query)).take k) := by
  rw [Index.search, List.forall₂_map_left_iff]
  refine forall₂_zipIdx (fun p hp i => ?_) 0
  exact quotes_snippet (h p (of_mem_ranked h (List.mem_of_mem_take hp)).1) _

/-- The part of the terms that is shared is a number from 0 to 1. -/
theorem hasValidRelevance_of_quotes {s : Snippet} (h : Quotes query s p)
    (hshare : 0 < p.share query) (hquery : (terms query).length < 2 ^ 64) :
    s.citation.hasValidRelevance = true := by
  have hlog : (terms query).length.log2 < 64 := by
    rcases Nat.eq_zero_or_pos (terms query).length with hzero | hpos
    · rw [hzero]
      decide
    · exact (Nat.log2_lt hpos.ne').mpr hquery
  obtain ⟨hfinite, hlow, hhigh⟩ :=
    Decimal.quotient_le_one hshare.ne' (share_le query p) hlog
  rw [Citation.hasValidRelevance, h.relevance, card_terms, hfinite, decide_eq_true hlow,
    decide_eq_true hhigh]
  rfl

/-- Whatever a search of documents finds can be used. -/
theorem isWellFormed_of_mem_search (hquery : (terms query).length < 2 ^ 64) {s : Snippet}
    (hs : s ∈ (Index.ofDocuments ds).search query k) : s.isWellFormed = true := by
  obtain ⟨⟨p, i⟩, hp, rfl⟩ := List.mem_map.mp hs
  obtain ⟨hmem, hshare⟩ := of_mem_ranked (fun p hp => (of_mem_ofDocuments hp).2)
    (List.mem_of_mem_take (List.fst_mem_of_mem_zipIdx hp))
  obtain ⟨⟨d, -, -, hchunk⟩, hterms⟩ := of_mem_ofDocuments hmem
  have hquotes : Quotes query (p.snippet (terms query) (i + 1)) p := quotes_snippet hterms _
  rw [Snippet.isWellFormed, hquotes.text, isBlankText_of_mem_chunks hchunk,
    hasValidRelevance_of_quotes hquotes hshare hquery]
  rfl

/-! ### Checks -/

open Check Memory Workflow

/-- Rules that are searched for in documents are never given up. -/
theorem not_rulesUnusable {s : Setting} {r : Request} (hquery : (terms r.query).length < 2 ^ 64)
    (hsearch : ∀ q n, (s.parties.retriever q n).result = .ok ((Index.ofDocuments ds).search q n)) :
    ¬ s.RulesUnusable r := by
  rintro ⟨ss, hfound, hne, hunusable⟩
  obtain rfl : (Index.ofDocuments ds).search r.query s.settings.retrievalK = ss := by
    rw [Setting.rulesFound, Answer.within, hsearch] at hfound
    split at hfound
    · exact Except.ok.inj hfound
    · cases hfound
  obtain ⟨x, hx⟩ := List.exists_mem_of_ne_nil _ hne
  have husable := isWellFormed_of_mem_search hquery hx
  rw [hunusable x hx] at husable
  cases husable

theorem fatal_not_mem_completed (g : Gathered) : .fatal ∉ g.completed.map (·.target) := by
  rw [targets_completed, stagesBefore]
  cases g.isDegraded <;> decide

/-- **Every search** of documents gives back the pieces that share most terms with the query, each
with its rank, its document and the part of the terms that it shares; and a check whose rules are
searched for in documents is never given up. -/
theorem search_ranks (ds : List Document) :
    let ix := Index.ofDocuments ds
    (∀ (query : String) (k : Nat), ∃ kept rest, IsRanking ix query kept rest ∧
      (∀ p ∈ kept, (∃ d ∈ ds, p.documentId = d.id ∧ p.text ∈ chunks d.text) ∧
        0 < p.share query ∧ p.share query ≤ (terms query).toFinset.card ∧
        ∀ p' ∈ rest, p'.share query ≤ p.share query) ∧
      kept.length = min k (kept ++ rest).length ∧
      List.Forall₂ (Quotes query) (ix.search query k) kept ∧
      (ix.search query k).map (·.citation.sourceIndex) = List.range' 1 kept.length ∧
      ((terms query).length < 2 ^ 64 → ∀ s ∈ ix.search query k, s.isWellFormed = true)) ∧
    ∀ {σ : Type} [Store σ] (s : Setting) (now : Calendar.Instant) (r : Request) (store : σ),
      (∀ q n, (s.parties.retriever q n).result = .ok (ix.search q n)) →
      (terms r.query).length < 2 ^ 64 →
      ∃ o, (run s now r store).value.outcome = .ok o ∧ .fatal ∉ o.trace.map (·.target) := by
  intro ix
  have hterms : ∀ p ∈ ix, p.terms = terms p.text := fun p hp => (of_mem_ofDocuments hp).2
  constructor
  · intro query k
    have hranking : IsRanking ix query _ _ := isRanking_ranked hterms k
    have hquotes : List.Forall₂ (Quotes query) (ix.search query k) _ := quotes_search hterms
    refine ⟨_, _, hranking, fun p hp => ?_, ?_, hquotes, ?_, fun hquery s hs => ?_⟩
    · obtain ⟨hmem, hshare⟩ := of_mem_ranked hterms (List.mem_of_mem_take hp)
      refine ⟨(of_mem_ofDocuments hmem).1, hshare, ?_, fun p' => hranking.share_le hp⟩
      rw [card_terms]
      exact share_le query p
    · rw [List.take_append_drop, List.length_take]
    · rw [← hquotes.length_eq]
      exact ranks_search ix query k
    · exact isWellFormed_of_mem_search hquery hs
  · intro σ _ s now r store hsearch hquery
    have husable : (gathered s r store).context.rulesInvalid = false := by
      rw [Bool.eq_false_iff, Ne, rulesInvalid_iff]
      exact not_rulesUnusable hquery hsearch
    exact ⟨_, outcome_eq husable, fatal_not_mem_completed _⟩

/-! ### Two documents -/

/-- Rules of two documents, the second of which has two paragraphs. -/
def siteRules : List Document :=
  [⟨"cranes.md", "Stop lifts above 30 km/h wind."⟩,
    ⟨"roofs.md", "Wear a harness.\n\nStop roof work and lifts in gusts above 40 km/h wind."⟩]

/-- A check that searches these rules, and whose judge has nothing to say. -/
def siteSetting : Setting where
  parties :=
    { retriever := fun q n => ⟨.ok ((Index.ofDocuments siteRules).search q n), 0⟩
      judge := fun _ _ => .ok none }

/-- Two of the three paragraphs share a term with the query and are found, and a check that searches
these rules comes to a decision. -/
theorem two_paragraphs_are_found :
    let ss := (Index.ofDocuments siteRules).search "Lifts in gusts and wind?" 5
    ss.length = 2 ∧ (∀ s ∈ ss, s.isWellFormed = true) ∧
      ∃ o, (run siteSetting ⟨0⟩ ⟨"r1", "Site Alpha", "crane lift", none, "operator"⟩
        ({} : Ledger)).value.outcome = .ok o ∧ .fatal ∉ o.trace.map (·.target) := by
  intro ss
  obtain ⟨hsearches, hchecks⟩ := search_ranks siteRules
  obtain ⟨kept, rest, hranking, -, hlength, hquotes, -, husable⟩ :=
    hsearches "Lifts in gusts and wind?" 5
  have hfound : (kept ++ rest).length = 2 := hranking.perm.length_eq.trans (by decide +kernel)
  refine ⟨?_, husable (by decide +kernel), ?_⟩
  · rw [hquotes.length_eq, hlength, hfound]
    rfl
  · exact hchecks siteSetting _ _ _ (fun _ _ => rfl) (by decide +kernel)

end SiteSafety.Retrieval
