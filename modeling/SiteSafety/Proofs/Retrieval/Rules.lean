import SiteSafety.Proofs.Clause.Locality
import SiteSafety.Proofs.Retrieval.Chunks

/-!
# Proofs — Retrieval — Rules

A document that is read for rules chunk by chunk says what it says as a whole, as long as it sets no
conditions: a chunk ends where a clause would end anyhow.  Tags and clauses are both read piece by
piece, the tags to see that the chunks have none either.

* `piecewise_tagsIn`, `piecewise_plainThresholds`: the two readings.
* `thresholds_of_chunks`: **the thresholds of the chunks are those of the text**, in order and each
  as it is quoted there.
-/

namespace SiteSafety.Retrieval
open Clause Rule

variable {c : Char} {cs ds : List Char}

/-! ### Tags -/

/-- The tags that open conditions in a text, as they are spelled. -/
def tagsIn : List Char → List (List Char)
  | []      => []
  | c :: cs =>
    if opensCondition (c :: cs) then (c :: cs).take conditionTag.length :: tagsIn cs
    else tagsIn cs

theorem tagsIn_append (hc : c.toLower ∉ conditionTag) (cs ds : List Char) :
    tagsIn (cs ++ c :: ds) = tagsIn cs ++ tagsIn ds := by
  induction cs with
  | nil =>
      have hnone : opensCondition ([] ++ c :: ds) = false := opensCondition_append hc
      rw [List.nil_append] at hnone
      simp [tagsIn, hnone]
  | cons a cs ih =>
      have hopens : opensCondition ((a :: cs) ++ c :: ds) = opensCondition (a :: cs) :=
        opensCondition_append hc
      rw [List.cons_append] at hopens ⊢
      rw [tagsIn, tagsIn, hopens, ih]
      split
      case isTrue ho =>
        have hlen : conditionTag.length ≤ (a :: cs).length := by
          have := (opensCondition_iff.mp ho).length_le
          simpa [Text.asciiLower] using this
        rw [← List.cons_append, ← List.cons_append, List.take_append_of_le_length hlen]
      case isFalse => rfl

theorem tagsIn_eq_nil_iff :
    tagsIn cs = [] ↔ Text.contains conditionTag (Text.asciiLower cs) = false := by
  rw [← Bool.not_eq_true, Text.contains_iff]
  induction cs with
  | nil =>
      rw [Text.asciiLower, List.map_nil, List.infix_nil]
      exact ⟨fun _ => by decide, fun _ => rfl⟩
  | cons c cs ih =>
      have hlower : Text.asciiLower (c :: cs) = c.toLower :: Text.asciiLower cs := rfl
      rw [tagsIn, hlower, List.infix_cons_iff, ← hlower, ← opensCondition_iff]
      split
      case isTrue ho => simp [ho]
      case isFalse ho => simpa [ho] using ih

theorem toLower_not_mem_conditionTag (h : Text.isBlank c = true) : c.toLower ∉ conditionTag :=
  Text.of_isBlank (P := fun c => c.toLower ∉ conditionTag) (by decide +kernel) h

theorem piecewise_tagsIn : Piecewise tagsIn where
  lineFeed := tagsIn_append (by decide)
  carriageReturn := tagsIn_append (by decide)
  stop cs ds := by
    have hspace (es : List Char) : tagsIn (' ' :: es) = tagsIn es :=
      tagsIn_append (by decide) [] es
    rw [List.append_assoc, List.cons_append, List.singleton_append, tagsIn_append (by decide),
      tagsIn_append (by decide), hspace, hspace]
    simp [tagsIn]
  trim := by
    refine Text.apply_trim tagsIn (fun c ds hc => ?_) fun cs c hc => ?_
    · exact tagsIn_append (toLower_not_mem_conditionTag hc) [] ds
    · rw [tagsIn_append (toLower_not_mem_conditionTag hc), tagsIn, List.append_nil]

theorem maskFrom_of_tagsIn (h : tagsIn cs = []) (i : Nat) : maskFrom i cs = (cs, []) := by
  induction cs generalizing i with
  | nil => rw [maskFrom]
  | cons c cs ih =>
      rw [tagsIn] at h
      split at h
      case isTrue => cases h
      case isFalse ho =>
        have hbody : conditionBody? (c :: cs) = none := if_neg ho
        rw [maskFrom, hbody, ih h]

/-! ### Clauses -/

/-- The thresholds of a text that sets no conditions. -/
def plainThresholds (citation : Citation) (cs : List Char) : List Threshold :=
  (findings [] (tokens cs)).filterMap (·.threshold? citation cs [])

variable (citation : Citation)

/-- What is read from a text without tags. -/
theorem thresholds_ofSnippet {s : Snippet} (h : tagsIn s.text.toList = []) :
    (ofSnippet s).thresholds = plainThresholds s.citation s.text.toList := by
  rw [ofSnippet, mask, maskFrom_of_tagsIn h]
  rfl

theorem plainThresholds_nil : plainThresholds citation [] = [] := by
  simp [plainThresholds, tokens, tokensFrom, findings]

theorem plainThresholds_append (h : IsBreak c ds) (hc : isBoundaryChar c = true) (cs : List Char) :
    plainThresholds citation (cs ++ c :: ds) =
      plainThresholds citation cs ++ plainThresholds citation ds := by
  have hsplit : cs ++ c :: ds = (cs ++ [c]) ++ ds := by simp
  have hlength : (cs ++ [c]).length = cs.length + 1 := by simp
  simp only [plainThresholds, findings_tokens_append h hc, List.filterMap_append,
    List.filterMap_map]
  congr 1
  · refine List.filterMap_congr fun f hf => ?_
    have hnone : ∀ y ∈ ([] : List Condition), cs.length < y.stop := by simp
    exact Finding.threshold?_meet citation [] (endsBy_of_mem_text hf) hnone
  · refine List.filterMap_congr fun f _ => ?_
    have hnone : ∀ x ∈ ([] : List Condition), x.start < (cs ++ [c]).length := by simp
    have hshift := f.threshold?_shift citation ds [] hnone
    rwa [hlength, ← hsplit] at hshift

/-- A blank before a text is read as nothing. -/
theorem plainThresholds_cons (h : Text.isBlank c = true) (ds : List Char) :
    plainThresholds citation (c :: ds) = plainThresholds citation ds := by
  by_cases hc : isBoundaryChar c = true
  · have happend := plainThresholds_append citation (IsBreak.of_isBlank h ds) hc []
    rwa [plainThresholds_nil, List.nil_append, List.nil_append] at happend
  · have htokens := tokens_append_break (IsBreak.of_isBlank h ds) []
    have hnil : tokens [] = [] := by rw [tokens, tokensFrom]
    rw [gapTokens, if_neg hc, hnil, List.nil_append, List.nil_append, List.nil_append] at htokens
    rw [plainThresholds, htokens, findings_map_shift, List.filterMap_map]
    have hnone : ∀ x ∈ ([] : List Condition), x.start < [c].length := by simp
    exact List.filterMap_congr fun f _ => f.threshold?_shift citation ds [] hnone

/-- A blank behind a text is read as nothing. -/
theorem plainThresholds_concat (h : Text.isBlank c = true) (cs : List Char) :
    plainThresholds citation (cs ++ [c]) = plainThresholds citation cs := by
  by_cases hc : isBoundaryChar c = true
  · rw [plainThresholds_append citation (.of_isBlank h []) hc, plainThresholds_nil, List.append_nil]
  · have htokens := tokens_append_break (IsBreak.of_isBlank h []) cs
    have hnil : tokens [] = [] := by rw [tokens, tokensFrom]
    rw [gapTokens, if_neg hc, hnil, List.map_nil, List.append_nil, List.append_nil] at htokens
    rw [plainThresholds, htokens]
    refine List.filterMap_congr fun f hf => ?_
    have hends := endsBy_of_mem_text hf
    cases f with
    | skipped => rfl
    | found f => simp [Finding.threshold?, Found.threshold, excerpt_append hends.1, conditionOf?]

theorem piecewise_plainThresholds : Piecewise (plainThresholds citation) where
  lineFeed cs ds := plainThresholds_append citation (.of_isBlank (by decide) ds) (by decide) cs
  carriageReturn cs ds :=
    plainThresholds_append citation (.of_isBlank (by decide) ds) (by decide) cs
  stop cs ds := by
    have hstop (es : List Char) : plainThresholds citation (cs ++ '.' :: ' ' :: es) =
        plainThresholds citation cs ++ plainThresholds citation es := by
      rw [plainThresholds_append citation (isBreak_stop es) (by decide),
        plainThresholds_cons citation (by decide)]
    rw [List.append_assoc, List.cons_append, List.singleton_append, hstop, hstop,
      plainThresholds_nil, List.append_nil]
  trim := Text.apply_trim _ (fun _ ds h => plainThresholds_cons citation h ds)
    fun cs _ h => plainThresholds_concat citation h cs

/-! ### Chunks -/

/-- Where a text is quoted from makes no difference to what it says. -/
theorem map_plainThresholds (citation citation' : Citation) (cs : List Char) :
    (plainThresholds citation cs).map (fun t => { t with citation := citation' }) =
      plainThresholds citation' cs := by
  rw [plainThresholds, List.map_filterMap]
  refine List.filterMap_congr fun f _ => ?_
  cases f with
  | skipped => rfl
  | found f => simp only [Finding.threshold?, Option.map_some, Found.threshold]

/-- The thresholds of the chunks of a text that sets no conditions are those of the text. -/
theorem thresholds_of_chunks (text : String) (whole : Citation) (snippets : List Snippet)
    (htags : Text.contains conditionTag (Text.asciiLower text.toList) = false)
    (hchunks : snippets.map Snippet.text = chunks text) :
    (ofSnippets snippets).thresholds.map (fun t => { t with citation := whole }) =
      (ofSnippet ⟨text, whole⟩).thresholds := by
  have hnone : (chunks text).flatMap (fun chunk => tagsIn chunk.toList) = [] := by
    rw [piecewise_tagsIn.chunks, tagsIn_eq_nil_iff]
    exact htags
  have hsnippet : ∀ s ∈ snippets,
      (ofSnippet s).thresholds.map (fun t => { t with citation := whole }) =
        plainThresholds whole s.text.toList := by
    intro s hs
    have hmem : s.text ∈ chunks text := hchunks ▸ List.mem_map_of_mem hs
    rw [thresholds_ofSnippet (List.flatMap_eq_nil_iff.mp hnone _ hmem), map_plainThresholds]
  calc (ofSnippets snippets).thresholds.map (fun t => { t with citation := whole })
    _ = snippets.flatMap fun s => plainThresholds whole s.text.toList := by
        rw [ofSnippets, List.map_flatMap]
        exact List.flatMap_congr hsnippet
    _ = (chunks text).flatMap fun chunk => plainThresholds whole chunk.toList := by
        rw [← hchunks, List.flatMap_map]
    _ = plainThresholds whole text.toList := (piecewise_plainThresholds whole).chunks text
    _ = (ofSnippet ⟨text, whole⟩).thresholds := by
        rw [thresholds_ofSnippet (s := ⟨text, whole⟩) (tagsIn_eq_nil_iff.mpr htags)]

/-- A document of two paragraphs. -/
def craneRules : String := "Wind over 20 mph. Gusts over 30 mph.\r\n\r\nRain over 5 mm."

/-- The chunks of a document, each quoted with its place. -/
def craneSnippets : List Snippet :=
  (chunks craneRules).mapIdx fun i chunk => ⟨chunk, ⟨i + 1, "crane", chunk, 1.0⟩⟩

theorem thresholds_of_craneRules :
    Text.contains conditionTag (Text.asciiLower craneRules.toList) = false ∧
      craneSnippets.map Snippet.text = chunks craneRules ∧
      (ofSnippets craneSnippets).thresholds.map
          (fun t => { t with citation := ⟨1, "crane", craneRules, 1.0⟩ }) =
        (ofSnippet ⟨craneRules, ⟨1, "crane", craneRules, 1.0⟩⟩).thresholds := by
  have htags : Text.contains conditionTag (Text.asciiLower craneRules.toList) = false := by decide
  have hchunks : craneSnippets.map Snippet.text = chunks craneRules :=
    List.ext_getElem (by simp [craneSnippets]) (by simp [craneSnippets])
  exact ⟨htags, hchunks, thresholds_of_chunks _ _ _ htags hchunks⟩

end SiteSafety.Retrieval
