import SiteSafety.Proofs.Clause.Slices

/-!
# Proofs — Clause — Offsets

A snippet read by bytes.  `readBytes?` blanks out the conditions byte for byte, so that a character
of a condition leaves as many spaces as it has bytes; it counts the places of tokens in the bytes of
that text, and slices the clauses out of the original one.  It reads nothing if one of its slices is
not there.

* `respaced_blankFrom`: the text that is blanked out byte for byte differs from the masked one in
  stretches of spaces only, which take the bytes of the conditions in both of them.
* `readBytes?_eq`: **every slice is there**, and what is read by bytes is what is read by
  characters.
* `clauses_are_quoted`: clauses are parts of the text, one behind the other.
-/

namespace SiteSafety.Clause
open Rule

variable {c : Char} {cs ds pre span body rest : List Char} {xs ys : List Condition} {i j o : Nat}
  {s : Snippet} {f : Found}

/-! ### The reading by bytes -/

/-- A condition stands at a byte. -/
def isHidden (xs : List Condition) (o : Nat) : Bool := xs.any fun x => x.start ≤ o && o < x.stop

/-- The text from a byte on, with a space for each byte of a condition. -/
def blankFrom (xs : List Condition) (o : Nat) : List Char → List Char
  | [] => []
  | c :: cs =>
    (if isHidden xs o then List.replicate c.utf8Size ' ' else [c]) ++
      blankFrom xs (o + c.utf8Size) cs

/-- The tokens of a text, by their bytes. -/
def byteTokens (cs : List Char) : List Token := (tokens cs).map (Token.move (byteAt cs))

/-- A slice of a text, trimmed. -/
def quote? (text : String) (i j : Nat) : Option String := (slice? text i j).map Text.trimmed

/-- The threshold that a clause of a text sets, by bytes. -/
def Found.readBytes? (s : Snippet) (xs : List Condition) (f : Found) : Option Threshold :=
  (quote? s.text f.start f.stop).map fun clause =>
    let q := Measurement.canonicalize f.metric f.value f.unit
    { metric := f.metric
      operator := f.operator
      value := q.value
      unit := q.unit
      unitVerified := q.verified
      citation := s.citation
      clause := clause
      condition := conditionOf? xs f.stop (f.next.getD s.text.utf8ByteSize) }

/-- The notice of words that are no clause. -/
def Skipped.ofWords (s : Snippet) (words : String) : Skipped :=
  ⟨words, s.citation.sourceIndex, "no numeric limit follows the comparator"⟩

/-- From where to where words go that are no clause. -/
def Finding.words? : Finding → Option (Nat × Nat)
  | .found _ => none
  | .skipped start stop => some (start, stop)

/-- What is read from a snippet by bytes. -/
def readBytes? (s : Snippet) : Option Extraction := do
  let xs ← conditionsFrom? s.text (loweredText s.text) 0
  let fs := findings [] (byteTokens (blankFrom xs 0 s.text.toList))
  let thresholds ← (fs.filterMap Finding.found?).mapM (·.readBytes? s xs)
  let skipped ← (fs.filterMap Finding.words?).mapM fun (start, stop) =>
    (quote? s.text start stop).map (Skipped.ofWords s)
  return ⟨thresholds, skipped⟩

/-! ### Blanks -/

/-- The text with its bytes for widths. -/
def inBytes (cs : List Char) : Measured := cs.map fun c => (c, c.utf8Size)

/-- A text with the bytes of another one for widths. -/
def measuredBy (cs : List Char) (ds : List Char) : Measured := ds.zip (cs.map Char.utf8Size)

theorem extent_inBytes (cs : List Char) : extent (inBytes cs) = Text.width cs := by
  rw [extent, inBytes, List.map_map, List.foldr_map]
  rfl

theorem chars_inBytes (cs : List Char) : chars (inBytes cs) = cs := by
  rw [chars, inBytes, List.map_map]
  exact List.map_id cs

theorem place_inBytes (cs : List Char) : place (inBytes cs) = byteAt cs := by
  funext i
  rw [place, inBytes, ← List.map_take, ← inBytes, extent_inBytes, byteAt]

theorem chars_measuredBy (h : ds.length = cs.length) : chars (measuredBy cs ds) = ds :=
  List.map_fst_zip (by rw [List.length_map, h])

theorem extent_measuredBy (h : ds.length = cs.length) :
    extent (measuredBy cs ds) = Text.width cs := by
  rw [extent, measuredBy, List.map_snd_zip (by rw [List.length_map, h]), List.foldr_map]
  rfl

theorem place_measuredBy (h : ds.length = cs.length) : place (measuredBy cs ds) = byteAt cs := by
  funext i
  have htake : (ds.take i).length = (cs.take i).length := by
    rw [List.length_take, List.length_take, h]
  rw [place, measuredBy, List.zip, List.take_zipWith, ← List.zip, ← List.map_take, ← measuredBy,
    extent_measuredBy htake, byteAt]

theorem measuredBy_append {cs' ds' : List Char} (h : ds.length = cs.length) :
    measuredBy (cs ++ cs') (ds ++ ds') = measuredBy cs ds ++ measuredBy cs' ds' := by
  rw [measuredBy, List.map_append, List.zip_append (by rw [List.length_map, h])]
  rfl

/-- The spaces for a condition, by its own bytes. -/
theorem isStretch_measuredBy (h : IsSpan span body) :
    IsStretch (measuredBy span (List.replicate span.length ' ')) (Text.width span) where
  nonempty := by
    have hlength := h.length_eq
    rw [← List.length_pos_iff_ne_nil, measuredBy, List.length_zip, List.length_map,
      List.length_replicate]
    omega
  spaces p hp := List.eq_of_mem_replicate (List.of_mem_zip hp).1
  width := extent_measuredBy (List.length_replicate ..)

/-- As many spaces as a condition has bytes. -/
theorem isStretch_inBytes (h : IsSpan span body) :
    IsStretch (inBytes (List.replicate (Text.width span) ' ')) (Text.width span) where
  nonempty := by
    have hlength := h.length_eq
    have hwidth := Text.length_le_width span
    rw [← List.length_pos_iff_ne_nil, inBytes, List.length_map, List.length_replicate]
    omega
  spaces p hp := by
    obtain ⟨c, hc, rfl⟩ := List.mem_map.mp hp
    exact List.eq_of_mem_replicate hc
  width := by rw [extent_inBytes, Text.width_spaces]

/-- A byte behind some conditions and before the others is one of none of them. -/
theorem isHidden_append (hys : ∀ y ∈ ys, y.stop ≤ o) (hxs : ∀ x ∈ xs, o < x.start) :
    isHidden (ys ++ xs) o = false := by
  rw [isHidden, List.any_eq_false]
  intro x hx
  simp only [Bool.and_eq_true, decide_eq_true_eq, not_and, Nat.not_lt]
  intro hstart
  rcases List.mem_append.mp hx with hx | hx
  · exact hys x hx
  · exact absurd hstart (Nat.not_le_of_lt (hxs x hx))

theorem isHidden_of_mem {x : Condition} (hx : x ∈ xs) (hstart : x.start ≤ o) (hstop : o < x.stop) :
    isHidden xs o = true :=
  List.any_eq_true.mpr ⟨x, hx, by simp [hstart, hstop]⟩

/-- The bytes of a condition are blanked out. -/
theorem blankFrom_hidden (h : ∀ k < Text.width cs, isHidden xs (o + k) = true) (rest : List Char) :
    blankFrom xs o (cs ++ rest) =
      List.replicate (Text.width cs) ' ' ++ blankFrom xs (o + Text.width cs) rest := by
  induction cs generalizing o with
  | nil => rfl
  | cons c cs ih =>
      have hwidth : Text.width (c :: cs) = c.utf8Size + Text.width cs := rfl
      have hpos := c.utf8Size_pos
      have hfirst : isHidden xs o = true := h 0 (by omega)
      have hmore := ih (o := o + c.utf8Size) fun k hk => by
        rw [Nat.add_assoc]
        exact h _ (by omega)
      rw [List.cons_append, blankFrom, if_pos hfirst, hmore, hwidth, ← List.append_assoc,
        List.replicate_append_replicate, Nat.add_assoc]

theorem byteAt_le_byteAt (cs : List Char) (h : i ≤ j) : byteAt cs i ≤ byteAt cs j := by
  obtain ⟨k, rfl⟩ := Nat.exists_eq_add_of_le h
  rw [byteAt, byteAt, List.take_add, Text.width_append]
  exact Nat.le_add_right _ _

/-- **A text blanked out byte for byte** differs from the masked text in stretches of spaces only,
and these take the bytes of the conditions in both of them. -/
theorem Blanked.respaced_blankFrom (h : Blanked i cs ds xs) (pre : List Char)
    (ys : List Condition) (hi : pre.length = i) (hys : ∀ y ∈ ys, y.stop ≤ Text.width pre) :
    Respaced (measuredBy cs (maskFrom i cs).1)
      (inBytes (blankFrom (ys ++ xs.map (Condition.move (byteAt (pre ++ cs)))) (Text.width pre)
        cs)) := by
  induction h generalizing pre ys with
  | nil => rw [maskFrom]; exact .nil
  | @keep i c cs ds xs hno h ih =>
      have hbehind : pre ++ c :: cs = (pre ++ [c]) ++ cs := List.append_cons pre c cs
      have hwidth : Text.width (pre ++ [c]) = Text.width pre + c.utf8Size :=
        Text.width_append pre [c]
      have hpos := c.utf8Size_pos
      have hrest := ih (pre ++ [c]) ys (by rw [List.length_append, hi]; rfl)
        fun y hy => Nat.le_trans (hys y hy) (by omega)
      rw [hwidth, ← hbehind] at hrest
      have hplace : byteAt (pre ++ c :: cs) (i + 1) = Text.width pre + c.utf8Size := by
        rw [hbehind, ← hwidth, ← byteAt_length (pre ++ [c]) cs, List.length_append, hi]
        rfl
      -- the conditions listed so far stop at this byte, and the others start behind it
      have hfree : isHidden (ys ++ xs.map (Condition.move (byteAt (pre ++ c :: cs))))
          (Text.width pre) = false := by
        refine isHidden_append hys fun y hy => ?_
        obtain ⟨x, hx, rfl⟩ := List.mem_map.mp hy
        have hbound := (bounds_of_mem_maskFrom (i + 1) cs (h.conditions_eq ▸ hx)).1
        have hle := byteAt_le_byteAt (pre ++ c :: cs) hbound
        simp only [Condition.move]
        omega
      rw [maskFrom_keep hno, blankFrom, hfree]
      exact .keep (c, c.utf8Size) hrest
  | @blank i n span body rest ds xs hspan _ ih =>
      have hbehind : pre ++ (span ++ rest) = (pre ++ span) ++ rest := (List.append_assoc ..).symm
      have hstart : byteAt (pre ++ (span ++ rest)) i = Text.width pre := by
        rw [← hi, byteAt_length]
      have hstop : byteAt (pre ++ (span ++ rest)) (i + span.length) = Text.width (pre ++ span) := by
        rw [hbehind, ← hi, ← List.length_append, byteAt_length]
      have hwidth : Text.width (pre ++ span) = Text.width pre + Text.width span :=
        Text.width_append pre span
      rw [List.map_cons, Condition.move, hstart, hstop]
      generalize hx : (⟨Text.width pre, Text.width (pre ++ span), String.ofList (Text.trim body)⟩ :
        Condition) = x
      have hrest := ih (pre ++ span) (ys ++ [x]) (by rw [List.length_append, hi]) <| by
        intro y hy
        rcases List.mem_append.mp hy with hy | hy
        · exact Nat.le_trans (hys y hy) (hwidth ▸ Nat.le_add_right _ _)
        · rw [List.mem_singleton.mp hy, ← hx]
      have hhidden : ∀ k < Text.width span, isHidden (ys ++ x :: xs.map
          (Condition.move (byteAt (pre ++ (span ++ rest))))) (Text.width pre + k) = true := by
        intro k hk
        refine isHidden_of_mem (List.mem_append_right _ List.mem_cons_self) ?_ ?_
        · exact hx ▸ Nat.le_add_right _ _
        · rw [← hx, hwidth]
          exact Nat.add_lt_add_left hk _
      rw [← hbehind, hwidth, List.append_assoc, List.singleton_append] at hrest
      rw [maskFrom_blank hspan, blankFrom_hidden hhidden, inBytes, List.map_append,
        measuredBy_append List.length_replicate]
      exact .stretch (isStretch_measuredBy hspan) (isStretch_inBytes hspan) hrest

/-- What is met in a text by its bytes is what is met in it by its characters, at other places. -/
theorem findings_blankFrom (cs : List Char) :
    findings [] (byteTokens (blankFrom ((mask cs).2.map (Condition.move (byteAt cs))) 0 cs)) =
      (findings [] (tokens (mask cs).1)).map (Finding.move (byteAt cs)) := by
  have hlength : (mask cs).1.length = cs.length := length_maskFrom 0 cs
  have hrespaced := (blanked_maskFrom 0 cs).respaced_blankFrom [] [] rfl nofun
  have hfindings := findings_respaced hrespaced
  rw [← mask, chars_measuredBy hlength, place_measuredBy hlength, chars_inBytes, place_inBytes]
    at hfindings
  rw [byteTokens, findings_map_move]
  exact hfindings.symm

/-! ### Quotations -/

/-- A part of a text is sliced out by its bytes. -/
theorem quote?_byteAt {text : String} (hij : i ≤ j) :
    quote? text (byteAt text.toList i) (byteAt text.toList j) =
      some (excerpt text.toList i j) := by
  generalize hcs : text.toList = cs
  have hpart : cs.take i ++ (cs.drop i).take (j - i) = cs.take j := by
    rw [← List.take_add, Nat.add_sub_cancel' hij]
  have hsplit : text.toList = cs.take i ++ ((cs.drop i).take (j - i) ++ cs.drop j) := by
    rw [← List.append_assoc, hpart, List.take_append_drop, hcs]
  have hslice := slice?_eq hsplit
  rw [← Text.width_append, hpart] at hslice
  rw [quote?, byteAt, byteAt, hslice, Option.map_some, Text.trimmed, String.toList_ofList, excerpt]

theorem byteAt_le_iff (hi : i ≤ cs.length) (hj : j ≤ cs.length) :
    byteAt cs i ≤ byteAt cs j ↔ i ≤ j := by
  refine ⟨fun hle => Nat.le_of_not_lt fun hlt => ?_, byteAt_le_byteAt cs⟩
  obtain ⟨k, rfl⟩ := Nat.exists_eq_add_of_lt hlt
  have hmore := Text.length_le_width ((cs.drop j).take (k + 1))
  rw [List.length_take_of_le (by rw [List.length_drop]; omega)] at hmore
  rw [byteAt, byteAt, Nat.add_assoc, List.take_add, Text.width_append] at hle
  omega

/-- The condition of a clause does not depend on how places are counted. -/
theorem conditionOf?_byteAt (hxs : ∀ x ∈ xs, x.start ≤ cs.length ∧ x.stop ≤ cs.length)
    (hi : i ≤ cs.length) (hj : j ≤ cs.length) :
    conditionOf? (xs.map (Condition.move (byteAt cs))) (byteAt cs i) (byteAt cs j) =
      conditionOf? xs i j := by
  have hsame (x : Condition) (hx : x ∈ xs) :
      (decide (byteAt cs i ≤ byteAt cs x.start) && decide (byteAt cs x.stop ≤ byteAt cs j)) =
        (decide (i ≤ x.start) && decide (x.stop ≤ j)) := by
    rw [decide_eq_decide.mpr (byteAt_le_iff hi (hxs x hx).1),
      decide_eq_decide.mpr (byteAt_le_iff (hxs x hx).2 hj)]
  have hfind : xs.find? ((fun x : Condition => decide (byteAt cs i ≤ x.start) &&
      decide (x.stop ≤ byteAt cs j)) ∘ Condition.move (byteAt cs)) =
        xs.find? fun x => decide (i ≤ x.start) && decide (x.stop ≤ j) :=
    List.find?_congr hsame
  simp only [conditionOf?, List.find?_map, hfind]
  cases xs.find? fun x => decide (i ≤ x.start) && decide (x.stop ≤ j) <;> rfl

/-- What is met starts before it stops. -/
def Finding.IsProper : Finding → Prop
  | .found f            => f.start ≤ f.stop
  | .skipped start stop => start ≤ stop

theorem isProper_of_mem_findings {ts : List Token} (h : Ordered ts) {finding : Finding}
    (hf : finding ∈ findings [] ts) : finding.IsProper := by
  rw [findings_eq_filterMap] at hf
  obtain ⟨start, hs, hmade⟩ := List.mem_filterMap.mp hf
  cases finding with
  | found f =>
      obtain ⟨p, rfl, -⟩ := exists_passage hs hmade
      have hfirst := p.stop_le h (List.mem_append_right _ p.first_mem)
      rw [Finding.IsProper, p.start_eq]
      omega
  | skipped first stop =>
      have htext := (text_of_mem_starts hs).1
      rw [List.reverse_nil, List.nil_append] at htext
      have hordered : Ordered (start.head :: start.rest) :=
        h.sublist (htext ▸ List.sublist_append_right _ _)
      obtain ⟨u, hu, hstop⟩ := excerptStop_mem start.head start.rest
      have hle := hordered.start_le_of_cons hu
      have hroom := hordered.room u hu
      unfold Start.finding? at hmade
      split at hmade
      next => simp at hmade
      next =>
        obtain ⟨rfl, rfl⟩ := Finding.skipped.inj (Option.some.inj hmade)
        rw [Finding.IsProper, hstop]
        omega
      next => cases hmade

/-! ### All slices -/

theorem mapM_eq_some {α β : Type} {f : α → Option β} {g : α → β} {l : List α}
    (h : ∀ a ∈ l, f a = some (g a)) : l.mapM f = some (l.map g) := by
  induction l with
  | nil => rfl
  | cons a l ih =>
      rw [List.mapM_cons, h a List.mem_cons_self, ih fun b hb => h b (List.mem_cons_of_mem _ hb)]
      rfl

theorem utf8ByteSize_eq_byteAt (text : String) :
    text.utf8ByteSize = byteAt text.toList text.toList.length := by
  rw [byteAt, List.take_length, ← Text.utf8ByteSize_eq_width, String.ofList_toList]

/-- The threshold of a clause is read by bytes as by characters. -/
theorem Found.readBytes?_move (hproper : f.start ≤ f.stop)
    (hf : (Finding.found f).EndsBy s.text.toList.length)
    (hxs : ∀ x ∈ xs, x.start ≤ s.text.toList.length ∧ x.stop ≤ s.text.toList.length) :
    (f.move (byteAt s.text.toList)).readBytes? s
        (xs.map (Condition.move (byteAt s.text.toList))) =
      some (f.threshold s.citation s.text.toList xs) := by
  have hnext : f.next.getD s.text.toList.length ≤ s.text.toList.length := by
    cases hn : f.next with
    | none => exact Nat.le_refl _
    | some n => exact hf.2 n hn
  have hquote : quote? s.text (byteAt s.text.toList f.start) (byteAt s.text.toList f.stop) =
      some (excerpt s.text.toList f.start f.stop) := quote?_byteAt hproper
  have hcondition := conditionOf?_byteAt hxs hf.1 hnext
  simp only [Found.readBytes?, Found.move, hquote, Option.map_some, utf8ByteSize_eq_byteAt,
    Option.getD_map, hcondition]
  rfl

section Findings
variable {fs : List Finding} (g : Nat → Nat)

theorem filterMap_found?_move :
    (fs.map (Finding.move g)).filterMap Finding.found? =
      (fs.filterMap Finding.found?).map (Found.move g) := by
  rw [List.filterMap_map, List.map_filterMap]
  refine List.filterMap_congr fun f _ => ?_
  cases f <;> rfl

theorem filterMap_words?_move :
    (fs.map (Finding.move g)).filterMap Finding.words? =
      (fs.filterMap Finding.words?).map fun (start, stop) => (g start, g stop) := by
  rw [List.filterMap_map, List.map_filterMap]
  refine List.filterMap_congr fun f _ => ?_
  cases f <;> rfl

end Findings

/-- What is met in a snippet stands in its text. -/
theorem isProper_of_mem_snippet {finding : Finding} (h : finding ∈ findings [] (snippetTokens s)) :
    finding.IsProper ∧ finding.EndsBy s.text.toList.length := by
  have hends := endsBy_of_mem_text h
  rw [mask, length_maskFrom] at hends
  exact ⟨isProper_of_mem_findings (ordered_tokens _) h, hends⟩

/-- The slices for the clauses are there. -/
theorem mapM_readBytes? (s : Snippet) :
    (clauses s).mapM (fun f => (f.move (byteAt s.text.toList)).readBytes? s
      ((mask s.text.toList).2.map (Condition.move (byteAt s.text.toList)))) =
        some (ofSnippet s).thresholds := by
  have hxs : ∀ x ∈ (mask s.text.toList).2,
      x.start ≤ s.text.toList.length ∧ x.stop ≤ s.text.toList.length := by
    intro x hx
    have hbounds := bounds_of_mem_maskFrom 0 _ hx
    omega
  rw [thresholds_eq_map]
  refine mapM_eq_some fun f hf => ?_
  obtain ⟨finding, hfinding, hfound⟩ := List.mem_filterMap.mp hf
  cases finding with
  | found f' =>
      obtain rfl : f' = f := Option.some.inj hfound
      have hproper := isProper_of_mem_snippet hfinding
      exact f'.readBytes?_move hproper.1 hproper.2 hxs
  | skipped => cases hfound

/-- The slices for the notices are there. -/
theorem mapM_quote? (s : Snippet) :
    ((findings [] (snippetTokens s)).filterMap Finding.words?).mapM (fun w =>
      (quote? s.text (byteAt s.text.toList w.1) (byteAt s.text.toList w.2)).map
        (Skipped.ofWords s)) = some (ofSnippet s).skipped := by
  have hwords : (ofSnippet s).skipped = ((findings [] (snippetTokens s)).filterMap
      Finding.words?).map fun w => Skipped.ofWords s (excerpt s.text.toList w.1 w.2) := by
    rw [List.map_filterMap]
    refine List.filterMap_congr fun f _ => ?_
    cases f <;> rfl
  rw [hwords]
  refine mapM_eq_some fun w hw => ?_
  obtain ⟨finding, hfinding, hword⟩ := List.mem_filterMap.mp hw
  cases finding with
  | found => cases hword
  | skipped start stop =>
      obtain rfl : (start, stop) = w := Option.some.inj hword
      have hquote : quote? s.text (byteAt s.text.toList start) (byteAt s.text.toList stop) =
          some (excerpt s.text.toList start stop) :=
        quote?_byteAt (isProper_of_mem_snippet hfinding).1
      rw [hquote]
      rfl

/-- **Every slice that is taken when a snippet is read by bytes is there**, and what is read is what
is read by characters. -/
theorem readBytes?_eq (s : Snippet) : readBytes? s = some (ofSnippet s) := by
  have hsearch : conditionsFrom? s.text (loweredText s.text) 0 = some ((mask s.text.toList).2.map
      (Condition.move (byteAt s.text.toList))) :=
    (blanked_maskFrom 0 s.text.toList).conditionsFrom?_eq [] rfl rfl
  have hthresholds := mapM_readBytes? s
  have hskipped := mapM_quote? s
  unfold readBytes?
  rw [hsearch]
  simp only [Option.bind_eq_bind, Option.bind_some]
  rw [findings_blankFrom, filterMap_found?_move, filterMap_words?_move, List.mapM_map,
    List.mapM_map, ← snippetTokens, ← clauses]
  simp only [Function.comp_def, hthresholds, hskipped, Option.bind_some]
  rfl

/-! ### Quotations in order -/

/-- The threshold quotes the clause as it stands in the text. -/
structure Quotes (s : Snippet) (t : Threshold) (f : Found) : Prop where
  metric : t.metric = f.metric
  /-- The clause goes from the name of its metric to its number, or to the last word of its unit or
  its trailing comparison. -/
  passage : ∃ p : Passage f, p.tokens = snippetTokens s
  verbatim : ∃ before after, s.text.toList = before ++ (t.clause.toList ++ after) ∧
    before.length = f.start ∧ before.length + t.clause.toList.length = f.stop

theorem quotes_threshold (hf : f ∈ clauses s) (xs : List Condition) :
    Quotes s (f.threshold s.citation s.text.toList xs) f where
  metric := rfl
  passage := exists_passage_of_mem hf
  verbatim := by
    obtain ⟨p, hp⟩ := exists_passage_of_mem hf
    obtain ⟨hlt, hle⟩ := bounds_of_passage p hp
    have hclause : (f.threshold s.citation s.text.toList xs).clause.toList =
        (s.text.toList.drop f.start).take (f.stop - f.start) := by
      rw [Found.threshold, excerpt_of_passage p hp, String.toList_ofList]
    refine ⟨s.text.toList.take f.start, s.text.toList.drop f.stop, ?_, ?_, ?_⟩
    · rw [hclause, ← List.append_assoc, ← List.take_add, Nat.add_sub_cancel' (Nat.le_of_lt hlt),
        List.take_append_drop]
    · rw [List.length_take_of_le (by omega)]
    · rw [hclause, List.length_take_of_le (by omega), List.length_take_of_le]
      · omega
      · rw [List.length_drop]
        omega

/-- **Clauses are quoted as they stand in the text.**  Every slice that is taken when a snippet is
read by bytes starts and ends between characters, and what is read so is what is read from it.  Each
threshold quotes a part of the text, from the name of its metric to the last word of its limit, and
each of these parts starts where the one before it stops, or behind. -/
theorem clauses_are_quoted (s : Snippet) :
    readBytes? s = some (ofSnippet s) ∧
      List.Forall₂ (Quotes s) (ofSnippet s).thresholds (clauses s) ∧
      (clauses s).Pairwise fun f g => f.stop ≤ g.start := by
  refine ⟨readBytes?_eq s, ?_, (pairwise_clauses s).imp fun ⟨n, _, hstop, hstart⟩ =>
    Nat.le_trans hstop hstart⟩
  rw [thresholds_eq_map, List.forall₂_map_left_iff, List.forall₂_same]
  exact fun f hf => quotes_threshold hf _

end SiteSafety.Clause
