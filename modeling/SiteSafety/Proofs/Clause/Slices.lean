import SiteSafety.Proofs.Clause.Masking
import SiteSafety.Proofs.Text.Width

/-!
# Proofs — Clause — Slices

The conditions of a text, found by bytes.  Tags are looked up in a copy of the text in lower case,
brackets in the text itself, and each look starts at a byte that an earlier one gave.  A slice of a
text (`slice?`) has to start and end between characters, and there is none where it does not; so
`conditionsFrom?` gives conditions only if every byte that it slices at is such a place.

* `quote?_byteAt`: a part of a text that is sliced out by its bytes.
* `conditionsFrom?_eq`: **every slice that the search for conditions takes is there**, and the
  conditions are those of `mask`, by the bytes at which they stand.
-/

namespace SiteSafety.Clause

variable {text : String} {c : Char} {cs pre span body rest : List Char} {i j o : Nat}
  {x : Condition}

/-! ### Slices -/

/-- The part of a text between two bytes.  There is none unless both are places between characters
of the text, the first one not behind the second. -/
def slice? (text : String) (i j : Nat) : Option String :=
  if i ≤ j ∧ (⟨i⟩ : String.Pos.Raw).IsValid text ∧ (⟨j⟩ : String.Pos.Raw).IsValid text then
    some (String.Pos.Raw.extract text ⟨i⟩ ⟨j⟩)
  else none

/-- The degree sign takes two bytes, of which the second one starts no character. -/
example : slice? "20°C" 3 4 = none := by decide +kernel

/-- The byte of a text at which a character starts. -/
def byteAt (cs : List Char) (i : Nat) : Nat := Text.width (cs.take i)

theorem slice?_eq {w post : List Char} (h : text.toList = pre ++ (w ++ post)) :
    slice? text (Text.width pre) (Text.width pre + Text.width w) = some (String.ofList w) := by
  have hstop : text.toList = (pre ++ w) ++ post := by rw [h, List.append_assoc]
  have hvalid := Text.isValid_width hstop
  rw [Text.width_append] at hvalid
  rw [slice?, if_pos ⟨Nat.le_add_right _ _, Text.isValid_width h, hvalid⟩, Text.extract_width h]

/-- The rest of a text is a slice of it. -/
theorem slice?_rest (h : text.toList = pre ++ cs) :
    slice? text (Text.width pre) text.utf8ByteSize = some (String.ofList cs) := by
  have hsize : text.utf8ByteSize = Text.width pre + Text.width cs := by
    rw [← Text.width_append, ← h, ← Text.utf8ByteSize_eq_width, String.ofList_toList]
  have hall : text.toList = pre ++ (cs ++ []) := by rw [List.append_nil, h]
  rw [hsize]
  exact slice?_eq hall

/-! ### Searching -/

/-- The first byte of a text at which a pattern stands. -/
def byteOf? (pattern : List Char) (text : String) : Option Nat :=
  (Text.cut? pattern text.toList).map fun (before, _) => Text.width before

/-- The first condition from a byte on, where `lowered` is the text in lower case. -/
def nextCondition? (text lowered : String) (o : Nat) : Option (Option Condition) := do
  let ahead ← slice? lowered o lowered.utf8ByteSize
  let some found := byteOf? conditionTag ahead | return none
  let start := o + found
  let inner := start + Text.width conditionTag
  let behind ← slice? text inner text.utf8ByteSize
  let some close := byteOf? [']'] behind | return none
  let body ← slice? text inner (inner + close)
  return some ⟨start, inner + close + 1, Text.trimmed body⟩

theorem le_of_slice? {part : String} (h : slice? text i j = some part) : i ≤ j := by
  unfold slice? at h
  split at h
  next hplaces => exact hplaces.1
  next => cases h

/-- The search goes on behind the condition that was found. -/
theorem lt_stop_of_nextCondition? {lowered : String}
    (h : nextCondition? text lowered o = some (some x)) :
    o ≤ lowered.utf8ByteSize ∧ o < x.stop := by
  obtain ⟨ahead, hahead, h⟩ := Option.bind_eq_some_iff.mp h
  refine ⟨le_of_slice? hahead, ?_⟩
  cases hfound : byteOf? conditionTag ahead with
  | none => simp [hfound] at h
  | some found =>
      simp only [hfound] at h
      obtain ⟨behind, -, h⟩ := Option.bind_eq_some_iff.mp h
      cases hclose : byteOf? [']'] behind with
      | none => simp [hclose] at h
      | some close =>
          simp only [hclose] at h
          obtain ⟨body, -, h⟩ := Option.bind_eq_some_iff.mp h
          obtain rfl := Option.some.inj (Option.some.inj h)
          show o < o + found + Text.width conditionTag + close + 1
          omega

/-- The conditions from a byte on. -/
def conditionsFrom? (text lowered : String) (o : Nat) : Option (List Condition) :=
  match _hnext : nextCondition? text lowered o with
  | none => none
  | some none => some []
  | some (some x) => (conditionsFrom? text lowered x.stop).map (x :: ·)
termination_by lowered.utf8ByteSize + 1 - o
decreasing_by
  have hbehind := lt_stop_of_nextCondition? _hnext
  omega

/-! ### The next condition -/

/-- The first condition of a text that stands behind another one, by its bytes. -/
def nextIn? (pre cs : List Char) : Option Condition := do
  let (ahead, _) ← Text.cut? conditionTag (Text.asciiLower cs)
  let (body, _) ← Text.cut? [']'] (cs.drop (ahead.length + conditionTag.length))
  let inner := Text.width pre + Text.width ahead + Text.width conditionTag
  return ⟨Text.width pre + Text.width ahead, inner + Text.width body + 1,
    String.ofList (Text.trim body)⟩

/-- The text in lower case, which conditions are looked up in. -/
def loweredText (text : String) : String := String.ofList (Text.asciiLower text.toList)

/-- The slices that the search takes are there. -/
theorem nextCondition?_eq (h : text.toList = pre ++ cs) :
    nextCondition? text (loweredText text) (Text.width pre) = some (nextIn? pre cs) := by
  have hlowered : (loweredText text).toList = Text.asciiLower pre ++ Text.asciiLower cs := by
    rw [loweredText, String.toList_ofList, h, Text.asciiLower, List.map_append]
    rfl
  have hahead := slice?_rest hlowered
  rw [Text.width_asciiLower] at hahead
  unfold nextCondition? nextIn?
  rw [hahead]
  simp only [Option.bind_eq_bind, Option.bind_some, byteOf?, String.toList_ofList]
  cases hcut : Text.cut? conditionTag (Text.asciiLower cs) with
  | none => rfl
  | some parts =>
      obtain ⟨ahead, after⟩ := parts
      generalize hn : ahead.length + conditionTag.length = n
      have hinner : Text.width (pre ++ cs.take n) =
          Text.width pre + Text.width ahead + Text.width conditionTag := by
        have hlower : Text.asciiLower (cs.take n) = ahead ++ conditionTag := by
          rw [Text.asciiLower, List.map_take, ← Text.asciiLower, Text.append_of_cut? hcut,
            ← List.append_assoc, List.take_left' (by rw [List.length_append, hn])]
        rw [Text.width_append, ← Text.width_asciiLower (cs.take n), hlower, Text.width_append,
          Nat.add_assoc]
      have htext : text.toList = (pre ++ cs.take n) ++ cs.drop n := by
        rw [List.append_assoc, List.take_append_drop, h]
      have hbehind := slice?_rest htext
      rw [hinner] at hbehind
      simp only [Option.map_some, Option.bind_some, hn]
      rw [hbehind]
      simp only [Option.bind_some, String.toList_ofList]
      cases hclose : Text.cut? [']'] (cs.drop n) with
      | none => rfl
      | some parts =>
          obtain ⟨body, rest⟩ := parts
          rw [Text.append_of_cut? hclose] at htext
          have hbody := slice?_eq htext
          rw [hinner] at hbody
          simp only [Option.map_some, Option.bind_some]
          rw [hbody]
          simp only [Option.bind_some, Text.trimmed, String.toList_ofList]
          rfl

theorem cut?_lowered_of_opensCondition (h : opensCondition (c :: cs) = true) :
    ∃ after, Text.cut? conditionTag (Text.asciiLower (c :: cs)) = some ([], after) := by
  rw [opensCondition_iff, ← List.isPrefixOf_iff_prefix] at h
  exact ⟨_, if_pos h⟩

/-- Where no condition stands, the next one is that of the rest. -/
theorem nextIn?_keep (hno : ¬HasSpan (c :: cs)) :
    nextIn? pre (c :: cs) = nextIn? (pre ++ [c]) cs := by
  by_cases hopens : opensCondition (c :: cs) = true
  · -- the tag is not closed, and no other one behind it is
    have hopen : ']' ∉ c :: cs := fun hmem => hno (hasSpan_iff.mpr ⟨hopens, hmem⟩)
    have hclose (n : Nat) : Text.cut? [']'] ((c :: cs).drop n) = none :=
      Text.cut?_singleton_eq_none fun hmem => hopen (List.mem_of_mem_drop hmem)
    have hmore (n : Nat) : Text.cut? [']'] (cs.drop n) = none := hclose (n + 1)
    obtain ⟨after, hcut⟩ := cut?_lowered_of_opensCondition hopens
    unfold nextIn?
    rw [hcut]
    simp only [Option.bind_eq_bind, Option.bind_some, hclose, hmore, Option.bind_none]
    cases Text.cut? conditionTag (Text.asciiLower cs) <;> rfl
  · have hcut : Text.cut? conditionTag (Text.asciiLower (c :: cs)) =
        (Text.cut? conditionTag (Text.asciiLower cs)).map fun (before, after) =>
          (c.toLower :: before, after) := by
      rw [opensCondition_iff, ← List.isPrefixOf_iff_prefix] at hopens
      exact if_neg hopens
    unfold nextIn?
    rw [hcut]
    cases Text.cut? conditionTag (Text.asciiLower cs) with
    | none => rfl
    | some parts =>
        obtain ⟨ahead, after⟩ := parts
        have hwidth : Text.width pre + Text.width (c.toLower :: ahead) =
            Text.width (pre ++ [c]) + Text.width ahead := by
          have hfirst : Text.width (c.toLower :: ahead) = c.utf8Size + Text.width ahead := by
            rw [← Text.utf8Size_toLower]
            rfl
          rw [hfirst, Text.width_append, Nat.add_assoc]
          rfl
        have hdrop : (c :: cs).drop ((c.toLower :: ahead).length + conditionTag.length) =
            cs.drop (ahead.length + conditionTag.length) := by
          rw [List.length_cons, Nat.add_right_comm, List.drop_succ_cons]
        simp only [Option.map_some, Option.bind_eq_bind, Option.bind_some, hwidth, hdrop]

/-- Where a condition stands, it is the next one. -/
theorem nextIn?_span (h : IsSpan span body) (pre rest : List Char) : nextIn? pre (span ++ rest) =
    some ⟨Text.width pre, Text.width (pre ++ span), String.ofList (Text.trim body)⟩ := by
  have hopens := h.opensCondition rest
  obtain ⟨tag, htag, hspan⟩ := h.spelled
  obtain ⟨c, cs, hcons⟩ : ∃ c cs, span ++ rest = c :: cs :=
    List.exists_cons_of_length_pos (by rw [List.length_append, h.length_eq]; omega)
  rw [hcons] at hopens
  obtain ⟨after, hcut⟩ := cut?_lowered_of_opensCondition hopens
  have hdrop : (span ++ rest).drop conditionTag.length = body ++ ']' :: rest := by
    rw [hspan, List.append_assoc, ← length_of_tag htag, List.drop_left, List.append_assoc]
    rfl
  have hwidth : Text.width (pre ++ span) =
      Text.width pre + Text.width conditionTag + Text.width body + 1 := by
    have hbracket : Text.width [']'] = 1 := rfl
    rw [hspan, Text.width_append, Text.width_append, Text.width_append, hbracket, ← htag,
      Text.width_asciiLower]
    omega
  unfold nextIn?
  rw [hcons, hcut, ← hcons]
  simp only [Option.bind_eq_bind, Option.bind_some, List.length_nil, Nat.zero_add, hdrop,
    Text.cut?_singleton_append h.closed]
  rw [hwidth]
  rfl

/-! ### All conditions -/

/-- The condition, by other places. -/
def Condition.move (g : Nat → Nat) (x : Condition) : Condition :=
  ⟨g x.start, g x.stop, x.expression⟩

theorem byteAt_length (pre cs : List Char) : byteAt (pre ++ cs) pre.length = Text.width pre := by
  rw [byteAt, List.take_left]

/-- The search depends on the next condition only. -/
theorem conditionsFrom?_eq_bind (text lowered : String) (o : Nat) :
    conditionsFrom? text lowered o = (nextCondition? text lowered o).bind fun next =>
      next.elim (some []) fun x => (conditionsFrom? text lowered x.stop).map (x :: ·) := by
  rw [conditionsFrom?]
  split
  next hnext => rw [hnext]; rfl
  next hnext => rw [hnext]; rfl
  next hnext => rw [hnext]; rfl

/-- **Every slice that the search for conditions takes is there**, and the conditions are those of
the text, by their bytes. -/
theorem Blanked.conditionsFrom?_eq {ds : List Char} {xs : List Condition}
    (h : Blanked i cs ds xs) (pre : List Char) (hi : pre.length = i)
    (htext : text.toList = pre ++ cs) :
    conditionsFrom? text (loweredText text) (Text.width pre) =
      some (xs.map (Condition.move (byteAt text.toList))) := by
  have hbyte {pre cs : List Char} (h : text.toList = pre ++ cs) :
      byteAt text.toList pre.length = Text.width pre := by rw [h, byteAt_length]
  induction h generalizing pre with
  | nil =>
      rw [conditionsFrom?_eq_bind, nextCondition?_eq htext]
      rfl
  | @keep i c cs ds xs hno _ ih =>
      have hbehind : text.toList = (pre ++ [c]) ++ cs := by rw [htext, List.append_assoc]; rfl
      have hrest := ih (pre ++ [c]) (by rw [List.length_append, hi]; rfl) hbehind
      rw [conditionsFrom?_eq_bind, nextCondition?_eq hbehind] at hrest
      rw [conditionsFrom?_eq_bind, nextCondition?_eq htext, nextIn?_keep hno, hrest]
  | @blank i n span body rest ds xs hspan _ ih =>
      have hbehind : text.toList = (pre ++ span) ++ rest := by rw [htext, List.append_assoc]
      have hrest := ih (pre ++ span) (by rw [List.length_append, hi]) hbehind
      have hstart := hbyte htext
      have hstop := hbyte hbehind
      rw [List.length_append, hi] at hstop
      rw [conditionsFrom?_eq_bind, nextCondition?_eq htext, nextIn?_span hspan, Option.bind_some,
        Option.elim_some, hrest, List.map_cons, Option.map_some, Condition.move, hstop, ← hi,
        hstart]

end SiteSafety.Clause
