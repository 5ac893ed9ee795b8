import SiteSafety.Proofs.Clause.Parts
import SiteSafety.Proofs.Text.Search

/-!
# Proofs — Clause — Locality

What a line of rule text says does not depend on the lines around it.  Its clauses are those of the
line alone (`findings_tokens_append`), they are quoted from it, and its conditions are its own as
long as the lines before it close theirs.

* `maskFrom_append`: the conditions of a text are those of its lines, moved to where the lines
  stand.
* `ofSnippet_lines`: **what is read from two lines is what is read from the one and what is read
  from the other**, in this order.
-/

namespace SiteSafety.Clause
open Rule

variable {c : Char} {cs ds : List Char} {i k start stop : Nat}

/-! ### Tags -/

/-- A condition opens at the head of a text. -/
def opensCondition (cs : List Char) : Bool :=
  conditionTag.isPrefixOf (Text.asciiLower (cs.take conditionTag.length))

theorem opensCondition_iff : opensCondition cs = true ↔ conditionTag <+: Text.asciiLower cs := by
  rw [opensCondition, List.isPrefixOf_iff_prefix, Text.asciiLower, List.map_take,
    List.prefix_take_iff]
  simp [Text.asciiLower]

/-- Every tag that opens a condition has a closing bracket behind it in the text.  A tag inside a
condition opens none; the bracket that closes the condition stands behind both of them. -/
def TagsClosed (cs : List Char) : Prop := ∀ t ∈ cs.tails, opensCondition t = true → ']' ∈ t

instance (cs : List Char) : Decidable (TagsClosed cs) :=
  inferInstanceAs (Decidable (∀ t ∈ cs.tails, opensCondition t = true → ']' ∈ t))

theorem TagsClosed.drop (h : TagsClosed cs) (n : Nat) : TagsClosed (cs.drop n) := by
  intro t ht
  exact h t ((List.mem_tails ..).mpr (((List.mem_tails ..).mp ht).trans (List.drop_suffix n cs)))

theorem opensCondition_append (hc : c.toLower ∉ conditionTag) :
    opensCondition (cs ++ c :: ds) = opensCondition cs := by
  rw [Bool.eq_iff_iff, opensCondition_iff, opensCondition_iff, Text.asciiLower, List.map_append,
    List.map_cons, Text.prefix_append_cons_iff hc]
  rfl

/-- The closing bracket of a condition stands behind its tag. -/
theorem mem_drop_of_opensCondition (ho : opensCondition cs = true) (h : ']' ∈ cs) :
    ']' ∈ cs.drop conditionTag.length := by
  rw [opensCondition_iff, List.prefix_iff_eq_take, Text.asciiLower, ← List.map_take] at ho
  rw [← List.take_append_drop conditionTag.length cs, List.mem_append] at h
  rcases h with h | h
  · have htag : ']'.toLower ∈ conditionTag := ho ▸ List.mem_map_of_mem h
    exact absurd htag (by decide)
  · exact h

theorem takeWhile_append_of_mem {α : Type} {p : α → Bool} {x : α} {l m : List α} (hx : x ∈ l)
    (hp : p x = false) : (l ++ m).takeWhile p = l.takeWhile p := by
  induction l with
  | nil => cases hx
  | cons a l ih =>
      rw [List.cons_append, List.takeWhile_cons, List.takeWhile_cons]
      split
      case isTrue ha =>
        have hne : x ≠ a := by
          rintro rfl
          rw [hp] at ha
          cases ha
        rw [ih ((List.mem_cons.mp hx).resolve_left hne)]
      case isFalse => rfl

theorem conditionBody?_append (hc : c.toLower ∉ conditionTag)
    (hclosed : opensCondition cs = true → ']' ∈ cs) :
    conditionBody? (cs ++ c :: ds) = conditionBody? cs := by
  have hopens : opensCondition (cs ++ c :: ds) = opensCondition cs := opensCondition_append hc
  unfold opensCondition at hopens
  unfold conditionBody?
  rw [hopens]
  split
  case isFalse => rfl
  case isTrue ho =>
    have hlen : conditionTag.length ≤ cs.length := by
      have htag : conditionTag <+: Text.asciiLower cs := opensCondition_iff.mp ho
      simpa [Text.asciiLower] using htag.length_le
    have hmem := mem_drop_of_opensCondition ho (hclosed ho)
    simp [List.drop_append_of_le_length hlen, hmem, takeWhile_append_of_mem hmem]

/-- The brackets of a condition stand in the text. -/
theorem length_of_conditionBody? {body : List Char} (h : conditionBody? cs = some body) :
    conditionTag.length + body.length < cs.length := by
  unfold conditionBody? at h
  split at h
  case isFalse => cases h
  case isTrue =>
    simp only [Option.ite_none_right_eq_some, Option.some.injEq, List.contains_iff_mem] at h
    obtain ⟨hmem, rfl⟩ := h
    have hlt : ((cs.drop conditionTag.length).takeWhile (· != ']')).length <
        (cs.drop conditionTag.length).length := by
      refine Nat.lt_of_le_of_ne (List.takeWhile_prefix _).length_le fun heq => ?_
      rw [← (List.takeWhile_prefix _).eq_of_length heq] at hmem
      simpa using List.mem_takeWhile_imp hmem
    rw [List.length_drop] at hlt
    omega

/-! ### Conditions -/

/-- The condition, so many characters further on. -/
def Condition.shift (k : Nat) (c : Condition) : Condition :=
  ⟨c.start + k, c.stop + k, c.expression⟩

theorem maskFrom_shift (i k : Nat) (cs : List Char) :
    maskFrom (i + k) cs = ((maskFrom i cs).1, (maskFrom i cs).2.map (Condition.shift k)) := by
  fun_induction maskFrom i cs with
  | case1 i => simp [maskFrom]
  | case2 i a rest body hbody length masked more hmore ih =>
      have hplace : i + k + 1 + length = i + 1 + length + k := by omega
      rw [hmore] at ih
      rw [maskFrom, hbody]
      simp only [hplace, length] at ih ⊢
      simp only [ih, List.map_cons, Condition.shift]
  | case3 i a rest hbody masked more hmore ih =>
      have hplace : i + k + 1 = i + 1 + k := by omega
      rw [hmore] at ih
      rw [maskFrom, hbody]
      simp only [hplace, ih]

/-- A text keeps its length when its conditions are blanked out. -/
theorem length_maskFrom (i : Nat) (cs : List Char) : (maskFrom i cs).1.length = cs.length := by
  fun_induction maskFrom i cs with
  | case1 i => rfl
  | case2 i a rest body hbody length masked more hmore ih =>
      have hlen := length_of_conditionBody? hbody
      rw [hmore] at ih
      simp only [List.length_append, List.length_replicate, ih, List.length_drop,
        List.length_cons] at hlen ⊢
      omega
  | case3 i a rest hbody masked more hmore ih =>
      rw [hmore] at ih
      simp only [List.length_cons, ih]

/-- A condition stands in its text. -/
theorem bounds_of_mem_maskFrom {x : Condition} (i : Nat) (cs : List Char)
    (h : x ∈ (maskFrom i cs).2) : i ≤ x.start ∧ x.start ≤ x.stop ∧ x.stop ≤ i + cs.length := by
  fun_induction maskFrom i cs with
  | case1 i => cases h
  | case2 i a rest body hbody length masked more hmore ih =>
      have hlen := length_of_conditionBody? hbody
      rw [hmore] at ih
      simp only [List.length_drop, List.length_cons] at ih hlen ⊢
      rcases List.mem_cons.mp h with rfl | h
      · simp only
        omega
      · have := ih h
        omega
  | case3 i a rest hbody masked more hmore ih =>
      rw [hmore] at ih
      have := ih h
      simp only [List.length_cons]
      omega

/-- The conditions of a text are those of its lines, moved to where the lines stand. -/
theorem maskFrom_append (hc : c.toLower ∉ conditionTag) (i : Nat) (hclosed : TagsClosed cs)
    (ds : List Char) :
    maskFrom i (cs ++ c :: ds) =
      ((maskFrom i cs).1 ++ c :: (maskFrom 0 ds).1,
        (maskFrom i cs).2 ++ (maskFrom 0 ds).2.map (Condition.shift (i + cs.length + 1))) := by
  have hbody_append (t : List Char) (ht : TagsClosed t) :
      conditionBody? (t ++ c :: ds) = conditionBody? t :=
    conditionBody?_append hc (ht t (by simp))
  fun_induction maskFrom i cs with
  | case1 i =>
      have hnone : conditionBody? (c :: ds) = none := hbody_append [] hclosed
      have hplace := maskFrom_shift 0 (i + 1) ds
      rw [Nat.zero_add] at hplace
      rw [List.nil_append, maskFrom, hnone]
      simp only [hplace, List.nil_append, List.length_nil, Nat.add_zero]
  | case2 i a rest body hbody length masked more hmore ih =>
      have hlen : length ≤ rest.length := by
        have := length_of_conditionBody? hbody
        rw [List.length_cons] at this
        omega
      have hplace : i + 1 + length + (rest.drop length).length + 1 =
          i + (a :: rest).length + 1 := by
        rw [List.length_drop, List.length_cons]
        omega
      have hnext := hbody_append (a :: rest) hclosed
      have hih := ih (hclosed.drop (length + 1))
      rw [hmore, hplace] at hih
      rw [List.cons_append] at hnext ⊢
      rw [maskFrom, hnext, hbody]
      simp only [length] at hih hlen ⊢
      simp only [List.drop_append_of_le_length hlen, hih, List.cons_append, List.append_assoc]
  | case3 i a rest hbody masked more hmore ih =>
      have hplace : i + 1 + rest.length + 1 = i + (a :: rest).length + 1 := by
        rw [List.length_cons]
        omega
      have hnext := hbody_append (a :: rest) hclosed
      have hih := ih (hclosed.drop 1)
      rw [hmore, hplace] at hih
      rw [List.cons_append] at hnext ⊢
      rw [maskFrom, hnext, hbody]
      simp only [hih, List.cons_append]

/-! ### Quotations and conditions of a part -/

theorem excerpt_append (h : stop ≤ cs.length) :
    excerpt (cs ++ ds) start stop = excerpt cs start stop := by
  unfold excerpt
  rcases Nat.le_total start cs.length with hle | hle
  · rw [List.drop_append_of_le_length hle, List.take_append_of_le_length]
    rw [List.length_drop]
    omega
  · have hempty : stop - start = 0 := by omega
    rw [hempty, List.take_zero, List.take_zero]

theorem excerpt_behind (cs ds : List Char) (start stop : Nat) :
    excerpt (cs ++ ds) (start + cs.length) (stop + cs.length) = excerpt ds start stop := by
  unfold excerpt
  rw [Nat.add_comm start, ← List.drop_drop, List.drop_left, Nat.add_comm stop,
    Nat.add_sub_add_left]

variable {xs ys : List Condition} {stop next : Nat}

theorem conditionOf?_append (h : ∀ y ∈ ys, next < y.stop) :
    conditionOf? (xs ++ ys) stop next = conditionOf? xs stop next := by
  have hnone : (ys.find? fun y => stop ≤ y.start && y.stop ≤ next) = none := by
    rw [List.find?_eq_none]
    intro y hy
    have := h y hy
    simp only [Bool.and_eq_true, decide_eq_true_eq]
    omega
  simp only [conditionOf?, List.find?_append, hnone, Option.or_none]

theorem conditionOf?_behind (h : ∀ x ∈ xs, x.start < k) (ys : List Condition) (stop next : Nat) :
    conditionOf? (xs ++ ys.map (Condition.shift k)) (stop + k) (next + k) =
      conditionOf? ys stop next := by
  have hnone : (xs.find? fun x => stop + k ≤ x.start && x.stop ≤ next + k) = none := by
    rw [List.find?_eq_none]
    intro x hx
    have := h x hx
    simp only [Bool.and_eq_true, decide_eq_true_eq]
    omega
  have hshift : ((fun x : Condition => decide (stop + k ≤ x.start) && decide (x.stop ≤ next + k)) ∘
      Condition.shift k) = fun x => decide (stop ≤ x.start) && decide (x.stop ≤ next) := by
    funext x
    simp [Condition.shift]
  simp only [conditionOf?, List.find?_append, hnone, Option.none_or, List.find?_map, hshift]
  cases ys.find? fun x => decide (stop ≤ x.start) && decide (x.stop ≤ next) <;> rfl

/-! ### Lines -/

section Lines
variable {f : Finding} (citation : Citation)

theorem Finding.threshold?_meet (xs : List Condition) (hf : f.EndsBy cs.length)
    (h : ∀ y ∈ ys, cs.length < y.stop) :
    (f.meet cs.length).threshold? citation (cs ++ ds) (xs ++ ys) = f.threshold? citation cs xs := by
  cases f with
  | skipped => rfl
  | found f =>
      have hnext : f.next.getD cs.length ≤ cs.length := by
        cases hn : f.next with
        | none => exact Nat.le_refl _
        | some n => exact hf.2 n hn
      have hcondition : conditionOf? (xs ++ ys) f.stop (f.next.getD cs.length) =
          conditionOf? xs f.stop (f.next.getD cs.length) :=
        conditionOf?_append fun y hy => Nat.lt_of_le_of_lt hnext (h y hy)
      have hplace : (f.next.or (some cs.length)).getD (cs ++ ds).length =
          f.next.getD cs.length := by
        cases f.next <;> rfl
      simp only [Finding.meet, Finding.threshold?, Found.threshold, excerpt_append hf.1, hplace,
        hcondition]

theorem Finding.threshold?_shift (f : Finding) (ds : List Char) (ys : List Condition)
    (h : ∀ x ∈ xs, x.start < cs.length) :
    (f.shift cs.length).threshold? citation (cs ++ ds) (xs ++ ys.map (Condition.shift cs.length)) =
      f.threshold? citation ds ys := by
  cases f with
  | skipped => rfl
  | found f =>
      have hplace : (f.next.map (· + cs.length)).getD (cs ++ ds).length =
          f.next.getD ds.length + cs.length := by
        cases f.next with
        | none => simp [Nat.add_comm]
        | some n => rfl
      simp only [Finding.shift, Finding.threshold?, Found.threshold, excerpt_behind, hplace,
        conditionOf?_behind h]

theorem Finding.skipped?_meet (hf : f.EndsBy cs.length) (n : Nat) :
    (f.meet n).skipped? citation (cs ++ ds) = f.skipped? citation cs := by
  cases f with
  | found => rfl
  | skipped start stop => simp only [Finding.meet, Finding.skipped?, excerpt_append hf]

theorem Finding.skipped?_shift (f : Finding) (cs ds : List Char) :
    (f.shift cs.length).skipped? citation (cs ++ ds) = f.skipped? citation ds := by
  cases f with
  | found => rfl
  | skipped start stop => simp only [Finding.shift, Finding.skipped?, excerpt_behind]

end Lines

/-- What is read from two lines is what is read from the one and what is read from the other. -/
theorem ofSnippet_lines (a b : String) (citation : Citation) (h : TagsClosed a.toList) :
    ofSnippet ⟨a ++ "\n" ++ b, citation⟩ =
      { thresholds := (ofSnippet ⟨a, citation⟩).thresholds ++ (ofSnippet ⟨b, citation⟩).thresholds
        skipped := (ofSnippet ⟨a, citation⟩).skipped ++ (ofSnippet ⟨b, citation⟩).skipped } := by
  obtain ⟨cs, rfl⟩ : ∃ cs, a = String.ofList cs := ⟨a.toList, String.ofList_toList.symm⟩
  obtain ⟨ds, rfl⟩ : ∃ ds, b = String.ofList ds := ⟨b.toList, String.ofList_toList.symm⟩
  rw [String.toList_ofList] at h
  have htext : (String.ofList cs ++ "\n" ++ String.ofList ds).toList = cs ++ '\n' :: ds := by simp
  have hlineFeed : Char.toLower '\n' ∉ conditionTag := by decide
  have hmask := maskFrom_append hlineFeed 0 h ds
  have hfindings := findings_tokens_append (IsBreak.of_isBlank (by decide) (maskFrom 0 ds).1)
    (c := '\n') (by decide) (maskFrom 0 cs).1
  rw [length_maskFrom] at hfindings
  -- the clauses of the first line end in it, and so do the gaps behind them
  have hends : ∀ f ∈ findings [] (tokens (maskFrom 0 cs).1), f.EndsBy cs.length := by
    intro f hf
    have := endsBy_of_mem_text hf
    rwa [length_maskFrom] at this
  have hfirst : ∀ y ∈ (maskFrom 0 ds).2.map (Condition.shift (0 + cs.length + 1)),
      cs.length < y.stop := by
    intro y hy
    obtain ⟨x, -, rfl⟩ := List.mem_map.mp hy
    simp only [Condition.shift]
    omega
  have hsecond : ∀ x ∈ (maskFrom 0 cs).2, x.start < (cs ++ ['\n']).length := by
    intro x hx
    have := bounds_of_mem_maskFrom 0 cs hx
    rw [List.length_append, List.length_singleton]
    omega
  have hlength : (cs ++ ['\n']).length = cs.length + 1 := by simp
  have hsplit : cs ++ '\n' :: ds = (cs ++ ['\n']) ++ ds := by simp
  simp only [ofSnippet, htext, String.toList_ofList, mask, hmask, hfindings, List.filterMap_append,
    List.filterMap_map]
  congr 2
  · exact List.filterMap_congr fun f hf => Finding.threshold?_meet citation _ (hends f hf) hfirst
  · refine List.filterMap_congr fun f _ => ?_
    have hshift := f.threshold?_shift citation ds (maskFrom 0 ds).2 hsecond
    rw [hlength, ← hsplit] at hshift
    rw [Nat.zero_add]
    exact hshift
  · exact List.filterMap_congr fun f hf => Finding.skipped?_meet citation (hends f hf) _
  · refine List.filterMap_congr fun f _ => ?_
    have hshift := f.skipped?_shift citation (cs ++ ['\n']) ds
    rwa [hlength, ← hsplit] at hshift

/-- A line that sets a condition. -/
def conditionedLine : String := "Wind over 20 mph [Condition: reading > 1.5 * limit]."

/-- The condition of the first line is closed in it, so the second line stands by itself. -/
theorem ofSnippet_conditionedLine :
    TagsClosed conditionedLine.toList ∧
      ofSnippet ⟨conditionedLine ++ "\n" ++ "Rain over 5 mm.", ⟨1, "rules", "", 1.0⟩⟩ =
        { thresholds := (ofSnippet ⟨conditionedLine, ⟨1, "rules", "", 1.0⟩⟩).thresholds ++
            (ofSnippet ⟨"Rain over 5 mm.", ⟨1, "rules", "", 1.0⟩⟩).thresholds
          skipped := (ofSnippet ⟨conditionedLine, ⟨1, "rules", "", 1.0⟩⟩).skipped ++
            (ofSnippet ⟨"Rain over 5 mm.", ⟨1, "rules", "", 1.0⟩⟩).skipped } := by
  have hclosed : TagsClosed conditionedLine.toList := by decide
  exact ⟨hclosed, ofSnippet_lines _ _ _ hclosed⟩

end SiteSafety.Clause
