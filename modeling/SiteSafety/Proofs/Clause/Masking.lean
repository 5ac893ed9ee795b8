import SiteSafety.Proofs.Clause.Blanks
import SiteSafety.Proofs.Clause.Extent

/-!
# Proofs — Clause — Masking

What conditions do to the rules around them.  `Blanked i cs ds xs` replaces every condition of the
text `cs` by spaces, as many as one likes, and lists the conditions as they stand from place `i` on.
A condition starts where the first tag with a closing bracket behind it stands, and goes to the
first such bracket.

* `blanked_maskFrom`, `Blanked.conditions_eq`: every text can be blanked, and the conditions that
  are listed are those that `mask` finds.
* `Blanked.respaced`, `Blanked.mask_eq`: what is left has the clauses of the text, and no conditions
  of its own.
* `conditions_stand_apart`: **a condition changes no limit**, belongs to one clause at most, and to
  that one whose end and next token it stands between, first of all conditions there.
-/

namespace SiteSafety.Clause
open Rule

variable {c : Char} {cs ds span body rest : List Char} {xs : List Condition} {i n : Nat}

/-! ### Conditions in brackets -/

/-- A condition in its brackets: a tag, a text without closing brackets, and a closing bracket. -/
structure IsSpan (span body : List Char) : Prop where
  closed : ']' ∉ body
  spelled : ∃ tag, Text.asciiLower tag = conditionTag ∧ span = tag ++ (body ++ [']'])

/-- A condition stands at the head of a text. -/
def HasSpan (cs : List Char) : Prop := ∃ span body, IsSpan span body ∧ span <+: cs

theorem length_of_tag {tag : List Char} (h : Text.asciiLower tag = conditionTag) :
    tag.length = conditionTag.length := by
  rw [← h, Text.asciiLower, List.length_map]

theorem IsSpan.length_eq (h : IsSpan span body) :
    span.length = 1 + (conditionTag.length + body.length) := by
  obtain ⟨tag, htag, rfl⟩ := h.spelled
  rw [List.length_append, List.length_append, List.length_singleton, length_of_tag htag]
  omega

theorem IsSpan.opensCondition (h : IsSpan span body) (rest : List Char) :
    opensCondition (span ++ rest) = true := by
  obtain ⟨tag, htag, rfl⟩ := h.spelled
  rw [opensCondition_iff, List.append_assoc, Text.asciiLower, List.map_append]
  exact ⟨_, congrArg (· ++ _) htag.symm⟩

/-- The body of a condition is found at the head of a text that starts with the condition. -/
theorem IsSpan.conditionBody? (h : IsSpan span body) (rest : List Char) :
    conditionBody? (span ++ rest) = some body := by
  have hopens := h.opensCondition rest
  obtain ⟨tag, htag, rfl⟩ := h.spelled
  have hbody : (body ++ ']' :: rest).takeWhile (· != ']') = body := by
    rw [List.takeWhile_append_of_pos fun d hd => ?_]
    · simp
    · rw [bne_iff_ne]
      rintro rfl
      exact h.closed hd
  unfold Clause.opensCondition at hopens
  unfold Clause.conditionBody?
  rw [if_pos hopens, ← length_of_tag htag, List.append_assoc, List.drop_left, List.append_assoc,
    List.singleton_append]
  dsimp only
  rw [hbody, if_pos (by simp)]

/-- A tag that opens a condition is spelled out. -/
theorem asciiLower_take_of_opensCondition (h : opensCondition cs = true) :
    Text.asciiLower (cs.take conditionTag.length) = conditionTag := by
  rw [opensCondition, List.isPrefixOf_iff_prefix] at h
  refine (h.eq_of_length_le ?_).symm
  rw [Text.asciiLower, List.length_map]
  exact List.length_take_le _ _

/-- A body that is found stands in a condition. -/
theorem exists_span_of_conditionBody? (h : conditionBody? cs = some body) :
    ∃ span rest, IsSpan span body ∧ cs = span ++ rest := by
  unfold conditionBody? at h
  split at h
  case isFalse => cases h
  case isTrue ho =>
    simp only [Option.ite_none_right_eq_some, Option.some.injEq, List.contains_iff_mem] at h
    obtain ⟨hmem, rfl⟩ := h
    obtain ⟨rest, hrest⟩ : ∃ rest,
        (cs.drop conditionTag.length).dropWhile (· != ']') = ']' :: rest := by
      cases hdrop : (cs.drop conditionTag.length).dropWhile (· != ']') with
      | nil =>
          have hno := List.dropWhile_eq_nil_iff.mp hdrop ']' hmem
          simp at hno
      | cons d rest =>
          have hd := List.head?_dropWhile_not (· != ']') (cs.drop conditionTag.length)
          rw [hdrop] at hd
          obtain rfl : d = ']' := by simpa using hd
          exact ⟨rest, rfl⟩
    refine ⟨cs.take conditionTag.length ++
      ((cs.drop conditionTag.length).takeWhile (· != ']') ++ [']']), rest, ⟨?_, _, ?_, rfl⟩, ?_⟩
    · intro hclosed
      simpa using List.mem_takeWhile_imp hclosed
    · exact asciiLower_take_of_opensCondition ho
    · rw [List.append_assoc, List.append_assoc, List.singleton_append, ← hrest,
        List.takeWhile_append_dropWhile, List.take_append_drop]

theorem hasSpan_iff : HasSpan cs ↔ opensCondition cs = true ∧ ']' ∈ cs := by
  constructor
  · rintro ⟨span, body, hspan, rest, rfl⟩
    obtain ⟨tag, -, rfl⟩ := hspan.spelled
    exact ⟨hspan.opensCondition rest, by simp⟩
  · rintro ⟨ho, hmem⟩
    have hbody : (conditionBody? cs).isSome := by
      have hbehind := mem_drop_of_opensCondition ho hmem
      unfold opensCondition at ho
      simp [conditionBody?, ho, hbehind]
    obtain ⟨body, hbody⟩ := Option.isSome_iff_exists.mp hbody
    obtain ⟨span, rest, hspan, rfl⟩ := exists_span_of_conditionBody? hbody
    exact ⟨span, body, hspan, List.prefix_append _ _⟩

theorem conditionBody?_eq_none_iff : conditionBody? cs = none ↔ ¬HasSpan cs := by
  constructor
  · rintro hnone ⟨span, body, hspan, rest, rfl⟩
    rw [hspan.conditionBody?] at hnone
    cases hnone
  · intro hno
    cases hbody : conditionBody? cs with
    | none => rfl
    | some body =>
        obtain ⟨span, rest, hspan, rfl⟩ := exists_span_of_conditionBody? hbody
        exact absurd ⟨span, body, hspan, List.prefix_append _ _⟩ hno

/-! ### Blanked texts -/

/-- The text that starts at a place, with spaces for its conditions, and the conditions in order. -/
inductive Blanked : Nat → List Char → List Char → List Condition → Prop where
  | nil (i : Nat) : Blanked i [] [] []
  | keep {i : Nat} {c : Char} {cs ds : List Char} {xs : List Condition} (hno : ¬HasSpan (c :: cs))
      (h : Blanked (i + 1) cs ds xs) : Blanked i (c :: cs) (c :: ds) xs
  | blank {i n : Nat} {span body rest ds : List Char} {xs : List Condition}
      (hspan : IsSpan span body) (h : Blanked (i + span.length) rest ds xs) :
      Blanked i (span ++ rest) (List.replicate (n + 1) ' ' ++ ds)
        (⟨i, i + span.length, String.ofList (Text.trim body)⟩ :: xs)

theorem maskFrom_keep (hno : ¬HasSpan (c :: cs)) (i : Nat) :
    maskFrom i (c :: cs) = (c :: (maskFrom (i + 1) cs).1, (maskFrom (i + 1) cs).2) := by
  rw [maskFrom, conditionBody?_eq_none_iff.mpr hno]

theorem maskFrom_blank (h : IsSpan span body) (i : Nat) (rest : List Char) :
    maskFrom i (span ++ rest) =
      (List.replicate span.length ' ' ++ (maskFrom (i + span.length) rest).1,
        ⟨i, i + span.length, String.ofList (Text.trim body)⟩ ::
          (maskFrom (i + span.length) rest).2) := by
  have hlength := h.length_eq
  obtain ⟨c, more, hcons⟩ : ∃ c more, span = c :: more :=
    List.exists_cons_of_length_pos (by omega)
  have hbody := h.conditionBody? rest
  have hmore : more.length = conditionTag.length + body.length := by
    rw [hcons, List.length_cons] at hlength
    omega
  rw [hlength]
  rw [hcons, List.cons_append] at hbody ⊢
  rw [maskFrom, hbody]
  simp only [← hmore, List.drop_left, Nat.add_assoc]

/-- Every text can be blanked: with as many spaces as a condition has characters. -/
theorem blanked_maskFrom (i : Nat) (cs : List Char) :
    Blanked i cs (maskFrom i cs).1 (maskFrom i cs).2 := by
  by_cases h : HasSpan cs
  · obtain ⟨span, body, hspan, rest, hcs⟩ := h
    obtain ⟨n, hn⟩ : ∃ n, span.length = n + 1 := ⟨_, hspan.length_eq.trans (Nat.add_comm _ _)⟩
    have hshorter : rest.length < cs.length := by
      rw [← hcs, List.length_append]
      omega
    have hrest := blanked_maskFrom (i + span.length) rest
    rw [← hcs, maskFrom_blank hspan, congrArg (List.replicate · ' ') hn]
    exact .blank hspan hrest
  · match cs with
    | [] => rw [maskFrom]; exact .nil i
    | c :: cs =>
        rw [maskFrom_keep h]
        exact .keep h (blanked_maskFrom (i + 1) cs)
termination_by cs.length
decreasing_by
  · exact hshorter
  · exact Nat.lt_succ_self _

/-- The conditions that are blanked out are those of the text. -/
theorem Blanked.conditions_eq (h : Blanked i cs ds xs) : xs = (maskFrom i cs).2 := by
  induction h with
  | nil => rw [maskFrom]
  | keep hno _ ih => rw [maskFrom_keep hno, ih]
  | blank hspan _ ih => rw [maskFrom_blank hspan, ih]

/-- The text without widths. -/
def unmeasured (cs : List Char) : Measured := cs.map fun c => (c, 0)

theorem chars_unmeasured (cs : List Char) : chars (unmeasured cs) = cs := by
  rw [chars, unmeasured, List.map_map]
  exact List.map_id cs

theorem extent_unmeasured (cs : List Char) : extent (unmeasured cs) = 0 := by
  induction cs with
  | nil => rfl
  | cons c cs ih => exact (Nat.zero_add _).trans ih

theorem isStretch_replicate (n : Nat) : IsStretch (unmeasured (List.replicate (n + 1) ' ')) 0 where
  nonempty := by simp [unmeasured, List.replicate_succ]
  spaces p hp := by
    obtain ⟨c, hc, rfl⟩ := List.mem_map.mp hp
    exact List.eq_of_mem_replicate hc
  width := extent_unmeasured _

/-- However a text is blanked, it is the same but for the lengths of stretches of spaces. -/
theorem Blanked.respaced (h : Blanked i cs ds xs) :
    Respaced (unmeasured (maskFrom i cs).1) (unmeasured ds) := by
  induction h with
  | nil => rw [maskFrom]; exact .nil
  | keep hno _ ih => rw [maskFrom_keep hno]; exact .keep _ ih
  | @blank i n span body rest ds xs hspan _ ih =>
      obtain ⟨m, hm⟩ : ∃ m, span.length = m + 1 := ⟨_, hspan.length_eq.trans (Nat.add_comm _ _)⟩
      rw [maskFrom_blank hspan, congrArg (List.replicate · ' ') hm, unmeasured, unmeasured,
        List.map_append, List.map_append]
      exact .stretch (isStretch_replicate m) (isStretch_replicate n) ih

/-! ### No conditions are left -/

theorem Blanked.mem (h : Blanked i cs ds xs) {d : Char} (hd : d ∈ ds) : d = ' ' ∨ d ∈ cs := by
  induction h with
  | nil => cases hd
  | keep _ _ ih =>
      rcases List.mem_cons.mp hd with rfl | hd
      · exact .inr List.mem_cons_self
      · exact (ih hd).imp_right (List.mem_cons_of_mem _)
  | blank _ _ ih =>
      rcases List.mem_append.mp hd with hd | hd
      · exact .inl (List.eq_of_mem_replicate hd)
      · exact (ih hd).imp_right (List.mem_append_right _)

/-- What stands before the first space was there before. -/
theorem Blanked.prefix_of_prefix (h : Blanked i cs ds xs) {u : List Char} (hu : u <+: ds)
    (hspace : ' ' ∉ u) : u <+: cs := by
  induction h generalizing u with
  | nil => exact hu
  | @keep i c cs ds xs hno _ ih =>
      cases u with
      | nil => exact List.nil_prefix
      | cons a u =>
          rw [List.cons_prefix_cons] at hu ⊢
          exact ⟨hu.1, ih hu.2 fun hmem => hspace (List.mem_cons_of_mem _ hmem)⟩
  | blank _ _ _ =>
      cases u with
      | nil => exact List.nil_prefix
      | cons a u =>
          rw [List.replicate_succ, List.cons_append, List.cons_prefix_cons] at hu
          exact absurd (hu.1 ▸ List.mem_cons_self) hspace

theorem not_hasSpan_space (ds : List Char) : ¬HasSpan (' ' :: ds) := by
  rw [hasSpan_iff, opensCondition_iff]
  rintro ⟨hopens, -⟩
  exact absurd (List.cons_prefix_cons.mp hopens).1 (by decide)

/-- Blanking out what stands behind a character opens no condition at it. -/
theorem Blanked.not_hasSpan (h : Blanked i cs ds xs) (hno : ¬HasSpan (c :: cs)) :
    ¬HasSpan (c :: ds) := by
  rw [hasSpan_iff] at hno ⊢
  rintro ⟨hopens, hclosed⟩
  refine hno ⟨?_, ?_⟩
  · -- the tag holds no space, so all of it was there before
    have htag := asciiLower_take_of_opensCondition hopens
    have hspace : ' ' ∉ (c :: ds).take conditionTag.length := by
      intro hmem
      have hlower : ' '.toLower ∈ conditionTag := htag ▸ List.mem_map_of_mem hmem
      exact absurd hlower (by decide)
    obtain ⟨n, hn⟩ : ∃ n, conditionTag.length = n + 1 := ⟨10, rfl⟩
    rw [hn, List.take_succ_cons] at htag hspace
    obtain ⟨rest, rfl⟩ := h.prefix_of_prefix (List.take_prefix n ds)
      fun hmem => hspace (List.mem_cons_of_mem _ hmem)
    rw [opensCondition_iff, ← htag, ← List.cons_append, Text.asciiLower, Text.asciiLower,
      List.map_append]
    exact List.prefix_append _ _
  · rcases List.mem_cons.mp hclosed with rfl | hclosed
    · exact List.mem_cons_self
    · exact List.mem_cons_of_mem _ ((h.mem hclosed).resolve_left (by decide))

/-- A text in which the conditions are blanked out has none. -/
theorem Blanked.mask_eq (h : Blanked i cs ds xs) (k : Nat) : maskFrom k ds = (ds, []) := by
  induction h generalizing k with
  | nil => rw [maskFrom]
  | keep hno h ih => rw [maskFrom_keep (h.not_hasSpan hno), ih]
  | @blank i n span body rest ds xs _ _ ih =>
      generalize n + 1 = n
      induction n generalizing k with
      | zero => exact ih k
      | succ n ihn =>
          rw [List.replicate_succ, List.cons_append, maskFrom_keep (not_hasSpan_space _), ihn]

/-! ### Limits -/

/-- What a threshold limits, its words and its condition aside. -/
def limitOf (t : Threshold) : Measurement.Metric × Measurement.Comparator × Float × String × Bool :=
  (t.metric, t.operator, t.value, t.unit, t.unitVerified)

/-- What a finding limits, if it is a clause. -/
def Finding.limit? (f : Finding) :
    Option (Measurement.Metric × Measurement.Comparator × Float × String × Bool) :=
  f.found?.map fun f =>
    let q := Measurement.canonicalize f.metric f.value f.unit
    (f.metric, f.operator, q.value, q.unit, q.verified)

theorem Finding.limit?_move (g : Nat → Nat) (f : Finding) : (f.move g).limit? = f.limit? := by
  cases f <;> rfl

theorem limits_eq_filterMap (s : Snippet) : (ofSnippet s).thresholds.map limitOf =
    (findings [] (snippetTokens s)).filterMap Finding.limit? := by
  simp only [ofSnippet, List.map_filterMap]
  refine List.filterMap_congr fun f _ => ?_
  cases f with
  | found f => simp only [Finding.threshold?, Finding.limit?, Finding.found?, Option.map_some,
      Found.threshold, limitOf]
  | skipped => rfl

/-- A text limits the same whether its conditions are blanked out or not. -/
theorem Blanked.limits_eq {s : Snippet} (h : Blanked 0 s.text.toList ds xs) :
    (ofSnippet ⟨String.ofList ds, s.citation⟩).thresholds.map limitOf =
      (ofSnippet s).thresholds.map limitOf := by
  have hmask : mask ds = (ds, []) := h.mask_eq 0
  have hlimits (g : Nat → Nat) (fs : List Finding) :
      (fs.map (Finding.move g)).filterMap Finding.limit? = fs.filterMap Finding.limit? := by
    rw [List.filterMap_map]
    exact List.filterMap_congr fun f _ => f.limit?_move g
  have hsame := congrArg (List.filterMap Finding.limit?) (findings_respaced h.respaced)
  rw [hlimits, hlimits, chars_unmeasured, chars_unmeasured] at hsame
  rw [limits_eq_filterMap, limits_eq_filterMap, snippetTokens, snippetTokens, String.toList_ofList,
    hmask]
  exact hsame.symm

/-! ### The condition of a clause -/

/-- Where the first token from a place on starts, or where the text ends if there is none. -/
def nextToken (s : Snippet) (i : Nat) : Nat :=
  (((snippetTokens s).find? fun t => i ≤ t.start).map Token.start).getD s.text.toList.length

/-- The condition stands between the end of a clause and the next token. -/
def Condition.Follows (x : Condition) (s : Snippet) (f : Found) : Prop :=
  f.stop ≤ x.start ∧ x.stop ≤ nextToken s f.stop

/-- The condition is the first one that stands there. -/
def Condition.BelongsTo (x : Condition) (s : Snippet) (xs : List Condition) (f : Found) : Prop :=
  x.Follows s f ∧ ∃ before after, xs = before ++ x :: after ∧ ∀ y ∈ before, ¬y.Follows s f

variable {s : Snippet} {f g : Found} {x : Condition}

theorem nextToken_eq (hf : f ∈ clauses s) :
    nextToken s f.stop = f.next.getD s.text.toList.length := by
  obtain ⟨p, hp⟩ := exists_passage_of_mem hf
  rw [p.next_eq_find? (hp ▸ ordered_tokens _), hp, nextToken]

theorem conditionOf?_eq_some_iff {e : String} {stop next : Nat} :
    conditionOf? xs stop next = some e ↔ e ≠ "" ∧ ∃ x : Condition,
      ((stop ≤ x.start ∧ x.stop ≤ next) ∧ ∃ before after, xs = before ++ x :: after ∧
        ∀ y ∈ before, ¬(stop ≤ y.start ∧ y.stop ≤ next)) ∧ x.expression = e := by
  have hfind (x : Condition) :
      (xs.find? fun c => stop ≤ c.start && c.stop ≤ next) = some x ↔
        (stop ≤ x.start ∧ x.stop ≤ next) ∧ ∃ before after, xs = before ++ x :: after ∧
          ∀ y ∈ before, ¬(stop ≤ y.start ∧ y.stop ≤ next) := by
    rw [List.find?_eq_some_iff_append]
    simp only [Bool.not_eq_eq_eq_not, Bool.not_true, ← Bool.not_eq_true, Bool.and_eq_true,
      decide_eq_true_eq]
  simp only [← hfind]
  unfold conditionOf?
  cases hx : xs.find? fun c => decide (stop ≤ c.start) && decide (c.stop ≤ next) with
  | none => simp
  | some x =>
      simp only [Option.some.injEq, exists_eq_left', String.isEmpty_iff]
      split
      case isTrue hempty =>
        refine ⟨fun h => (nomatch h), ?_⟩
        rintro ⟨hne, rfl⟩
        exact absurd hempty hne
      case isFalse hne =>
        refine ⟨fun h => ?_, fun h => congrArg some h.2⟩
        obtain rfl := Option.some.inj h
        exact ⟨hne, rfl⟩

/-- **The condition of a clause is what stands in the brackets that belong to it**, if that is not
empty. -/
theorem condition_eq_some_iff (hf : f ∈ clauses s) {e : String} :
    (f.threshold s.citation s.text.toList xs).condition = some e ↔
      e ≠ "" ∧ ∃ x : Condition, x.BelongsTo s xs f ∧ x.expression = e := by
  rw [Found.threshold, ← nextToken_eq hf, conditionOf?_eq_some_iff]
  simp only [Condition.BelongsTo, Condition.Follows, and_assoc]

/-- No condition follows two clauses: the next token is where the second one starts, or before. -/
theorem pairwise_follows (s : Snippet) : (clauses s).Pairwise fun f g =>
    ∀ x ∈ (mask s.text.toList).2, ¬(x.Follows s f ∧ x.Follows s g) := by
  refine (pairwise_clauses s).imp_of_mem fun {f g} hf hg hlater x hx hboth => ?_
  obtain ⟨⟨-, hstop⟩, hstart, -⟩ := hboth
  obtain ⟨n, hnext, -, hn⟩ := hlater
  obtain ⟨p, hp⟩ := exists_passage_of_mem hg
  have hroom := (bounds_of_passage p hp).1
  have hspan := (bounds_of_mem_maskFrom 0 _ hx).2.1
  rw [nextToken_eq hf, hnext, Option.getD_some] at hstop
  omega

/-- **Conditions are no rules, and each of them belongs to one rule at most.**  Every text can be
blanked.  However its conditions are replaced by spaces, the limits are the same, in the same
order.  A clause has the condition `e` exactly when `e` is not empty and is what stands, trimmed,
in the first brackets between the end of the clause and the next token. -/
theorem conditions_stand_apart (s : Snippet) :
    (∃ ds xs, Blanked 0 s.text.toList ds xs) ∧
      ∀ ds xs, Blanked 0 s.text.toList ds xs →
        (ofSnippet ⟨String.ofList ds, s.citation⟩).thresholds.map limitOf =
            (ofSnippet s).thresholds.map limitOf ∧
          (ofSnippet s).thresholds =
            (clauses s).map (·.threshold s.citation s.text.toList xs) ∧
          (∀ f ∈ clauses s, ∀ e, (f.threshold s.citation s.text.toList xs).condition = some e ↔
            e ≠ "" ∧ ∃ x : Condition, x.BelongsTo s xs f ∧ x.expression = e) ∧
          (clauses s).Pairwise fun f g =>
            ∀ x : Condition, ¬(x.BelongsTo s xs f ∧ x.BelongsTo s xs g) := by
  refine ⟨⟨_, _, blanked_maskFrom 0 _⟩, fun ds xs h => ?_⟩
  have hxs : xs = (mask s.text.toList).2 := h.conditions_eq
  refine ⟨h.limits_eq, hxs ▸ thresholds_eq_map s, fun f hf e => condition_eq_some_iff hf, ?_⟩
  refine (pairwise_follows s).imp fun {f g} hno x hboth => ?_
  obtain ⟨⟨hfirst, before, after, hsplit, -⟩, hsecond, -⟩ := hboth
  refine hno x ?_ ⟨hfirst, hsecond⟩
  rw [← hxs, hsplit]
  exact List.mem_append_right _ List.mem_cons_self

/-- A limit on wind with a condition behind it. -/
def guardedWind : Snippet :=
  ⟨"wind over 20 mph [condition: gusts > 1] or rain over 5 mm", ⟨1, "rules", "", 1.0⟩⟩

/-- The condition belongs to the limit on wind, and without it the limits are the same. -/
theorem wind_has_its_condition : ∃ ds xs, Blanked 0 guardedWind.text.toList ds xs ∧
    (ofSnippet ⟨String.ofList ds, guardedWind.citation⟩).thresholds.map limitOf =
      (ofSnippet guardedWind).thresholds.map limitOf ∧
    ∃ f ∈ clauses guardedWind, f.metric = .windSpeed ∧
      ∃ x : Condition, x.BelongsTo guardedWind xs f ∧ x.expression = "gusts > 1" := by
  obtain ⟨⟨ds, xs, h⟩, hall⟩ := conditions_stand_apart guardedWind
  obtain ⟨hlimits, -, hcondition, -⟩ := hall ds xs h
  have hwind : ∃ f ∈ clauses guardedWind, f.metric = .windSpeed ∧
      (f.threshold guardedWind.citation guardedWind.text.toList
        (mask guardedWind.text.toList).2).condition = some "gusts > 1" := by
    decide +kernel
  obtain ⟨f, hf, hmetric, he⟩ := hwind
  rw [show (mask guardedWind.text.toList).2 = xs from h.conditions_eq.symm] at he
  exact ⟨ds, xs, h, hlimits, f, hf, hmetric, ((hcondition f hf _).mp he).2⟩

end SiteSafety.Clause
