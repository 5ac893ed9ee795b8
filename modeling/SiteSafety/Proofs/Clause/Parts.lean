import Mathlib.Data.List.Basic
import SiteSafety.Proofs.Clause.Breaks
import SiteSafety.Proofs.Clause.Starts

/-!
# Proofs — Clause — Parts

Where a list of tokens may be cut without a clause noticing.  The scan looks behind a metric for a
limit and before it for cues, and both looks end at a boundary.  What it meets before a boundary it
meets also where the list ends there, except that a clause then has no next token; and where tokens
stand in their text makes no difference but to the places of what is met.

* `findings_append_boundary`, `findings_map_move`: these two facts, for lists of tokens.
* `findings_tokens_append`: **what is met in a text that is parted by a boundary is what is met in
  its parts.**
-/

namespace SiteSafety.Clause
open Measurement

variable {b t : Token} {ts us before more : List Token} {k : Nat}

/-! ### The end of a part -/

theorem Token.word?_of_isBoundary (h : b.isBoundary = true) : b.word? = none := by
  unfold Token.isBoundary at h
  unfold Token.word?
  cases hk : b.kind <;> simp_all

theorem head?_word_append (h : b.isBoundary = true) :
    (ts ++ b :: us).head?.bind Token.word? = ts.head?.bind Token.word? := by
  cases ts <;> simp [Token.word?_of_isBoundary h]

theorem metricAt_boundary (h : b.isBoundary = true) : metricAt (b :: us) = none := by
  simp [metricAt, Token.word?_of_isBoundary h]

theorem metricAt_append (h : b.isBoundary = true) :
    metricAt (t :: (ts ++ b :: us)) = metricAt (t :: ts) := by
  simp only [metricAt, head?_word_append h]

/-- A spelled unit of three words has a second one. -/
theorem spelledUnit?_none (first : String) (third : Option String) :
    spelledUnit? first none third = none := by
  simp [spelledUnit?]

theorem unitAt_append (h : b.isBoundary = true) : unitAt (ts ++ b :: us) = unitAt ts := by
  have hword := Token.word?_of_isBoundary h
  match ts with
  | [] => simp [unitAt, hword]
  | [t] => simp [unitAt, hword, spelledUnit?_none]
  | t :: t' :: ts =>
      have hthird : (ts ++ b :: us).head?.bind Token.word? = ts.head?.bind Token.word? :=
        head?_word_append h
      simp only [List.cons_append, unitAt, List.head?_cons, List.drop_succ_cons, List.drop_zero,
        hthird]

theorem trailingComparison_append (h : b.isBoundary = true) :
    trailingComparison (ts ++ b :: us) = trailingComparison ts := by
  have hword := Token.word?_of_isBoundary h
  match ts with
  | [] => cases us <;> simp [trailingComparison, hword]
  | [t] => simp [trailingComparison, hword]
  | t :: t' :: ts => rfl

theorem unitAt_le (ts : List Token) : (unitAt ts).2 ≤ ts.length := by
  refine Nat.le_of_not_lt fun hlt => ?_
  obtain ⟨w, hw, -⟩ := wordAt?_unit hlt
  simp [wordAt?] at hw

theorem trailingComparison_le (ts : List Token) : (trailingComparison ts).2 ≤ ts.length := by
  refine Nat.le_of_not_lt fun hlt => ?_
  obtain ⟨w, hw, -⟩ := wordAt?_trailing hlt
  simp [wordAt?] at hw

theorem limitAt_append (h : b.isBoundary = true) (gap : List String) (sign : Option Comparator)
    (value : Float) (used : Nat) :
    limitAt before gap sign value used (ts ++ b :: us) =
      limitAt before gap sign value used ts := by
  simp only [limitAt, unitAt_append h, List.drop_append_of_le_length (unitAt_le ts),
    trailingComparison_append h]

theorem tailFrom_append (h : b.isBoundary = true) (gap : List String) (sign : Option Comparator)
    (used budget : Nat) :
    tailFrom before gap sign used budget (ts ++ b :: us) =
      tailFrom before gap sign used budget ts := by
  induction ts generalizing gap sign used budget with
  | nil =>
      have hkind : b.kind = .boundary := by
        unfold Token.isBoundary at h
        cases hk : b.kind <;> simp_all
      cases budget <;> simp [tailFrom, hkind]
  | cons t ts ih =>
      cases budget with
      | zero => rfl
      | succ budget =>
          simp only [List.cons_append, tailFrom, metricAt_append h, ih, limitAt_append h]

/-- A limit takes tokens that are there. -/
theorem length_le_of_tailAfter {operator : Comparator} {value : Float} {unit : String} {n : Nat}
    (h : tailAfter before ts = .limit operator value unit n) : n ≤ ts.length := by
  obtain ⟨k, m, rfl, hlimit, -⟩ := of_tailFrom_eq_limit h
  have hlength := hlimit.length
  have hunit := unitAt_le (ts.drop (k + 1))
  have htrailing := trailingComparison_le (ts.drop (k + 1 + (unitAt (ts.drop (k + 1))).2))
  have hnumber : k < ts.length := by
    refine Nat.lt_of_not_le fun hle => ?_
    have hvalue := hlimit.number
    simp [numberAt?, List.getElem?_eq_none hle] at hvalue
  simp only [List.length_drop] at hunit htrailing
  omega

/-- The words of a metric are there. -/
theorem words_le {m : Metric} (h : metricAt (t :: ts) = some (m, k)) : k - 1 ≤ ts.length := by
  rcases words_of_metricAt h with rfl | ⟨rfl, hsecond⟩
  · omega
  · cases ts with
    | nil => simp [wordAt?] at hsecond
    | cons _ _ => simp

/-- A look that ends at a boundary does not reach behind it. -/
theorem near_append (h : b.isBoundary = true) (n : Nat) (ts us : List Token) :
    ((ts ++ b :: us).take n).takeWhile (!·.isBoundary) =
      (ts.take n).takeWhile (!·.isBoundary) := by
  induction ts generalizing n with
  | nil => cases n <;> simp [h]
  | cons t ts ih =>
      cases n with
      | zero => rfl
      | succ n => simp only [List.cons_append, List.take_succ_cons, List.takeWhile_cons, ih]

theorem excerptStop_append (h : b.isBoundary = true) :
    excerptStop t (ts ++ b :: us) = excerptStop t ts := by
  simp only [excerptStop, ← List.cons_append, near_append h]

/-! ### The start of a part -/

theorem defaultDirection_append (h : b.isBoundary = true) (gap : List String) :
    defaultDirection (before ++ b :: more) gap = defaultDirection before gap := by
  simp only [defaultDirection, near_append h]

/-- The tokens before a metric matter only where a limit is bare. -/
theorem tailFrom_congr {before before' : List Token}
    (h : ∀ gap, defaultDirection before gap = defaultDirection before' gap) (gap : List String)
    (sign : Option Comparator) (used budget : Nat) (ts : List Token) :
    tailFrom before gap sign used budget ts = tailFrom before' gap sign used budget ts := by
  induction ts generalizing gap sign used budget with
  | nil => cases budget <;> rfl
  | cons t ts ih =>
      cases budget with
      | zero => rfl
      | succ budget => simp only [tailFrom, ih, limitAt, h]

/-! ### Starts -/

namespace Start

/-- The start with further tokens before it, of which the last one is a boundary. -/
def behind (b : Token) (more : List Token) (s : Start) : Start :=
  { s with before := s.before ++ b :: more }

/-- The start with further tokens after it, of which the first one is a boundary. -/
def ahead (b : Token) (us : List Token) (s : Start) : Start :=
  { s with rest := s.rest ++ b :: us }

theorem tail_behind (h : b.isBoundary = true) (s : Start) : (s.behind b more).tail = s.tail :=
  tailFrom_congr (defaultDirection_append h) _ _ _ _ _

theorem length_behind (h : b.isBoundary = true) (s : Start) :
    (s.behind b more).length = s.length := by
  unfold length
  rw [tail_behind h]
  rfl

theorem finding?_behind (h : b.isBoundary = true) (s : Start) :
    (s.behind b more).finding? = s.finding? := by
  unfold finding?
  rw [tail_behind h, length_behind h]
  rfl

/-- A clause takes tokens that are there. -/
theorem length_le {s : Start} (h : s.words - 1 ≤ s.rest.length) : s.length ≤ s.rest.length := by
  have htail : s.tail.length ≤ s.rest.length - (s.words - 1) := by
    rw [← List.length_drop]
    cases ht : s.tail with
    | limit operator value unit n => exact length_le_of_tailAfter ht
    | incomplete => exact Nat.zero_le _
    | nothing => exact Nat.zero_le _
  unfold length
  omega

theorem tail_ahead (h : b.isBoundary = true) {s : Start} (hw : s.words - 1 ≤ s.rest.length) :
    (s.ahead b us).tail = s.tail := by
  simp only [tail, ahead, List.drop_append_of_le_length hw]
  exact tailFrom_append h _ _ _ _

theorem length_ahead (h : b.isBoundary = true) {s : Start} (hw : s.words - 1 ≤ s.rest.length) :
    (s.ahead b us).length = s.length := by
  unfold length
  rw [tail_ahead h hw]
  rfl

end Start

/-- What is met, so many characters further on. -/
def Finding.shift (k : Nat) : Finding → Finding
  | .found f =>
    .found { f with start := f.start + k, stop := f.stop + k, next := f.next.map (· + k) }
  | .skipped start stop => .skipped (start + k) (stop + k)

/-- What is met, with the place of a token behind it if there is none. -/
def Finding.meet (i : Nat) : Finding → Finding
  | .found f => .found { f with next := f.next.or (some i) }
  | .skipped start stop => .skipped start stop

theorem Start.finding?_ahead (h : b.isBoundary = true) {s : Start}
    (hw : s.words - 1 ≤ s.rest.length) :
    (s.ahead b us).finding? = s.finding?.map (Finding.meet b.start) := by
  have hle := length_le hw
  unfold finding?
  rw [tail_ahead h hw, length_ahead h hw]
  cases s.tail with
  | limit operator value unit n =>
      simp only [ahead, List.take_append_of_le_length hle, List.drop_append_of_le_length hle,
        Option.map_some, Finding.meet]
      cases s.rest.drop s.length <;> rfl
  | incomplete => simp [ahead, excerptStop_append h, Finding.meet]
  | nothing => rfl

/-! ### The scan of the parts -/

/-- What stands before a boundary is forgotten behind it. -/
theorem starts_behind (h : b.isBoundary = true) (before ts : List Token) :
    starts (before ++ b :: more) ts = (starts before ts).map (Start.behind b more) := by
  fun_induction starts before ts with
  | case1 before => simp [starts]
  | case2 before t rest hm ih =>
      rw [starts, hm, ← ih]
      rfl
  | case3 before t rest metric k hm s ih =>
      rw [starts, hm, List.map_cons, ← ih]
      have hlength : (s.behind b more).length = s.length := Start.length_behind h s
      simp only [Start.behind, s] at hlength ⊢
      simp only [hlength, List.append_assoc, List.cons_append]

theorem starts_append (h : b.isBoundary = true) (before ts : List Token) :
    starts before (ts ++ b :: us) =
      (starts before ts).map (Start.ahead b us) ++ starts (b :: (ts.reverse ++ before)) us := by
  fun_induction starts before ts with
  | case1 before => simp [starts, metricAt_boundary h]
  | case2 before t rest hm ih =>
      rw [List.cons_append, starts, metricAt_append h, hm]
      simp only [ih, List.reverse_cons, List.append_assoc, List.singleton_append]
  | case3 before t rest metric k hm s ih =>
      have hw : s.words - 1 ≤ s.rest.length := words_le hm
      have hle : s.length ≤ rest.length := Start.length_le hw
      have hpassed : (rest.drop s.length).reverse ++ ((rest.take s.length).reverse ++ t :: before) =
          (t :: rest).reverse ++ before := by
        rw [← List.append_assoc, ← List.reverse_append, List.take_append_drop]
        simp
      rw [List.cons_append, starts, metricAt_append h, hm, List.map_cons, List.cons_append,
        ← hpassed, ← ih]
      show s.ahead b us ::
        starts (((rest ++ b :: us).take (s.ahead b us).length).reverse ++ t :: before)
          ((rest ++ b :: us).drop (s.ahead b us).length) = _
      rw [Start.length_ahead h hw, List.take_append_of_le_length hle,
        List.drop_append_of_le_length hle]

/-- What is met before a boundary is met also where the tokens end there, and what stands behind it
is read by itself. -/
theorem findings_append_boundary (h : b.isBoundary = true) (ts us : List Token) :
    findings [] (ts ++ b :: us) =
      (findings [] ts).map (Finding.meet b.start) ++ findings [] us := by
  have hahead : ∀ s ∈ starts [] ts,
      (s.ahead b us).finding? = s.finding?.map (Finding.meet b.start) :=
    fun s hs => Start.finding?_ahead h (words_le (text_of_mem_starts hs).2.1)
  have hbehind : starts (b :: (ts.reverse ++ [])) us =
      (starts [] us).map (Start.behind b ts.reverse) := by
    rw [← starts_behind h, List.append_nil, List.nil_append]
  rw [findings_eq_filterMap, findings_eq_filterMap, findings_eq_filterMap, starts_append h,
    hbehind, List.filterMap_append, List.filterMap_map, List.filterMap_map, List.map_filterMap]
  congr 1
  · exact List.filterMap_congr hahead
  · exact List.filterMap_congr fun s _ => Start.finding?_behind h s

/-! ### Places in the text -/

section Places
variable (g : Nat → Nat)

/-- The start with its tokens at other places. -/
def Start.move (s : Start) : Start :=
  ⟨s.before.map (Token.move g), s.head.move g, s.rest.map (Token.move g), s.metric, s.words⟩

/-- The clause, at another place. -/
def Found.move (f : Found) : Found :=
  { f with start := g f.start, stop := g f.stop, next := f.next.map g }

/-- What is met, at another place. -/
def Finding.move : Finding → Finding
  | .found f            => .found (f.move g)
  | .skipped start stop => .skipped (g start) (g stop)

@[simp] theorem Token.comp_word?_move : Token.word? ∘ Token.move g = Token.word? := rfl

theorem metricAt_move (ts : List Token) : metricAt (ts.map (Token.move g)) = metricAt ts := by
  rcases ts with _ | ⟨t, _ | ⟨t', ts⟩⟩ <;> rfl

theorem unitAt_move (ts : List Token) : unitAt (ts.map (Token.move g)) = unitAt ts := by
  rcases ts with _ | ⟨t, _ | ⟨t', _ | ⟨t'', ts⟩⟩⟩ <;> rfl

theorem trailingComparison_move (ts : List Token) :
    trailingComparison (ts.map (Token.move g)) = trailingComparison ts := by
  rcases ts with _ | ⟨t, _ | ⟨t', ts⟩⟩ <;> rfl

theorem near_move (n : Nat) (ts : List Token) :
    ((ts.map (Token.move g)).take n).takeWhile (!·.isBoundary) =
      ((ts.take n).takeWhile (!·.isBoundary)).map (Token.move g) := by
  rw [← List.map_take, List.takeWhile_map]
  rfl

theorem defaultDirection_move (before : List Token) (gap : List String) :
    defaultDirection (before.map (Token.move g)) gap = defaultDirection before gap := by
  simp only [defaultDirection, near_move, List.filterMap_map, Token.comp_word?_move]

theorem tailFrom_move (before : List Token) (gap : List String) (sign : Option Comparator)
    (used budget : Nat) (ts : List Token) :
    tailFrom (before.map (Token.move g)) gap sign used budget (ts.map (Token.move g)) =
      tailFrom before gap sign used budget ts := by
  rw [tailFrom_congr (defaultDirection_move g before)]
  induction ts generalizing gap sign used budget with
  | nil => cases budget <;> rfl
  | cons t ts ih =>
      cases budget with
      | zero => rfl
      | succ budget =>
          have hkind : (t.move g).kind = t.kind := rfl
          have hmetric := metricAt_move g (t :: ts)
          rw [List.map_cons] at hmetric
          simp only [List.map_cons, tailFrom, hkind, hmetric, ih, limitAt, unitAt_move,
            ← List.map_drop, trailingComparison_move]

theorem excerptStop_move (t : Token) (ts : List Token) :
    excerptStop (t.move g) (ts.map (Token.move g)) = g (excerptStop t ts) := by
  simp only [excerptStop, ← List.map_cons, near_move, List.getLast?_map]
  cases (((t :: ts).take (maxGap + 2)).takeWhile (!·.isBoundary)).getLast? <;> rfl

theorem Start.tail_move (s : Start) : (s.move g).tail = s.tail := by
  simp only [tail, move, ← List.map_drop]
  exact tailFrom_move g _ _ _ _ _ _

theorem Start.length_move (s : Start) : (s.move g).length = s.length := by
  unfold length
  rw [tail_move]
  rfl

theorem Start.finding?_move (s : Start) :
    (s.move g).finding? = s.finding?.map (Finding.move g) := by
  unfold finding?
  rw [tail_move, length_move]
  cases s.tail with
  | limit operator value unit n =>
      simp only [move, ← List.map_take, ← List.map_drop, List.getLast?_map, List.head?_map,
        Option.map_some, Finding.move]
      cases (s.rest.take s.length).getLast? <;> cases (s.rest.drop s.length).head? <;> rfl
  | incomplete =>
      simp only [move, excerptStop_move, Option.map_some, Finding.move]
      rfl
  | nothing => rfl

theorem starts_move (before ts : List Token) :
    starts (before.map (Token.move g)) (ts.map (Token.move g)) =
      (starts before ts).map (Start.move g) := by
  fun_induction starts before ts with
  | case1 before => simp [starts]
  | case2 before t rest hm ih =>
      have hmetric := metricAt_move g (t :: rest)
      rw [List.map_cons] at hmetric ⊢
      rw [starts, hmetric, hm, ← ih]
      rfl
  | case3 before t rest metric n hm s ih =>
      have hmetric := metricAt_move g (t :: rest)
      rw [List.map_cons] at hmetric ⊢
      rw [starts, hmetric, hm, List.map_cons, ← ih]
      show s.move g :: starts (((rest.map (Token.move g)).take (s.move g).length).reverse ++
        (t :: before).map (Token.move g)) ((rest.map (Token.move g)).drop (s.move g).length) = _
      rw [Start.length_move, ← List.map_take, ← List.map_drop, ← List.map_reverse,
        ← List.map_append]

/-- What is met does not depend on where the tokens stand, its own place aside. -/
theorem findings_map_move (ts : List Token) :
    findings [] (ts.map (Token.move g)) = (findings [] ts).map (Finding.move g) := by
  have hstarts := starts_move g [] ts
  rw [List.map_nil] at hstarts
  rw [findings_eq_filterMap, findings_eq_filterMap, hstarts, List.filterMap_map,
    List.map_filterMap]
  exact List.filterMap_congr fun s _ => Start.finding?_move g s

end Places

theorem findings_map_shift (k : Nat) (ts : List Token) :
    findings [] (ts.map (Token.shift k)) = (findings [] ts).map (Finding.shift k) := by
  have hfinding : Finding.move (· + k) = Finding.shift k := by
    funext f
    cases f <;> rfl
  rw [← hfinding]
  exact findings_map_move (· + k) ts

/-- What is met ends before a position, and so does the gap behind it. -/
def Finding.EndsBy (n : Nat) : Finding → Prop
  | .found f => f.stop ≤ n ∧ ∀ m ∈ f.next, m ≤ n
  | .skipped _ stop => stop ≤ n

theorem excerptStop_mem (t : Token) (ts : List Token) :
    ∃ u ∈ t :: ts, excerptStop t ts = u.stop := by
  unfold excerptStop
  cases hlast : (((t :: ts).take (maxGap + 2)).takeWhile (!·.isBoundary)).getLast? with
  | none => exact ⟨t, List.mem_cons_self, rfl⟩
  | some u =>
      have hu := List.mem_of_getLast? hlast
      exact ⟨u, List.mem_of_mem_take ((List.takeWhile_prefix _).subset hu), rfl⟩

/-- Everything that is met in tokens ends where one of them does. -/
theorem endsBy_of_mem_findings {n : Nat} {f : Finding}
    (hts : ∀ t ∈ ts, t.start ≤ n ∧ t.stop ≤ n) (hf : f ∈ findings [] ts) : f.EndsBy n := by
  rw [findings_eq_filterMap] at hf
  obtain ⟨s, hs, hfinding⟩ := List.mem_filterMap.mp hf
  have hmem : ∀ t ∈ s.head :: s.rest, t.start ≤ n ∧ t.stop ≤ n := by
    have htext := (text_of_mem_starts hs).1
    rw [List.reverse_nil, List.nil_append] at htext
    exact fun t ht => hts t (htext ▸ List.mem_append_right _ ht)
  unfold Start.finding? at hfinding
  cases htail : s.tail with
  | limit operator value unit k =>
      simp only [htail, Option.some.injEq] at hfinding
      subst hfinding
      constructor
      · cases hlast : (s.rest.take s.length).getLast? with
        | none => exact (hmem s.head List.mem_cons_self).2
        | some u =>
            have hu := List.mem_of_mem_take (List.mem_of_getLast? hlast)
            exact (hmem u (List.mem_cons_of_mem _ hu)).2
      · intro m hm
        obtain ⟨u, hu, rfl⟩ := Option.map_eq_some_iff.mp hm
        have hu := List.mem_of_mem_drop (List.mem_of_head? hu)
        exact (hmem u (List.mem_cons_of_mem _ hu)).1
  | incomplete =>
      simp only [htail, Option.some.injEq] at hfinding
      subst hfinding
      obtain ⟨u, hu, hstop⟩ := excerptStop_mem s.head s.rest
      exact hstop ▸ (hmem u hu).2
  | nothing => simp [htail] at hfinding

/-! ### Texts -/

variable {c : Char} {cs ds : List Char}

theorem endsBy_of_mem_text {f : Finding} (hf : f ∈ findings [] (tokens cs)) :
    f.EndsBy cs.length := by
  refine endsBy_of_mem_findings (fun t ht => ?_) hf
  have := bounds_of_mem_tokens ht
  omega

/-- What is met in a text that is parted by a boundary is what is met in its parts. -/
theorem findings_tokens_append (h : IsBreak c ds) (hc : isBoundaryChar c = true) (cs : List Char) :
    findings [] (tokens (cs ++ c :: ds)) =
      (findings [] (tokens cs)).map (Finding.meet cs.length) ++
        (findings [] (tokens ds)).map (Finding.shift (cs.length + 1)) := by
  have hgap : gapTokens c cs.length = [⟨.boundary, cs.length, cs.length + 1⟩] := by
    rw [gapTokens, if_pos hc]
  rw [tokens_append_break h, hgap, List.append_assoc, List.singleton_append,
    findings_append_boundary rfl, findings_map_shift]

end SiteSafety.Clause
