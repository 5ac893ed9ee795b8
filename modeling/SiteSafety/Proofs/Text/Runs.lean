import Mathlib.Data.List.Sort
import SiteSafety.Proofs.Text.Words

/-!
# Proofs — Text — Runs

The maximal runs of a class of characters.  `IsRunAt p cs i w` says that the word `w` stands after
`i` characters of the text, all of the class, with no character of the class before or behind it;
`IsRuns p cs ws` says that `ws` are the words of all such places, from left to right.  A text has
one list of runs (`IsRuns.unique`), and splitting it at the characters of no run finds them
(`isRuns_iff`).

The runs are found by peeling the text: a character of no run moves all runs by one
(`isRunAt_cons_of_not`), and a run at the start is the first one, all others being behind it
(`isRunAt_append`).
-/

namespace SiteSafety.Text

variable {p sep : Char → Bool} {cs w rest u : List Char} {c : Char} {i : ℕ}
  {ws ws' : List (List Char)}

/-! ### Runs at a place -/

/-- A word stands in a text as a maximal run of characters of a class. -/
structure IsRunAt (p : Char → Bool) (cs : List Char) (i : ℕ) (w : List Char) : Prop where
  nonempty : w ≠ []
  inClass : ∀ c ∈ w, p c = true
  stands : ∃ before after, cs = before ++ w ++ after ∧ before.length = i ∧
    (∀ c, before.getLast? = some c → p c = false) ∧ ∀ c, after.head? = some c → p c = false

/-- The runs of a text, from left to right. -/
def IsRuns (p : Char → Bool) (cs : List Char) (ws : List (List Char)) : Prop :=
  ∃ placed : List (ℕ × List Char), placed.map Prod.snd = ws ∧
    placed.Pairwise (fun a b => a.1 < b.1) ∧ ∀ a, a ∈ placed ↔ IsRunAt p cs a.1 a.2

/-- No run starts at a character that is not of the class. -/
theorem not_isRunAt_zero (h : ∀ c, cs.head? = some c → p c = false) : ¬IsRunAt p cs 0 w := by
  rintro ⟨hne, hclass, before, after, rfl, hlen, -, -⟩
  obtain rfl := List.eq_nil_of_length_eq_zero hlen
  obtain ⟨c, w, rfl⟩ := List.exists_cons_of_ne_nil hne
  have hin := hclass c List.mem_cons_self
  rw [h c rfl] at hin
  cases hin

/-- A character that is not of the class moves the runs by one. -/
theorem isRunAt_cons_of_not (hc : p c = false) :
    IsRunAt p (c :: cs) i w ↔ ∃ j, i = j + 1 ∧ IsRunAt p cs j w := by
  constructor
  · intro h
    have hzero := @not_isRunAt_zero p (c :: cs) w (by simpa using hc)
    obtain ⟨hne, hclass, before, after, hcs, rfl, hlast, hhead⟩ := h
    cases before with
    | nil => exact absurd ⟨hne, hclass, [], after, hcs, rfl, hlast, hhead⟩ hzero
    | cons d before =>
        obtain ⟨rfl, rfl⟩ := List.cons.inj hcs
        refine ⟨before.length, rfl, hne, hclass, before, after, rfl, rfl, fun e he => ?_, hhead⟩
        refine hlast e ?_
        rw [List.getLast?_cons, he]
        rfl
  · rintro ⟨j, rfl, hne, hclass, before, after, rfl, rfl, hlast, hhead⟩
    refine ⟨hne, hclass, c :: before, after, rfl, rfl, fun e he => ?_, hhead⟩
    rw [List.getLast?_cons] at he
    cases hbefore : before.getLast? with
    | none =>
        rw [hbefore] at he
        obtain rfl := Option.some.inj he
        exact hc
    | some d =>
        rw [hbefore] at he
        obtain rfl := Option.some.inj he
        exact hlast _ hbefore

/-- A run is what can be taken of its class. -/
theorem takeWhile_append_of_run (hclass : ∀ c ∈ w, p c = true)
    (hhead : ∀ c, rest.head? = some c → p c = false) : (w ++ rest).takeWhile p = w := by
  have hrest : rest.takeWhile p = [] := by
    cases rest with
    | nil => rfl
    | cons c rest => simp [hhead c rfl]
  rw [List.takeWhile_append_of_pos hclass, hrest, List.append_nil]

/-- A text that starts with a run has that run, and those behind it. -/
theorem isRunAt_append (hne : w ≠ []) (hclass : ∀ c ∈ w, p c = true)
    (hhead : ∀ c, rest.head? = some c → p c = false) :
    IsRunAt p (w ++ rest) i u ↔
      i = 0 ∧ u = w ∨ ∃ j, i = w.length + j ∧ IsRunAt p rest j u := by
  constructor
  · rintro ⟨hune, huclass, before, after, hcs, rfl, hlast, huhead⟩
    rw [List.append_assoc] at hcs
    rcases List.append_eq_append_iff.mp hcs with ⟨gap, rfl, hrest⟩ | ⟨more, hw, hmore⟩
    · -- the run stands behind the first one
      refine .inr ⟨gap.length, List.length_append, hune, huclass, gap, after, ?_, rfl, ?_, huhead⟩
      · rw [hrest, List.append_assoc]
      · intro c hc
        exact hlast c (by rw [List.getLast?_append, hc]; rfl)
    · -- it stands in it, so it starts where it does
      rcases List.eq_nil_or_concat before with rfl | ⟨before, c, rfl⟩
      · obtain rfl : w = more := hw
        have huw := takeWhile_append_of_run huclass huhead
        rw [hmore, takeWhile_append_of_run hclass hhead] at huw
        exact .inl ⟨rfl, huw.symm⟩
      · have hin := hclass c (by rw [hw]; simp)
        rw [hlast c (by simp)] at hin
        cases hin
  · rintro (⟨rfl, rfl⟩ | ⟨j, rfl, h⟩)
    · exact ⟨hne, hclass, [], rest, rfl, rfl, by simp, hhead⟩
    · have hzero := @not_isRunAt_zero p rest u hhead
      obtain ⟨hune, huclass, before, after, rfl, rfl, hlast, huhead⟩ := h
      rcases List.eq_nil_or_concat before with rfl | ⟨before, c, rfl⟩
      · exact absurd ⟨hune, huclass, [], after, rfl, rfl, hlast, huhead⟩ hzero
      · refine ⟨hune, huclass, w ++ before.concat c, after, by simp, by simp, ?_, huhead⟩
        intro d hd
        exact hlast d (by simpa using hd)

/-! ### All runs -/

theorem isRuns_nil : IsRuns p [] [] := by
  refine ⟨[], rfl, .nil, fun a => iff_of_false (List.not_mem_nil) ?_⟩
  rintro ⟨hne, -, before, after, hcs, -⟩
  have hnil := List.append_eq_nil_iff.mp (List.append_eq_nil_iff.mp hcs.symm).1
  exact hne hnil.2

/-- A character that is not of the class is in no run. -/
theorem IsRuns.cons (h : IsRuns p cs ws) (hc : p c = false) : IsRuns p (c :: cs) ws := by
  obtain ⟨placed, rfl, hsorted, hmem⟩ := h
  refine ⟨placed.map fun a => (a.1 + 1, a.2), by simp, ?_, fun ⟨i, w⟩ => ?_⟩
  · rw [List.pairwise_map]
    exact hsorted.imp fun h => Nat.succ_lt_succ h
  · rw [isRunAt_cons_of_not hc, List.mem_map]
    constructor
    · rintro ⟨⟨j, u⟩, hj, heq⟩
      cases heq
      exact ⟨j, rfl, (hmem _).mp hj⟩
    · rintro ⟨j, rfl, hj⟩
      exact ⟨(j, w), (hmem (j, w)).mpr hj, rfl⟩

/-- A run at the start is the first one. -/
theorem IsRuns.append (h : IsRuns p rest ws) (hne : w ≠ []) (hclass : ∀ c ∈ w, p c = true)
    (hhead : ∀ c, rest.head? = some c → p c = false) : IsRuns p (w ++ rest) (w :: ws) := by
  obtain ⟨placed, rfl, hsorted, hmem⟩ := h
  refine ⟨(0, w) :: placed.map fun a => (w.length + a.1, a.2), by simp, ?_, fun ⟨i, u⟩ => ?_⟩
  · rw [List.pairwise_cons, List.pairwise_map]
    refine ⟨fun a ha => ?_, hsorted.imp fun h => Nat.add_lt_add_left h _⟩
    obtain ⟨b, -, rfl⟩ := List.mem_map.mp ha
    have hpos := List.length_pos_iff.mpr hne
    exact Nat.add_pos_left hpos _
  · rw [isRunAt_append hne hclass hhead, List.mem_cons, List.mem_map, Prod.mk.injEq]
    refine or_congr Iff.rfl ?_
    constructor
    · rintro ⟨⟨j, u⟩, hj, heq⟩
      cases heq
      exact ⟨j, rfl, (hmem _).mp hj⟩
    · rintro ⟨j, rfl, hj⟩
      exact ⟨(j, u), (hmem (j, u)).mpr hj, rfl⟩

/-- The runs of a text are those at its places. -/
theorem IsRuns.mem_iff (h : IsRuns p cs ws) : w ∈ ws ↔ ∃ i, IsRunAt p cs i w := by
  obtain ⟨placed, rfl, -, hmem⟩ := h
  rw [List.mem_map]
  constructor
  · rintro ⟨a, ha, rfl⟩
    exact ⟨a.1, (hmem a).mp ha⟩
  · rintro ⟨i, hi⟩
    exact ⟨(i, w), (hmem (i, w)).mpr hi, rfl⟩

/-- A text has one list of runs. -/
theorem IsRuns.unique (h : IsRuns p cs ws) (h' : IsRuns p cs ws') : ws = ws' := by
  obtain ⟨placed, rfl, hsorted, hmem⟩ := h
  obtain ⟨placed', rfl, hsorted', hmem'⟩ := h'
  have hnodup : placed.Nodup := hsorted.imp fun hlt heq => hlt.ne (congrArg Prod.fst heq)
  have hnodup' : placed'.Nodup := hsorted'.imp fun hlt heq => hlt.ne (congrArg Prod.fst heq)
  have hperm : placed.Perm placed' := by
    rw [List.perm_ext_iff_of_nodup hnodup hnodup']
    exact fun a => (hmem a).trans (hmem' a).symm
  -- both lists are in the order of the places
  rw [hperm.eq_of_pairwise (fun a b _ _ hab hba => absurd hab hba.not_gt) hsorted hsorted']

/-! ### Runs by splitting -/

/-- A word without a separator is the first piece of a text that starts with it. -/
theorem fields_append_of_word (hne : w ≠ []) (hword : ∀ c ∈ w, sep c = false)
    (hhead : ∀ c, rest.head? = some c → sep c = true) :
    fields sep (w ++ rest) = w :: fields sep rest := by
  have hfirst : fields sep w = [w] := by
    rw [fields, List.splitOnP_eq_singleton fun c hc => by simp [hword c hc]]
    simp [hne]
  cases rest with
  | nil => rw [List.append_nil, hfirst, fields_nil]
  | cons c rest =>
      have hc := hhead c rfl
      have hskip : fields sep (c :: rest) = fields sep rest :=
        @fields_append_of_all sep [c] rest (by simpa using hc)
      rw [fields_append_cons hc, hfirst, hskip]
      rfl

/-- The pieces between the characters of no run are the runs. -/
theorem isRuns_fields (p : Char → Bool) (cs : List Char) :
    IsRuns p cs (fields (fun c => !p c) cs) := by
  match cs with
  | [] => exact isRuns_nil
  | c :: cs =>
      cases hc : p c with
      | false =>
          have hskip : fields (fun c => !p c) ([c] ++ cs) = fields (fun c => !p c) cs :=
            fields_append_of_all (by simp [hc])
          rw [← List.singleton_append, hskip]
          exact (isRuns_fields p cs).cons hc
      | true =>
          have hclass : ∀ d ∈ c :: cs.takeWhile p, p d = true :=
            List.forall_mem_cons.mpr ⟨hc, fun d hd => List.mem_takeWhile_imp hd⟩
          have hhead : ∀ d, (cs.dropWhile p).head? = some d → p d = false := by
            intro d hd
            have hnot := List.head?_dropWhile_not p cs
            rw [hd] at hnot
            simpa using hnot
          have hsplit : c :: cs = (c :: cs.takeWhile p) ++ cs.dropWhile p := by
            rw [List.cons_append, List.takeWhile_append_dropWhile]
          rw [hsplit, fields_append_of_word (List.cons_ne_nil _ _)
            (fun d hd => by simp [hclass d hd]) fun d hd => by simp [hhead d hd]]
          exact (isRuns_fields p (cs.dropWhile p)).append (List.cons_ne_nil _ _) hclass hhead
termination_by cs.length
decreasing_by
  · exact Nat.lt_succ_self _
  · have hlen := (List.dropWhile_sublist p (l := cs)).length_le
    exact Nat.lt_succ_of_le hlen

/-- **The runs of a text** are found by splitting it at the characters of no run. -/
theorem isRuns_iff : IsRuns p cs ws ↔ fields (fun c => !p c) cs = ws := by
  constructor
  · exact (isRuns_fields p cs).unique
  · rintro rfl
    exact isRuns_fields p cs

end SiteSafety.Text
