import Mathlib.Data.List.Forall2
import SiteSafety.Proofs.Clause.Locality
import SiteSafety.Proofs.Clause.Passage
import SiteSafety.Proofs.Measurement.Units

/-!
# Proofs — Clause — Amounts

The limit of a threshold as it stands in the rule.  A token is a part of the text: a number is read
off its digits, thousands separators aside, and a word is its letters in lower case.  So the text
between the first and the last word of a unit says which unit was read.

* `written_of_number`, `written_of_word?`: the text of a number and the text of a word.
* `Amount.read_numeral`, `Amount.conversion?_unitText`: **value and unit of an amount are those
  that its text gives**, if the text of the unit is recognised at all.
* `exists_amount`: every threshold is the amount of its clause, in the unit of its family.
-/

namespace SiteSafety.Decimal

variable {c : Char} {cs : List Char}

theorem toLower_of_isDigit (h : c.isDigit = true) : c.toLower = c := by
  have hlast : c.toNat ≤ '9'.toNat := (Char.isDigit_iff_toNat.mp h).2
  refine dif_neg ?_
  rintro ⟨hfirst, -⟩
  exact absurd (Nat.le_trans hfirst hlast) (by decide)

/-- What starts with a digit behind its sign is no word for infinity or for what is no number. -/
theorem read?_of_readSign {minus : Bool} {ds : List Char} (h : c.isDigit = true)
    (hsign : readSign ds = (minus, c :: cs)) :
    read? ds = (readMagnitude? (c :: cs)).map fun x => if minus then -x else x := by
  have hhead : (Text.asciiLower (c :: cs)).head? = some c := by
    rw [Text.asciiLower, List.map_cons, List.head?_cons, toLower_of_isDigit h]
  have hword : ∀ word ∈ ["inf", "infinity", "nan"],
      String.ofList (Text.asciiLower (c :: cs)) ≠ word := by
    have hletter : ∀ word ∈ ["inf", "infinity", "nan"],
        word.toList.head?.any Char.isDigit = false := by decide
    rintro word hmem rfl
    have hnone := hletter _ hmem
    rw [String.toList_ofList, hhead, Option.any_some, h] at hnone
    cases hnone
  unfold read?
  rw [hsign]
  refine congrArg (Option.map _) ?_
  split
  case h_4 => rfl
  all_goals exact absurd ‹_› (hword _ (by simp))

theorem read?_of_isDigit (h : c.isDigit = true) : read? (c :: cs) = readMagnitude? (c :: cs) := by
  have hsign : readSign (c :: cs) = (false, c :: cs) := by
    unfold readSign
    split <;> simp_all
  rw [read?_of_readSign h hsign]
  exact Option.map_id'

theorem read?_minus (h : c.isDigit = true) :
    read? ('-' :: c :: cs) = (readMagnitude? (c :: cs)).map fun x => -x := by
  rw [read?_of_readSign h rfl]
  rfl

end SiteSafety.Decimal

namespace SiteSafety.Clause
open Measurement

variable {previous : Option Char} {i n : Nat} {c : Char} {cs rest : List Char} {t : Token}
  {x : Float} {w : String}

/-! ### Tokens in their text -/

/-- The text of a token. -/
def Token.written (cs : List Char) (t : Token) : List Char :=
  (cs.drop t.start).take (t.stop - t.start)

theorem first_of_mem_tokensFrom (previous : Option Char) (i : Nat) (cs : List Char)
    (h : t ∈ tokensFrom previous i cs) :
    ∃ previous' c rest n, Kind.first previous' c rest = (some t.kind, n) ∧ i ≤ t.start ∧
      t.stop = t.start + 1 + n ∧ cs.drop (t.start - i) = c :: rest := by
  match cs with
  | [] => simp [tokensFrom] at h
  | a :: cs =>
      obtain ⟨kind?, n, hfirst⟩ : ∃ kind? n, Kind.first previous a cs = (kind?, n) := ⟨_, _, rfl⟩
      rw [tokensFrom_cons hfirst] at h
      rcases List.mem_append.mp h with h | h
      · cases kind? with
        | none => cases h
        | some kind =>
            simp only [Option.map_some, Option.toList_some, List.mem_singleton] at h
            subst h
            exact ⟨previous, a, cs, n, hfirst, Nat.le_refl i, rfl, by simp⟩
      · obtain ⟨previous', c, rest, n', hfirst', hle, hstop, hdrop⟩ :=
          first_of_mem_tokensFrom _ _ _ h
        refine ⟨previous', c, rest, n', hfirst', by omega, hstop, ?_⟩
        rw [List.drop_drop] at hdrop
        rw [show t.start - i = n + (t.start - (i + 1 + n)) + 1 by omega, List.drop_succ_cons, hdrop]
termination_by cs.length
decreasing_by simp only [List.length_drop, List.length_cons]; omega

/-- A token is what starts where it stands. -/
theorem first_of_mem_tokens (h : t ∈ tokens cs) : ∃ previous c rest n,
    Kind.first previous c rest = (some t.kind, n) ∧ t.written cs = c :: rest.take n := by
  obtain ⟨previous, c, rest, n, hfirst, -, hstop, hdrop⟩ := first_of_mem_tokensFrom _ _ _ h
  refine ⟨previous, c, rest, n, hfirst, ?_⟩
  rw [Nat.sub_zero] at hdrop
  rw [Token.written, hdrop, hstop, show t.start + 1 + n - t.start = n + 1 by omega,
    List.take_succ_cons]

/-- Tokens do not overlap. -/
theorem pairwise_tokensFrom (previous : Option Char) (i : Nat) (cs : List Char) :
    (tokensFrom previous i cs).Pairwise fun t u => t.stop ≤ u.start := by
  match cs with
  | [] => simp [tokensFrom]
  | a :: cs =>
      obtain ⟨kind?, n, hfirst⟩ : ∃ kind? n, Kind.first previous a cs = (kind?, n) := ⟨_, _, rfl⟩
      rw [tokensFrom_cons hfirst, List.pairwise_append]
      refine ⟨?_, pairwise_tokensFrom _ _ _, ?_⟩
      · cases kind? <;> simp
      · intro t ht u hu
        have hbehind := (bounds_of_mem_tokensFrom _ _ _ hu).1
        cases kind? with
        | none => cases ht
        | some kind =>
            rw [Option.map_some, Option.toList_some, List.mem_singleton] at ht
            exact ht ▸ hbehind
termination_by cs.length
decreasing_by simp only [List.length_drop, List.length_cons]; omega

theorem ordered_tokens (cs : List Char) : Ordered (tokens cs) where
  room t ht := by
    obtain ⟨_, _, _, n, -, -, hstop, -⟩ := first_of_mem_tokensFrom _ _ _ ht
    omega
  apart := pairwise_tokensFrom none 0 cs

/-! ### Words and numbers -/

/-- The characters of words: letters, degree signs, apostrophes and slashes. -/
def isWordChar (c : Char) : Bool := isWordStart c || c == '\'' || c == '/'

/-- The characters of numbers. -/
def isNumberChar (c : Char) : Bool := c.isDigit || c == '.' || c == ',' || c == '-'

theorem isWordChar_of_mem_wordSpan : ∀ d ∈ cs.take (wordSpan cs), isWordChar d = true := by
  fun_induction wordSpan cs with
  | case1 => simp
  | case2 c rest h ih =>
      intro d hd
      rw [List.take_succ_cons] at hd
      rcases List.mem_cons.mp hd with rfl | hd
      · simp only [isWordChar, Bool.or_eq_true, Bool.and_eq_true] at h ⊢
        exact h.imp id fun h => h.1
      · exact ih d hd
  | case3 => simp

theorem of_numberSpan (pointed : Bool) (cs : List Char) :
    (numberSpan pointed cs).1 = (cs.take (numberSpan pointed cs).2).filter (· != ',') ∧
      ∀ d ∈ cs.take (numberSpan pointed cs).2, isNumberChar d = true := by
  fun_induction numberSpan pointed cs with
  | case1 => exact ⟨rfl, by simp⟩
  | case2 pointed c rest hdigit ds n hmore ih =>
      rw [hmore] at ih
      have hcomma : (c != ',') = true := by
        rw [bne_iff_ne]
        rintro rfl
        cases hdigit
      refine ⟨?_, ?_⟩
      · rw [List.take_succ_cons, List.filter_cons_of_pos (p := (· != ',')) hcomma, ← ih.1]
      · rw [List.take_succ_cons, List.forall_mem_cons]
        exact ⟨by simp [isNumberChar, hdigit], ih.2⟩
  | case3 pointed c rest hdigit hpoint ds n hmore ih =>
      rw [hmore] at ih
      obtain rfl : c = '.' := by simp_all
      refine ⟨?_, ?_⟩
      · rw [List.take_succ_cons, List.filter_cons_of_pos rfl, ← ih.1]
      · rw [List.take_succ_cons, List.forall_mem_cons]
        exact ⟨rfl, ih.2⟩
  | case4 pointed c rest hdigit hpoint hcomma ds n hmore ih =>
      rw [hmore] at ih
      obtain rfl : c = ',' := by simp_all
      refine ⟨?_, ?_⟩
      · rw [List.take_succ_cons, List.filter_cons_of_neg (by decide), ← ih.1]
      · rw [List.take_succ_cons, List.forall_mem_cons]
        exact ⟨rfl, ih.2⟩
  | case5 => exact ⟨by simp, by simp⟩

/-- The first character of a text belongs to its number if it is a digit. -/
theorem exists_numberSpan_cons (hc : c.isDigit = true) (rest : List Char) : ∃ ds n,
    numberSpan false (c :: rest) = (c :: ds, n + 1) ∧
      c :: ds = (c :: rest.take n).filter (· != ',') ∧
      ∀ d ∈ c :: rest.take n, isNumberChar d = true := by
  have hspan := of_numberSpan false (c :: rest)
  obtain ⟨ds, n, heq⟩ : ∃ ds n, numberSpan false (c :: rest) = (c :: ds, n + 1) := by
    simp only [numberSpan, hc, if_true]
    exact ⟨_, _, rfl⟩
  rw [heq, List.take_succ_cons] at hspan
  exact ⟨ds, n, heq, hspan⟩

/-- The way a token begins says which kind it is. -/
theorem of_first_eq_word (h : Kind.first previous c rest = (some (.word w), n)) :
    w = String.ofList ((c :: rest.take n).flatMap Text.lowerChar) ∧
      ∀ d ∈ c :: rest.take n, isWordChar d = true := by
  unfold Kind.first at h
  dsimp only at h
  split at h
  · cases hvalue : Decimal.readMagnitude? (numberSpan false (c :: rest)).1 <;> simp [hvalue] at h
  · split at h
    · cases hvalue : Decimal.readMagnitude? (numberSpan false rest).1 <;> simp [hvalue] at h
    · split at h
      next hstart =>
        simp only [Prod.mk.injEq, Option.some.injEq, Kind.word.injEq] at h
        obtain ⟨rfl, rfl⟩ := h
        refine ⟨rfl, ?_⟩
        rw [List.forall_mem_cons]
        exact ⟨by simp [isWordChar, hstart], isWordChar_of_mem_wordSpan⟩
      next =>
        split at h
        · simp at h
        · split at h <;> simp at h

theorem of_first_eq_number (h : Kind.first previous c rest = (some (.number x), n)) :
    Decimal.read? ((c :: rest.take n).filter (· != ',')) = some x ∧
      ∀ d ∈ c :: rest.take n, isNumberChar d = true := by
  unfold Kind.first at h
  dsimp only at h
  split at h
  next hdigit =>
    obtain ⟨ds, k, hspan, hds, hall⟩ := exists_numberSpan_cons hdigit rest
    rw [hspan] at h
    simp only [Prod.mk.injEq, Option.map_eq_some_iff, Kind.number.injEq, exists_eq_right] at h
    obtain ⟨hvalue, rfl⟩ := h
    rw [Nat.add_sub_cancel]
    exact ⟨by rwa [← hds, Decimal.read?_of_isDigit hdigit], hall⟩
  next =>
    split at h
    next hsign =>
      simp only [Bool.and_eq_true, beq_iff_eq, isSign] at hsign
      obtain ⟨rfl, hhead, -⟩ := hsign
      cases rest with
      | nil => cases hhead
      | cons d rest =>
          have hdigit : d.isDigit = true := hhead
          obtain ⟨ds, k, hspan, hds, hall⟩ := exists_numberSpan_cons hdigit rest
          rw [hspan] at h
          simp only [Prod.mk.injEq, Option.map_eq_some_iff, Kind.number.injEq] at h
          obtain ⟨⟨y, hvalue, rfl⟩, rfl⟩ := h
          rw [List.take_succ_cons, List.filter_cons_of_pos (p := (· != ',')) rfl, ← hds]
          refine ⟨?_, List.forall_mem_cons.mpr ⟨rfl, hall⟩⟩
          rw [Decimal.read?_minus hdigit, hvalue]
          rfl
    next =>
      split at h
      · simp at h
      · split at h
        · simp at h
        · split at h <;> simp at h

/-! ### Masked texts -/

/-- A masked text is the text with blanks in some places. -/
theorem forall₂_maskFrom (i : Nat) (cs : List Char) :
    List.Forall₂ (fun a b => a = b ∨ a = ' ') (maskFrom i cs).1 cs := by
  have hblanks (ds : List Char) :
      List.Forall₂ (fun a b => a = b ∨ a = ' ') (List.replicate ds.length ' ') ds := by
    induction ds with
    | nil => exact .nil
    | cons d ds ih => exact .cons (.inr rfl) ih
  fun_induction maskFrom i cs with
  | case1 i => exact .nil
  | case2 i a rest body hbody length masked more hmore ih =>
      have hlen := length_of_conditionBody? hbody
      have htake : ((a :: rest).take (1 + length)).length = 1 + length :=
        List.length_take_of_le (by omega)
      have hfirst := hblanks ((a :: rest).take (1 + length))
      rw [hmore] at ih
      rw [htake] at hfirst
      have hcut : (a :: rest).take (1 + length) ++ rest.drop length = a :: rest := by
        rw [Nat.add_comm, List.take_succ_cons, List.cons_append, List.take_append_drop]
      exact hcut ▸ List.rel_append hfirst ih
  | case3 i a rest hbody masked more hmore ih =>
      rw [hmore] at ih
      exact .cons (.inl rfl) ih

theorem eq_of_forall₂ {as bs : List Char} (h : List.Forall₂ (fun a b => a = b ∨ a = ' ') as bs)
    (hblank : ∀ a ∈ as, a ≠ ' ') : as = bs := by
  induction h with
  | nil => rfl
  | cons hab _ ih =>
      rw [hab.resolve_right (hblank _ List.mem_cons_self),
        ih fun a ha => hblank a (List.mem_cons_of_mem _ ha)]

/-- A token without blanks stands in the text as it stands in the masked text. -/
theorem written_mask (h : ∀ d ∈ t.written (mask cs).1, d ≠ ' ') :
    t.written cs = t.written (mask cs).1 := by
  -- a blank in the masked text may stand for any character, so the token must have none
  have hparts := List.forall₂_take (t.stop - t.start)
    (List.forall₂_drop t.start (forall₂_maskFrom 0 cs))
  exact (eq_of_forall₂ hparts h).symm

/-- The text of a word is the word, its letters in any case. -/
theorem written_of_word? (ht : t ∈ tokens (mask cs).1) (hw : t.word? = some w) :
    w = String.ofList ((t.written cs).flatMap Text.lowerChar) ∧
      ∀ d ∈ t.written cs, isWordChar d = true := by
  obtain ⟨previous, c, rest, n, hfirst, hwritten⟩ := first_of_mem_tokens ht
  have hkind : t.kind = .word w := by
    unfold Token.word? at hw
    split at hw <;> simp_all
  rw [hkind] at hfirst
  obtain ⟨hword, hall⟩ := of_first_eq_word hfirst
  rw [← hwritten] at hword hall
  rw [written_mask fun d hd => by rintro rfl; exact absurd (hall _ hd) (by decide)]
  exact ⟨hword, hall⟩

/-- The text of a number is a numeral, thousands separators aside. -/
theorem written_of_number (ht : t ∈ tokens (mask cs).1) (hx : t.kind = .number x) :
    Decimal.read? ((t.written cs).filter (· != ',')) = some x ∧
      ∀ d ∈ t.written cs, isNumberChar d = true := by
  obtain ⟨previous, c, rest, n, hfirst, hwritten⟩ := first_of_mem_tokens ht
  rw [hx] at hfirst
  obtain ⟨hvalue, hall⟩ := of_first_eq_number hfirst
  rw [← hwritten] at hvalue hall
  rw [written_mask fun d hd => by rintro rfl; exact absurd (hall _ hd) (by decide)]
  exact ⟨hvalue, hall⟩

theorem isWord_of_isWordChar {ds : List Char} (h : ∀ d ∈ ds, isWordChar d = true) : IsWord ds := by
  intro d hd
  have hchar := h d hd
  refine ⟨?_, ?_⟩
  · rw [Bool.eq_false_iff]
    intro hblank
    have hgap := separates_of_isBlank hblank
    simp [isWordChar, hgap.wordStart, hgap.apostrophe, hgap.slash] at hchar
  · rintro rfl
    exact absurd hchar (by decide)

/-! ### Units in words -/

/-- The units spelled in several words, with the unit the words stand for. -/
def spelledUnits : List (List String × String) := [
  (["miles", "per", "hour"], "mph"), (["mile", "per", "hour"], "mph"),
  (["mi", "per", "hour"], "mph"), (["kilometers", "per", "hour"], "km/h"),
  (["kilometres", "per", "hour"], "km/h"), (["km", "per", "hour"], "km/h"),
  (["meters", "per", "second"], "m/s"), (["metres", "per", "second"], "m/s"),
  (["m", "per", "second"], "m/s"), (["degrees", "f"], "°f"), (["degree", "f"], "°f"),
  (["deg", "f"], "°f"), (["degrees", "fahrenheit"], "°f"), (["degree", "fahrenheit"], "°f"),
  (["deg", "fahrenheit"], "°f"), (["degrees", "c"], "°c"), (["degree", "c"], "°c"),
  (["deg", "c"], "°c"), (["degrees", "celsius"], "°c"), (["degree", "celsius"], "°c"),
  (["deg", "celsius"], "°c")]

theorem of_spelledUnit?_eq_some {first u : String} {second third : Option String}
    (h : spelledUnit? first second third = some (u, n)) :
    ∃ ws, (ws, u) ∈ spelledUnits ∧ n = ws.length ∧
      [some first, second, third].take n = ws.map some := by
  have hmiles : ∀ w ∈ ["miles", "mile", "mi"], ([w, "per", "hour"], "mph") ∈ spelledUnits := by
    decide
  have hkilometers : ∀ w ∈ ["kilometers", "kilometres", "km"],
      ([w, "per", "hour"], "km/h") ∈ spelledUnits := by decide
  have hmeters : ∀ w ∈ ["meters", "metres", "m"], ([w, "per", "second"], "m/s") ∈ spelledUnits := by
    decide
  have hdegrees : ∀ w ∈ ["degrees", "degree", "deg"],
      ([w, "f"], "°f") ∈ spelledUnits ∧ ([w, "fahrenheit"], "°f") ∈ spelledUnits ∧
        ([w, "c"], "°c") ∈ spelledUnits ∧ ([w, "celsius"], "°c") ∈ spelledUnits := by decide
  unfold spelledUnit? at h
  simp only [Bool.and_eq_true, List.contains_iff_mem, beq_iff_eq] at h
  split at h
  next hwords =>
    obtain ⟨⟨hfirst, rfl⟩, rfl⟩ := hwords
    cases h
    exact ⟨_, hmiles first hfirst, rfl, rfl⟩
  next =>
    split at h
    next hwords =>
      obtain ⟨⟨hfirst, rfl⟩, rfl⟩ := hwords
      cases h
      exact ⟨_, hkilometers first hfirst, rfl, rfl⟩
    next =>
      split at h
      next hwords =>
        obtain ⟨⟨hfirst, rfl⟩, rfl⟩ := hwords
        cases h
        exact ⟨_, hmeters first hfirst, rfl, rfl⟩
      next =>
        split at h
        next hfirst =>
          obtain ⟨hf, hfahrenheit, hc, hcelsius⟩ := hdegrees first hfirst
          split at h <;> cases h
          · exact ⟨_, hf, rfl, rfl⟩
          · exact ⟨_, hfahrenheit, rfl, rfl⟩
          · exact ⟨_, hc, rfl, rfl⟩
          · exact ⟨_, hcelsius, rfl, rfl⟩
        next => cases h

/-- A unit is missing, a single word, or spelled in several words. -/
theorem unitAt_cases (ts : List Token) : unitAt ts = ("", 0) ∨
    (∃ t rest w, ts = t :: rest ∧ t.word? = some w ∧ unitAt ts = (w, 1)) ∨
      ∃ ws u, (ws, u) ∈ spelledUnits ∧ unitAt ts = (u, ws.length) ∧
        (ts.take ws.length).map Token.word? = ws.map some := by
  cases ts with
  | nil => exact .inl rfl
  | cons t rest =>
      cases hword : t.word? with
      | none => exact .inl (by simp only [unitAt, hword])
      | some w =>
          cases hspelled : spelledUnit? w (rest.head?.bind Token.word?)
              ((rest.drop 1).head?.bind Token.word?) with
          | none =>
              simp only [unitAt, hword, hspelled]
              split
              · exact .inr (.inl ⟨t, rest, w, rfl, hword, rfl⟩)
              · exact .inl rfl
          | some found =>
              obtain ⟨u, n⟩ := found
              obtain ⟨ws, hmem, rfl, hws⟩ := of_spelledUnit?_eq_some hspelled
              refine .inr (.inr ⟨ws, u, hmem, by simp only [unitAt, hword, hspelled], ?_⟩)
              rcases ws with _ | ⟨a, _ | ⟨b, _ | ⟨c, ws⟩⟩⟩ <;>
                rcases rest with _ | ⟨t', _ | ⟨t'', rest⟩⟩ <;> simp_all

/-- A spelling in which the letters of such a unit stand in order is one of the unit that the words
stand for. -/
theorem row_of_spelledUnits : ∀ e ∈ spelledUnits, ∀ p ∈ units, ∀ spelling ∈ p.1,
    (e.1.flatMap String.toList).Sublist spelling.toList →
      ∀ p' ∈ units, p'.1.contains spelling = p'.1.contains (unitKey e.2) := by decide +kernel

/-- A word of such a unit that is a unit of the same family is the unit that the words stand for. -/
theorem row_of_word : ∀ e ∈ spelledUnits, ∀ w ∈ e.1, ∀ p ∈ units, ∀ p' ∈ units,
    unitKey e.2 ∈ p.1 → unitKey w ∈ p'.1 → p'.2.family = p.2.family →
      ∀ row ∈ units, row.1.contains (unitKey w) = row.1.contains (unitKey e.2) := by decide +kernel

theorem length_of_mem_spelledUnits : ∀ e ∈ spelledUnits, 2 ≤ e.1.length := by decide

/-- The text from the first of some tokens to the last. -/
def stretch (cs : List Char) : List Token → List Char
  | []        => []
  | t :: more => (cs.drop t.start).take ((more.getLast?.getD t).stop - t.start)

theorem stretch_singleton (cs : List Char) (t : Token) : stretch cs [t] = t.written cs := rfl

/-- Two parts of a text, one behind the other, stand in the part from the one to the other. -/
theorem parts_sublist {a b c d : Nat} (hab : a ≤ b) (hbc : b ≤ c) (hbd : b ≤ d) (cs : List Char) :
    ((cs.drop a).take (b - a) ++ (cs.drop c).take (d - c)).Sublist ((cs.drop a).take (d - a)) := by
  have hfirst : (cs.drop a).take (d - a) =
      (cs.drop a).take (b - a) ++ (cs.drop b).take (d - b) := by
    rw [show d - a = b - a + (d - b) by omega, List.take_add, List.drop_drop,
      show a + (b - a) = b by omega]
  have hsecond : (cs.drop c).take (d - c) = ((cs.drop b).take (d - b)).drop (c - b) := by
    rw [List.drop_take, List.drop_drop, show b + (c - b) = c by omega,
      show d - b - (c - b) = d - c by omega]
  rw [hfirst, hsecond]
  exact (List.Sublist.refl _).append (List.drop_sublist _ _)

/-- The texts of tokens stand in order in the text from the first to the last. -/
theorem flatMap_written_sublist (cs : List Char) {ts : List Token}
    (hordered : ts.Pairwise fun t u => t.stop ≤ u.start)
    (hbounds : ∀ t ∈ ts, t.start ≤ t.stop) :
    (ts.flatMap (Token.written cs)).Sublist (stretch cs ts) := by
  induction ts with
  | nil => exact List.Sublist.refl _
  | cons t more ih =>
      have hmore := ih hordered.of_cons fun u hu => hbounds u (List.mem_cons_of_mem _ hu)
      cases more with
      | nil =>
          rw [List.flatMap_cons, List.flatMap_nil, List.append_nil, stretch_singleton]
      | cons u more =>
          -- the part that `more` stretches over is cut at its own last token, the last one here
          have hlast : (u :: more).getLast? = some (more.getLast?.getD u) := List.getLast?_cons
          have hmem := List.mem_of_getLast? hlast
          have hnext := List.rel_of_pairwise_cons hordered hmem
          have hstop := hbounds _ (List.mem_cons_of_mem t hmem)
          rw [stretch, hlast, Option.getD_some, List.flatMap_cons]
          refine ((List.Sublist.refl _).append hmore).trans ?_
          exact parts_sublist (hbounds t List.mem_cons_self)
            (List.rel_of_pairwise_cons hordered List.mem_cons_self) (by omega) cs

/-- The letters of words, in lower case, are the words. -/
theorem letters_of_words {us : List Token} {ws : List String}
    (hus : ∀ t ∈ us, t ∈ tokens (mask cs).1) (h : us.map Token.word? = ws.map some) :
    (us.flatMap (Token.written cs)).flatMap Text.lowerChar = ws.flatMap String.toList ∧
      ∀ d ∈ us.flatMap (Token.written cs), isWordChar d = true := by
  induction us generalizing ws with
  | nil =>
      cases ws with
      | nil => exact ⟨rfl, nofun⟩
      | cons w ws => cases h
  | cons t us ih =>
      cases ws with
      | nil => cases h
      | cons w ws =>
          rw [List.map_cons, List.map_cons, List.cons.injEq] at h
          obtain ⟨hletters, hchars⟩ := ih (fun u hu => hus u (List.mem_cons_of_mem _ hu)) h.2
          obtain ⟨hword, hall⟩ := written_of_word? (hus t List.mem_cons_self) h.1
          refine ⟨?_, ?_⟩
          · rw [List.flatMap_cons, List.flatMap_append, hletters, List.flatMap_cons, hword,
              String.toList_ofList]
          · rw [List.flatMap_cons, List.forall_mem_append]
            exact ⟨hall, hchars⟩

/-! ### Amounts -/

/-- A number in the rule, with the tokens before it and behind it. -/
structure Amount (s : Rule.Snippet) where
  before : List Token
  number : Token
  behind : List Token
  value : Float
  tokens_eq : tokens (mask s.text.toList).1 = before ++ number :: behind
  kind_eq : number.kind = .number value

namespace Amount
variable {s : Rule.Snippet}

/-- The number as it is written. -/
def numeral (a : Amount s) : List Char := a.number.written s.text.toList

/-- The unit behind the number. -/
def unit (a : Amount s) : String := (unitAt a.behind).1

/-- The words of the unit. -/
def unitTokens (a : Amount s) : List Token := a.behind.take (unitAt a.behind).2

/-- The unit as it is written. -/
def unitText (a : Amount s) : String := String.ofList (stretch s.text.toList a.unitTokens)

/-- The value is the number that is written. -/
theorem read_numeral (a : Amount s) : Decimal.read? (a.numeral.filter (· != ',')) = some a.value :=
  (written_of_number (a.tokens_eq ▸ List.mem_append_right _ List.mem_cons_self) a.kind_eq).1

theorem sublist_unitTokens (a : Amount s) :
    a.unitTokens.Sublist (tokens (mask s.text.toList).1) := by
  rw [a.tokens_eq]
  exact ((List.take_sublist _ _).trans (List.sublist_cons_self _ _)).trans
    (List.sublist_append_right _ _)

theorem mem_tokens (a : Amount s) {u : Token} (h : u ∈ a.unitTokens) :
    u ∈ tokens (mask s.text.toList).1 := a.sublist_unitTokens.subset h

/-- The unit is missing, a single word, or spelled in several words. -/
theorem unit_cases (a : Amount s) : a.unitTokens = [] ∨
    (∃ u, a.unitTokens = [u] ∧ u.word? = some a.unit) ∨
      ∃ ws, (ws, a.unit) ∈ spelledUnits ∧ a.unitTokens.map Token.word? = ws.map some := by
  unfold unitTokens unit
  rcases unitAt_cases a.behind with hnone | ⟨t, rest, w, hbehind, hw, hone⟩ | ⟨ws, u, hmem, hat, hws⟩
  · exact .inl (by rw [hnone, List.take_zero])
  · exact .inr (.inl ⟨t, by rw [hone, hbehind]; rfl, by rw [hone, hw]⟩)
  · exact .inr (.inr ⟨ws, by rw [hat]; exact hmem, by rw [hat]; exact hws⟩)

/-- A word of the unit is recognised as it is written. -/
theorem conversion?_written (a : Amount s) {u : Token} {w : String} (hu : u ∈ a.unitTokens)
    (hw : u.word? = some w) :
    conversion? (String.ofList (u.written s.text.toList)) = conversion? w := by
  obtain ⟨rfl, hall⟩ := written_of_word? (a.mem_tokens hu) hw
  exact (conversion?_lowered (isWord_of_isWordChar hall)).symm

/-- A unit of one word is recognised as it is written. -/
theorem conversion?_unitText_of_word (a : Amount s) (h : a.unitTokens.length = 1) :
    conversion? a.unitText = conversion? a.unit := by
  rcases a.unit_cases with hnone | ⟨u, hone, hw⟩ | ⟨ws, hmem, hws⟩
  · rw [hnone] at h
    cases h
  · have hwritten := a.conversion?_written (hone ▸ List.mem_singleton_self u) hw
    rwa [unitText, hone, stretch_singleton]
  · have hlength := congrArg List.length hws
    have htwo := length_of_mem_spelledUnits _ hmem
    simp only [List.length_map] at hlength htwo
    omega

/-- **A unit that is recognised as it is written is the unit of the amount.** -/
theorem conversion?_unitText (a : Amount s) (h : (conversion? a.unitText).isSome) :
    conversion? a.unitText = conversion? a.unit := by
  rcases a.unit_cases with hnone | ⟨u, hone, -⟩ | ⟨ws, hmem, hws⟩
  · have hempty : a.unitText = "" := by rw [unitText, hnone]; rfl
    exact absurd h (by rw [hempty]; decide)
  · exact a.conversion?_unitText_of_word (by rw [hone]; rfl)
  · obtain ⟨hletters, hchars⟩ := letters_of_words (fun t ht => a.mem_tokens ht) hws
    have hordered : a.unitTokens.Pairwise fun t u => t.stop ≤ u.start :=
      (pairwise_tokensFrom _ _ _).sublist a.sublist_unitTokens
    have hstretch := flatMap_written_sublist s.text.toList hordered
      fun t ht => (bounds_of_mem_tokens (a.mem_tokens ht)).1
    have hkey := sublist_unitKey (isWord_of_isWordChar hchars) hstretch (code_of_conversion? h)
    obtain ⟨c, hc⟩ := Option.isSome_iff_exists.mp h
    obtain ⟨p, hp, hspelling, -⟩ := mem_spellings_of_conversion? hc
    rw [hletters] at hkey
    exact conversion?_of_rows (row_of_spelledUnits _ hmem p hp _ hspelling hkey)

/-- The rule writes the unit so: in full, or by one of its words. -/
def Writes (a : Amount s) (unit : String) : Prop :=
  unit = a.unitText ∨ ∃ u ∈ a.unitTokens, unit = String.ofList (u.written s.text.toList)

/-- A unit of one word is recognised so. -/
theorem conversion?_of_writes (a : Amount s) {unit : String} (hone : a.unitTokens.length = 1)
    (h : a.Writes unit) : conversion? unit = conversion? a.unit := by
  have htext := a.conversion?_unitText_of_word hone
  rcases h with rfl | ⟨u, hu, rfl⟩
  · exact htext
  · obtain ⟨v, hv⟩ := List.length_eq_one_iff.mp hone
    obtain rfl : u = v := List.mem_singleton.mp (hv ▸ hu)
    have hwritten : a.unitText = String.ofList (u.written s.text.toList) := by
      rw [unitText, hv, stretch_singleton]
    exact hwritten ▸ htext

/-- **A unit that is recognised as the rule writes it is converted as the unit of the amount**, if
it is of the same family: a word of a unit of speed may be one of distance. -/
theorem conversion_eq_of_writes (a : Amount s) {unit : String} {c c' : Conversion}
    (h : a.Writes unit) (hc : conversion? a.unit = some c) (hc' : conversion? unit = some c')
    (hfamily : c'.family = c.family) : c' = c := by
  rcases h with rfl | ⟨u, hu, rfl⟩
  · have hsame := a.conversion?_unitText (hc' ▸ rfl)
    rw [hc', hc] at hsame
    exact Option.some.inj hsame
  · rcases a.unit_cases with hnone | ⟨v, hone, hw⟩ | ⟨ws, hmem, hws⟩
    · rw [hnone] at hu
      cases hu
    · obtain rfl : u = v := List.mem_singleton.mp (hone ▸ hu)
      rw [a.conversion?_written hu hw, hc] at hc'
      exact (Option.some.inj hc').symm
    · have hword : u.word? ∈ ws.map some := hws ▸ List.mem_map_of_mem hu
      obtain ⟨w, hwmem, hw⟩ := List.mem_map.mp hword
      rw [a.conversion?_written hu hw.symm] at hc'
      obtain ⟨p, hp, hkey, rfl⟩ := mem_spellings_of_conversion? hc
      obtain ⟨p', hp', hkey', rfl⟩ := mem_spellings_of_conversion? hc'
      have hsame := conversion?_of_rows
        (row_of_word _ hmem w hwmem p hp p' hp' hkey hkey' hfamily)
      rw [hc, hc'] at hsame
      exact Option.some.inj hsame

end Amount

/-! ### The amount of a threshold -/

/-- The amount is the limit of a threshold: it stands in the words that the threshold quotes, and
the threshold has its value in the unit to which it is brought. -/
structure Amount.IsLimitOf {s : Rule.Snippet} (a : Amount s) (t : Rule.Threshold) : Prop where
  quoted : ∃ start stop, t.clause = excerpt s.text.toList start stop ∧ start ≤ a.number.start ∧
    a.number.stop ≤ stop
  value : t.value = (canonicalize t.metric a.value a.unit).value
  unit : t.unit = (canonicalize t.metric a.value a.unit).unit
  verified : t.unitVerified = (canonicalize t.metric a.value a.unit).verified

/-- A verified limit is the amount brought to the unit of a family that its metric allows. -/
theorem Amount.IsLimitOf.converted {s : Rule.Snippet} {a : Amount s} {t : Rule.Threshold}
    (h : a.IsLimitOf t) (hverified : t.unitVerified = true) : ∃ c, conversion? a.unit = some c ∧
      t.metric.Allows c.family ∧ t.unit = c.family.unit ∧
        t.value = a.value * c.scale + c.shift := by
  obtain ⟨c, hc, hallowed⟩ := canonicalize_verified_iff.mp (h.verified.symm.trans hverified)
  have hvalue := h.value
  have hunit := h.unit
  rw [canonicalize_of_conversion? hc hallowed] at hvalue hunit
  exact ⟨c, hc, hallowed, hunit, hvalue⟩

/-- A clause sets its amount for the limit. -/
theorem isLimitOf_threshold {s : Rule.Snippet} {a : Amount s} {f : Found}
    (citation : Rule.Citation) (xs : List Condition) (hvalue : a.value = f.value)
    (hunit : a.unit = f.unit) (hstart : f.start ≤ a.number.start) (hstop : a.number.stop ≤ f.stop) :
    a.IsLimitOf (f.threshold citation s.text.toList xs) where
  quoted := ⟨f.start, f.stop, rfl, hstart, hstop⟩
  value := by rw [hvalue, hunit, Found.threshold]
  unit := by rw [hvalue, hunit, Found.threshold]
  verified := by rw [hvalue, hunit, Found.threshold]

/-- **Every threshold of a snippet has an amount of its text for its limit.** -/
theorem exists_amount {s : Rule.Snippet} {t : Rule.Threshold}
    (h : t ∈ (ofSnippet s).thresholds) : ∃ a : Amount s, a.IsLimitOf t := by
  rw [thresholds_eq_filterMap] at h
  obtain ⟨finding, hfinding, ht⟩ := List.mem_filterMap.mp h
  obtain ⟨start, hstart, hmade⟩ := List.mem_filterMap.mp hfinding
  cases finding with
  | skipped => cases ht
  | found f =>
      obtain ⟨p, hp, -⟩ := exists_passage hstart hmade
      have hordered : Ordered p.tokens := hp ▸ ordered_tokens _
      have htext : snippetTokens s = p.before ++ p.first :: (p.name ++ p.gap) ++
          p.number :: (p.unit ++ (p.trailing ++ p.after)) := by
        rw [← hp]
        simp only [Passage.tokens, Passage.own, List.cons_append, List.append_assoc]
      have hnumber : p.number ∈ p.own := List.mem_append_right _ List.mem_cons_self
      rw [Finding.threshold?, Option.some.injEq] at ht
      subst ht
      exact ⟨⟨_, p.number, _, f.value, htext, p.number_eq⟩,
        isLimitOf_threshold _ _ rfl (congrArg Prod.fst p.unit_eq) (p.start_le hordered hnumber)
          (p.stop_le hordered (List.mem_append_right _ hnumber)).2⟩

end SiteSafety.Clause
