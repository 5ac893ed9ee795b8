import SiteSafety.Clause.Token
import SiteSafety.Proofs.Text.Words

/-!
# Proofs — Clause — Breaks

Where a text may be cut without a token noticing.  No token goes on over a blank or a boundary
character, except that a number goes on over a point or a comma before a digit; and a dash is the
sign of a number behind a blank, but not behind a boundary character.  A character is a break
(`IsBreak`) when neither of the two can happen.

* `tokens_append_break`: **the tokens of a text with a break are those of its two parts**, moved to
  where the parts stand, and the break itself where it is a boundary.
-/

namespace SiteSafety.Clause

variable {previous : Option Char} {i k : Nat} {c : Char} {cs ds : List Char}

/-! ### Characters between tokens -/

/-- Blanks and boundary characters. -/
def isGapChar (c : Char) : Bool := Text.isBlank c || isBoundaryChar c

/-- A character is part of no word, no sign, and no number, points and commas aside. -/
structure Separates (c : Char) : Prop where
  digit : c.isDigit = false
  letter : Text.isAlphabetic c = false
  wordStart : isWordStart c = false
  apostrophe : (c == '\'') = false
  slash : (c == '/') = false
  dash : (c == '-') = false
  symbol : c ∉ ['>', '<', '=', '≥', '≤']

instance (c : Char) : Decidable (Separates c) :=
  decidable_of_iff (c.isDigit = false ∧ Text.isAlphabetic c = false ∧ isWordStart c = false ∧
      (c == '\'') = false ∧ (c == '/') = false ∧ (c == '-') = false ∧ c ∉ ['>', '<', '=', '≥', '≤'])
    ⟨fun h => ⟨h.1, h.2.1, h.2.2.1, h.2.2.2.1, h.2.2.2.2.1, h.2.2.2.2.2.1, h.2.2.2.2.2.2⟩,
      fun h => ⟨h.digit, h.letter, h.wordStart, h.apostrophe, h.slash, h.dash, h.symbol⟩⟩

theorem separates_of_isBlank (h : Text.isBlank c = true) : Separates c :=
  Text.of_isBlank (by decide +kernel) h

theorem separates_of_isBoundaryChar (h : isBoundaryChar c = true) : Separates c := by
  have hmem : c ∈ ['.', ';', ',', ':', '!', '?', '\n', '\r'] := by
    simpa [isBoundaryChar, or_assoc] using h
  have hall : ['.', ';', ',', ':', '!', '?', '\n', '\r'].all fun c => decide (Separates c) := by
    decide
  exact of_decide_eq_true (List.all_eq_true.mp hall c hmem)

theorem separates_of_isGapChar (h : isGapChar c = true) : Separates c := by
  obtain h | h := Bool.or_eq_true_iff.mp h
  · exact separates_of_isBlank h
  · exact separates_of_isBoundaryChar h

/-- A text may be cut at a character with a text behind it. -/
structure IsBreak (c : Char) (ds : List Char) : Prop where
  gap : isGapChar c = true
  /-- No number goes on over it. -/
  number : c = '.' ∨ c = ',' → ds.head?.any Char.isDigit = false
  /-- A dash behind it is a sign if it is one at the start of a text. -/
  sign : Text.isBlank c = true ∨ ds.head? ≠ some '-'

theorem IsBreak.of_isBlank (h : Text.isBlank c = true) (ds : List Char) : IsBreak c ds where
  gap := by simp [isGapChar, h]
  number := by
    rintro (rfl | rfl) <;> exact absurd h (by decide)
  sign := .inl h

/-- A point with a blank behind it ends a sentence. -/
theorem isBreak_stop (ds : List Char) : IsBreak '.' (' ' :: ds) where
  gap := by decide
  number _ := by simp
  sign := .inr (by simp)

theorem IsBreak.separates (h : IsBreak c ds) : Separates c := separates_of_isGapChar h.gap

/-! ### Single tokens -/

theorem startsThousands_append (h : c.isDigit = false) :
    startsThousands (cs ++ c :: ds) = startsThousands cs := by
  match cs with
  | []               => cases ds <;> simp [startsThousands, h]
  | [_]              => rcases ds with _ | ⟨_, _⟩ <;> simp [startsThousands, h]
  | [_, _]           => simp [startsThousands, h]
  | [_, _, _]        => simp [startsThousands, h]
  | _ :: _ :: _ :: _ :: _ => simp [startsThousands]

theorem head?_any_append {p : Char → Bool} (h : p c = false) :
    (cs ++ c :: ds).head?.any p = cs.head?.any p := by
  cases cs <;> simp [h]

theorem numberSpan_append (h : IsBreak c ds) (pointed : Bool) (cs : List Char) :
    numberSpan pointed (cs ++ c :: ds) = numberSpan pointed cs := by
  have hdigit := h.separates.digit
  induction cs generalizing pointed with
  | nil =>
      have hcomma : c = ',' → startsThousands ds = false := by
        rintro rfl
        have hhead := h.number (.inr rfl)
        cases ds <;> simp_all [startsThousands]
      have hpoint : c = '.' → ds.head?.any Char.isDigit = false := fun hc => h.number (.inl hc)
      simp only [List.nil_append, numberSpan, hdigit]
      grind
  | cons a rest ih =>
      simp only [List.cons_append, numberSpan, ih, startsThousands_append hdigit,
        head?_any_append hdigit]

theorem wordSpan_append (h : Separates c) (cs : List Char) :
    wordSpan (cs ++ c :: ds) = wordSpan cs := by
  induction cs with
  | nil => simp [wordSpan, h.wordStart, h.apostrophe, h.slash]
  | cons a rest ih => simp only [List.cons_append, wordSpan, ih, head?_any_append h.letter]

theorem symbol?_append (h : Separates c) (a : Char) (cs : List Char) :
    symbol? a (cs ++ c :: ds) = symbol? a cs := by
  have hsymbol := h.symbol
  simp only [List.mem_cons, not_or] at hsymbol
  cases cs with
  | nil =>
      simp only [symbol?, List.nil_append, List.head?_cons, List.head?_nil]
      split <;> simp_all
  | cons b rest => rfl

theorem isSign_append (h : Separates c) : isSign previous (cs ++ c :: ds) = isSign previous cs := by
  simp only [isSign, head?_any_append h.digit]

theorem numberSpan_le (pointed : Bool) (cs : List Char) :
    (numberSpan pointed cs).2 ≤ cs.length := by
  fun_induction numberSpan pointed cs <;> simp_all

theorem wordSpan_le (cs : List Char) : wordSpan cs ≤ cs.length := by
  fun_induction wordSpan cs <;> simp_all

theorem symbol?_le {a : Char} {comparator : Measurement.Comparator} {n : Nat}
    (h : symbol? a cs = some (comparator, n)) : n ≤ cs.length := by
  unfold symbol? at h
  cases cs <;> split at h <;> simp_all <;> omega

/-- A token does not see what stands behind a break. -/
theorem Kind.first_append (h : IsBreak c ds) (a : Char) (cs : List Char) :
    Kind.first previous a (cs ++ c :: ds) = Kind.first previous a cs := by
  have hnumber := numberSpan_append h false (a :: cs)
  rw [List.cons_append] at hnumber
  simp only [Kind.first, hnumber, numberSpan_append h, wordSpan_append h.separates,
    symbol?_append h.separates, isSign_append h.separates,
    List.take_append_of_le_length (wordSpan_le cs)]

/-- A token takes characters that are there. -/
theorem Kind.first_le (a : Char) (cs : List Char) : (Kind.first previous a cs).2 ≤ cs.length := by
  have hnumber := numberSpan_le false (a :: cs)
  have hsigned := numberSpan_le false cs
  have hword := wordSpan_le cs
  rw [List.length_cons] at hnumber
  unfold Kind.first
  split
  · simp only
    omega
  · split
    · exact hsigned
    · split
      · exact hword
      · split
        case h_1 comparator n hsymbol => exact symbol?_le hsymbol
        case h_2 => exact Nat.zero_le _

/-- A gap starts no token but its own. -/
theorem Kind.first_gap (h : Separates c) :
    Kind.first previous c ds = (if isBoundaryChar c then some .boundary else none, 0) := by
  have hsymbol : symbol? c ds = none := by
    have hnot := h.symbol
    simp only [List.mem_cons, not_or] at hnot
    unfold symbol?
    split <;> simp_all
  simp [Kind.first, h.digit, h.dash, h.wordStart, hsymbol]

/-- A dash behind a break is a sign if it is one at the start of a text. -/
theorem Kind.first_behind {a : Char} (h : IsBreak c (a :: cs)) :
    Kind.first (some c) a cs = Kind.first none a cs := by
  unfold Kind.first
  rcases h.sign with hblank | hdash
  · simp [isSign, hblank]
  · have hne : (a == '-') = false := by simpa using hdash
    simp [hne]

/-! ### Texts -/

/-- The token, with a new place for each place of the text. -/
def Token.move (g : Nat → Nat) (t : Token) : Token := ⟨t.kind, g t.start, g t.stop⟩

/-- The token, so many characters further on. -/
def Token.shift (k : Nat) (t : Token) : Token := ⟨t.kind, t.start + k, t.stop + k⟩

/-- The token that a gap is. -/
def gapTokens (c : Char) (i : Nat) : List Token :=
  if isBoundaryChar c then [⟨.boundary, i, i + 1⟩] else []

/-- The first token of a text, and the tokens behind it. -/
theorem tokensFrom_cons {kind? : Option Kind} {n : Nat} {a : Char}
    (h : Kind.first previous a cs = (kind?, n)) :
    tokensFrom previous i (a :: cs) = (kind?.map (⟨·, i, i + 1 + n⟩)).toList ++
      tokensFrom (a :: cs.take n).getLast? (i + 1 + n) (cs.drop n) := by
  have hle : n ≤ cs.length := by
    have hfirst : (Kind.first previous a cs).2 ≤ cs.length := Kind.first_le a cs
    rwa [h] at hfirst
  rw [tokensFrom, h]
  simp only [List.length_take, Nat.min_eq_left hle]
  cases kind? <;> rfl

theorem tokensFrom_shift (previous : Option Char) (i k : Nat) (cs : List Char) :
    tokensFrom previous (i + k) cs = (tokensFrom previous i cs).map (Token.shift k) := by
  match cs with
  | [] => simp [tokensFrom]
  | a :: cs =>
      obtain ⟨kind?, n, hfirst⟩ : ∃ kind? n, Kind.first previous a cs = (kind?, n) := ⟨_, _, rfl⟩
      have hmore := tokensFrom_shift (a :: cs.take n).getLast? (i + 1 + n) k (cs.drop n)
      rw [tokensFrom_cons hfirst, tokensFrom_cons hfirst, List.map_append, ← hmore,
        show i + k + 1 + n = i + 1 + n + k by omega]
      cases kind? with
      | none => rfl
      | some kind => simp [Token.shift]
termination_by cs.length

/-- Tokens stand in order in their text. -/
theorem bounds_of_mem_tokensFrom {t : Token} (previous : Option Char) (i : Nat) (cs : List Char)
    (h : t ∈ tokensFrom previous i cs) :
    i ≤ t.start ∧ t.start ≤ t.stop ∧ t.stop ≤ i + cs.length := by
  match cs with
  | [] => simp [tokensFrom] at h
  | a :: cs =>
      obtain ⟨kind?, n, hfirst⟩ : ∃ kind? n, Kind.first previous a cs = (kind?, n) := ⟨_, _, rfl⟩
      have hle : (Kind.first previous a cs).2 ≤ cs.length := Kind.first_le a cs
      rw [hfirst] at hle
      rw [tokensFrom_cons hfirst] at h
      rcases List.mem_append.mp h with h | h
      · cases kind? with
        | none => cases h
        | some kind =>
            simp only [Option.map_some, Option.toList_some, List.mem_singleton] at h
            subst h
            simp only [List.length_cons]
            omega
      · have := bounds_of_mem_tokensFrom _ _ _ h
        simp only [List.length_drop, List.length_cons] at this ⊢
        omega
termination_by cs.length

/-- What stands behind a break is read as at the start of a text. -/
theorem tokensFrom_break (h : IsBreak c ds) (previous : Option Char) (i : Nat) :
    tokensFrom previous i (c :: ds) = gapTokens c i ++ tokensFrom none (i + 1) ds := by
  have hstart : tokensFrom (some c) (i + 1) ds = tokensFrom none (i + 1) ds := by
    cases ds with
    | nil => simp [tokensFrom]
    | cons a cs => rw [tokensFrom, tokensFrom, Kind.first_behind h]
  rw [tokensFrom_cons (Kind.first_gap h.separates)]
  simp only [List.take_zero, List.getLast?_singleton, List.drop_zero, Nat.add_zero, hstart]
  unfold gapTokens
  split <;> rfl

/-- A break does not show in the tokens before it. -/
theorem tokensFrom_append (h : IsBreak c ds) (previous : Option Char) (i : Nat) (cs : List Char) :
    tokensFrom previous i (cs ++ c :: ds) = tokensFrom previous i cs ++
      (gapTokens c (i + cs.length) ++ tokensFrom none (i + cs.length + 1) ds) := by
  match cs with
  | [] => simp [tokensFrom, tokensFrom_break h]
  | a :: cs =>
      obtain ⟨kind?, n, hfirst⟩ : ∃ kind? n, Kind.first previous a cs = (kind?, n) := ⟨_, _, rfl⟩
      have hle : (Kind.first previous a cs).2 ≤ cs.length := Kind.first_le a cs
      rw [hfirst] at hle
      have hmore := tokensFrom_append h (a :: cs.take n).getLast? (i + 1 + n) (cs.drop n)
      have hplace : i + 1 + n + (cs.drop n).length = i + (a :: cs).length := by
        simp only [List.length_drop, List.length_cons]
        omega
      rw [List.cons_append, tokensFrom_cons (by rw [Kind.first_append h, hfirst]),
        tokensFrom_cons hfirst, List.take_append_of_le_length hle,
        List.drop_append_of_le_length hle, hmore, hplace, List.append_assoc]
termination_by cs.length

/-- The tokens of a text with a break are those of its two parts, and the break itself where it is
a boundary. -/
theorem tokens_append_break (h : IsBreak c ds) (cs : List Char) :
    tokens (cs ++ c :: ds) = tokens cs ++ gapTokens c cs.length ++
      (tokens ds).map (Token.shift (cs.length + 1)) := by
  rw [tokens, tokensFrom_append h, tokens, tokens, ← tokensFrom_shift, List.append_assoc,
    Nat.zero_add, Nat.zero_add]

theorem bounds_of_mem_tokens {t : Token} (h : t ∈ tokens cs) :
    t.start ≤ t.stop ∧ t.stop ≤ cs.length := by
  have := bounds_of_mem_tokensFrom none 0 cs h
  omega

end SiteSafety.Clause
