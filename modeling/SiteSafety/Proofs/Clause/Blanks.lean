import SiteSafety.Proofs.Clause.Parts

/-!
# Proofs — Clause — Blanks

Where blanks may be stretched without a clause noticing.  No token holds a space, and a dash is the
sign of a number behind one space as behind many.  So a text in which stretches of spaces are
replaced by longer or shorter ones has the same tokens, at other places.

Places are counted in any measure: a measured text gives every character a width, and
`place us i` is the width of the first `i` characters.  Two measured texts are `Respaced` when they
differ only in stretches of spaces, each of which has in both texts the same width.

* `tokens_respaced`, `findings_respaced`: **respaced texts have the same tokens and the same
  clauses, at the same places.**
-/

namespace SiteSafety.Clause

/-- A text with a width for each of its characters. -/
abbrev Measured := List (Char × Nat)

/-- The text without its widths. -/
def chars (us : Measured) : List Char := us.map Prod.fst

/-- The width of a text. -/
def extent (us : Measured) : Nat := (us.map Prod.snd).foldr (· + ·) 0

/-- The width of the first characters of a text. -/
def place (us : Measured) (i : Nat) : Nat := extent (us.take i)

/-- One space or several, of a width. -/
structure IsStretch (as : Measured) (width : Nat) : Prop where
  nonempty : as ≠ []
  spaces : ∀ p ∈ as, p.1 = ' '
  width : extent as = width

/-- The texts differ in stretches of spaces, and in none of their widths. -/
inductive Respaced : Measured → Measured → Prop where
  | nil : Respaced [] []
  | keep (p : Char × Nat) {us vs : Measured} (h : Respaced us vs) : Respaced (p :: us) (p :: vs)
  | stretch {as bs us vs : Measured} {width : Nat} (ha : IsStretch as width)
      (hb : IsStretch bs width) (h : Respaced us vs) : Respaced (as ++ us) (bs ++ vs)

variable {us vs ws : Measured} {cs : List Char} {i n width : Nat}

/-! ### Places -/

theorem chars_append (us vs : Measured) : chars (us ++ vs) = chars us ++ chars vs :=
  List.map_append

theorem extent_append (us vs : Measured) : extent (us ++ vs) = extent us + extent vs := by
  induction us with
  | nil => exact (Nat.zero_add _).symm
  | cons p us ih =>
      show p.2 + extent (us ++ vs) = p.2 + extent us + extent vs
      rw [ih, Nat.add_assoc]

theorem place_append (hi : i ≤ us.length) : place (us ++ vs) i = place us i := by
  rw [place, List.take_append_of_le_length hi]
  rfl

theorem place_behind (us vs : Measured) (i : Nat) :
    place (us ++ vs) (i + us.length) = place vs i + extent us := by
  rw [place, Nat.add_comm, List.take_length_add_append, extent_append, Nat.add_comm]
  rfl

theorem IsStretch.chars_eq (h : IsStretch us width) : ∃ n, us.length = n + 1 ∧
    chars us = List.replicate (n + 1) ' ' := by
  obtain ⟨n, hn⟩ := Nat.exists_eq_succ_of_ne_zero (mt List.length_eq_zero_iff.mp h.nonempty)
  refine ⟨n, hn, List.eq_replicate_iff.mpr ⟨by simpa [chars] using hn, fun c hc => ?_⟩⟩
  obtain ⟨p, hp, rfl⟩ := List.mem_map.mp hc
  exact h.spaces p hp

/-! ### Tokens -/

/-- Spaces at the head of a text are passed over. -/
theorem tokensFrom_spaces (i n : Nat) (cs : List Char) :
    tokensFrom none i (List.replicate n ' ' ++ cs) = tokensFrom none (i + n) cs := by
  induction n generalizing i with
  | zero => rfl
  | succ n ih =>
      have hspace : IsBreak ' ' (List.replicate n ' ' ++ cs) := .of_isBlank (by decide) _
      rw [List.replicate_succ, List.cons_append, tokensFrom_break hspace, ih,
        show i + 1 + n = i + (n + 1) by omega]
      rfl

/-- The tokens of a text with spaces in it are those of its two parts. -/
theorem tokens_append_spaces (cs : List Char) (n : Nat) (ds : List Char) :
    tokens (cs ++ (List.replicate (n + 1) ' ' ++ ds)) =
      tokens cs ++ (tokens ds).map (Token.shift (cs.length + (n + 1))) := by
  have hspace : IsBreak ' ' (List.replicate n ' ' ++ ds) := .of_isBlank (by decide) _
  have hparts := tokensFrom_append hspace none 0 cs
  rw [tokensFrom_spaces, Nat.zero_add, show cs.length + 1 + n = 0 + (cs.length + (n + 1)) by omega,
    tokensFrom_shift] at hparts
  exact hparts

/-- The tokens of a text, by where they stand in its measure. -/
def placedTokens (us : Measured) : List Token := (tokens (chars us)).map (Token.move (place us))

/-- The tokens on both sides of a stretch of spaces are read by themselves. -/
theorem placedTokens_append_stretch (ws : Measured) {as : Measured} (h : IsStretch as width)
    (us : Measured) : placedTokens (ws ++ (as ++ us)) =
      placedTokens ws ++ (placedTokens us).map (Token.shift (extent ws + width)) := by
  obtain ⟨n, hlength, hchars⟩ := h.chars_eq
  have hwidth : extent (ws ++ as) = extent ws + width := by rw [extent_append, h.width]
  have hsplit : (ws ++ as).length = (chars ws).length + (n + 1) := by
    rw [List.length_append, hlength, chars, List.length_map]
  unfold placedTokens
  rw [chars_append, chars_append, hchars, tokens_append_spaces, List.map_append, List.map_map,
    List.map_map]
  congr 1
  · refine List.map_congr_left fun t ht => ?_
    have hbounds := bounds_of_mem_tokens ht
    have hws : (chars ws).length = ws.length := List.length_map _
    rw [Token.move, place_append (by omega), place_append (by omega)]
    rfl
  · refine List.map_congr_left fun t _ => ?_
    simp only [Function.comp, Token.move, Token.shift, ← hsplit, ← List.append_assoc, place_behind,
      hwidth]

/-- Respaced texts have the same tokens at the same places. -/
theorem tokens_respaced (h : Respaced us vs) : placedTokens us = placedTokens vs := by
  -- what stands before the place where the texts are compared may be the start of a token
  suffices hbehind : ∀ ws, placedTokens (ws ++ us) = placedTokens (ws ++ vs) from hbehind []
  induction h with
  | nil => exact fun _ => rfl
  | @keep p us vs _ ih =>
      intro ws
      rw [List.append_cons ws p us, List.append_cons ws p vs]
      exact ih (ws ++ [p])
  | stretch ha hb _ ih =>
      intro ws
      have hrest := ih []
      rw [List.nil_append, List.nil_append] at hrest
      rw [placedTokens_append_stretch ws ha, placedTokens_append_stretch ws hb, hrest]

/-- Respaced texts have the same clauses at the same places. -/
theorem findings_respaced (h : Respaced us vs) :
    (findings [] (tokens (chars us))).map (Finding.move (place us)) =
      (findings [] (tokens (chars vs))).map (Finding.move (place vs)) := by
  rw [← findings_map_move, ← findings_map_move]
  exact congrArg (findings []) (tokens_respaced h)

end SiteSafety.Clause
