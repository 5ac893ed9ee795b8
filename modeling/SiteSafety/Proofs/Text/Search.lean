import Mathlib.Data.List.Infix
import SiteSafety.Text.Words

/-!
# Proofs — Text — Search

Occurrences of a pattern are contiguous parts of a text (`contains_iff`).  A pattern without a
certain character does not occur across one, so it occurs in a text exactly where it occurs in the
pieces between such characters (`infix_append_cons_iff`).  Of the pieces that a text is split into
at a pattern none holds it (`not_infix_of_mem_splitAt`).
-/

namespace SiteSafety.Text

variable {α : Type} {x : α} {pat l m : List α}

/-- A pattern does not start a text across a character that is not in it. -/
theorem prefix_append_cons_iff (h : x ∉ pat) : pat <+: l ++ x :: m ↔ pat <+: l := by
  refine ⟨fun hpat => ?_, fun hpat => hpat.trans (List.prefix_append _ _)⟩
  rcases Nat.lt_or_ge l.length pat.length with hlt | hle
  · have hx : pat[l.length] = x := by simpa using hpat.getElem hlt
    exact absurd (hx ▸ List.getElem_mem hlt) h
  · exact List.prefix_of_prefix_length_le hpat (List.prefix_append _ _) hle

/-- A pattern occurs on one side of a character that is not in it. -/
theorem infix_append_cons_iff (h : x ∉ pat) :
    pat <:+: l ++ x :: m ↔ pat <:+: l ∨ pat <:+: m := by
  induction l with
  | nil =>
      rw [List.nil_append, List.infix_cons_iff, ← List.nil_append (x :: m),
        prefix_append_cons_iff h, List.prefix_nil, List.infix_nil]
  | cons a l ih =>
      rw [List.cons_append, List.infix_cons_iff, List.infix_cons_iff, ih, ← List.cons_append,
        prefix_append_cons_iff h, or_assoc]

/-- A text does not end with a pattern across a character that is not in it. -/
theorem suffix_append_cons_iff (h : x ∉ pat) : pat <:+ l ++ x :: m ↔ pat <:+ m := by
  have hsplit : (l ++ x :: m).reverse = m.reverse ++ x :: l.reverse := by simp
  rw [← List.reverse_prefix, hsplit, prefix_append_cons_iff (by simpa using h),
    List.reverse_prefix]

/-- A pattern that holds a character once occurs across that character, or on one side of it. -/
theorem infix_append_cons_cons_iff {u v : List α} (hu : x ∉ u) (hv : x ∉ v) :
    u ++ x :: v <:+: l ++ x :: m ↔
      u ++ x :: v <:+: l ∨ (u <:+ l ∧ v <+: m) ∨ u ++ x :: v <:+: m := by
  constructor
  · rintro ⟨s, t, heq⟩
    have hsplit : (s ++ u) ++ x :: (v ++ t) = l ++ x :: m := by
      rw [← heq]
      simp
    -- the character in hand stands behind that of the pattern, is it, or stands before it
    rcases List.append_eq_append_iff.mp hsplit with ⟨a, rfl, ha⟩ | ⟨a, ha, hm⟩
    · cases a with
      | nil =>
          obtain ⟨-, rfl⟩ := List.cons.inj ha
          exact .inr (.inl ⟨by simp, List.prefix_append v t⟩)
      | cons _ a =>
          obtain ⟨rfl, hbehind⟩ := List.cons.inj ha
          obtain ⟨r, rfl⟩ := (prefix_append_cons_iff hv).mp ⟨t, hbehind⟩
          exact .inl ⟨s, r, by simp⟩
    · cases a with
      | nil =>
          obtain ⟨-, rfl⟩ := List.cons.inj hm
          exact .inr (.inl ⟨⟨s, by simpa using ha⟩, List.prefix_append v t⟩)
      | cons _ a =>
          obtain ⟨rfl, rfl⟩ := List.cons.inj hm
          obtain ⟨r, rfl⟩ := (suffix_append_cons_iff hu).mp ⟨s, ha⟩
          exact .inr (.inr ⟨r, t, by simp⟩)
  · rintro (h | ⟨hl, hm⟩ | h)
    · exact h.trans (List.prefix_append _ _).isInfix
    · obtain ⟨s, rfl⟩ := hl
      obtain ⟨t, rfl⟩ := hm
      exact ⟨s, t, by simp⟩
    · exact h.trans ⟨l ++ [x], [], by simp⟩

/-- The parts of a text that is cut at a pattern are those before and behind it. -/
theorem append_of_cut? {pat cs before after : List Char} (h : cut? pat cs = some (before, after)) :
    cs = before ++ (pat ++ after) := by
  induction cs generalizing before with
  | nil =>
      rw [cut?] at h
      split at h
      next hempty =>
        obtain ⟨rfl, rfl⟩ := Prod.mk.inj (Option.some.inj h)
        simp_all
      next => cases h
  | cons c cs ih =>
      rw [cut?] at h
      split at h
      next hpre =>
        obtain ⟨rfl, rfl⟩ := Prod.mk.inj (Option.some.inj h)
        obtain ⟨rest, hrest⟩ := List.isPrefixOf_iff_prefix.mp hpre
        rw [← hrest, List.drop_left, List.nil_append]
      next =>
        obtain ⟨⟨before, rest⟩, hcut, heq⟩ := Option.map_eq_some_iff.mp h
        obtain ⟨rfl, rfl⟩ := Prod.mk.inj heq
        rw [List.cons_append, ← ih hcut]

theorem contains_iff {pat cs : List Char} : contains pat cs = true ↔ pat <:+: cs := by
  unfold contains
  induction cs with
  | nil =>
      rw [cut?, List.infix_nil]
      cases pat <;> simp
  | cons c cs ih =>
      rw [cut?, List.infix_cons_iff, ← List.isPrefixOf_iff_prefix]
      split
      case isTrue hpre => simp [hpre]
      case isFalse hpre => simp [hpre, ih]

/-! ### Splitting -/

/-- The pattern occurs in none of the pieces between its occurrences. -/
theorem not_infix_of_mem_splitAt_go {pat seen rest piece : List Char} (hpat : pat ≠ [])
    (hseen : ∀ i < seen.length, ¬ pat <+: (seen.reverse ++ rest).drop i)
    (hmem : piece ∈ splitAt.go pat seen rest) : ¬ pat <:+: piece := by
  -- an occurrence in the characters that were passed over would start at one of them
  have hpassed (seen rest : List Char)
      (hseen : ∀ i < seen.length, ¬ pat <+: (seen.reverse ++ rest).drop i) :
      ¬ pat <:+: seen.reverse := by
    rintro ⟨before, after, heq⟩
    have hlength := congrArg List.length heq
    simp only [List.length_append, List.length_reverse] at hlength
    have hpos := List.length_pos_iff.mpr hpat
    refine hseen before.length (by omega) ?_
    rw [← heq, List.append_assoc, List.append_assoc, List.drop_left]
    exact List.prefix_append _ _
  fun_induction splitAt.go pat seen rest with
  | case1 seen =>
      obtain rfl := List.mem_singleton.mp hmem
      exact hpassed seen [] hseen
  | case2 seen c more hpre ih =>
      rcases List.mem_cons.mp hmem with rfl | hmem
      · exact hpassed seen (c :: more) hseen
      · exact ih nofun hmem
  | case3 seen c more hpre ih =>
      refine ih (fun i hi => ?_) hmem
      rw [List.reverse_cons, List.append_assoc, List.singleton_append]
      rcases Nat.lt_succ_iff_lt_or_eq.mp hi with hi | rfl
      · exact hseen i hi
      · rw [← List.length_reverse, List.drop_left, ← List.isPrefixOf_iff_prefix]
        exact hpre

theorem not_infix_of_mem_splitAt {pat cs piece : List Char} (hpat : pat ≠ [])
    (hmem : piece ∈ splitAt pat cs) : ¬ pat <:+: piece := by
  refine not_infix_of_mem_splitAt_go hpat (fun i hi => ?_) hmem
  cases hi

end SiteSafety.Text
