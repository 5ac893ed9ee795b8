import Mathlib.Data.List.Basic
import Mathlib.Data.List.Induction

/-!
# Proofs — Firsts

What comes first in a list.  `IsFirsts key xs kept` says that `kept` are the items of `xs` that are
the first with their keys: each is one, they stand in the order of `xs`, and every key of `xs` is
that of one of them.  Two ways of leaving out repetitions keep just these: a pass that adds an item
behind the others unless its key is known already, and `List.eraseDups`, for which an item is its
own key.

* `findIdx_filter_lt_iff`: what comes first does so whatever else is left out.
* `isFirsts_foldl`, `isFirsts_eraseDups`: the two ways.
-/

namespace SiteSafety

variable {α κ : Type}

/-! ### Places -/

/-- Which of two items comes first does not depend on others that are left out. -/
theorem findIdx_filter_lt_iff {p f g : α → Bool} {l : List α}
    (hf : ∀ x ∈ l, f x = true → p x = true) (hg : ∀ x ∈ l, g x = true → p x = true) :
    (l.filter p).findIdx f < (l.filter p).findIdx g ↔ l.findIdx f < l.findIdx g := by
  induction l with
  | nil => rfl
  | cons x l ih =>
      obtain ⟨hfx, hf⟩ := List.forall_mem_cons.mp hf
      obtain ⟨hgx, hg⟩ := List.forall_mem_cons.mp hg
      cases hp : p x with
      | true =>
          rw [List.filter_cons_of_pos hp, List.findIdx_cons, List.findIdx_cons, List.findIdx_cons,
            List.findIdx_cons]
          cases f x <;> cases g x <;> simp [ih hf hg]
      | false =>
          have hfx : f x = false := by simpa [hp] using hfx
          have hgx : g x = false := by simpa [hp] using hgx
          rw [List.filter_cons_of_neg (by simp [hp]), ih hf hg, List.findIdx_cons,
            List.findIdx_cons, hfx, hgx]
          exact Nat.succ_lt_succ_iff.symm

section Distinct
variable [BEq α] [LawfulBEq α]

/-- Without its repetitions a list is in the order of first appearance. -/
theorem pairwise_eraseDups (l : List α) :
    l.eraseDups.Pairwise fun a b => l.idxOf a < l.idxOf b := by
  match l with
  | [] => exact .nil
  | a :: l =>
      have hne : ∀ b ∈ (l.filter fun b => !b == a).eraseDups, b ≠ a := by
        intro b hb
        simpa using (List.mem_filter.mp (List.mem_eraseDups.mp hb)).2
      have hkept : ∀ b ≠ a, ∀ c ∈ l, (c == b) = true → (!c == a) = true := by
        intro b hb c _ hc
        rw [beq_iff_eq] at hc
        simpa [hc] using hb
      rw [List.eraseDups_cons, List.pairwise_cons]
      constructor
      · intro b hb
        rw [List.idxOf_cons_self, List.idxOf_cons_ne _ (hne b hb).symm]
        exact Nat.succ_pos _
      · refine (pairwise_eraseDups (l.filter fun b => !b == a)).imp_of_mem ?_
        intro b c hb hc hlt
        rw [List.idxOf_cons_ne _ (hne b hb).symm, List.idxOf_cons_ne _ (hne c hc).symm]
        exact Nat.succ_lt_succ
          ((findIdx_filter_lt_iff (hkept b (hne b hb)) (hkept c (hne c hc))).mp hlt)
termination_by l.length
decreasing_by
  have hlen := List.length_filter_le (fun b => !b == a) l
  simp only [List.length_cons]
  omega

theorem nodup_eraseDups (l : List α) : l.eraseDups.Nodup := by
  refine (pairwise_eraseDups l).imp fun {a b} hlt heq => ?_
  rw [heq] at hlt
  exact Nat.lt_irrefl _ hlt

end Distinct

/-! ### First items -/

section Keys
variable [DecidableEq κ] (key : α → κ)

/-- The place of the first item with a key. -/
def firstPlace (xs : List α) (k : κ) : Nat := xs.findIdx fun x => key x = k

/-- These are the items of a list that are the first with their keys. -/
structure IsFirsts (xs kept : List α) : Prop where
  /-- No item before has the key. -/
  first : ∀ k ∈ kept, ∃ before after, xs = before ++ k :: after ∧ ∀ b ∈ before, key b ≠ key k
  /-- They stand in the order of the list. -/
  ordered : kept.Pairwise fun a b => firstPlace key xs (key a) < firstPlace key xs (key b)
  /-- Each key is that of one of them. -/
  covers : ∀ x ∈ xs, ∃ k ∈ kept, key k = key x

variable {key} {xs kept : List α} {a b c : α}

theorem firstPlace_lt_iff {k : κ} : firstPlace key xs k < xs.length ↔ ∃ x ∈ xs, key x = k := by
  simp [firstPlace, List.findIdx_lt_length]

/-- What is added behind a list changes no place in it. -/
theorem firstPlace_concat (h : ∃ x ∈ xs, key x = key a) :
    firstPlace key (xs ++ [c]) (key a) = firstPlace key xs (key a) := by
  have hlt := firstPlace_lt_iff.mpr h
  rw [firstPlace] at hlt
  rw [firstPlace, List.findIdx_append, if_pos hlt, firstPlace]

theorem firstPlace_concat_self (h : ∀ x ∈ xs, key x ≠ key c) :
    firstPlace key (xs ++ [c]) (key c) = xs.length := by
  have hnone : ¬ firstPlace key xs (key c) < xs.length := by
    rw [firstPlace_lt_iff]
    rintro ⟨x, hx, heq⟩
    exact h x hx heq
  rw [firstPlace] at hnone
  rw [firstPlace, List.findIdx_append, if_neg hnone, List.findIdx_cons]
  simp

namespace IsFirsts

theorem mem (h : IsFirsts key xs kept) (ha : a ∈ kept) : a ∈ xs := by
  obtain ⟨before, after, rfl, -⟩ := h.first a ha
  simp

/-- No two of them have the same key. -/
theorem distinct (h : IsFirsts key xs kept) : kept.Pairwise fun a b => key a ≠ key b := by
  refine h.ordered.imp fun {a b} hlt heq => ?_
  rw [heq] at hlt
  exact Nat.lt_irrefl _ hlt

/-- An item behind the list is one of them if its key is new. -/
theorem concat (h : IsFirsts key xs kept) (c : α) :
    IsFirsts key (xs ++ [c]) (if kept.any (key · = key c) then kept else kept ++ [c]) := by
  have hany : kept.any (key · = key c) = true ↔ ∃ k ∈ kept, key k = key c := by simp
  have hfirst : ∀ k ∈ kept, ∃ before after, xs ++ [c] = before ++ k :: after ∧
      ∀ b ∈ before, key b ≠ key k := by
    intro k hk
    obtain ⟨before, after, rfl, hbefore⟩ := h.first k hk
    exact ⟨before, after ++ [c], by simp, hbefore⟩
  have hordered : kept.Pairwise fun a b =>
      firstPlace key (xs ++ [c]) (key a) < firstPlace key (xs ++ [c]) (key b) := by
    refine h.ordered.imp_of_mem fun ha hb hlt => ?_
    rwa [firstPlace_concat ⟨_, h.mem ha, rfl⟩, firstPlace_concat ⟨_, h.mem hb, rfl⟩]
  split
  case isTrue hknown =>
      refine ⟨hfirst, hordered, fun x hx => ?_⟩
      rcases List.mem_append.mp hx with hx | hx
      · exact h.covers x hx
      · obtain rfl := List.mem_singleton.mp hx
        exact hany.mp hknown
  case isFalse hunknown =>
      have hnew : ∀ x ∈ xs, key x ≠ key c := by
        intro x hx heq
        obtain ⟨k, hk, hkey⟩ := h.covers x hx
        exact hunknown (hany.mpr ⟨k, hk, hkey.trans heq⟩)
      refine ⟨fun k hk => ?_, ?_, fun x hx => ?_⟩
      · rcases List.mem_append.mp hk with hk | hk
        · exact hfirst k hk
        · obtain rfl := List.mem_singleton.mp hk
          exact ⟨xs, [], rfl, hnew⟩
      · refine List.pairwise_append.mpr ⟨hordered, List.pairwise_singleton _ _, ?_⟩
        intro a ha b hb
        obtain rfl := List.mem_singleton.mp hb
        rw [firstPlace_concat ⟨a, h.mem ha, rfl⟩, firstPlace_concat_self hnew]
        exact firstPlace_lt_iff.mpr ⟨a, h.mem ha, rfl⟩
      · rcases List.mem_append.mp hx with hx | hx
        · obtain ⟨k, hk, hkey⟩ := h.covers x hx
          exact ⟨k, List.mem_append_left _ hk, hkey⟩
        · exact ⟨x, List.mem_append_right _ hx, rfl⟩

end IsFirsts

/-- A pass that adds an item behind the others unless its key is known keeps the first items. -/
theorem isFirsts_foldl (xs : List α) : IsFirsts key xs
    (xs.foldl (fun kept c => if kept.any (key · = key c) then kept else kept ++ [c]) []) := by
  induction xs using List.reverseRecOn with
  | nil => exact ⟨nofun, .nil, nofun⟩
  | append_singleton xs c ih =>
      rw [List.foldl_concat]
      exact ih.concat c

end Keys

/-- A list without its repetitions. -/
theorem isFirsts_eraseDups [DecidableEq α] (l : List α) : IsFirsts id l l.eraseDups where
  first a ha := by
    obtain ⟨before, after, heq, hnot⟩ := List.eq_append_cons_of_mem (List.mem_eraseDups.mp ha)
    refine ⟨before, after, heq, fun b hb hba => hnot ?_⟩
    rwa [← show b = a from hba]
  ordered := pairwise_eraseDups l
  covers a ha := ⟨a, List.mem_eraseDups.mpr ha, rfl⟩

end SiteSafety
