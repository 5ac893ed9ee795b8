import SiteSafety.Proofs.Memory.Append

/-!
# Proofs — Memory — Texts

The texts in the files of a logbook (`Logbook.HoldsOnly`).  A property of texts stays with a logbook
when the empty text has it and a record that is written behind a text with it leaves one, whatever
the files allow.

* `HoldsOnly.leaves`: **one append** keeps such a property, also where it fails halfway.
-/

namespace SiteSafety.Memory
open Files

variable {P : List Char → Prop} {l l' : Logbook} {e : Entry} {scope : Scope} {text : String}

/-- The files of a logbook hold texts with a property, where there are files. -/
def Logbook.HoldsOnly (P : List Char → Prop) (l : Logbook) : Prop :=
  ∀ scope bytes, l.tree.at? (placeOf (l.path scope)) = some (.file bytes) →
    ∃ text : String, bytes = text.toUTF8 ∧ P text.toList

/-- A record behind a text with the property leaves a text with the property. -/
def Entry.Carries (P : List Char → Prop) (e : Entry) : Prop :=
  ∀ (now : Calendar.Instant) (old : String), P old.toList → P (old ++ written now e old).toList

namespace Logbook.HoldsOnly

theorem of_readText (h : l.HoldsOnly P) (hread : l.tree.readText (l.path scope) = .ok text) :
    P text.toList := by
  obtain ⟨text', hbytes, htext⟩ := h scope _ (readText_eq_ok_iff.mp hread).2.2
  obtain rfl : text = text' := String.toByteArray_inj.mp hbytes
  exact htext

/-- Files that were made hold no bytes. -/
theorem grown (h : l.HoldsOnly P) (hnil : P []) {grown : Tree} (hgrows : l.tree.Grows grown) :
    HoldsOnly P { l with tree := grown } := by
  intro scope bytes hfile
  cases hat : l.tree.at? (placeOf (l.path scope)) with
  | none =>
      obtain rfl := hgrows.made _ bytes hat hfile
      exact ⟨"", rfl, hnil⟩
  | some n =>
      obtain rfl := Option.some.inj ((hgrows.kept _ n hat).symm.trans hfile)
      exact h scope bytes hat

/-- What is read of a file after a record was put behind its text. -/
theorem readText_append (h : l.HoldsOnly P) (hnil : P []) {tree : Tree}
    (happend : l.tree.append (l.path e.scope) (payload l.clock e) = .ok tree) :
    ∃ old : String, P old.toList ∧
      tree.readText (l.path e.scope) = .ok (old ++ Memory.written l.clock e old) := by
  obtain ⟨bytes, hat, hresolve, hsep, -⟩ := of_append_eq_ok happend
  obtain hfile | ⟨hnone, -⟩ := hat
  · obtain ⟨old, rfl, hold⟩ := h e.scope bytes hfile
    have hread := readText_eq_ok_iff.mpr ⟨hresolve, hsep, hfile⟩
    exact ⟨old, hold, Files.readText_append happend (.inl hread) (payload_toUTF8 _ _ _)⟩
  · refine ⟨"", hnil, Files.readText_append happend (.inr ⟨rfl, fun bytes hfile => ?_⟩)
      (payload_toUTF8 _ _ _)⟩
    rw [hnone] at hfile
    cases hfile

theorem written (h : l.HoldsOnly P) (hnil : P []) (he : e.Carries P) {tree : Tree}
    (happend : l.tree.append (l.path e.scope) (payload l.clock e) = .ok tree) :
    HoldsOnly P { l with tree := tree } := by
  obtain ⟨old, hold, hread⟩ := h.readText_append hnil happend
  obtain ⟨-, -, hwritten⟩ := readText_eq_ok_iff.mp hread
  intro scope bytes hfile
  change tree.at? (placeOf (l.path scope)) = _ at hfile
  by_cases hplace : placeOf (l.path scope) = placeOf (l.path e.scope)
  · -- the file of this scope is the one that was written to, even if it is another scope
    rw [hplace, hwritten] at hfile
    cases hfile
    exact ⟨_, rfl, he l.clock old hold⟩
  · obtain ⟨bytes', -, -, -, htree⟩ := of_append_eq_ok happend
    rw [htree, at?_put_of_ne _ _ hplace] at hfile
    exact h scope bytes hfile

theorem leaves (h : l.HoldsOnly P) (hnil : P []) (he : e.Carries P) (hleaves : l.Leaves e l') :
    l'.HoldsOnly P := by
  cases hleaves with
  | grown hgrows => exact h.grown hnil hgrows
  | written hgrows happend => exact (h.grown hnil hgrows).written hnil he happend

end Logbook.HoldsOnly

end SiteSafety.Memory
