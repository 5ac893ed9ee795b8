import SiteSafety.Proofs.Files.Tree

/-!
# Proofs — Files — Agreement

Trees that hold the same at every place (`Tree.Agrees`), in whatever order they list it.

* `readText_congr`: what is read of one is read of the other.
* `makeParent_error_again`: directories that could not be made cannot be made again, and the next
  attempt changes nothing.
* `append_error_congr`: what cannot be written in one cannot be written in the other, and fails for
  the same reason.
* `agrees_of_touch`: a file that is there is touched without a change.
-/

namespace SiteSafety.Files

variable {t t' : Tree} {path : String} {cause : Failure}

/-- The same stands at every place of both trees. -/
def Tree.Agrees (t t' : Tree) : Prop := ∀ p, t'.at? p = t.at? p

namespace Tree.Agrees

theorem refl (t : Tree) : t.Agrees t := fun _ => rfl

theorem keepsDirectories (h : t.Agrees t') : t.KeepsDirectories t' :=
  fun p hp => (h p).trans hp

theorem put (h : t.Agrees t') (p : Place) (n : Node) : (t.put p n).Agrees (t'.put p n) := by
  intro q
  by_cases hq : q = p
  · subst hq
    cases hfixed : isFixed q with
    | true => rw [Tree.at?, Tree.at?, if_pos hfixed, if_pos hfixed]
    | false => rw [at?_put_self _ _ _ hfixed, at?_put_self _ _ _ hfixed]
  · rw [at?_put_of_ne _ _ hq, at?_put_of_ne _ _ hq, h q]

end Tree.Agrees

/-! ### Reading -/

theorem walk_congr (h : t.Agrees t') (here : Place) (ss : List Step) :
    t'.walk here ss = t.walk here ss := by
  fun_induction Tree.walk t here ss with
  | case1 here => rfl
  | case2 here rest ih | case3 here rest ih | case4 here rest ih => rw [Tree.walk, ih]
  | case5 here s => rfl
  | case6 here s rest hne hnone => rw [Tree.walk.eq_6 _ _ _ _ hne, h, hnone]
  | case7 here s rest hne bytes hfile => rw [Tree.walk.eq_6 _ _ _ _ hne, h, hfile]
  | case8 here s rest hne hdir ih =>
      rw [Tree.walk.eq_6 _ _ _ _ hne, h, hdir]
      exact ih

theorem resolve_congr (h : t.Agrees t') (path : String) : t'.resolve path = t.resolve path := by
  unfold Tree.resolve
  rw [walk_congr h]

theorem readText_congr (h : t.Agrees t') (path : String) : t'.readText path = t.readText path := by
  unfold Tree.readText Tree.readBytes Tree.find
  rw [resolve_congr h]
  cases t.resolve path with
  | error cause => rfl
  | ok p =>
      dsimp only
      rw [h p]

/-! ### Making and writing -/

/-- Where some directories could not be made, the next attempt fails as well and changes nothing. -/
theorem makeAlong_error_again {made again : Bool} {here : Place} {ss : List Step} {left : Tree}
    (h : t.makeAlong made here ss = .error (cause, left)) (hagrees : left.Agrees t') :
    ∃ cause', t'.makeAlong again here ss = .error (cause', t') := by
  fun_induction Tree.makeAlong t made here ss with
  | case1 => cases h
  | case2 _ _ _ _ ih | case3 _ _ _ _ ih | case4 _ _ _ _ ih =>
      rw [Tree.makeAlong]
      exact ih h
  | case5 t made here s rest next hnone ih =>
      have hfixed : isFixed next = false := not_isFixed_of_at? (t := t) (by simp [hnone])
      rw [Tree.makeAlong, hagrees next,
        (grows_of_makeAlong_error h).kept next _ (at?_put_self t next _ hfixed)]
      exact ih h
  | case6 t made here s rest next bytes hfile =>
      cases h
      rw [Tree.makeAlong, hagrees next, hfile]
      exact ⟨_, rfl⟩
  | case7 t made here s rest next hdir ih =>
      rw [Tree.makeAlong, hagrees next, (grows_of_makeAlong_error h).kept next _ hdir]
      exact ih h

theorem makeParent_error_again {left : Tree} (h : t.makeParent path = .error (cause, left))
    (hagrees : left.Agrees t') : ∃ cause', t'.makeParent path = .error (cause', t') := by
  rw [makeParent_eq] at h ⊢
  exact makeAlong_error_again h hagrees

/-- Whether bytes can be written does not depend on the bytes. -/
theorem append_error_congr (h : t.Agrees t') {more more' : ByteArray → ByteArray}
    (hfail : t.append path more = .error cause) : t'.append path more' = .error cause := by
  unfold Tree.append at hfail ⊢
  rw [resolve_congr h]
  cases hresolve : t.resolve path with
  | error cause' =>
      rw [hresolve] at hfail
      exact hfail
  | ok p =>
      simp only [hresolve, h p, h p.dropLast] at hfail ⊢
      split at hfail
      next hsep => rwa [if_pos hsep]
      next hsep =>
        rw [if_neg hsep]
        split at hfail
        next => exact hfail
        next => cases hfail
        next =>
          split at hfail
          · cases hfail
          · exact hfail
          · exact hfail

theorem agrees_of_touch (h : t.touch path = .ok t') {bytes : ByteArray}
    (hfile : t.at? (placeOf path) = some (.file bytes)) : t.Agrees t' := by
  obtain ⟨bytes', hat, -, -, rfl⟩ := of_append_eq_ok h
  have hfixed := not_isFixed_of_at? (not_directory_of_append hat)
  rw [ByteArray.append_empty]
  rcases hat with hfile' | ⟨hnone, -⟩
  · exact at?_put_again hfixed hfile'
  · rw [hnone] at hfile
    cases hfile

end SiteSafety.Files
