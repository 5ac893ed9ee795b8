import SiteSafety.Proofs.Files.Agreement
import SiteSafety.Proofs.Memory.Append

/-!
# Proofs — Memory — Failures

An append that fails, and what it does to the files when it is tried again.  Whatever could be made
on the way was made at the first attempt, so **the next attempt changes nothing**: it takes its lock
again, or stops where the first one stopped.

* `exists_relock`, `lock_error_again`: the lock at the next attempt.
* `write_error_again`: the record at the next attempt.
* `agrees_append_again`: the whole of it.
-/

namespace SiteSafety.Memory
open Files

variable {l l' locked again : Logbook} {e e' : Entry} {scope : Scope} {err : StoreError}

theorem load_congr (hpath : l'.path scope = l.path scope) (h : l.tree.Agrees l'.tree) :
    (l'.load scope).value = (l.load scope).value := by
  unfold Logbook.load
  simp only [hpath, readText_congr h]

/-! ### The lock -/

/-- A lock that was taken is taken again without a change. -/
theorem exists_relock (h : l.lock scope = .ok locked) (hpath : again.path scope = l.path scope)
    (hgrows : locked.tree.Grows again.tree) :
    ∃ relocked, again.lock scope = .ok relocked ∧ relocked.path scope = locked.path scope ∧
      again.tree.Agrees relocked.tree := by
  obtain ⟨made, hmade, htouch, hlocked⟩ := of_lock h
  obtain ⟨bytes, hfile⟩ := isFile_of_touch htouch
  obtain ⟨relocked, hrelock⟩ := lock_again h hpath hgrows.keepsDirectories
    fun p bytes hp => ⟨bytes, hgrows.kept p _ hp⟩
  obtain ⟨remade, hremade, hretouch, hrelocked⟩ := of_lock hrelock
  have hkept : again.tree.makeParent (lockPath (l.path scope)) = .ok again.tree :=
    makeParent_again hmade ((grows_of_touch htouch).trans hgrows).keepsDirectories
  rw [hpath] at hremade hretouch
  obtain rfl : remade = again.tree := Except.ok.inj (hremade.symm.trans hkept)
  refine ⟨relocked, hrelock, ?_, agrees_of_touch hretouch (hgrows.kept _ _ hfile)⟩
  rw [path_of_tree_eq hrelocked, hpath, path_of_tree_eq hlocked]

/-- A lock that could not be taken cannot be taken again, and nothing changes. -/
theorem lock_error_again (h : l.lock scope = .error (err, l'))
    (hpath : again.path scope = l.path scope) (htree : again.tree = l'.tree) :
    ∃ err', again.lock scope = .error (err', again) := by
  unfold Logbook.lock
  simp only [hpath]
  rcases (of_lock_error h).1 with ⟨cause, hcause⟩ | ⟨cause, hmade, hcause⟩
  · rw [← htree] at hcause
    obtain ⟨cause', hagain⟩ := makeParent_error_again hcause (.refl _)
    rw [hagain]
    exact ⟨_, rfl⟩
  · rw [← htree] at hmade hcause
    rw [makeParent_again hmade fun p hp => hp]
    simp only [hcause]
    exact ⟨_, rfl⟩

/-! ### The record -/

/-- A record that could not be written cannot be written again, and nothing changes; nor can another
one of its scope. -/
theorem write_error_again (h : (l.write e).value = (.error err, l'))
    (hpath : again.path e.scope = l.path e.scope) (hagrees : l'.tree.Agrees again.tree)
    (hscope : e'.scope = e.scope) : ∃ err', (again.write e').value = (.error err', again) := by
  unfold Logbook.write
  simp only [hscope, hpath]
  rcases (of_write_error h).1 with ⟨cause, hcause⟩ | ⟨cause, hmade, hcause⟩
  · obtain ⟨cause', hagain⟩ := makeParent_error_again hcause hagrees
    rw [hagain]
    exact ⟨_, rfl⟩
  · rw [makeParent_again hmade hagrees.keepsDirectories]
    simp only [append_error_congr hagrees hcause]
    exact ⟨_, rfl⟩

/-- A record that could not be written has made directories at most. -/
theorem grows_of_write_error (h : (l.write e).value = (.error err, l')) : l.tree.Grows l'.tree := by
  rcases (of_write_error h).1 with ⟨cause, hcause⟩ | ⟨cause, hmade, -⟩
  · exact grows_of_makeParent_error hcause
  · exact grows_of_makeParent hmade

/-! ### The append -/

theorem append_of_lock_error (h : l.lock e.scope = .error (err, l')) :
    (l.append e).value = (.error err, l') := by
  unfold Logbook.append
  rw [h]
  rfl

/-- Under a lock that changes nothing, an append whose record cannot be written changes nothing. -/
theorem agrees_append_of_lock (hlock : l.lock e.scope = .ok locked)
    (hagrees : l.tree.Agrees locked.tree)
    (hfails : ∀ entries, (locked.load e.scope).value = .ok entries →
      ∃ err, (locked.write e).value = (.error err, locked)) :
    l.tree.Agrees (l.append e).value.2.tree := by
  have hcourse := course_append l e
  generalize (l.append e).value = outcome at hcourse ⊢
  cases hcourse with
  | unlocked hunlocked =>
      rw [hlock] at hunlocked
      cases hunlocked
  | unread hlock' | known hlock' =>
      obtain rfl := Except.ok.inj (hlock.symm.trans hlock')
      exact hagrees
  | unwritten hlock' hload _ hwrite =>
      obtain rfl := Except.ok.inj (hlock.symm.trans hlock')
      obtain ⟨err', hwrite'⟩ := hfails _ hload
      cases hwrite.symm.trans hwrite'
      exact hagrees
  | done hlock' hload _ hwrite =>
      obtain rfl := Except.ok.inj (hlock.symm.trans hlock')
      obtain ⟨err', hwrite'⟩ := hfails _ hload
      cases hwrite.symm.trans hwrite'

/-- **An append that failed** changes nothing when it is tried again. -/
theorem agrees_append_again (h : (l.append e).value = (.error err, l'))
    (hpath : again.path e.scope = l.path e.scope) (htree : again.tree = l'.tree)
    (hscope : e'.scope = e.scope) : again.tree.Agrees (again.append e').value.2.tree := by
  cases course_of_append h with
  | unlocked hlock =>
      obtain ⟨err', hagain⟩ := lock_error_again hlock hpath htree
      rw [append_of_lock_error (hscope ▸ hagain)]
      exact .refl _
  | unread hlock hload =>
      obtain ⟨relocked, hrelock, hrepath, hagrees⟩ := exists_relock hlock hpath (htree ▸ .refl _)
      refine agrees_append_of_lock (hscope ▸ hrelock) hagrees fun entries hreload => ?_
      rw [hscope, load_congr hrepath (htree ▸ hagrees), hload] at hreload
      cases hreload
  | unwritten hlock hload hnew hwrite =>
      obtain ⟨relocked, hrelock, hrepath, hagrees⟩ :=
        exists_relock hlock hpath (htree ▸ grows_of_write_error hwrite)
      refine agrees_append_of_lock (hscope ▸ hrelock) hagrees fun entries hreload => ?_
      exact write_error_again hwrite hrepath (htree ▸ hagrees) hscope

end SiteSafety.Memory
