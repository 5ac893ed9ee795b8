import SiteSafety.Proofs.Formula.Acceptance

/-!
# Proofs — Formula — Scope

What a tree gives under bindings other than those its source was validated with.  A tree reads its
own variables and nothing else.

* `of_eval_eq_ok`: a value is finite, and all variables of the tree are bound, to finite values
  (`lookup_of_eval_eq_ok`).
* `of_eval_eq_rejected`: a refusal names a variable of the tree that is not bound.
* `eval_congr`: bindings that agree on the variables of the tree give the same.
* `eval_of_validated`: **a validated tree can be used again with any bindings**; with its variables
  bound it is never refused.
-/

namespace SiteSafety.Formula

variable {b b₁ b₂ : Bindings} {e l r : Tree} {op : Op} {x : Float}

/-! ### Scopes -/

/-- All variables of the tree are bound. -/
def Tree.BoundIn (e : Tree) (b : Bindings) : Prop := ∀ x ∈ e.names, (b.lookup x).isSome

/-- Bindings agree on the variables of the tree. -/
def Tree.AgreeOn (e : Tree) (b₁ b₂ : Bindings) : Prop := ∀ x ∈ e.names, b₁.lookup x = b₂.lookup x

theorem Tree.boundIn_binary :
    (Tree.binary op l r).BoundIn b ↔ l.BoundIn b ∧ r.BoundIn b := by
  simp only [Tree.BoundIn, Tree.names, List.forall_mem_append]

theorem Tree.agreeOn_binary :
    (Tree.binary op l r).AgreeOn b₁ b₂ ↔ l.AgreeOn b₁ b₂ ∧ r.AgreeOn b₁ b₂ := by
  simp only [Tree.AgreeOn, Tree.names, List.forall_mem_append]

/-- The operation compares. -/
def Op.Compares : Op → Prop
  | .add | .sub | .mul | .div           => False
  | .lt | .le | .gt | .ge | .eq | .ne => True

/-- The root of the tree is a comparison. -/
def Tree.Compares : Tree → Prop
  | .binary op _ _ => op.Compares
  | _              => False

/-! ### Evaluation in steps -/

theorem Tree.eval_neg (b : Bindings) (e : Tree) :
    (Tree.neg e).eval b = e.eval b >>= fun x => checked (-x) := by
  rw [Tree.eval]
  cases e.eval b <;> rfl

theorem Tree.eval_binary (b : Bindings) (op : Op) (l r : Tree) : (Tree.binary op l r).eval b =
    l.eval b >>= fun x => r.eval b >>= fun y => op.apply x y >>= checked := by
  rw [Tree.eval]
  cases l.eval b with
  | error err => rfl
  | ok x =>
      cases r.eval b with
      | error err => rfl
      | ok y => cases hop : op.apply x y <;> simp [hop, bind, Except.bind]

theorem of_checked_eq_ok {x y : Float} (h : checked x = .ok y) :
    y = x ∧ x.isNaN = false ∧ x.isInf = false := by
  unfold checked at h
  split at h
  · cases h
  · split at h
    · cases h
    · cases h
      exact ⟨rfl, by simp_all, by simp_all⟩

theorem checked_ne_rejected {kind : Violation} {o : Nat} :
    checked x ≠ .error (.rejected kind o) := by
  unfold checked
  split
  · simp
  · split <;> simp

theorem apply_ne_rejected {y : Float} {kind : Violation} {o : Nat} :
    op.apply x y ≠ .error (.rejected kind o) := by
  cases op with
  | div =>
      simp only [Op.apply]
      split <;> simp
  | _ => simp [Op.apply]

/-! ### What comes out -/

/-- A value is finite and needs all variables. -/
theorem of_eval_eq_ok (h : e.eval b = .ok x) :
    e.BoundIn b ∧ x.isNaN = false ∧ x.isInf = false := by
  induction e generalizing x with
  | number y =>
      obtain ⟨rfl, hfinite⟩ := of_checked_eq_ok h
      exact ⟨nofun, hfinite⟩
  | var y offset =>
      rw [Tree.eval] at h
      cases hy : b.lookup y with
      | none =>
          rw [hy] at h
          cases h
      | some z =>
          rw [hy] at h
          obtain ⟨rfl, hfinite⟩ := of_checked_eq_ok h
          refine ⟨fun y' hmem => ?_, hfinite⟩
          rw [List.mem_singleton.mp hmem, hy]
          rfl
  | neg e ih =>
      rw [Tree.eval_neg, bind_eq_ok_iff] at h
      obtain ⟨y, hy, h⟩ := h
      obtain ⟨rfl, hfinite⟩ := of_checked_eq_ok h
      exact ⟨(ih hy).1, hfinite⟩
  | binary op l r ihl ihr =>
      rw [Tree.eval_binary] at h
      simp only [bind_eq_ok_iff] at h
      obtain ⟨y, hy, z, hz, w, -, h⟩ := h
      obtain ⟨rfl, hfinite⟩ := of_checked_eq_ok h
      exact ⟨Tree.boundIn_binary.mpr ⟨(ihl hy).1, (ihr hz).1⟩, hfinite⟩

/-- A value needs finite values of all variables. -/
theorem lookup_of_eval_eq_ok (h : e.eval b = .ok x) :
    ∀ y ∈ e.names, ∃ z, b.lookup y = some z ∧ z.isNaN = false ∧ z.isInf = false := by
  induction e generalizing x with
  | number y => exact nofun
  | var y offset =>
      rw [Tree.eval] at h
      intro y' hmem
      rw [List.mem_singleton.mp hmem]
      cases hy : b.lookup y with
      | none =>
          rw [hy] at h
          cases h
      | some z =>
          rw [hy] at h
          obtain ⟨rfl, hfinite⟩ := of_checked_eq_ok h
          exact ⟨_, rfl, hfinite⟩
  | neg e ih =>
      rw [Tree.eval_neg, bind_eq_ok_iff] at h
      obtain ⟨y, hy, -⟩ := h
      exact ih hy
  | binary op l r ihl ihr =>
      rw [Tree.eval_binary] at h
      simp only [bind_eq_ok_iff] at h
      obtain ⟨y, hy, z, hz, -⟩ := h
      exact List.forall_mem_append.mpr ⟨ihl hy, ihr hz⟩

/-- A refusal names a variable of the tree that is not bound. -/
theorem of_eval_eq_rejected {kind : Violation} {o : Nat}
    (h : e.eval b = .error (.rejected kind o)) :
    ∃ x ∈ e.names, b.lookup x = none ∧ kind = .unboundVariable x := by
  induction e with
  | number y => exact absurd h checked_ne_rejected
  | var y offset =>
      rw [Tree.eval] at h
      cases hy : b.lookup y with
      | none =>
          rw [hy] at h
          cases h
          exact ⟨y, List.mem_singleton_self y, hy, rfl⟩
      | some z =>
          rw [hy] at h
          exact absurd h checked_ne_rejected
  | neg e ih =>
      rw [Tree.eval_neg, bind_eq_error_iff] at h
      rcases h with h | ⟨y, -, h⟩
      · exact ih h
      · exact absurd h checked_ne_rejected
  | binary op l r ihl ihr =>
      rw [Tree.eval_binary] at h
      simp only [bind_eq_error_iff] at h
      rcases h with h | ⟨y, -, h | ⟨z, -, h | ⟨w, -, h⟩⟩⟩
      · obtain ⟨x, hx, hunbound⟩ := ihl h
        exact ⟨x, List.mem_append_left _ hx, hunbound⟩
      · obtain ⟨x, hx, hunbound⟩ := ihr h
        exact ⟨x, List.mem_append_right _ hx, hunbound⟩
      · exact absurd h apply_ne_rejected
      · exact absurd h checked_ne_rejected

/-- A tree reads its own variables only. -/
theorem eval_congr (h : e.AgreeOn b₁ b₂) : e.eval b₁ = e.eval b₂ := by
  induction e with
  | number y => rfl
  | var y offset => rw [Tree.eval, Tree.eval, h y (List.mem_singleton_self y)]
  | neg e ih => rw [Tree.eval_neg, Tree.eval_neg, ih h]
  | binary op l r ihl ihr =>
      obtain ⟨hl, hr⟩ := Tree.agreeOn_binary.mp h
      rw [Tree.eval_binary, Tree.eval_binary, ihl hl, ihr hr]

/-- The value of a comparison is 0 or 1. -/
theorem value_of_compares (hc : e.Compares) (h : e.eval b = .ok x) : x = 0.0 ∨ x = 1.0 := by
  cases e with
  | binary op l r =>
      rw [Tree.eval_binary] at h
      simp only [bind_eq_ok_iff] at h
      obtain ⟨y, -, z, -, w, hw, h⟩ := h
      obtain ⟨rfl, -⟩ := of_checked_eq_ok h
      have htruth : ∀ p, truth p = 0.0 ∨ truth p = 1.0 := by
        intro p
        cases p
        · exact .inl rfl
        · exact .inr rfl
      -- the operators that compute are no comparisons, the others give a truth value
      cases op with
      | add | sub | mul | div => exact hc.elim
      | lt | le | gt | ge | eq | ne =>
          cases hw
          exact htruth _
  | number | var | neg => exact hc.elim

/-! ### Validated trees -/

/-- With other bindings a source is valid as the same tree or not at all, by whether they bind the
variables. -/
theorem validate_again {source : String} (h : validate source b = .ok e) (b₁ : Bindings) :
    validate source b₁ = .ok e ↔ e.BoundIn b₁ := by
  obtain ⟨hlen, ts, hscan, htree, -⟩ := validate_eq_ok_iff.mp h
  rw [Tree.BoundIn, ← Tree.checkBound_eq_ok_iff, validate_eq_ok_iff]
  constructor
  · rintro ⟨-, -, -, -, hbound⟩
    exact hbound
  · exact fun hbound => ⟨hlen, ts, hscan, htree, hbound⟩

/-- **A validated tree under any bindings.**  With its variables bound it has a finite value or a
fault, the same as its source has with these bindings; bindings that agree on its variables give the
same; with a variable unbound there is no value, and a refusal names such a variable; the value of a
comparison is 0 or 1. -/
theorem eval_of_validated {source : String} {b : Bindings} {e : Tree}
    (h : validate source b = .ok e) (b₁ b₂ : Bindings) :
    (e.BoundIn b₁ → evaluate source b₁ = e.eval b₁ ∧
      ((∃ x, e.eval b₁ = .ok x ∧ x.isNaN = false ∧ x.isInf = false) ∨
        ∃ fault, e.eval b₁ = .error (.faulted fault))) ∧
    (e.AgreeOn b₁ b₂ → e.eval b₁ = e.eval b₂) ∧
    (∀ y ∈ e.names, b₁.lookup y = none → ∀ x, e.eval b₁ ≠ .ok x) ∧
    (∀ kind o, e.eval b₁ = .error (.rejected kind o) →
      ∃ y ∈ e.names, b₁.lookup y = none ∧ kind = .unboundVariable y) ∧
    (e.Compares → ∀ x, e.eval b₁ = .ok x → x = 0.0 ∨ x = 1.0) := by
  refine ⟨fun hbound => ⟨?_, ?_⟩, eval_congr, ?_, fun _ _ => of_eval_eq_rejected,
    fun hc _ => value_of_compares hc⟩
  · rw [evaluate, (validate_again h b₁).mpr hbound]
    rfl
  · cases heval : e.eval b₁ with
    | ok x => exact .inl ⟨x, rfl, (of_eval_eq_ok heval).2⟩
    | error err =>
        cases err with
        | faulted fault => exact .inr ⟨fault, rfl⟩
        | rejected kind o =>
            obtain ⟨y, hy, hnone, -⟩ := of_eval_eq_rejected heval
            have hsome := hbound y hy
            rw [hnone] at hsome
            cases hsome
  · intro y hy hnone x heval
    have hsome := (of_eval_eq_ok heval).1 y hy
    rw [hnone] at hsome
    cases hsome

/-- A reading of more than half the limit. -/
def halfUsed : Tree :=
  .binary .gt (.binary .div (.var "reading" 0) (.var "limit" 10)) (.number 0.5)

theorem validate_halfUsed :
    validate "reading / limit > 0.5" [("reading", 30.0), ("limit", 20.0)] = .ok halfUsed := by
  have hsome : (validate "reading / limit > 0.5" [("reading", 30.0), ("limit", 20.0)]).toOption =
      some halfUsed := by decide +kernel
  cases hvalid : validate "reading / limit > 0.5" [("reading", 30.0), ("limit", 20.0)] with
  | ok e =>
      rw [hvalid] at hsome
      rw [Option.some.inj hsome]
  | error err =>
      rw [hvalid] at hsome
      cases hsome

/-- Validated with a reading and a limit, it is used again: bindings of a further name make no
difference, a limit of zero is a fault, and without a limit there is no value. -/
theorem halfUsed_again :
    validate "reading / limit > 0.5" [("reading", 30.0), ("limit", 20.0)] = .ok halfUsed ∧
      evaluate "reading / limit > 0.5" [("reading", 30.0), ("gust", 9.0), ("limit", 20.0)] =
        halfUsed.eval [("limit", 20.0), ("reading", 30.0)] ∧
      (∀ kind o, halfUsed.eval [("limit", 0.0), ("reading", 30.0)] ≠
        .error (.rejected kind o)) ∧
      ∀ x, halfUsed.eval [("reading", 30.0)] ≠ .ok x := by
  have hvalid := validate_halfUsed
  have hmore := eval_of_validated hvalid [("reading", 30.0), ("gust", 9.0), ("limit", 20.0)]
    [("limit", 20.0), ("reading", 30.0)]
  have hzero := eval_of_validated hvalid [("limit", 0.0), ("reading", 30.0)] []
  have hless := eval_of_validated hvalid [("reading", 30.0)] []
  have hbound : ∀ b : Bindings, (b.lookup "reading").isSome → (b.lookup "limit").isSome →
      halfUsed.BoundIn b := by
    intro b hreading hlimit
    exact List.forall_mem_cons.mpr ⟨hreading, List.forall_mem_singleton.mpr hlimit⟩
  have hagree : halfUsed.AgreeOn [("reading", 30.0), ("gust", 9.0), ("limit", 20.0)]
      [("limit", 20.0), ("reading", 30.0)] :=
    List.forall_mem_cons.mpr ⟨rfl, List.forall_mem_singleton.mpr rfl⟩
  refine ⟨hvalid, ?_, ?_, ?_⟩
  · exact (hmore.1 (hbound _ rfl rfl)).1.trans (hmore.2.1 hagree)
  · intro kind o heval
    rcases (hzero.1 (hbound _ rfl rfl)).2 with ⟨x, hx, -⟩ | ⟨fault, hfault⟩
    · rw [hx] at heval
      cases heval
    · rw [hfault] at heval
      cases heval
  · have hlimit : "limit" ∈ halfUsed.names := by decide
    exact hless.2.2.1 "limit" hlimit rfl

end SiteSafety.Formula
