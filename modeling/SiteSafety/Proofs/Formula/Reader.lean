import SiteSafety.Proofs.Formula.Grammar

/-!
# Proofs — Formula — Reader

What the readers of formulas take and what they leave, one statement for each reader.  `Reads r ts
e rest`: the reader `r` takes the tree `e` off the front of `ts` and leaves `rest`.  `Continues`
says the same of a chain whose left side has been read.

The statements about `operand` come as introductions, one for each form of an operand, and one
inversion (`reads_operand_inv`); a chain and a comparison are characterised by what their members
read (`reads_chain`, `reads_comparison`).
-/

namespace SiteSafety.Formula

/-- `r` takes `e` off the front of `ts` and leaves `rest`. -/
def Reads (r : Reader) (ts : List Lexeme) (e : Tree) (rest : List Lexeme) : Prop :=
  ∃ h, r ts = .ok ⟨(e, rest), h⟩

/-- With `lhs` read, the chain takes the signs and members at the front of `ts`, makes `e` of them
and leaves `rest`. -/
def Continues (op? : Token → Option Op) (member : Reader) (lhs : Tree) (ts : List Lexeme)
    (e : Tree) (rest : List Lexeme) : Prop :=
  ∃ h, chainAfter op? member lhs ts = .ok ⟨(e, rest), h⟩

variable {op? : Token → Option Op} {m : Reader}

/-! ### Chains -/

theorem continues_nil {l e : Tree} {rest : List Lexeme} :
    Continues op? m l [] e rest ↔ e = l ∧ rest = [] := by
  simp [Continues, chainAfter, eq_comm]

theorem continues_cons_of_none {l e : Tree} {t : Lexeme} {ts rest : List Lexeme}
    (h : op? t.token = none) : Continues op? m l (t :: ts) e rest ↔ e = l ∧ rest = t :: ts := by
  unfold Continues chainAfter
  simp only [h]
  constructor
  · rintro ⟨_, h⟩
    cases h
    exact ⟨rfl, rfl⟩
  · rintro ⟨rfl, rfl⟩
    exact ⟨Nat.le_refl _, rfl⟩

theorem continues_cons_of_some {l e : Tree} {t : Lexeme} {ts rest : List Lexeme} {op : Op}
    (h : op? t.token = some op) : Continues op? m l (t :: ts) e rest ↔
      ∃ r mid, Reads m ts r mid ∧ Continues op? m (.binary op l r) mid e rest := by
  unfold Continues
  rw [chainAfter]
  simp only [h]
  constructor
  · rintro ⟨_, hr⟩
    split at hr
    · cases hr
    · next r mid shorter hm =>
        split at hr
        · cases hr
        · next res hle hc =>
            cases hr
            exact ⟨r, mid, ⟨shorter, hm⟩, hle, hc⟩
  · rintro ⟨r, mid, ⟨shorter, hm⟩, hle, hc⟩
    refine ⟨by simp at shorter hle ⊢; omega, ?_⟩
    rw [hm]
    simp only
    rw [hc]

/-- A chain ends where no sign of its level follows. -/
theorem continues_self {l : Tree} {rest : List Lexeme}
    (h : ∀ t ∈ rest.head?, op? t.token = none) : Continues op? m l rest l rest := by
  cases rest with
  | nil => exact continues_nil.mpr ⟨rfl, rfl⟩
  | cons t more => exact (continues_cons_of_none (h t (by simp))).mpr ⟨rfl, rfl⟩

/-- A chain reads a member and goes on from there. -/
theorem reads_chain {ts rest : List Lexeme} {e : Tree} :
    Reads (chain op? m) ts e rest ↔
      ∃ l mid, Reads m ts l mid ∧ Continues op? m l mid e rest := by
  unfold Reads Continues chain
  constructor
  · rintro ⟨_, hr⟩
    split at hr
    · cases hr
    · next l mid shorter hm =>
        split at hr
        · cases hr
        · next res hle hc =>
            cases hr
            exact ⟨l, mid, ⟨shorter, hm⟩, hle, hc⟩
  · rintro ⟨l, mid, ⟨shorter, hm⟩, hle, hc⟩
    refine ⟨Nat.lt_of_le_of_lt hle shorter, ?_⟩
    rw [hm]
    simp only
    rw [hc]

/-! ### Comparisons -/

/-- No comparison follows. -/
def Uncompared (rest : List Lexeme) : Prop := ∀ t ∈ rest.head?, Op.comparison? t.token = none

/-- A comparison reads one sum, or two with the sign of a comparison between them, and no such sign
follows either. -/
theorem reads_comparison {ts rest : List Lexeme} {e : Tree} :
    Reads (comparison m) ts e rest ↔ Uncompared rest ∧
      (Reads (sum m) ts e rest ∨ ∃ l t more op r, Reads (sum m) ts l (t :: more) ∧
        Op.comparison? t.token = some op ∧ Reads (sum m) more r rest ∧ e = .binary op l r) := by
  constructor
  · rintro ⟨_, h⟩
    unfold comparison at h
    split at h
    · cases h
    · next l mid shorter hl =>
        cases mid with
        | nil =>
            cases h
            exact ⟨by simp [Uncompared], .inl ⟨shorter, hl⟩⟩
        | cons t more =>
            cases ht : Op.comparison? t.token with
            | none =>
                simp only [ht] at h
                cases h
                exact ⟨by simpa [Uncompared] using ht, .inl ⟨shorter, hl⟩⟩
            | some op =>
                simp only [ht] at h
                split at h
                · cases h
                · next r rest' hlt hr =>
                    split at h
                    · cases h
                    · next hn =>
                        cases h
                        refine ⟨fun u hu => ?_, .inr ⟨l, t, more, op, r, ⟨shorter, hl⟩, ht,
                          ⟨hlt, hr⟩, rfl⟩⟩
                        simpa [Option.filter_eq_none_iff] using
                          Option.filter_eq_none_iff.mp hn u hu
  · rintro ⟨hu, ⟨shorter, h⟩ | ⟨l, t, more, op, r, ⟨shorter, hl⟩, ht, ⟨hlt, hr⟩, rfl⟩⟩
    · refine ⟨shorter, ?_⟩
      unfold comparison
      rw [h]
      cases rest with
      | nil => rfl
      | cons t more => simp only [hu t (by simp)]
    · refine ⟨by simp at shorter hlt ⊢; omega, ?_⟩
      have hn : rest.head?.filter (fun t => (Op.comparison? t.token).isSome) = none :=
        Option.filter_eq_none_iff.mpr fun u h => by simp [hu u h]
      unfold comparison
      rw [hl]
      simp only [ht, hr, hn]

/-! ### Operands -/

theorem notCalled_eq_ok_iff {rest : List Lexeme} :
    notCalled rest = .ok () ↔ Phrase.operand.StopsAt rest := by
  match rest with
  | [] => simp [notCalled, Phrase.stopsAt_nil]
  | ⟨k, text, offset⟩ :: more =>
      cases k <;> simp [notCalled, Phrase.stopsAt_cons, Phrase.extendedBy, Token.opens]

theorem reads_operand_number {size n : Nat} {t : Lexeme} {x : Float} {rest : List Lexeme}
    (ht : t.token = .number x) (hr : Phrase.operand.StopsAt rest) :
    Reads (operand size n) (t :: rest) (.number x) rest := by
  refine ⟨Nat.lt_succ_self _, ?_⟩
  rw [operand.eq_def]
  simp only [ht, notCalled_eq_ok_iff.mpr hr]
  rfl

theorem reads_operand_name {size n : Nat} {t : Lexeme} {x : String} {rest : List Lexeme}
    (ht : t.token = .ident x) (hr : Phrase.operand.StopsAt rest) :
    Reads (operand size n) (t :: rest) (.var x t.offset) rest := by
  refine ⟨Nat.lt_succ_self _, ?_⟩
  rw [operand.eq_def]
  simp only [ht, notCalled_eq_ok_iff.mpr hr]
  rfl

theorem reads_operand_negated {size n : Nat} {t : Lexeme} {e : Tree} {ts rest : List Lexeme}
    (ht : t.token = .minus) (h : Reads (operand size n) ts e rest) :
    Reads (operand size (n + 1)) (t :: ts) (.neg e) rest := by
  obtain ⟨shorter, h⟩ := h
  refine ⟨Nat.lt_succ_of_lt shorter, ?_⟩
  rw [operand]
  simp only [ht, h]

theorem reads_operand_parens {size n : Nat} {o c : Lexeme} {e : Tree} {ts rest : List Lexeme}
    (ho : o.token = .lparen) (hc : c.token = .rparen)
    (h : Reads (comparison (operand size n)) ts e (c :: rest))
    (hr : Phrase.operand.StopsAt rest) : Reads (operand size (n + 1)) (o :: ts) e rest := by
  obtain ⟨shorter, h⟩ := h
  refine ⟨by simp at shorter ⊢; omega, ?_⟩
  rw [operand]
  simp only [ho, h, hc, notCalled_eq_ok_iff.mpr hr]
  rfl

/-- An operand that passed the check for calls is what was read before the check. -/
theorem eq_of_notCalled_map {n : Nat} {e e' : Tree} {more rest : List Lexeme}
    {hm : more.length < n} {hr : rest.length < n}
    (h : (notCalled more).map
      (fun _ => (⟨(e, more), hm⟩ : { r : Tree × List Lexeme // r.2.length < n })) =
        .ok ⟨(e', rest), hr⟩) : e' = e ∧ rest = more := by
  cases hc : notCalled more with
  | error err => simp [hc, Except.map] at h
  | ok u =>
      simp only [hc, Except.map, Except.ok.injEq, Subtype.mk.injEq, Prod.mk.injEq] at h
      exact ⟨h.1.symm, h.2.symm⟩

/-- What is read as an operand is a number, a name, an operand behind a minus sign or a comparison
in parentheses; the latter two spend a level. -/
theorem reads_operand_inv {size n : Nat} {e : Tree} {ts rest : List Lexeme}
    (h : Reads (operand size n) ts e rest) :
    (∃ t x, ts = t :: rest ∧ t.token = .number x ∧ e = .number x) ∨
    (∃ t x, ts = t :: rest ∧ t.token = .ident x ∧ e = .var x t.offset) ∨
    (∃ t more k e', ts = t :: more ∧ t.token = .minus ∧ n = k + 1 ∧ e = .neg e' ∧
      Reads (operand size k) more e' rest) ∨
    (∃ o c more k, ts = o :: more ∧ o.token = .lparen ∧ c.token = .rparen ∧ n = k + 1 ∧
      Reads (comparison (operand size k)) more e (c :: rest)) := by
  obtain ⟨shorter, h⟩ := h
  match ts, n with
  | [], n => simp [operand.eq_def] at h
  | t :: more, n =>
      rw [operand.eq_def] at h
      cases ht : t.token with
      | number x =>
          obtain ⟨rfl, rfl⟩ := eq_of_notCalled_map (by simpa only [ht] using h)
          exact .inl ⟨t, x, rfl, ht, rfl⟩
      | ident x =>
          obtain ⟨rfl, rfl⟩ := eq_of_notCalled_map (by simpa only [ht] using h)
          exact .inr (.inl ⟨t, x, rfl, ht, rfl⟩)
      | minus =>
          cases n with
          | zero => simp [ht] at h
          | succ k =>
              simp only [ht] at h
              split at h
              · cases h
              · next e' rest' hs hm =>
                  cases h
                  exact .inr (.inr (.inl ⟨t, more, k, e', rfl, ht, rfl, rfl, hs, hm⟩))
      | lparen =>
          cases n with
          | zero => simp [ht] at h
          | succ k =>
              simp only [ht] at h
              split at h
              · cases h
              · cases h
              · next e' c rest' hs hm =>
                  split at h
                  · next hc =>
                      obtain ⟨rfl, rfl⟩ := eq_of_notCalled_map h
                      exact .inr (.inr (.inr ⟨t, c, more, k, rfl, ht, hc, rfl, hs, hm⟩))
                  · cases h
      | _ => simp [ht] at h

end SiteSafety.Formula
