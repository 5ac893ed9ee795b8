import SiteSafety.Formula.Eval

/-!
# Proofs — Formula — Grammar

The language of formulas, apart from any way of reading it.

    comparison = sum [cmp sum]            sum     = product {(+|-) product}
    product    = operand {(*|/) operand}  operand = - operand | atom
    atom       = number | name | ( comparison )

`Derives p d ts e`: the tokens `ts` are a phrase `p` with the tree `e`, and `d` minus signs and
parentheses are open at its deepest place.  A chain grows at its right end, so its operators
group to the left; a phrase is a member of the next looser one, so `*` binds tighter than `+`, and
a comparison is a member of nothing but parentheses.

* `Derives.names_eq`: the variables of a tree are the names among its tokens, in order.
* `Phrase.StopsAt`: what may stand behind a phrase without becoming a part of it.
-/

namespace SiteSafety.Formula

/-- The phrases of the grammar, the loosest first. -/
inductive Phrase where
  | comparison | sum | product | operand | atom
  deriving Repr, DecidableEq

/-- `ts` is a phrase with the tree `e`, in which at most `d` minus signs and parentheses are open
at one place, and `d` are at some place. -/
inductive Derives : Phrase → Nat → List Lexeme → Tree → Prop where
  | number {t : Lexeme} {x : Float} (ht : t.token = .number x) : Derives .atom 0 [t] (.number x)
  | name {t : Lexeme} {x : String} (ht : t.token = .ident x) :
      Derives .atom 0 [t] (.var x t.offset)
  | parens {o c : Lexeme} {d : Nat} {ts : List Lexeme} {e : Tree} (ho : o.token = .lparen)
      (hc : c.token = .rparen) (h : Derives .comparison d ts e) :
      Derives .atom (d + 1) (o :: ts ++ [c]) e
  | atom {d : Nat} {ts : List Lexeme} {e : Tree} (h : Derives .atom d ts e) :
      Derives .operand d ts e
  | negated {t : Lexeme} {d : Nat} {ts : List Lexeme} {e : Tree} (ht : t.token = .minus)
      (h : Derives .operand d ts e) : Derives .operand (d + 1) (t :: ts) (.neg e)
  | operand {d : Nat} {ts : List Lexeme} {e : Tree} (h : Derives .operand d ts e) :
      Derives .product d ts e
  | multiplied {t : Lexeme} {op : Op} {d₁ d₂ : Nat} {ts₁ ts₂ : List Lexeme} {l r : Tree}
      (ht : Op.multiplicative? t.token = some op) (hl : Derives .product d₁ ts₁ l)
      (hr : Derives .operand d₂ ts₂ r) :
      Derives .product (max d₁ d₂) (ts₁ ++ t :: ts₂) (.binary op l r)
  | product {d : Nat} {ts : List Lexeme} {e : Tree} (h : Derives .product d ts e) :
      Derives .sum d ts e
  | added {t : Lexeme} {op : Op} {d₁ d₂ : Nat} {ts₁ ts₂ : List Lexeme} {l r : Tree}
      (ht : Op.additive? t.token = some op) (hl : Derives .sum d₁ ts₁ l)
      (hr : Derives .product d₂ ts₂ r) :
      Derives .sum (max d₁ d₂) (ts₁ ++ t :: ts₂) (.binary op l r)
  | sum {d : Nat} {ts : List Lexeme} {e : Tree} (h : Derives .sum d ts e) :
      Derives .comparison d ts e
  | compared {t : Lexeme} {op : Op} {d₁ d₂ : Nat} {ts₁ ts₂ : List Lexeme} {l r : Tree}
      (ht : Op.comparison? t.token = some op) (hl : Derives .sum d₁ ts₁ l)
      (hr : Derives .sum d₂ ts₂ r) :
      Derives .comparison (max d₁ d₂) (ts₁ ++ t :: ts₂) (.binary op l r)

/-! ### Variables -/

/-- The variables of a tree, from left to right. -/
def Tree.names : Tree → List String
  | .number _     => []
  | .var x _      => [x]
  | .neg e        => e.names
  | .binary _ l r => l.names ++ r.names

/-- The name that a token is. -/
def Lexeme.name? (t : Lexeme) : Option String :=
  match t.token with
  | .ident x => some x
  | _ => none

/-- The sign of an operation is no name. -/
theorem Lexeme.name?_of_sign {t : Lexeme} {op : Op}
    (h : Op.multiplicative? t.token = some op ∨ Op.additive? t.token = some op ∨
      Op.comparison? t.token = some op) : t.name? = none := by
  cases hk : t.token <;>
    simp [Lexeme.name?, Op.multiplicative?, Op.additive?, Op.comparison?, hk] at h ⊢

/-- The variables of a tree are the names among its tokens. -/
theorem Derives.names_eq {p : Phrase} {d : Nat} {ts : List Lexeme} {e : Tree}
    (h : Derives p d ts e) : e.names = ts.filterMap Lexeme.name? := by
  induction h with
  | number ht | name ht => simp [Tree.names, Lexeme.name?, ht]
  | parens ho hc _ ih =>
      rw [ih]
      simp [Lexeme.name?, ho, hc]
  | atom _ ih | operand _ ih | product _ ih | sum _ ih => exact ih
  | negated ht _ ih => simp [Tree.names, Lexeme.name?, ht, ih]
  | multiplied ht _ _ ihl ihr => simp [Tree.names, Lexeme.name?_of_sign (.inl ht), ihl, ihr]
  | added ht _ _ ihl ihr => simp [Tree.names, Lexeme.name?_of_sign (.inr (.inl ht)), ihl, ihr]
  | compared ht _ _ ihl ihr => simp [Tree.names, Lexeme.name?_of_sign (.inr (.inr ht)), ihl, ihr]

/-- A tree passes the check for variables exactly when all its variables are bound. -/
theorem Tree.checkBound_eq_ok_iff (b : Bindings) (e : Tree) :
    e.checkBound b = .ok () ↔ ∀ x ∈ e.names, (b.lookup x).isSome := by
  induction e with
  | number x => simp [Tree.checkBound, Tree.names]
  | var x offset =>
      simp only [Tree.checkBound, Tree.names, List.mem_singleton, forall_eq]
      split <;> simp_all
  | neg e ih => simpa [Tree.checkBound, Tree.names] using ih
  | binary op l r ihl ihr =>
      simp only [Tree.checkBound, Tree.names, List.mem_append]
      cases hl : l.checkBound b with
      | error err =>
          simp only [reduceCtorEq, false_iff]
          intro h
          rw [ihl.mpr fun x hx => h x (.inl hx)] at hl
          cases hl
      | ok u =>
          simp only [ihr]
          exact ⟨fun h x hx => hx.elim (ihl.mp hl x) (h x), fun h x hx => h x (.inr hx)⟩

/-! ### What may follow a phrase -/

/-- Whether a token opens a parenthesis. -/
def Token.opens : Token → Bool
  | .lparen => true
  | _ => false

/-- Whether a token behind a phrase would have to be read as a part of it. -/
def Phrase.extendedBy : Phrase → Token → Bool
  | .atom, k | .operand, k => k.opens
  | .product, k => k.opens || (Op.multiplicative? k).isSome
  | .sum, k => k.opens || (Op.multiplicative? k).isSome || (Op.additive? k).isSome
  | .comparison, k =>
    k.opens || (Op.multiplicative? k).isSome || (Op.additive? k).isSome ||
      (Op.comparison? k).isSome

/-- No phrase goes on into `rest`. -/
def Phrase.StopsAt (p : Phrase) (rest : List Lexeme) : Prop :=
  ∀ t ∈ rest.head?, p.extendedBy t.token = false

theorem Phrase.stopsAt_nil (p : Phrase) : p.StopsAt [] := by
  simp [Phrase.StopsAt]

theorem Phrase.stopsAt_cons {p : Phrase} {t : Lexeme} {rest : List Lexeme} :
    p.StopsAt (t :: rest) ↔ p.extendedBy t.token = false := by
  simp [Phrase.StopsAt]

/-- What stops a phrase stops one that fewer tokens extend. -/
theorem Phrase.StopsAt.mono {p q : Phrase} {rest : List Lexeme} (h : p.StopsAt rest)
    (hpq : ∀ k, p.extendedBy k = false → q.extendedBy k = false) : q.StopsAt rest :=
  fun t ht => hpq _ (h t ht)

/-- What stops a comparison stops a sum. -/
theorem Phrase.StopsAt.sum {rest : List Lexeme} (h : Phrase.comparison.StopsAt rest) :
    Phrase.sum.StopsAt rest :=
  h.mono fun k hk => by simp_all [Phrase.extendedBy]

/-- What stops a sum stops a product. -/
theorem Phrase.StopsAt.product {rest : List Lexeme} (h : Phrase.sum.StopsAt rest) :
    Phrase.product.StopsAt rest :=
  h.mono fun k hk => by simp_all [Phrase.extendedBy]

/-- What stops a product stops an operand. -/
theorem Phrase.StopsAt.operand {rest : List Lexeme} (h : Phrase.product.StopsAt rest) :
    Phrase.operand.StopsAt rest :=
  h.mono fun k hk => by simp_all [Phrase.extendedBy]

/-- A factor ends at the sign of a product. -/
theorem Phrase.operand_stopsAt_sign {t : Lexeme} {op : Op} {rest : List Lexeme}
    (h : Op.multiplicative? t.token = some op) : Phrase.operand.StopsAt (t :: rest) := by
  rw [Phrase.stopsAt_cons]
  cases hk : t.token <;> simp [Phrase.extendedBy, Token.opens, Op.multiplicative?, hk] at h ⊢

/-- A summand ends at the sign of a sum. -/
theorem Phrase.product_stopsAt_sign {t : Lexeme} {op : Op} {rest : List Lexeme}
    (h : Op.additive? t.token = some op) : Phrase.product.StopsAt (t :: rest) := by
  rw [Phrase.stopsAt_cons]
  cases hk : t.token <;>
    simp [Phrase.extendedBy, Token.opens, Op.multiplicative?, Op.additive?, hk] at h ⊢

/-- A side of a comparison ends at the sign of the comparison. -/
theorem Phrase.sum_stopsAt_sign {t : Lexeme} {op : Op} {rest : List Lexeme}
    (h : Op.comparison? t.token = some op) : Phrase.sum.StopsAt (t :: rest) := by
  rw [Phrase.stopsAt_cons]
  cases hk : t.token <;>
    simp [Phrase.extendedBy, Token.opens, Op.multiplicative?, Op.additive?, Op.comparison?, hk]
      at h ⊢

/-- A comparison in parentheses ends at the closing one. -/
theorem Phrase.comparison_stopsAt_rparen {c : Lexeme} {rest : List Lexeme}
    (h : c.token = .rparen) : Phrase.comparison.StopsAt (c :: rest) := by
  rw [Phrase.stopsAt_cons, h]
  rfl

end SiteSafety.Formula
