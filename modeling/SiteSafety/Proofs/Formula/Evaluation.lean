import SiteSafety.Proofs.Formula.Acceptance
import SiteSafety.Proofs.Formula.Scanning

/-!
# Proofs — Formula — Evaluation

Expressions apart from any text, and what it means to evaluate one directly.  The value of a node
is the floating operation on the values of its operands, whatever comes out (`Expr.value`).  A node
is at fault when its divisor is zero or its value is no number or infinite (`Expr.fault?`), and the
nodes stand in the order left operand, right operand, parent (`Expr.nodes`): **the first node at
fault is the error of the expression**, and an expression without one has its value.

* `scansAs_written`: an expression that is written out with every operation in parentheses is
  scanned as tokens that the grammar derives it from.
* `eval_eq_outcome`: a tree is evaluated to the outcome of its expression.
* `evaluate_written`: the text of an expression is evaluated to the outcome of the expression.
-/

namespace SiteSafety.Formula

/-! ### Expressions -/

/-- Expressions over numbers and names. -/
inductive Expr where
  | literal (value : Float)
  | name (x : String)
  | neg (operand : Expr)
  | binary (op : Op) (lhs rhs : Expr)

namespace Expr

/-- The names in an expression. -/
def names : Expr → List String
  | .literal _    => []
  | .name x       => [x]
  | .neg e        => e.names
  | .binary _ l r => l.names ++ r.names

/-- How many minus signs and operations are open at the deepest place. -/
def depth : Expr → Nat
  | .literal _    => 0
  | .name _       => 0
  | .neg e        => e.depth + 1
  | .binary _ l r => max l.depth r.depth + 1

/-- The nodes, operands before the operation and the left one before the right one. -/
def nodes : Expr → List Expr
  | .literal x     => [.literal x]
  | .name x        => [.name x]
  | .neg e         => e.nodes ++ [.neg e]
  | .binary op l r => l.nodes ++ r.nodes ++ [.binary op l r]

end Expr

/-- What an operation gives on two numbers; a comparison gives 1 or 0. -/
def Op.value : Op → Float → Float → Float
  | .add, x, y => x + y
  | .sub, x, y => x - y
  | .mul, x, y => x * y
  | .div, x, y => x / y
  | .lt, x, y  => if x < y then 1.0 else 0.0
  | .le, x, y  => if x ≤ y then 1.0 else 0.0
  | .gt, x, y  => if x > y then 1.0 else 0.0
  | .ge, x, y  => if x ≥ y then 1.0 else 0.0
  | .eq, x, y  => if x == y then 1.0 else 0.0
  | .ne, x, y  => if x != y then 1.0 else 0.0

namespace Expr
variable (env : String → Float)

/-- The number that an expression comes to where `env` gives the values of names. -/
def value : Expr → Float
  | .literal x     => x
  | .name x        => env x
  | .neg e         => -e.value
  | .binary op l r => op.value l.value r.value

/-- Whether a node divides by zero. -/
def dividesByZero : Expr → Bool
  | .binary .div _ r => r.value env == 0.0
  | _                => false

/-- What is wrong with a node, if its operands are right. -/
def fault? (e : Expr) : Option Fault :=
  if e.dividesByZero env then some .divisionByZero
  else if (e.value env).isNaN then some .notANumber
  else if (e.value env).isInf then some .overflow
  else none

/-- The fault of the first node that has one, or else the value. -/
def outcome (e : Expr) : Except Error Float :=
  match e.nodes.findSome? (fault? env) with
  | some fault => .error (.faulted fault)
  | none       => .ok (e.value env)

end Expr

/-! ### Written expressions -/

/-- The sign of an operation. -/
def Op.sign : Op → List Char
  | .add => ['+']
  | .sub => ['-']
  | .mul => ['*']
  | .div => ['/']
  | .lt  => ['<']
  | .le  => ['<', '=']
  | .gt  => ['>']
  | .ge  => ['>', '=']
  | .eq  => ['=', '=']
  | .ne  => ['!', '=']

/-- The token of that sign. -/
def Op.token : Op → Token
  | .add => .plus
  | .sub => .minus
  | .mul => .star
  | .div => .slash
  | .lt  => .lt
  | .le  => .le
  | .gt  => .gt
  | .ge  => .ge
  | .eq  => .eq
  | .ne  => .ne

/-- The text is the expression with every operation in parentheses, and ASCII blanks or nothing
between the tokens.  A number is any numeral that is scanned back as it. -/
inductive Expr.Written : Expr → List Char → Prop where
  | literal {x : Float} {cs : List Char} (h : scan cs = .ok [⟨.number x, cs, 0⟩]) :
      Written (.literal x) cs
  | name {x : String} (h : IsName x.toList) : Written (.name x) x.toList
  | neg {e : Expr} {gap cs : List Char} (hgap : IsGap gap) (h : Written e cs) :
      Written (.neg e) (['-'] ++ gap ++ cs)
  | binary {op : Op} {l r : Expr} {g₁ g₂ g₃ g₄ ls rs : List Char} (h₁ : IsGap g₁) (h₂ : IsGap g₂)
      (h₃ : IsGap g₃) (h₄ : IsGap g₄) (hl : Written l ls) (hr : Written r rs) :
      Written (.binary op l r) (['('] ++ g₁ ++ ls ++ g₂ ++ op.sign ++ g₃ ++ rs ++ g₄ ++ [')'])

/-- The text is the expression, perhaps with blanks around it. -/
def Expr.WrittenIn (e : Expr) (text : List Char) : Prop :=
  ∃ gap cs gap', text = gap ++ cs ++ gap' ∧ IsGap gap ∧ IsGap gap' ∧ e.Written cs

/-- A sign is read in front of anything but `=`. -/
theorem readsAs_sign (op : Op) {rest : List Char} (h : rest.head? ≠ some '=') :
    ReadsAs op.sign op.token rest := by
  cases op with
  | add | sub | mul | div | le | ge | eq | ne => exact ⟨_, _, rfl, rfl, rfl⟩
  | lt | gt =>
      refine ⟨_, _, rfl, rfl, ?_⟩
      have hequals : (rest.head? == some '=') = false := beq_eq_false_iff_ne.mpr h
      simp [Token.first, isNameStart, symbol?, hequals, Op.token]

/-- The sign of an operation does not go on in the tokens of an operand. -/
theorem derives_operation {t : Lexeme} {op : Op} {d₁ d₂ : Nat} {ts₁ ts₂ : List Lexeme} {l r : Tree}
    (ht : t.token = op.token) (hl : Derives .operand d₁ ts₁ l) (hr : Derives .operand d₂ ts₂ r) :
    Derives .comparison (max d₁ d₂) (ts₁ ++ t :: ts₂) (.binary op l r) := by
  cases op with
  | mul | div => exact .sum (.product (.multiplied (by rw [ht]; rfl) (.operand hl) hr))
  | add | sub => exact .sum (.added (by rw [ht]; rfl) (.product (.operand hl)) (.operand hr))
  | lt | le | gt | ge | eq | ne =>
      exact .compared (by rw [ht]; rfl) (.product (.operand hl)) (.product (.operand hr))

/-- The expression that a tree is, without the places of its names. -/
def Tree.expr : Tree → Expr
  | .number x      => .literal x
  | .var x _       => .name x
  | .neg e         => .neg e.expr
  | .binary op l r => .binary op l.expr r.expr

theorem names_expr (t : Tree) : t.expr.names = t.names := by
  induction t with
  | number | var => rfl
  | neg e ih => exact ih
  | binary op l r ihl ihr => simp only [Tree.expr, Expr.names, Tree.names, ihl, ihr]

/-! ### What is scanned -/

theorem endsOperand_gap {gap : List Char} (h : IsGap gap) {rest : List Char}
    (hrest : EndsOperand rest) : EndsOperand (gap ++ rest) := by
  cases gap with
  | nil => exact hrest
  | cons c gap =>
      intro d hd
      obtain rfl := Option.some.inj hd
      have hblank : Text.isAsciiBlank c = true := h c List.mem_cons_self
      refine ⟨isNameChar_of_isAsciiBlank hblank, ?_⟩
      rintro rfl
      cases hblank

theorem endsOperand_sign (op : Op) (rest : List Char) : EndsOperand (op.sign ++ rest) := by
  intro c hc
  cases op <;> obtain rfl := Option.some.inj hc <;> decide

/-- A written expression does not start with `=`. -/
theorem head?_written {e : Expr} {cs : List Char} (h : e.Written cs) (rest : List Char) :
    (cs ++ rest).head? ≠ some '=' := by
  cases h with
  | literal h =>
      obtain ⟨c, cs, n, rfl, -, hfirst, -⟩ := first_of_scan h
      rintro heq
      obtain rfl := Option.some.inj heq
      rcases (first_number_iff.mp hfirst).1 with hdigit | ⟨hpoint, -⟩
      · cases hdigit
      · cases hpoint
  | name h =>
      obtain ⟨c, cs, hname, hstart, -⟩ := h.spelled
      rw [hname]
      rintro heq
      obtain rfl := Option.some.inj heq
      cases hstart
  | neg | binary => simp

theorem head?_gap_append {gap cs : List Char} (hgap : IsGap gap) (h : cs.head? ≠ some '=') :
    (gap ++ cs).head? ≠ some '=' := by
  cases gap with
  | nil => exact h
  | cons c gap =>
      rintro heq
      obtain rfl := Option.some.inj heq
      exact absurd (hgap '=' List.mem_cons_self) (by decide)

/-- **A written expression is scanned** as tokens that the grammar derives it from. -/
theorem scansAs_written {e : Expr} {cs : List Char} (h : e.Written cs) {rest : List Char}
    (hrest : EndsOperand rest) (o : Nat) :
    ∃ ts t, ScansAs o cs ts rest ∧ Derives .operand e.depth ts t ∧ t.expr = e := by
  induction h generalizing o rest with
  | literal h =>
      exact ⟨_, _, scansAs_word (readsAs_numeral h hrest) o, .atom (.number rfl), rfl⟩
  | name h =>
      refine ⟨_, _, scansAs_word (readsAs_name h fun c hc => (hrest c hc).1) o, .atom (.name rfl), ?_⟩
      simp [Tree.expr]
  | @neg e gap cs hgap h ih =>
      have hsign : ReadsAs ['-'] .minus (gap ++ (cs ++ rest)) := ⟨_, _, rfl, rfl, rfl⟩
      obtain ⟨ts, t, hscan, hderives, rfl⟩ := ih hrest _
      exact ⟨_, _, ((scansAs_word hsign o).append (scansAs_gap hgap _ _)).append hscan,
        .negated rfl hderives, rfl⟩
  | @binary op l r g₁ g₂ g₃ g₄ ls rs h₁ h₂ h₃ h₄ hl hr ihl ihr =>
      have hclose : EndsOperand (g₄ ++ ([')'] ++ rest)) := endsOperand_gap h₄ (by
        intro c hc
        obtain rfl := Option.some.inj hc
        decide)
      have hsigned : EndsOperand (g₂ ++ (op.sign ++ (g₃ ++ (rs ++ (g₄ ++ ([')'] ++ rest)))))) :=
        endsOperand_gap h₂ (endsOperand_sign op _)
      have hopen (rest : List Char) : ReadsAs ['('] .lparen rest := ⟨_, _, rfl, rfl, rfl⟩
      have hshut : ReadsAs [')'] .rparen rest := ⟨_, _, rfl, rfl, rfl⟩
      have hop := readsAs_sign op (head?_gap_append h₃ (head?_written hr (g₄ ++ ([')'] ++ rest))))
      obtain ⟨ts₁, t₁, hscan₁, hderives₁, rfl⟩ := ihl hsigned _
      obtain ⟨ts₂, t₂, hscan₂, hderives₂, rfl⟩ := ihr hclose _
      refine ⟨_, .binary op t₁ t₂,
        ((((((((scansAs_word (hopen _) o).append (scansAs_gap h₁ _ _)).append hscan₁).append
          (scansAs_gap h₂ _ _)).append (scansAs_word hop _)).append (scansAs_gap h₃ _ _)).append
          hscan₂).append (scansAs_gap h₄ _ _)).append (scansAs_word hshut _), ?_, rfl⟩
      simpa [Expr.depth] using
        Derives.atom (.parens rfl rfl (derives_operation rfl hderives₁ hderives₂))

/-! ### What is evaluated -/

variable {env : String → Float} {b : Bindings}

/-- A value that did not come of a division by zero is checked for what else may be wrong. -/
theorem checked_value (e : Expr) (env : String → Float) (h : e.dividesByZero env = false) :
    checked (e.value env) = match e.fault? env with
      | some fault => .error (.faulted fault)
      | none => .ok (e.value env) := by
  simp only [checked, Expr.fault?, h, Bool.false_eq_true, if_false]
  cases (e.value env).isNaN <;> cases (e.value env).isInf <;> rfl

/-- An operation refuses a zero divisor and otherwise gives its value. -/
theorem apply_value (op : Op) (l r : Expr) : op.apply (l.value env) (r.value env) =
    if (Expr.binary op l r).dividesByZero env then .error (.faulted .divisionByZero)
    else .ok ((Expr.binary op l r).value env) := by
  cases op with
  | div => rfl
  | _ => simp [Op.apply, Expr.dividesByZero, Expr.value, Op.value, truth]

/-- The nodes that come before an expression itself. -/
def Expr.before : Expr → List Expr
  | .literal _    => []
  | .name _       => []
  | .neg e        => e.nodes
  | .binary _ l r => l.nodes ++ r.nodes

theorem nodes_eq (e : Expr) : e.nodes = e.before ++ [e] := by
  cases e <;> rfl

/-- A node is looked at when nothing is wrong before it. -/
theorem outcome_eq (e : Expr) : e.outcome env =
    match e.before.findSome? (Expr.fault? env) with
    | some fault => .error (.faulted fault)
    | none => match e.fault? env with
      | some fault => .error (.faulted fault)
      | none => .ok (e.value env) := by
  rw [Expr.outcome, nodes_eq, List.findSome?_append]
  cases e.before.findSome? (Expr.fault? env) with
  | some fault => rfl
  | none => cases hfault : e.fault? env <;> simp [hfault]

/-- **A tree is evaluated to the outcome of its expression.** -/
theorem eval_eq_outcome {t : Tree} (hb : ∀ x ∈ t.names, b.lookup x = some (env x)) :
    t.eval b = t.expr.outcome env := by
  induction t with
  | number x =>
      rw [Tree.expr, outcome_eq]
      exact checked_value (.literal x) env rfl
  | var x offset =>
      rw [Tree.eval, hb x (List.mem_singleton_self x), Tree.expr, outcome_eq]
      exact checked_value (.name x) env rfl
  | neg t ih =>
      rw [Tree.eval, ih hb, Tree.expr, outcome_eq (.neg t.expr),
        ← checked_value (.neg t.expr) env rfl, Expr.outcome, Expr.before]
      cases t.expr.nodes.findSome? (Expr.fault? env) <;> rfl
  | binary op l r ihl ihr =>
      have hleft := ihl fun x hx => hb x (List.mem_append_left _ hx)
      have hright := ihr fun x hx => hb x (List.mem_append_right _ hx)
      rw [Tree.eval, hleft, hright, Tree.expr, outcome_eq (.binary op l.expr r.expr), Expr.before,
        List.findSome?_append, Expr.outcome, Expr.outcome]
      cases l.expr.nodes.findSome? (Expr.fault? env) with
      | some fault => rfl
      | none =>
          cases r.expr.nodes.findSome? (Expr.fault? env) with
          | some fault => rfl
          | none =>
              simp only [apply_value]
              cases hzero : (Expr.binary op l.expr r.expr).dividesByZero env with
              | true => simp [Expr.fault?, hzero]
              | false => simpa using checked_value _ env hzero

/-! ### Texts -/

/-- **The text of an expression is evaluated to the outcome of the expression**, if it is not too
long or too deep and its names are bound. -/
theorem evaluate_written {e : Expr} {source : String} (hwritten : e.WrittenIn source.toList)
    (hlen : source.utf8ByteSize ≤ 512) (hdepth : e.depth ≤ 32)
    (hb : ∀ x ∈ e.names, b.lookup x = some (env x)) : evaluate source b = e.outcome env := by
  obtain ⟨gap, cs, gap', hsource, hgap, hgap', hcs⟩ := hwritten
  have hend : EndsOperand (gap' ++ []) := endsOperand_gap hgap' nofun
  obtain ⟨ts, t, hscan, hderives, rfl⟩ := scansAs_written hcs hend (0 + Text.width gap)
  have hall := ((scansAs_gap hgap 0 _).append hscan).append (scansAs_gap hgap' _ [])
  have htokens : scan source.toList = .ok ts := by
    rw [scan, hsource]
    unfold ScansAs at hall
    simpa [scanFrom, Except.map] using hall
  have hbound : t.checkBound b = .ok () := by
    rw [Tree.checkBound_eq_ok_iff]
    intro x hx
    rw [hb x (names_expr t ▸ hx)]
    rfl
  have htree : Tree.ofTokens source.utf8ByteSize ts = .ok t :=
    ofTokens_eq_ok_iff.mpr ⟨t.expr.depth, hdepth, .sum (.product (.operand hderives))⟩
  have hvalid : validate source b = .ok t :=
    validate_eq_ok_iff.mpr ⟨hlen, ts, htokens, htree, hbound⟩
  rw [evaluate, hvalid]
  exact eval_eq_outcome fun x hx => hb x (names_expr t ▸ hx)

/-- Whether a reading is above a limit, divided by what the limit is above 20. -/
def shareOfExcess : Expr :=
  .binary .div (.binary .gt (.name "reading") (.neg (.neg (.name "limit"))))
    (.binary .sub (.name "limit") (.literal 20.0))

/-- At a limit of 20 its divisor is zero, and that is the error of its text. -/
theorem shareOfExcess_divides_by_zero :
    shareOfExcess.WrittenIn " ((reading>--limit) /\t( limit-2.0e1 ))\n".toList ∧
      evaluate " ((reading>--limit) /\t( limit-2.0e1 ))\n" [("reading", 25.0), ("limit", 20.0)] =
        .error (.faulted .divisionByZero) := by
  have hnone : IsGap [] := nofun
  have hspace : IsGap [' '] := List.forall_mem_singleton.mpr rfl
  have htab : IsGap ['\t'] := List.forall_mem_singleton.mpr rfl
  have hline : IsGap ['\n'] := List.forall_mem_singleton.mpr rfl
  have hreading : IsName "reading".toList := ⟨⟨_, _, rfl, rfl, List.all_eq_true.mp rfl⟩, rfl⟩
  have hlimit : IsName "limit".toList := ⟨⟨_, _, rfl, rfl, List.all_eq_true.mp rfl⟩, rfl⟩
  have htwenty : scan "2.0e1".toList = .ok [⟨.number 20.0, "2.0e1".toList, 0⟩] := by
    have hfirst : Token.first '2' ".0e1".toList = .ok (.number 20.0, 4) := rfl
    refine (scanFrom_token rfl hfirst).trans ?_
    show (scanFrom _ []).map _ = _
    rw [scanFrom]
    rfl
  have hexcess : Expr.Written (.binary .gt _ _) _ :=
    .binary hnone hnone hnone hnone (.name hreading) (.neg hnone (.neg hnone (.name hlimit)))
  have hrest : Expr.Written (.binary .sub _ _) _ :=
    .binary hspace hnone hnone hspace (.name hlimit) (.literal htwenty)
  have hwritten : shareOfExcess.WrittenIn " ((reading>--limit) /\t( limit-2.0e1 ))\n".toList :=
    ⟨[' '], _, ['\n'], rfl, hspace, hline, .binary hnone hspace htab hnone hexcess hrest⟩
  refine ⟨hwritten, ?_⟩
  have henv : ∀ x ∈ shareOfExcess.names, List.lookup x [("reading", 25.0), ("limit", 20.0)] =
      some (if x = "reading" then 25.0 else 20.0) := by decide
  rw [evaluate_written hwritten (by decide) (by decide) henv]
  rfl

end SiteSafety.Formula
