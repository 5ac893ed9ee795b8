import SiteSafety.Formula.Token

/-!
# Formula — Tree

Formulas as trees, and the reader from tokens to trees.

    comparison = sum [cmp sum]          sum     = product {(+|-) product}
    product    = operand {(*|/) operand}  operand = - operand | number | name | ( comparison )

**The nesting budget is the recursion**: a minus sign or a parenthesis spends one level, and a
reader without levels left refuses both.  The chains `sum` and `product` are readers built from a
reader for their members, so each is understood by itself.
-/

namespace SiteSafety.Formula

inductive Op where
  | add | sub | mul | div
  | lt | le | gt | ge | eq | ne
  deriving Repr, DecidableEq

inductive Tree where
  | number (value : Float)
  | var (name : String) (offset : Nat)
  | neg (operand : Tree)
  | binary (op : Op) (lhs rhs : Tree)
  deriving Repr, DecidableEq

/-- How many minus signs and parentheses may be open at one place. -/
def maxDepth : Nat := 32

/-! ### Operators -/

def Op.comparison? : Token → Option Op
  | .lt => some .lt
  | .le => some .le
  | .gt => some .gt
  | .ge => some .ge
  | .eq => some .eq
  | .ne => some .ne
  | _ => none

def Op.additive? : Token → Option Op
  | .plus => some .add
  | .minus => some .sub
  | _ => none

def Op.multiplicative? : Token → Option Op
  | .star => some .mul
  | .slash => some .div
  | _ => none

/-! ### Readers -/

/-- A reader takes a tree off the front of a list of tokens and leaves fewer. -/
abbrev Reader : Type :=
  (ts : List Lexeme) → Except Error { r : Tree × List Lexeme // r.2.length < ts.length }

/-- The refusal of a token in a place where no such token may stand. -/
def unexpected (t : Lexeme) : Error :=
  match t.token with
  | .lparen => .rejected .functionCall t.offset
  | _ => .rejected (.unexpectedToken t.token.describe) t.offset

/-- Members joined to the left by the operators of one level, as long as such an operator
follows. -/
def chainAfter (op? : Token → Option Op) (member : Reader) (lhs : Tree) (ts : List Lexeme) :
    Except Error { r : Tree × List Lexeme // r.2.length ≤ ts.length } :=
  match ts with
  | [] => .ok ⟨(lhs, []), Nat.le_refl _⟩
  | t :: rest =>
    match op? t.token with
    | none => .ok ⟨(lhs, t :: rest), Nat.le_refl _⟩
    | some op =>
      match member rest with
      | .error e => .error e
      | .ok ⟨(rhs, rest'), shorter⟩ =>
        match chainAfter op? member (.binary op lhs rhs) rest' with
        | .error e => .error e
        | .ok ⟨r, h⟩ => .ok ⟨r, by simp at shorter ⊢; omega⟩
termination_by ts.length
decreasing_by simp only [List.length_cons] at shorter ⊢; omega

/-- One member, or several joined to the left by the operators of one level. -/
def chain (op? : Token → Option Op) (member : Reader) : Reader := fun ts =>
  match member ts with
  | .error e => .error e
  | .ok ⟨(lhs, rest), shorter⟩ =>
    match chainAfter op? member lhs rest with
    | .error e => .error e
    | .ok ⟨r, h⟩ => .ok ⟨r, Nat.lt_of_le_of_lt h shorter⟩

def product (operand : Reader) : Reader := chain Op.multiplicative? operand

def sum (operand : Reader) : Reader := chain Op.additive? (product operand)

/-- A sum, or two sums compared.  A second comparison behind them is refused. -/
def comparison (operand : Reader) : Reader := fun ts =>
  match sum operand ts with
  | .error e => .error e
  | .ok ⟨(lhs, rest), shorter⟩ =>
    match rest, shorter with
    | [], shorter => .ok ⟨(lhs, []), shorter⟩
    | t :: more, shorter =>
      match Op.comparison? t.token with
      | none => .ok ⟨(lhs, t :: more), shorter⟩
      | some op =>
        match sum operand more with
        | .error e => .error e
        | .ok ⟨(rhs, rest'), h⟩ =>
          match rest'.head?.filter (fun t => (Op.comparison? t.token).isSome) with
          | some t => .error (.rejected .chainedComparison t.offset)
          | none => .ok ⟨(.binary op lhs rhs, rest'), by simp at h shorter ⊢; omega⟩

/-- An operand may not be followed by an opening parenthesis, which would be a call. -/
def notCalled (rest : List Lexeme) : Except Error Unit :=
  match rest with
  | ⟨.lparen, _, offset⟩ :: _ => .error (.rejected .functionCall offset)
  | _ => .ok ()

/-- An operand with so many levels of nesting left, in a source of `size` bytes. -/
def operand (size : Nat) : Nat → Reader
  | _, [] => .error (.rejected .unexpectedEnd size)
  | levels, t :: rest =>
    match t.token with
    | .number value =>
      (notCalled rest).map fun _ => ⟨(.number value, rest), Nat.lt_succ_self _⟩
    | .ident name =>
      (notCalled rest).map fun _ => ⟨(.var name t.offset, rest), Nat.lt_succ_self _⟩
    | .minus =>
      match levels with
      | 0 => .error (.rejected (.tooDeep maxDepth) t.offset)
      | levels + 1 =>
        match operand size levels rest with
        | .error e => .error e
        | .ok ⟨(e, rest'), h⟩ => .ok ⟨(.neg e, rest'), Nat.lt_succ_of_lt h⟩
    | .lparen =>
      match levels with
      | 0 => .error (.rejected (.tooDeep maxDepth) t.offset)
      | levels + 1 =>
        match comparison (operand size levels) rest with
        | .error e => .error e
        | .ok ⟨(_, []), _⟩ => .error (.rejected .unexpectedEnd size)
        | .ok ⟨(e, t' :: rest'), h⟩ =>
          match t'.token with
          | .rparen => (notCalled rest').map fun _ => ⟨(e, rest'), by simp at h ⊢; omega⟩
          | _ => .error (unexpected t')
    | _ => .error (unexpected t)

/-- The tree of a whole list of tokens, read from a source of `size` bytes. -/
def Tree.ofTokens (size : Nat) (ts : List Lexeme) : Except Error Tree :=
  match comparison (operand size maxDepth) ts with
  | .error e => .error e
  | .ok ⟨(e, []), _⟩ => .ok e
  | .ok ⟨(_, t :: _), _⟩ => .error (unexpected t)

end SiteSafety.Formula
