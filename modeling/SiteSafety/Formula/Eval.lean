import SiteSafety.Formula.Tree

/-!
# Formula — Eval

Validation and evaluation of formulas.  A formula is validated against the names that are bound
and only a validated tree is evaluated.  **Every node is checked**: a value that is no number or is
infinite ends the evaluation at the node where it arises, operands before the node and the left
operand before the right one.
-/

namespace SiteSafety.Formula

/-- The longest source, in bytes. -/
def maxBytes : Nat := 512

/-- Values bound to names, the latest binding first. -/
abbrev Bindings := List (String × Float)

/-- Binds a name, in place of what it was bound to before. -/
def Bindings.bind (name : String) (value : Float) (b : Bindings) : Bindings := (name, value) :: b

/-! ### Validation -/

/-- The first variable, from left to right, that is not bound is refused. -/
def Tree.checkBound (b : Bindings) : Tree → Except Error Unit
  | .number _ => .ok ()
  | .var name offset =>
    if (b.lookup name).isSome then .ok () else .error (.rejected (.unboundVariable name) offset)
  | .neg e => e.checkBound b
  | .binary _ l r =>
    match l.checkBound b with
    | .error e => .error e
    | .ok () => r.checkBound b

/-- The tree of a source whose variables are all bound. -/
def validate (source : String) (b : Bindings) : Except Error Tree := do
  let size := source.utf8ByteSize
  if maxBytes < size then throw (.rejected (.tooLong maxBytes) maxBytes)
  let tree ← Tree.ofTokens size (← scan source.toList)
  tree.checkBound b
  return tree

/-! ### Evaluation -/

/-- A finite value, or the fault that an infinite one or no number is. -/
def checked (x : Float) : Except Error Float :=
  if x.isNaN then .error (.faulted .notANumber)
  else if x.isInf then .error (.faulted .overflow)
  else .ok x

/-- A truth value as a number. -/
def truth (holds : Bool) : Float := if holds then 1.0 else 0.0

def Op.apply (op : Op) (l r : Float) : Except Error Float :=
  match op with
  | .add => .ok (l + r)
  | .sub => .ok (l - r)
  | .mul => .ok (l * r)
  | .div => if r == 0.0 then .error (.faulted .divisionByZero) else .ok (l / r)
  | .lt => .ok (truth (l < r))
  | .le => .ok (truth (l ≤ r))
  | .gt => .ok (truth (l > r))
  | .ge => .ok (truth (l ≥ r))
  | .eq => .ok (truth (l == r))
  | .ne => .ok (truth (l != r))

/-- The value of a tree. -/
def Tree.eval (b : Bindings) : Tree → Except Error Float
  | .number x => checked x
  | .var name offset =>
    match b.lookup name with
    | some x => checked x
    | none => .error (.rejected (.unboundVariable name) offset)
  | .neg e =>
    match e.eval b with
    | .error err => .error err
    | .ok x => checked (-x)
  | .binary op l r =>
    match l.eval b with
    | .error err => .error err
    | .ok x =>
      match r.eval b with
      | .error err => .error err
      | .ok y =>
        match op.apply x y with
        | .error err => .error err
        | .ok z => checked z

/-- The value of a source. -/
def evaluate (source : String) (b : Bindings) : Except Error Float := do
  (← validate source b).eval b

/-- A value read as a condition: whatever is not zero holds. -/
def holds (x : Float) : Bool := x != 0.0

/-- Whether the condition in a source holds. -/
def evaluateCondition (source : String) (b : Bindings) : Except Error Bool :=
  (evaluate source b).map holds

end SiteSafety.Formula
