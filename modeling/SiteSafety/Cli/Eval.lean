import SiteSafety.Cli.Outcome
import SiteSafety.Decimal.Numeral
import SiteSafety.Formula.Eval

/-!
# Cli — Eval

The command that evaluates an expression.  **What is refused before it is evaluated ends with
status 2**, what has no value with status 1.
-/

namespace SiteSafety.Cli

/-- Why a binding cannot be used. -/
inductive BindingError where
  | noSign (binding : String)
  | noNumber (binding : String)
  deriving Repr, DecidableEq

def BindingError.message : BindingError → String
  | .noSign binding => s!"binding `{binding}` is not of the form name=value"
  | .noNumber binding => s!"binding `{binding}` does not have a numeric value"

/-- A name and a number on the two sides of the first `=`. -/
def readBinding (binding : String) : Except BindingError (String × Float) :=
  match Text.cut? ['='] binding.toList with
  | none => .error (.noSign binding)
  | some (name, value) =>
    match Decimal.read? (Text.trim value) with
    | none => .error (.noNumber binding)
    | some x => .ok (String.ofList (Text.trim name), x)

/-- All bindings, the later ones in place of earlier ones of the same name. -/
def readBindings : List String → Formula.Bindings → Except BindingError Formula.Bindings
  | [], b => .ok b
  | binding :: rest, b =>
    match readBinding binding with
    | .error e => .error e
    | .ok (name, x) => readBindings rest (b.bind name x)

/-- A value as it is shown: a whole number below `1e15` without places. -/
def valueText (x : Float) : String :=
  if Decimal.isWhole x && x.abs < 1e15 then Decimal.fixed 0 x else Decimal.plain x

def eval (expression : String) (bindings : List String) : Outcome :=
  match readBindings bindings [] with
  | .error e => .failure "eval" "invalid_binding" e.message 2
  | .ok b =>
    match Formula.evaluate expression b with
    | .ok x => .success "eval" (valueText x)
    | .error e =>
      if e.isRejection then .failure "eval" "sandbox_violation" e.message 2
      else .failure "eval" "evaluation" e.message 1

end SiteSafety.Cli
