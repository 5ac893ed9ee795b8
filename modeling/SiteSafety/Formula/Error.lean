/-!
# Formula — Error

Why a formula was refused, and why an accepted one has no value.  **A rejection names a byte of the
source; a fault names none**, since it depends on the values bound and not on the text.
-/

namespace SiteSafety.Formula

/-- What a formula may not contain. -/
inductive Violation where
  | functionCall
  | attributeAccess
  | indexAccess
  | assignment
  | stringLiteral
  | collection
  | keyword (word : String)
  | unboundVariable (name : String)
  | unexpectedCharacter (c : Char)
  | unexpectedToken (text : String)
  | unexpectedEnd
  | chainedComparison
  | invalidNumber
  | tooLong (limit : Nat)
  | tooDeep (limit : Nat)
  deriving Repr, DecidableEq

def Violation.message : Violation → String
  | .functionCall => "function calls are not allowed"
  | .attributeAccess => "attribute access is not allowed"
  | .indexAccess => "indexing is not allowed"
  | .assignment => "assignment is not allowed"
  | .stringLiteral => "string literals are not allowed"
  | .collection => "collections are not allowed"
  | .keyword word => s!"keyword `{word}` is not allowed"
  | .unboundVariable name => s!"variable `{name}` is not bound"
  | .unexpectedCharacter c => s!"unexpected character `{c}`"
  | .unexpectedToken text => s!"unexpected token `{text}`"
  | .unexpectedEnd => "unexpected end of expression"
  | .chainedComparison => "chained comparisons are not allowed"
  | .invalidNumber => "invalid numeric literal"
  | .tooLong limit => s!"expression is longer than {limit} bytes"
  | .tooDeep limit => s!"expression nests deeper than {limit} levels"

/-- Why an accepted formula has no value. -/
inductive Fault where
  | divisionByZero
  | notANumber
  | overflow
  deriving Repr, DecidableEq

def Fault.message : Fault → String
  | .divisionByZero => "division by zero"
  | .notANumber => "result is not a number"
  | .overflow => "arithmetic overflow"

/-- A refusal at a byte of the source, or a fault of an accepted formula. -/
inductive Error where
  | rejected (kind : Violation) (offset : Nat)
  | faulted (fault : Fault)
  deriving Repr, DecidableEq

def Error.message : Error → String
  | .rejected kind offset => s!"expression rejected at byte {offset}: {kind.message}"
  | .faulted fault => s!"expression could not be evaluated: {fault.message}"

def Error.isRejection : Error → Bool
  | .rejected _ _ => true
  | .faulted _ => false

end SiteSafety.Formula
