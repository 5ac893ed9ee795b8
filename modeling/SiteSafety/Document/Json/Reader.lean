import SiteSafety.Document.Json
import SiteSafety.Text.Words

/-!
# Document — Json — Reader

Strict reading of data documents: one value with blanks around it and nothing else.  The text is
first cut into tokens; the tokens then drive a machine whose state is the stack of open arrays and
objects.  **Each token is looked at once**, so reading ends with the list of tokens.
-/

namespace SiteSafety.Document.Json

/-! ### Strings -/

def hexDigit? (c : Char) : Option Nat :=
  if c.isDigit then some (c.toNat - '0'.toNat)
  else if 'a' ≤ c ∧ c ≤ 'f' then some (c.toNat - 'a'.toNat + 10)
  else if 'A' ≤ c ∧ c ≤ 'F' then some (c.toNat - 'A'.toNat + 10)
  else none

def hexUnit? (a b c d : Char) : Option Nat := do
  return 4096 * (← hexDigit? a) + 256 * (← hexDigit? b) + 16 * (← hexDigit? c) + (← hexDigit? d)

/-- What an escape of one letter stands for. -/
def escaped? (c : Char) : Option Nat :=
  match c with
  | '"' => some 0x22
  | '\\' => some 0x5c
  | '/' => some 0x2f
  | 'b' => some 8
  | 'f' => some 12
  | 'n' => some 10
  | 'r' => some 13
  | 't' => some 9
  | _ => none

/-- The code points and escaped units of a string up to its closing quote, and how many characters
it takes with that quote. -/
def stringUnits : List Char → Option (List Nat × Nat)
  | [] => none
  | '"' :: _ => some ([], 1)
  | '\\' :: 'u' :: a :: b :: c :: d :: rest =>
    match hexUnit? a b c d, stringUnits rest with
    | some u, some (us, n) => some (u :: us, n + 6)
    | _, _ => none
  | '\\' :: c :: rest =>
    match escaped? c, stringUnits rest with
    | some u, some (us, n) => some (u :: us, n + 2)
    | _, _ => none
  | c :: rest =>
    if c.toNat < 0x20 ∨ c = '\\' then none
    else (stringUnits rest).map fun (us, n) => (c.toNat :: us, n + 1)

/-- The text of units, where the two halves of a pair stand next to each other. -/
def unitsText? : List Nat → Option (List Char)
  | [] => some []
  | [u] => if 0xd800 ≤ u ∧ u < 0xe000 then none else some [Char.ofNat u]
  | u :: v :: rest =>
    if 0xd800 ≤ u ∧ u < 0xdc00 then
      if 0xdc00 ≤ v ∧ v < 0xe000 then
        (unitsText? rest).map (Char.ofNat (0x10000 + (u - 0xd800) * 1024 + (v - 0xdc00)) :: ·)
      else none
    else if 0xdc00 ≤ u ∧ u < 0xe000 then none
    else (unitsText? (v :: rest)).map (Char.ofNat u :: ·)

/-! ### Numbers -/

/-- The number at the head of a text: a sign, digits without leading zeros, a point with digits, an
exponent with digits; and how many characters it takes. -/
def numberSpan? (cs : List Char) : Option (Json × Nat) :=
  let negative := cs.head? == some '-'
  let rest := if negative then cs.drop 1 else cs
  let whole := rest.takeWhile Char.isDigit
  let rest := rest.drop whole.length
  if whole.isEmpty || (whole.head? == some '0' && 1 < whole.length) then none
  else
    let part := match rest with
      | '.' :: more => some (more.takeWhile Char.isDigit)
      | _ => none
    let rest := match part with
      | some ds => rest.drop (1 + ds.length)
      | none => rest
    let power := match rest with
      | c :: more =>
        if c = 'e' ∨ c = 'E' then
          let (minus, digits) := Decimal.readSign more
          let ds := digits.takeWhile Char.isDigit
          some (minus, ds, 1 + (more.length - digits.length) + ds.length)
        else none
      | [] => none
    if part == some [] || power.any (·.2.1.isEmpty) then none
    else
      let ds := whole ++ part.getD []
      let e : Int := match power with
        | some (minus, es, _) =>
          if minus then -(Decimal.ofDigits es : Int) else Decimal.ofDigits es
        | none => 0
      let length := (if negative then 1 else 0) + whole.length
        + (part.map (1 + ·.length)).getD 0 + (power.map (·.2.2)).getD 0
      some (.number negative (Decimal.ofDigits ds) (e - (part.getD []).length), length)

/-! ### Tokens -/

inductive Token where
  | atom (j : Json)
  | beginArray | endArray | beginObject | endObject
  | colon | comma

def isBlank (c : Char) : Bool := c == ' ' || c == '\t' || c == '\n' || c == '\r'

/-- The token at the head of `c :: rest` and how many characters of `rest` it takes. -/
def Token.first? (c : Char) (rest : List Char) : Option (Token × Nat) :=
  match c with
  | '[' => some (.beginArray, 0)
  | ']' => some (.endArray, 0)
  | '{' => some (.beginObject, 0)
  | '}' => some (.endObject, 0)
  | ':' => some (.colon, 0)
  | ',' => some (.comma, 0)
  | '"' => (stringUnits rest).map fun (us, n) =>
      (.atom (.string ((unitsText? us).map String.ofList)), n)
  | 'n' => if "ull".toList.isPrefixOf rest then some (.atom .null, 3) else none
  | 't' => if "rue".toList.isPrefixOf rest then some (.atom (.bool true), 3) else none
  | 'f' => if "alse".toList.isPrefixOf rest then some (.atom (.bool false), 4) else none
  | _ => (numberSpan? (c :: rest)).map fun (j, n) => (.atom j, n - 1)

/-- The tokens of a text. -/
def tokens? : List Char → Option (List Token)
  | [] => some []
  | c :: rest =>
    if isBlank c then tokens? rest
    else match Token.first? c rest with
      | none => none
      | some (t, n) => (tokens? (rest.drop n)).map (t :: ·)
termination_by cs => cs.length
decreasing_by all_goals simp only [List.length_drop, List.length_cons]; omega

/-! ### The machine -/

/-- An open array with its items, or an open object with its members and the name of the next one,
latest first. -/
inductive Frame where
  | array (items : List Json)
  | object (members : List (String × Json)) (name : String)

/-- What may come next. -/
inductive Expected where
  | value | valueOrEnd | name | nameOrEnd | colon | commaOrEnd | nothing

structure State where
  expected : Expected
  pending : List Frame
  result : Json

/-- A value is complete. -/
def State.complete (stack : List Frame) (j : Json) : State :=
  match stack with
  | [] => ⟨.nothing, [], j⟩
  | .array items :: rest => ⟨.commaOrEnd, .array (j :: items) :: rest, .null⟩
  | .object members name :: rest =>
    ⟨.commaOrEnd, .object ((name, j) :: members) name :: rest, .null⟩

/-- One token. -/
def State.step (s : State) (t : Token) : Option State :=
  match s.expected, t, s.pending with
  | .value, .atom j, stack => some (.complete stack j)
  | .valueOrEnd, .atom j, stack => some (.complete stack j)
  | .value, .beginArray, stack => some ⟨.valueOrEnd, .array [] :: stack, .null⟩
  | .valueOrEnd, .beginArray, stack => some ⟨.valueOrEnd, .array [] :: stack, .null⟩
  | .value, .beginObject, stack => some ⟨.nameOrEnd, .object [] "" :: stack, .null⟩
  | .valueOrEnd, .beginObject, stack => some ⟨.nameOrEnd, .object [] "" :: stack, .null⟩
  | .valueOrEnd, .endArray, .array items :: rest => some (.complete rest (.array items.reverse))
  | .commaOrEnd, .endArray, .array items :: rest => some (.complete rest (.array items.reverse))
  | .commaOrEnd, .comma, .array items :: rest => some ⟨.value, .array items :: rest, .null⟩
  | .nameOrEnd, .endObject, .object members _ :: rest =>
    some (.complete rest (.object members.reverse))
  | .commaOrEnd, .endObject, .object members _ :: rest =>
    some (.complete rest (.object members.reverse))
  | .commaOrEnd, .comma, .object members name :: rest =>
    some ⟨.name, .object members name :: rest, .null⟩
  | .name, .atom (.string (some name)), .object members _ :: rest =>
    some ⟨.colon, .object members name :: rest, .null⟩
  | .nameOrEnd, .atom (.string (some name)), .object members _ :: rest =>
    some ⟨.colon, .object members name :: rest, .null⟩
  | .colon, .colon, stack => some ⟨.value, stack, .null⟩
  | _, _, _ => none

/-- All tokens. -/
def State.run (s : State) : List Token → Option State
  | [] => some s
  | t :: ts => match s.step t with
    | none => none
    | some s => s.run ts

/-- The value that a text writes. -/
def read? (cs : List Char) : Option Json := do
  let s ← State.run ⟨.value, [], .null⟩ (← tokens? cs)
  match s.expected with
  | .nothing => some s.result
  | _ => none

end SiteSafety.Document.Json
