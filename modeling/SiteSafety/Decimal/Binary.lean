/-!
# Decimal — Binary

A finite floating number is `± m · 2 ^ q` for a natural `m` and an integer `q`.  Printing a number
starts from this exact value, so **no digit is computed in floating arithmetic**.
-/

namespace SiteSafety.Decimal

/-- The exact value `± significand · 2 ^ exponent` of a finite number. -/
structure Binary where
  negative : Bool
  significand : Nat
  exponent : Int
  deriving Repr, DecidableEq

/-- The significand of a power of two: the leading bit, which stands behind the stored ones. -/
def hiddenBit : Nat := 4503599627370496

/-- The weight of the sign bit. -/
def signWeight : Nat := 9223372036854775808

/-- The sign bit of a number, set for `-0` too. -/
def signBit (x : Float) : Bool := x.toBits.toNat / signWeight = 1

/-- The exact value of a number, unless it is infinite or no number. -/
def decode? (x : Float) : Option Binary :=
  let bits := x.toBits.toNat
  let fraction : Nat := bits % hiddenBit
  let biased : Nat := bits / hiddenBit % 2048
  if biased = 2047 then none
  else if biased = 0 then some ⟨signBit x, fraction, -1074⟩
  else some ⟨signBit x, fraction + hiddenBit, Int.ofNat biased - 1075⟩

/-- Whether a number is finite. -/
def isFinite (x : Float) : Bool := (decode? x).isSome

/-- `2 ^ k` as a quotient of two naturals. -/
def twoTo (k : Int) : Nat × Nat := (Nat.pow 2 k.toNat, Nat.pow 2 (-k).toNat)

/-- `10 ^ k` as a quotient of two naturals. -/
def tenTo (k : Int) : Nat × Nat := (Nat.pow 10 k.toNat, Nat.pow 10 (-k).toNat)

/-- Whether a number is finite and whole. -/
def isWhole (x : Float) : Bool :=
  match decode? x with
  | none => false
  | some b => b.significand % (twoTo b.exponent).2 = 0

/-- Positive infinity. -/
def infinity : Float := 1.0 / 0.0

/-- The value that is no number. -/
def notNumber : Float := 0.0 / 0.0

end SiteSafety.Decimal
