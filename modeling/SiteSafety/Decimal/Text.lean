import SiteSafety.Decimal.Shortest

/-!
# Decimal — Text

Written forms of numbers: plain positional notation with the fewest digits, a fixed number of
places, and the notation of data documents, which keeps a point or an exponent in every number.
-/

namespace SiteSafety.Decimal

/-- The decimal digits of a natural. -/
def digits (n : Nat) : String := String.ofList (Nat.toDigits 10 n)

/-- A natural in at least `n` digits. -/
def padded (n : Nat) (k : Nat) : String :=
  let ds := Nat.toDigits 10 k
  String.ofList (List.replicate (n - ds.length) '0' ++ ds)

/-- `d · 10 ^ k` in positional notation, without an exponent. -/
def positional (d : Nat) (k : Int) : String :=
  let ds := Nat.toDigits 10 d
  let places := (-k).toNat
  if 0 ≤ k then String.ofList (ds ++ List.replicate k.toNat '0')
  else if places < ds.length then
    String.ofList (ds.take (ds.length - places) ++ '.' :: ds.drop (ds.length - places))
  else String.ofList ('0' :: '.' :: List.replicate (places - ds.length) '0' ++ ds)

/-- A number with its sign, where `f` writes its magnitude. -/
def signed (x : Float) (f : Binary → String) : String :=
  let sign := if signBit x then "-" else ""
  match decode? x with
  | some b => sign ++ f b
  | none => if x.isNaN then "NaN" else sign ++ "inf"

/-- The fewest digits that read back, without an exponent: `20`, `0.1`, `-0`, `NaN`, `-inf`.  Of
two equally near the upper one is taken. -/
def plain (x : Float) : String :=
  signed x fun b =>
    if b.significand = 0 then "0"
    else
      let (d, k) := shortest .upper b.significand b.exponent
      positional d k

/-- A quotient rounded to the nearest natural, a half to the even one. -/
def roundDiv (num den : Nat) : Nat :=
  let q := num / den
  let r := num % den
  if 2 * r < den then q else if den < 2 * r then q + 1 else if q % 2 = 0 then q else q + 1

/-- Exactly `places` places after the point, the exact value rounded to the nearest, a half to the
even digit. -/
def fixed (places : Nat) (x : Float) : String :=
  signed x fun b =>
    let (up, down) := twoTo b.exponent
    let shift := Nat.pow 10 places
    let scaled := roundDiv (b.significand * up * shift) down
    if places = 0 then digits scaled
    else digits (scaled / shift) ++ "." ++ padded places (scaled % shift)

/-- The notation of data documents: the fewest digits that read back, with a point from `1e-5` up
to below `1e16` and an exponent outside; a whole number keeps `.0`.  Of two equally near the even
one is taken. -/
def documented (x : Float) : String :=
  signed x fun b =>
    if b.significand = 0 then "0.0"
    else
      let (d, k) := shortest .even b.significand b.exponent
      let ds := Nat.toDigits 10 d
      let point : Int := ds.length + k
      if 0 ≤ k ∧ point ≤ 16 then positional d k ++ ".0"
      else if -5 < point ∧ point ≤ 16 then positional d k
      else match ds with
        | [c] => String.ofList [c] ++ "e" ++ toString (point - 1)
        | c :: rest => String.ofList (c :: '.' :: rest) ++ "e" ++ toString (point - 1)
        | [] => ""

end SiteSafety.Decimal
