import SiteSafety.Decimal.Binary

/-!
# Decimal — Shortest

The fewest digits that read back as the same number, and of those the nearest.  A number owns the
interval of reals that round to it; the search tries coarse decimal grids first, and on each grid
only the two neighbours of the number, since **a grid with a point in the interval has one of the
two neighbours in it**.
-/

namespace SiteSafety.Decimal

/-- The reals that round to a number, in quarters of its last place: from `low` to `high` times
`2 ^ exponent`, ends included where `closed`. -/
structure Interval where
  low : Nat
  value : Nat
  high : Nat
  exponent : Int
  closed : Bool

/-- The interval of `m · 2 ^ q`.  Below a power of two the grid of numbers is twice as fine. -/
def Interval.of (m : Nat) (q : Int) : Interval where
  low := if m = hiddenBit ∧ q > -1074 then 4 * m - 1 else 4 * m - 2
  value := 4 * m
  high := 4 * m + 2
  exponent := q - 2
  closed := m % 2 = 0

/-- Whether `d · 10 ^ k` lies in the interval, where `up` and `down` bring both to one scale. -/
def Interval.holds (i : Interval) (up down d : Nat) : Bool :=
  if i.closed then i.low * up ≤ d * down && d * down ≤ i.high * up
  else i.low * up < d * down && d * down < i.high * up

/-- Which of two equally near neighbours stands for a number. -/
inductive Tie where
  | upper | even
  deriving Repr, DecidableEq

/-- The lower neighbour `d` or the upper one, where the number lies `below` above the lower and
`above` below the upper. -/
def Tie.choose (tie : Tie) (d below above : Nat) : Nat :=
  if below < above then d
  else if above < below then d + 1
  else match tie with
    | .upper => d + 1
    | .even => if d % 2 = 0 then d else d + 1

/-- The point of the grid of multiples of `10 ^ k` that stands for the number, if one does: the
nearer of the two neighbours in the interval. -/
def Interval.onGrid? (i : Interval) (tie : Tie) (k : Int) : Option Nat :=
  let up := (twoTo i.exponent).1 * (tenTo k).2
  let down := (twoTo i.exponent).2 * (tenTo k).1
  let d := i.value * up / down
  match i.holds up down d, i.holds up down (d + 1) with
  | false, false => none
  | true, false => some d
  | false, true => some (d + 1)
  | true, true => some (tie.choose d (i.value * up - d * down) ((d + 1) * down - i.value * up))

/-- The first hit among the grids `10 ^ k`, `10 ^ (k - 1)`, …, at most `fuel` of them. -/
def Interval.search (i : Interval) (tie : Tie) (k : Int) : Nat → Nat × Int
  | 0 => (0, k)
  | fuel + 1 => match i.onGrid? tie k with
    | some d => (d, k)
    | none => i.search tie (k - 1) fuel

/-- The digits of `m · 2 ^ q`, as a natural `d` and a power of ten `k` with `d · 10 ^ k` its
shortest form; `m` is not zero.  The first grid is coarser than the number, and seventeen digits
are always enough. -/
def shortest (tie : Tie) (m : Nat) (q : Int) : Nat × Int :=
  let places := ((Nat.log2 m + q) * 30103).fdiv 100000
  (Interval.of m q).search tie (places + 2) 22

end SiteSafety.Decimal
