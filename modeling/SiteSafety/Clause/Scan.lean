import SiteSafety.Clause.Phrase

/-!
# Clause — Scan

Clauses in a list of tokens: the name of a metric, at most a few words, a number and its unit.
**A clause ends where the next boundary or metric stands**, so a clause never takes words from the
next one.  A bare limit is an upper one unless a cue for a lower one stands near its metric.
-/

namespace SiteSafety.Clause
open Measurement

/-- How many tokens behind a metric are looked at. -/
def maxGap : Nat := 8

/-- How many tokens before a metric are looked at for cues. -/
def lookback : Nat := 6

/-- What stands behind the name of a metric. -/
inductive Tail where
  /-- A limit, with how many tokens it takes. -/
  | limit (operator : Comparator) (value : Float) (unit : String) (length : Nat)
  /-- A comparison without a number. -/
  | incomplete
  /-- Neither of them. -/
  | nothing
  deriving Repr

/-- A clause that sets a limit, by its metric and by the positions it covers. -/
structure Found where
  metric : Metric
  operator : Comparator
  value : Float
  unit : String
  start : Nat
  stop : Nat
  /-- Where the next token starts, if there is one. -/
  next : Option Nat
  deriving Repr

/-- What the scan meets: a clause, or words that compare without a number. -/
inductive Finding where
  | found (f : Found)
  | skipped (start stop : Nat)
  deriving Repr

/-- The direction of a bare limit, by the words before its metric and the words behind it. -/
def defaultDirection (before : List Token) (gap : List String) : Comparator :=
  let near := ((before.take lookback).takeWhile (!·.isBoundary)).filterMap Token.word?
  if (near ++ gap).any lowerBoundCues.contains then .lt else .gt

/-- The limit at a number, where `gap` holds the words and `sign` the comparison sign between the
metric and the number, and `used` counts the tokens up to the number. -/
def limitAt (before : List Token) (gap : List String) (sign : Option Comparator) (value : Float)
    (used : Nat) (rest : List Token) : Tail :=
  let (unit, n) := unitAt rest
  let (trailing, m) := trailingComparison (rest.drop n)
  let operator := ((sign.or (comparisonOf? gap)).or trailing).getD (defaultDirection before gap)
  .limit operator value unit (used + n + m)

/-- What stands behind a metric, looking at so many tokens; `before` holds the tokens before the
metric, last one first. -/
def tailFrom (before : List Token) (gap : List String) (sign : Option Comparator) (used : Nat) :
    Nat → List Token → Tail
  | budget + 1, t :: rest =>
    match t.kind with
    | .boundary => stopped gap sign
    | .word w =>
      if (metricAt (t :: rest)).isSome then stopped gap sign
      else tailFrom before (gap ++ [w]) sign (used + 1) budget rest
    | .symbol c => tailFrom before gap (sign.or (some c)) (used + 1) budget rest
    | .number value => limitAt before gap sign value (used + 1) rest
  | _, _ => stopped gap sign
where
  /-- No number came. -/
  stopped (gap : List String) (sign : Option Comparator) : Tail :=
    if sign.isSome || (comparisonOf? gap).isSome then .incomplete else .nothing

/-- What stands behind a metric. -/
def tailAfter (before : List Token) (ts : List Token) : Tail := tailFrom before [] none 0 maxGap ts

/-- Where the excerpt of a clause without a number ends. -/
def excerptStop (t : Token) (rest : List Token) : Nat :=
  ((((t :: rest).take (maxGap + 2)).takeWhile (!·.isBoundary)).getLast?.getD t).stop

/-- The findings in a list of tokens; `before` holds the tokens that were passed, last one
first. -/
def findings (before : List Token) : List Token → List Finding
  | [] => []
  | t :: rest =>
    match metricAt (t :: rest) with
    | none => findings (t :: before) rest
    | some (metric, k) =>
      let passed := k - 1
      let keyword := (rest.take passed).reverse ++ t :: before
      match tailAfter before (rest.drop passed) with
      | .limit operator value unit length =>
        let n := passed + length
        let last := (rest.take n).getLast?.getD t
        .found ⟨metric, operator, value, unit, t.start, last.stop,
            (rest.drop n).head?.map Token.start⟩ ::
          findings ((rest.take n).reverse ++ t :: before) (rest.drop n)
      | .incomplete =>
        .skipped t.start (excerptStop t rest) :: findings keyword (rest.drop passed)
      | .nothing => findings keyword (rest.drop passed)
termination_by ts => ts.length
decreasing_by all_goals simp only [List.length_drop, List.length_cons]; omega

end SiteSafety.Clause
