import SiteSafety.Clause.Token
import SiteSafety.Measurement.Unit

/-!
# Clause — Phrase

The vocabulary of rule text: names of metrics, phrases that compare, words that hint at a lower
limit, words that are no units.  Phrases are looked up in the order of the list, longer ones
before the shorter ones they contain.
-/

namespace SiteSafety.Clause
open Measurement

/-- The metric named by the words at the head of a list of tokens, and how many tokens name it. -/
def metricAt : List Token → Option (Metric × Nat)
  | [] => none
  | t :: rest =>
    match t.word?, rest.head?.bind Token.word? with
    | some "wind", some "speed" | some "wind", some "speeds" => some (.windSpeed, 2)
    | some "wind", some "gust" | some "wind", some "gusts" => some (.custom "wind_gust", 2)
    | some "wind", _ | some "winds", _ | some "windspeed", _ | some "windspeeds", _ =>
      some (.windSpeed, 1)
    | some "gust", _ | some "gusts", _ => some (.custom "wind_gust", 1)
    | some "rain", _ | some "rainfall", _ | some "precipitation", _ => some (.precipitation, 1)
    | some "temperature", _ | some "temperatures", _ | some "temp", _ => some (.temperature, 1)
    | some "visibility", _ => some (.visibility, 1)
    | _, _ => none

/-- Phrases that compare, by the words they are made of. -/
def comparisons : List (List String × Comparator) := [
  (["greater", "than", "or", "equal"], .ge),
  (["more", "than", "or", "equal"], .ge),
  (["at", "or", "above"], .ge),
  (["less", "than", "or", "equal"], .le),
  (["at", "or", "below"], .le),
  (["no", "more", "than"], .gt),
  (["not", "more", "than"], .gt),
  (["no", "greater", "than"], .gt),
  (["at", "most"], .gt),
  (["up", "to"], .gt),
  (["no", "less", "than"], .lt),
  (["not", "less", "than"], .lt),
  (["at", "least"], .lt),
  (["greater", "than"], .gt),
  (["more", "than"], .gt),
  (["higher", "than"], .gt),
  (["exceeds"], .gt),
  (["exceed"], .gt),
  (["exceeding"], .gt),
  (["exceeded"], .gt),
  (["above"], .gt),
  (["over"], .gt),
  (["beyond"], .gt),
  (["less", "than"], .lt),
  (["lower", "than"], .lt),
  (["below"], .lt),
  (["under"], .lt),
  (["beneath"], .lt),
  (["equals"], .eq),
  (["equal", "to"], .eq),
  (["exactly"], .eq)]

/-- Whether one list of words occurs as a stretch of another. -/
def occursIn (phrase : List String) : List String → Bool
  | [] => phrase.isEmpty
  | w :: ws => phrase.isPrefixOf (w :: ws) || occursIn phrase ws

/-- The comparison that a list of words makes: the first phrase of the list that occurs in it. -/
def comparisonOf? (words : List String) : Option Comparator :=
  (comparisons.find? fun (phrase, _) => occursIn phrase words).map (·.2)

/-- Words that make a bare limit a lower one. -/
def lowerBoundCues : List String := ["minimum", "min", "below", "under", "least", "lower", "less"]

/-- Words that are no units though they stand behind a number. -/
def stopwords : List String := [
  "a", "an", "and", "are", "as", "at", "be", "by", "during", "for", "from", "hour", "hours", "if",
  "in", "is", "must", "not", "of", "on", "or", "per", "shall", "should", "than", "the", "then",
  "to", "until", "when", "while", "with", "within"]

/-- Whether a word behind a number may be a unit that is not in the table. -/
def isUnitLike (w : String) : Bool :=
  !stopwords.contains w && (comparisonOf? [w]).isNone && !lowerBoundCues.contains w &&
    w.toList.all fun c => Text.isAlphabetic c || c == '/' || c == '°'

/-- A unit spelled in several words, and how many. -/
def spelledUnit? (first : String) (second third : Option String) : Option (String × Nat) :=
  if ["miles", "mile", "mi"].contains first && second == some "per" && third == some "hour" then
    some ("mph", 3)
  else if ["kilometers", "kilometres", "km"].contains first && second == some "per" &&
      third == some "hour" then
    some ("km/h", 3)
  else if ["meters", "metres", "m"].contains first && second == some "per" &&
      third == some "second" then
    some ("m/s", 3)
  else if ["degrees", "degree", "deg"].contains first then
    match second with
    | some "f" | some "fahrenheit" => some ("°f", 2)
    | some "c" | some "celsius" => some ("°c", 2)
    | _ => none
  else none

/-- The unit at the head of a list of tokens, empty where there is none, and how many tokens it
takes. -/
def unitAt : List Token → String × Nat
  | [] => ("", 0)
  | t :: rest =>
    match t.word? with
    | none => ("", 0)
    | some w =>
      match spelledUnit? w (rest.head?.bind Token.word?) ((rest.drop 1).head?.bind Token.word?) with
      | some found => found
      | none => if (unitFamily? w).isSome || isUnitLike w then (w, 1) else ("", 0)

/-- The comparison behind a limit ("20 mph or more"), and how many tokens it takes. -/
def trailingComparison : List Token → Option Comparator × Nat
  | t :: t' :: _ =>
    if t.word? == some "or" then
      match t'.word? with
      | some "more" | some "greater" | some "higher" | some "above" => (some .ge, 2)
      | some "less" | some "lower" | some "below" | some "fewer" => (some .le, 2)
      | _ => (none, 0)
    else (none, 0)
  | _ => (none, 0)

end SiteSafety.Clause
