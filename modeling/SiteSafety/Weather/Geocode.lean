import SiteSafety.Text.Words

/-!
# Weather — Geocode

The names under which a site is looked up on the map: its full name first, then simpler ones.
**No name is blank and none is asked for twice.**
-/

namespace SiteSafety.Weather

/-- The words joined by single spaces. -/
def joinWords (ws : List (List Char)) : List Char := Text.join [' '] ws

def isDash (c : Char) : Bool := c == '-' || c == '–'

/-- The name without a label "Site <word>" in front of it. -/
def stripSiteLabel? (location : List Char) : Option (List Char) :=
  match Text.words location with
  | first :: _ :: rest =>
    if first.map Char.toLower == "site".toList then
      let cleaned := Text.trim ((joinWords rest).dropWhile isDash)
      if cleaned.isEmpty then none else some cleaned
    else none
  | _ => none

/-- The name up to its first comma, if it has one. -/
def beforeComma? (location : List Char) : Option (List Char) :=
  (Text.cut? [','] location).map fun (head, _) => Text.trim head

/-- The first of several words. -/
def firstWord? (location : List Char) : Option (List Char) :=
  match Text.words location with
  | first :: _ :: _ => some first
  | _ => none

/-- The names to look up, in order. -/
def geocodeQueries (location : String) : List String :=
  let cs := Text.trim location.toList
  let names := [some cs, beforeComma? cs, firstWord? cs, stripSiteLabel? cs].filterMap id
  (names.filter (!·.isEmpty)).eraseDups.map String.ofList

end SiteSafety.Weather
