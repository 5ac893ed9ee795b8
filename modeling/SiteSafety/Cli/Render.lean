import SiteSafety.Exchange.Encode

/-!
# Cli — Render

Decisions as text for people and as data.
-/

namespace SiteSafety.Cli
open Document

/-- A decision with what was remembered, as data over several lines. -/
def dataText (d : Decision) (remembered : List String) : String :=
  (Output.object [
    ("command", .string "check"), ("status", .string "ok"), ("decision", d.data),
    ("committed", .array (remembered.map .string))]).pretty 0

/-- A blank line, a title and the items of a list; nothing where there is no item. -/
def block (title : String) (items : List String) : List String :=
  if items.isEmpty then [] else "" :: title :: items

/-- A decision with what was remembered, as text. -/
def decisionText (d : Decision) (remembered : List String) : String :=
  let verdict := if d.canProceed then "CLEAR" else "HOLD"
  String.intercalate "\n" <|
    [s!"{verdict}: {d.operation} at {d.site}", "", d.reasoning]
      ++ block "Recommendations:" (d.recommendations.map ("- " ++ ·))
      ++ block "Sources:" (d.citations.map fun c =>
        s!"{c.describe} (relevance {Decimal.fixed 2 c.relevance})")
      ++ block "Remembered:" (remembered.map ("- " ++ ·))

end SiteSafety.Cli
