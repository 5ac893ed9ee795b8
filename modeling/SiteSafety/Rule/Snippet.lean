import SiteSafety.Decimal.Text
import SiteSafety.Text.Words

/-!
# Rule — Snippet

Pieces of rule text with the place they come from.  A snippet can be used when it holds text and
its relevance is a fraction from 0 to 1.
-/

namespace SiteSafety.Rule

/-- Where a rule comes from, and its rank among the rules found. -/
structure Citation where
  sourceIndex : Nat
  documentId : String
  excerpt : String
  relevance : Float
  deriving Repr

/-- How a citation is referred to in prose. -/
def Citation.marker (c : Citation) : String := s!"[Source {Decimal.digits c.sourceIndex}]"

def Citation.describe (c : Citation) : String := c.marker ++ " " ++ c.documentId

def Citation.hasValidRelevance (c : Citation) : Bool :=
  Decimal.isFinite c.relevance && 0.0 ≤ c.relevance && c.relevance ≤ 1.0

structure Snippet where
  text : String
  citation : Citation
  deriving Repr

def Snippet.isWellFormed (s : Snippet) : Bool :=
  !Text.isBlankText s.text && s.citation.hasValidRelevance

end SiteSafety.Rule
