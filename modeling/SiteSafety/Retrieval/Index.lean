import SiteSafety.Files.Tree
import SiteSafety.Journal
import SiteSafety.Memory.Entry
import SiteSafety.Retrieval.Chunk
import SiteSafety.Rule.Snippet

/-!
# Retrieval — Index

Rule documents by the terms of their pieces.  A search ranks pieces by how many terms of the query
they share; **pieces that share as many keep the order of the documents**.
-/

namespace SiteSafety.Retrieval
open Rule

/-- Words that are no terms. -/
def commonTerms : List String := [
  "the", "and", "for", "with", "are", "was", "this", "that", "from", "into", "onto", "any", "all",
  "site", "what", "when", "which"]

/-- The terms of a text: its different words of more than two bytes, in lower case. -/
def terms (text : String) : List String :=
  ((((Memory.contentWords text.toList).filter fun w => 2 < Text.width w).map fun w =>
    String.ofList (Text.lower w)).filter fun w => !commonTerms.contains w).eraseDups

structure Document where
  id : String
  text : String
  deriving Repr

/-- A piece of a document with its terms. -/
structure Piece where
  documentId : String
  text : String
  terms : List String
  deriving Repr

/-- The pieces of documents, in order. -/
abbrev Index := List Piece

def Index.ofDocuments (ds : List Document) : Index :=
  ds.flatMap fun d => (chunks d.text).map fun text => ⟨d.id, text, terms text⟩

/-- How many of the terms a piece has. -/
def Piece.overlap (query : List String) (p : Piece) : Nat :=
  (p.terms.filter query.contains).length

/-- The longest excerpt in a citation, in characters. -/
def maxExcerpt : Nat := 200

/-- A piece as a snippet of a rank. -/
def Piece.snippet (query : List String) (rank : Nat) (p : Piece) : Snippet where
  text := p.text
  citation :=
    { sourceIndex := rank
      documentId := p.documentId
      excerpt := String.ofList (p.text.toList.take maxExcerpt)
      relevance := Float.ofNat (p.overlap query) / Float.ofNat query.length }

/-- The pieces that share a term, those that share more terms first. -/
def Index.ranked (ix : Index) (query : List String) : List Piece :=
  (ix.filter fun p => 0 < p.overlap query).mergeSort fun a b => b.overlap query ≤ a.overlap query

/-- The best snippets for a query, at most `k` of them. -/
def Index.search (ix : Index) (query : String) (k : Nat) : List Snippet :=
  let q := terms query
  ((ix.ranked q).take k).zipIdx.map fun (p, i) => p.snippet q (i + 1)

/-! ### Directories -/

/-- The extensions of rule documents. -/
def ruleExtensions : List String := ["md", "markdown", "txt"]

def isRuleName (name : String) : Bool :=
  match Files.extension? name with
  | some ext => ruleExtensions.contains (String.ofList (Text.asciiLower ext.toList))
  | none => false

/-- The documents of the names given in a directory. -/
def readDocuments (tree : Files.Tree) (directory : String) :
    List String → Except Files.Failure (List Document)
  | [] => .ok []
  | name :: rest => do
    let text ← tree.readText (Files.inDirectory directory name)
    return ⟨name, text⟩ :: (← readDocuments tree directory rest)

/-- The rule documents directly in a directory, in order of their names. -/
def documentsIn (tree : Files.Tree) (directory : String) :
    Except Files.Failure (List Document) := do
  let names ← tree.list directory
  readDocuments tree directory <| names.filter fun name =>
    isRuleName name && tree.isFile (Files.inDirectory directory name)

/-- The index of the rule documents in a directory. -/
def Index.ofDirectory (tree : Files.Tree) (directory : String) :
    Noted (Except Files.Failure Index) := do
  match documentsIn tree directory with
  | .error e => return .error e
  | .ok documents =>
    let index := Index.ofDocuments documents
    note {
      level := .debug, speaker := .retrieval, event := "retrieval.index.loaded"
      message := "rule documents indexed"
      fields := [("dir", directory), ("chunks", Decimal.digits index.length)] }
    return .ok index

end SiteSafety.Retrieval
