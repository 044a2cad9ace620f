import JavaIndex.Project.FileId
import JavaIndex.Symbol.Basic
import JavaIndex.Text.Position

/-! What the index of a source file is made of: places where symbols are mentioned, and what is known of
the symbols that the file defines. -/
namespace JavaIndex

/-- A mention of a symbol declares it or uses it. -/
inductive Role where
  | definition
  | reference
deriving DecidableEq, Repr, Inhabited

namespace Role

/-- The word for a role. -/
def word : Role → String
  | definition => "definition"
  | reference => "reference"

/-- Definitions come before references. -/
def rank : Role → Nat
  | definition => 0
  | reference => 1

end Role

/-- What a reader is shown of a definition: its head, and what its comment says. -/
structure Documentation where
  signature : String
  comment : Option String
deriving DecidableEq, Repr, Inhabited

/-- One mention of a symbol. -/
structure Occurrence where
  region : Region
  symbol : Symbol
  role : Role
  /-- The innermost declaration around it that does not belong to a body. -/
  enclosing : Option Symbol
  documentation : Option Documentation
deriving Repr, Inhabited

namespace Occurrence

/-- The mention declares the symbol. -/
def isDefinition (o : Occurrence) : Bool := o.role == .definition

/-- The same region, role and symbol. -/
def repeats (a b : Occurrence) : Bool :=
  a.region == b.region && a.role == b.role && a.symbol == b.symbol

end Occurrence

/-- What is known of a symbol that a file defines. -/
structure SymbolInfo where
  symbol : Symbol
  displayName : String
  signature : Option String
  /-- The methods that this one overrides. -/
  overrides : List Symbol
deriving Repr, Inhabited

end JavaIndex
