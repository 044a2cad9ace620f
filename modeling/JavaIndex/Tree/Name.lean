import JavaIndex.Text.Span

/-! Identifiers as they stand in a source text, and dotted names made of them. -/
namespace JavaIndex

/-- An identifier and where it stands. -/
structure Ident where
  text : String
  range : Span
deriving DecidableEq, Repr, Inhabited

namespace Ident

/-- The words of the identifiers, joined by dots. -/
def dotted (path : List Ident) : String := ".".intercalate (path.map Ident.text)

/-- From the first identifier to the last. No identifiers cover the empty span at zero. -/
def extent : List Ident → Span
  | [] => .zero
  | first :: rest => first.range.cover ((rest.getLast?.getD first).range)

end Ident
end JavaIndex
