import JavaIndex.Text.Lists

/-! Stretches of a source text. Offsets count UTF-8 bytes from its start, and a span runs from its
first byte up to but excluding `stop`. -/
namespace JavaIndex

/-- A half-open stretch of bytes. -/
structure Span where
  start : Nat
  stop : Nat
deriving DecidableEq, Repr, Inhabited

namespace Span

/-- The empty stretch at the start of the text. -/
def zero : Span := ⟨0, 0⟩

/-- The least span that covers both. -/
def cover (a b : Span) : Span := ⟨min a.start b.start, max a.stop b.stop⟩

/-- The bytes that characters take. -/
def bytesOf (cs : List Char) : Nat := Lists.total (cs.map Char.utf8Size)

/-- The characters of the span, of a text whose rest begins at an offset. -/
def sliceFrom (span : Span) (offset : Nat) : List Char → List Char
  | [] => []
  | c :: cs =>
    if span.stop ≤ offset then []
    else if offset < span.start then sliceFrom span (offset + c.utf8Size) cs
    else c :: sliceFrom span (offset + c.utf8Size) cs

/-- What the source text holds in the span. -/
def slice (span : Span) (source : String) : String :=
  String.ofList (sliceFrom span 0 source.toList)

end Span
end JavaIndex
