import JavaIndex.Text.Span
import JavaIndex.Text.Position
import JavaIndex.Text.Rank

/-! Where the lines of a text start, and the two ways between byte offsets and positions. Only a line
feed ends a line, so a carriage return is an ordinary byte of its line. -/
namespace JavaIndex

/-- The byte offsets at which lines start, ascending, and the length of the text in bytes. -/
structure LineIndex where
  starts : Array Nat
  size : Nat
deriving Repr, Inhabited

namespace LineIndex

/-- Offsets just after each line feed of the characters, which begin at the given offset. -/
def startsAfter (offset : Nat) : List Char → List Nat
  | [] => []
  | c :: cs =>
    let next := offset + c.utf8Size
    if c = '\n' then next :: startsAfter next cs else startsAfter next cs

/-- The index of a text. The first line starts at zero. -/
def ofText (text : String) : LineIndex where
  starts := (0 :: startsAfter 0 text.toList).toArray
  size := text.utf8ByteSize

/-- How many lines there are. -/
def lineCount (index : LineIndex) : Nat := index.starts.size

/-- The line that holds an offset: the last one that starts at or before it. -/
def lineOf (index : LineIndex) (offset : Nat) : Nat :=
  Rank.rank index.starts offset - 1

/-- The position of a byte offset; one past the end counts as the end. -/
def position (index : LineIndex) (offset : Nat) : Position :=
  let inside := min offset index.size
  let line := index.lineOf inside
  ⟨line, inside - index.starts.getD line 0⟩

/-- The region of a span. -/
def region (index : LineIndex) (span : Span) : Region :=
  ⟨index.position span.start, index.position span.stop⟩

/-- The byte offset of a position, if its line exists. The column may point beyond the line, and the
sum is a word of 32 bits. -/
def offset? (index : LineIndex) (p : Position) : Option Nat :=
  index.starts[p.line]?.map fun start => Position.wrap (start + p.column)

end LineIndex
end JavaIndex
