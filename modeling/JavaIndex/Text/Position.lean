/-! Places in a text as people see them: a line and a column, both counted from zero, the column in
UTF-8 bytes. A region is a half-open stretch between two such places. -/
namespace JavaIndex

/-- A line and a column, both counted from zero. -/
structure Position where
  line : Nat
  column : Nat
deriving DecidableEq, Repr, Inhabited

namespace Position

/-- Lines first, then columns. -/
def order (a b : Position) : Ordering :=
  (compare a.line b.line).then (compare a.column b.column)

instance : Ord Position := ⟨order⟩

/-- `a` is not after `b`. -/
def atMost (a b : Position) : Bool :=
  a.line < b.line || (a.line == b.line && a.column ≤ b.column)

/-- `a` is before `b`. -/
def before (a b : Position) : Bool :=
  a.line < b.line || (a.line == b.line && a.column < b.column)

/-- The number in the word of 32 bits that holds it: coordinates and offsets wrap. -/
def wrap (n : Nat) : Nat := n % 4294967296

/-- Counting from one. -/
def fromOne (n : Nat) : Nat := wrap (n + 1)

/-- What people read: line and column counted from one. -/
def shown (p : Position) : String :=
  toString (fromOne p.line) ++ ":" ++ toString (fromOne p.column)

/-- What the index stores, counted from zero. -/
def raw (p : Position) : String := toString p.line ++ ":" ++ toString p.column

end Position

/-- A half-open stretch between two positions. -/
structure Region where
  start : Position
  stop : Position
deriving DecidableEq, Repr, Inhabited

namespace Region

/-- No position lies in the region. -/
def isEmpty (r : Region) : Bool := r.stop.atMost r.start

/-- The other region lies entirely within this one; equal regions count. -/
def contains (r other : Region) : Bool :=
  r.start.atMost other.start && other.stop.atMost r.stop

/-- The two regions share no position. -/
def disjoint (r other : Region) : Bool :=
  r.stop.atMost other.start || other.stop.atMost r.start

/-- Neither disjoint nor nested. -/
def crosses (r other : Region) : Bool :=
  !r.disjoint other && !r.contains other && !other.contains r

/-- By start, and the wider region first, so that containers come before contents. -/
def order (a b : Region) : Ordering :=
  (compare a.start b.start).then (compare b.stop a.stop)

instance : Ord Region := ⟨order⟩

/-- Both ends, counted from zero. -/
def raw (r : Region) : String := r.start.raw ++ ".." ++ r.stop.raw

end Region
end JavaIndex
