import JavaIndex.Index.Emission
import JavaIndex.Text.Blank

/-! The index of a file for the eye: every line of the file, and below it a comment line for each mention
that begins on it. -/
namespace JavaIndex.Snapshot

/-- The head of the symbol that a definition declares. -/
def signature? (u : UnitIndex) (o : Occurrence) : Option String :=
  if o.isDefinition then
    ((u.info? o.symbol).bind SymbolInfo.signature).or
      (o.documentation.map Documentation.signature)
  else none

/-- A character so many times. -/
def fill (c : Char) (n : Nat) : String := String.ofList (List.replicate n c)

/-- The comment line for a mention on a line of so many bytes. A mention that goes on to another line is
marked up to the end of this one, and one that covers nothing gets a mark all the same. -/
def commentLine (u : UnitIndex) (size : Nat) (o : Occurrence) : String :=
  let start := o.region.start.column
  let stop := if o.region.stop.line = o.region.start.line then o.region.stop.column else size
  let head := "//" ++ fill ' ' (start - 2) ++ fill '^' (max (stop - start) 1) ++ " "
    ++ o.role.word ++ " " ++ o.symbol.text
  match signature? u o with
  | some signature => head ++ " " ++ signature
  | none => head

/-- A line and the comment lines below it. -/
def lineGroup (u : UnitIndex) (line : List Char) (number : Nat) : List String :=
  String.ofList line :: (u.onLine number).map (commentLine u (Span.bytesOf line))

/-- All lines of the picture. -/
def lines (source : String) (u : UnitIndex) : List String :=
  (Blank.lines source.toList).zipIdx.flatMap fun (line, number) => lineGroup u line number

/-- The picture of the index of a source text. Every line of it ends with a line feed. -/
def render (source : String) (u : UnitIndex) : String :=
  String.join ((lines source u).map (· ++ "\n"))

end JavaIndex.Snapshot
