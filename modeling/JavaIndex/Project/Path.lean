import JavaIndex.Text.Lists

/-! Paths of files. What a path leads to is a matter of its components; its spelling may have further
slashes, and dots that stand for the directory they are in. -/
namespace JavaIndex.Path

/-- The pieces between slashes. -/
def pieces (spelling : String) : List String :=
  (Lists.split '/' spelling.toList).map String.ofList

/-- The pieces that lead further. -/
def steps (spelling : String) : List String :=
  (pieces spelling).filter fun piece => piece ≠ "" && piece ≠ "."

/-- What a path begins with: a slash, a dot for the directory it is relative to, or nothing of these. -/
def root (spelling : String) : List String :=
  match pieces spelling with
  | "" :: _ :: _ => ["/"]
  | "." :: _ => ["."]
  | _ => []

/-- The components of a path. Two spellings with the same components are one path. -/
def components (spelling : String) : List String := root spelling ++ steps spelling

/-- Both are spellings of one path. -/
def same (a b : String) : Bool := components a == components b

/-- The order of paths: by the first component in which they differ, where a path comes before what lies
below it. -/
def order (a b : List String) : Ordering := a.compareLex compare b

/-- A path relative to a directory, whose spelling is kept. -/
def join (directory relative : String) : String :=
  if directory = "" || directory.toList.getLast? = some '/' then directory ++ relative
  else directory ++ "/" ++ relative

/-- Where a piece of a path leads from somewhere below a directory: two dots lead up again, and no name or
one dot leads nowhere else. -/
def enter (down : List String) (piece : String) : List String :=
  if piece = "" || piece = "." then down else if piece = ".." then down.dropLast else down ++ [piece]

/-- Where pieces of a path lead from a directory down. -/
def reach (pieces : List String) : List String := pieces.foldl enter []

/-- The directories that pieces of a path lead through, each before one of the pieces. -/
def passed (pieces : List String) : List (List String) :=
  (List.range pieces.length).map fun n => reach (pieces.take n)

/-- The last component has the extension, after a name that is not empty. -/
def hasExtension (extension : String) (components : List String) : Bool :=
  match components.getLast? with
  | some name =>
    match Lists.dropBack? ('.' :: extension.toList) name.toList with
    | some stem => !stem.isEmpty
    | none => false
  | none => false

end JavaIndex.Path
