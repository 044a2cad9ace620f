import JavaIndex.Text.Lists

/-! Names made of segments with dots between them. -/
namespace JavaIndex.Dotted

/-- The segments of a name, empty ones included. -/
def segments (name : String) : List String :=
  (Lists.split '.' name.toList).map String.ofList

/-- The segments of a name that are not empty. -/
def steps (name : String) : List String := (segments name).filter (· ≠ "")

/-- The last segment. -/
def last (name : String) : String := (segments name).getLast?.getD name

/-- The segments with dots between them. -/
def join (segments : List String) : String := ".".intercalate segments

/-- All but the last segment, and the last one, if there are at least two. -/
def splitLast? (name : String) : Option (String × String) :=
  match (segments name).reverse with
  | last :: before :: rest => some (join (before :: rest).reverse, last)
  | _ => none

/-- A name within another; the empty name holds everything. -/
def within (outer inner : String) : String :=
  if outer = "" then inner else outer ++ "." ++ inner

/-- The same name with dots for dollar signs. -/
def ofBinary (name : String) : String :=
  String.ofList (name.toList.map fun c => if c = '$' then '.' else c)

end JavaIndex.Dotted
