import JavaIndex.JavaType.Basic
import JavaIndex.Text.Blank

/-! Types as library descriptions spell them: `int`, `java.lang.String[]`, `a.b.Outer$Inner`,
`java.util.Map<K, java.util.List<V>>`, `? extends T`. A wildcard is read as its bound. -/
namespace JavaIndex.JavaType

/-- The pieces of an argument list, cut at the commas outside angle brackets. `piece` is the piece being
read, backwards. A last piece that is blank is no piece. -/
def splitArgs (depth : Int) (piece : List Char) : List Char → List (List Char)
  | [] =>
    let last := Blank.trim piece.reverse
    if last.isEmpty then [] else [last]
  | '<' :: cs => splitArgs (depth + 1) ('<' :: piece) cs
  | '>' :: cs => splitArgs (depth - 1) ('>' :: piece) cs
  | c :: cs =>
    if c = ',' ∧ depth = 0 then Blank.trim piece.reverse :: splitArgs depth [] cs
    else splitArgs depth (c :: piece) cs

/-- What stands before the brackets or dots that make an array. -/
def arrayElement? (text : List Char) : Option (List Char) :=
  (Lists.dropBack? ['[', ']'] text).or (Lists.dropBack? ['.', '.', '.'] text)

/-- The bound of a wildcard. -/
def wildcardBound? (text : List Char) : Option (List Char) :=
  (Lists.dropFront? "? extends ".toList text).or (Lists.dropFront? "? super ".toList text)

/-- A name and the text of its type arguments, if there are any. -/
def splitGeneric (text : List Char) : List Char × Option (List Char) :=
  match text.dropWhile (· ≠ '<'), Lists.dropBack? ['>'] text with
  | '<' :: _, some inner => (text.takeWhile (· ≠ '<'), some ((inner.dropWhile (· ≠ '<')).drop 1))
  | _, _ => (text, none)

/-- The type that a text spells, whose variables are named. Every part of a spelling is shorter than the
whole, so that the length of the text is depth enough. -/
def readAt (typeVars : List String) : Nat → List Char → JavaType
  | 0, _ => .unknown
  | n + 1, spelled =>
    let text := Blank.trim spelled
    if text.isEmpty then .unknown
    else
      match arrayElement? text with
      | some element => .array (readAt typeVars n element)
      | none =>
        if text = ['?'] then object
        else
          match wildcardBound? text with
          | some bound => readAt typeVars n bound
          | none =>
            if primitiveNames.contains (String.ofList text) then .primitive (String.ofList text)
            else
              let (base, inner) := splitGeneric text
              let name := String.ofList base
              if typeVars.contains name then .variable name
              else
                let args := match inner with
                  | some inner => (splitArgs 0 [] inner).map (readAt typeVars n)
                  | none => []
                .named (Dotted.ofBinary name) args

/-- The type that a text spells. -/
def read (typeVars : List String) (spelled : String) : JavaType :=
  readAt typeVars (spelled.toList.length + 1) spelled.toList

end JavaIndex.JavaType
