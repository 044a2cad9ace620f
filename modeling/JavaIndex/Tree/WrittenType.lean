import JavaIndex.Tree.Name

/-! Types as a program writes them. Annotations may stand inside a type; what they are made of is left
open, so that everything said about written types alone is said here, once. -/
namespace JavaIndex

/-- The two directions in which a wildcard is bounded. -/
inductive Bound where
  | upper
  | lower
deriving DecidableEq, Repr, Inhabited

namespace Bound

/-- The keyword of the direction. -/
def keyword : Bound → String
  | upper => "extends"
  | lower => "super"

end Bound

mutual

/-- A type, with annotations of some kind `A` on its names. -/
inductive WrittenType (A : Type) where
  /-- A primitive type or `void`. -/
  | primitive (keyword : String) (range : Span)
  /-- A name, outermost segment first. -/
  | named (segments : List (TypeSegment A)) (range : Span)
  /-- Further array dimensions, at least one, over an element type. -/
  | array (element : WrittenType A) (dims : Nat) (range : Span)

/-- One name of a dotted type. Without angle brackets there are no arguments at all, and an empty pair
of them gives an empty list. -/
structure TypeSegment (A : Type) where
  annotations : List A
  name : Ident
  args : Option (List (TypeArg A))

/-- What may stand between angle brackets. -/
inductive TypeArg (A : Type) where
  | type (type : WrittenType A)
  | wildcard (range : Span)
  | bounded (bound : Bound) (type : WrittenType A) (range : Span)

end

namespace WrittenType

variable {A : Type}

/-- Where the type stands. -/
def range : WrittenType A → Span
  | .primitive _ r | .named _ r | .array _ _ r => r

/-- The lone name `var`, which stands for an inferred type. -/
def isVar : WrittenType A → Bool
  | .named [⟨_, name, none⟩] _ => name.text == "var"
  | _ => false

/-- The type below all array dimensions. -/
def element : WrittenType A → WrittenType A
  | .array e _ _ => e.element
  | t => t

/-- How many array dimensions there are in all. -/
def dimensions : WrittenType A → Nat
  | .array e n _ => n + e.dimensions
  | _ => 0

/-- More dimensions over a type, none of them written at the type itself. -/
def withDims (t : WrittenType A) (dims : Nat) : WrittenType A :=
  if dims = 0 then t else .array t dims t.range

end WrittenType

/-- So many empty pairs of brackets. -/
def brackets (n : Nat) : String := String.join (List.replicate n "[]")

mutual

/-- A written type as text, without annotations. -/
def WrittenType.text {A : Type} : WrittenType A → String
  | .primitive keyword _ => keyword
  | .named segments _ => ".".intercalate (TypeSegment.texts segments)
  | .array element dims _ => element.text ++ brackets dims

/-- The names of a dotted type, each with its arguments. -/
def TypeSegment.texts {A : Type} : List (TypeSegment A) → List String
  | [] => []
  | ⟨_, name, args⟩ :: rest => (name.text ++ TypeArg.listText args) :: TypeSegment.texts rest

/-- The angle brackets and what stands in them, if they are there. -/
def TypeArg.listText {A : Type} : Option (List (TypeArg A)) → String
  | none => ""
  | some args => "<" ++ ", ".intercalate (TypeArg.texts args) ++ ">"

/-- Each of the arguments as text. -/
def TypeArg.texts {A : Type} : List (TypeArg A) → List String
  | [] => []
  | arg :: rest => arg.text :: TypeArg.texts rest

/-- One argument as text. -/
def TypeArg.text {A : Type} : TypeArg A → String
  | .type t => t.text
  | .wildcard _ => "?"
  | .bounded bound t _ => "? " ++ bound.keyword ++ " " ++ t.text

end
end JavaIndex
