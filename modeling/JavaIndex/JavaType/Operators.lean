import JavaIndex.JavaType.Basic
import JavaIndex.Tree.Basic

/-! The types of literals and of operator expressions. -/
namespace JavaIndex.JavaType

/-- The type of a literal. -/
def ofLiteral : LiteralKind → JavaType
  | .int => int
  | .long => .primitive "long"
  | .float => .primitive "float"
  | .double => .primitive "double"
  | .char => .primitive "char"
  | .string => string
  | .boolean => boolean
  | .null => .null

/-- The type of an expression with one operand. -/
def ofUnary (op : UnaryOp) (operand : JavaType) : JavaType :=
  if op = .not then boolean else operand

/-- The types to which both operands are widened if one of them has such a type, the widest first. -/
def wideTypes : List JavaType := [.primitive "double", .primitive "float", .primitive "long"]

/-- The type of an expression with two operands: truth values for comparisons, texts for sums with a text,
the left operand's type for shifts, and else the wider type of the two. -/
def ofBinary (op : BinaryOp) (left right : JavaType) : JavaType :=
  let either (t : JavaType) : Bool := left.sameErasure t || right.sameErasure t
  if op.isBoolean then boolean
  else if op = .add && either string then string
  else if op = .shl || op = .shr || op = .ushr then left
  else
    match wideTypes.find? either, left, right with
    | some wide, _, _ => wide
    | none, .primitive _, .primitive _ => int
    | none, _, _ => .unknown

/-- The type of what an array holds. -/
def elementOfArray : JavaType → JavaType
  | .array e => e
  | _ => .unknown

/-- The type of what a loop over all elements sees: elements of an array, or of a class with one type
argument. -/
def elementOfIterable : JavaType → JavaType
  | .array e => e
  | .named _ [arg] => arg
  | _ => .unknown

end JavaIndex.JavaType
