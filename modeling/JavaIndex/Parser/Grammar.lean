import JavaIndex.Parser.Basic
import JavaIndex.Tree.Basic

/-! The rules of the grammar that lead back to themselves. A rule may use the others freely, but once it
has read a token it goes on through a `Grammar`, the rules one level further down. As every level reads
at least one token, a text never needs more levels than it has tokens. -/
namespace JavaIndex

/-- One level of the rules that occur below themselves. -/
structure Grammar where
  type : Parser TypeRef
  elementValue : Parser Expr
  variableInit : Parser Expr
  expr : Parser Expr
  ternary : Parser Expr
  binary : Nat → Parser Expr
  unary : Parser Expr
  statement : Parser Stmt
  /-- A member of a class body; the class may have a name, and it may be a record. -/
  member : Option String → Bool → Parser Member
  classBody : Parser (List Member)

namespace Grammar

/-- Below the last level nothing can be read. -/
def bottom : Grammar where
  type := Parser.tooDeep
  elementValue := Parser.tooDeep
  variableInit := Parser.tooDeep
  expr := Parser.tooDeep
  ternary := Parser.tooDeep
  binary _ := Parser.tooDeep
  unary := Parser.tooDeep
  statement := Parser.tooDeep
  member _ _ := Parser.tooDeep
  classBody := Parser.tooDeep

end Grammar
end JavaIndex
