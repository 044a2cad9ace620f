import JavaIndex.Text.Span

/-! The words and signs that Java text is made of. A token is told apart by its kind and its text: a
keyword or a sign is known by its spelling, and no other kind of token is ever spelled like one. -/
namespace JavaIndex

/-- What sort of word or sign a token is. -/
inductive TokenKind where
  | keyword
  | identifier
  | number
  | string
  | character
  | textBlock
  | sign
deriving DecidableEq, Repr, Inhabited

/-- A comment with its delimiters. -/
structure Comment where
  text : String
  range : Span
deriving DecidableEq, Repr, Inhabited

/-- One token, and the documentation comment nearest before it since the token before. -/
structure Token where
  kind : TokenKind
  text : String
  range : Span
  doc : Option Comment
deriving DecidableEq, Repr, Inhabited

namespace Token

/-- Keywords, and the three words that are literals. -/
def keywords : List String := [
  "abstract", "assert", "boolean", "break", "byte", "case", "catch", "char", "class", "const",
  "continue", "default", "do", "double", "else", "enum", "extends", "final", "finally", "float",
  "for", "goto", "if", "implements", "import", "instanceof", "int", "interface", "long", "native",
  "new", "package", "private", "protected", "public", "return", "short", "static", "strictfp",
  "super", "switch", "synchronized", "this", "throw", "throws", "transient", "try", "void",
  "volatile", "while", "true", "false", "null"]

/-- Separators and operators. Two closing angle brackets are never one sign, except before an equals
sign, so that nested type arguments close one by one. -/
def signs : List String := [
  ">>>=", "...", "<<=", ">>=", "::", "->", "==", ">=", "<=", "!=", "&&", "||", "++", "--", "<<",
  "+=", "-=", "*=", "/=", "&=", "|=", "^=", "%=", "(", ")", "\x7b", "\x7d", "[", "]", ";", ",", ".",
  "@", "=", ">", "<", "!", "~", "?", ":", "+", "-", "*", "/", "&", "|", "^", "%"]

/-- The keywords that name primitive types. -/
def primitives : List String :=
  ["boolean", "byte", "char", "short", "int", "long", "float", "double"]

/-- The keywords that modify a declaration. -/
def modifiers : List String :=
  ["public", "protected", "private", "static", "abstract", "final", "native", "synchronized",
   "transient", "volatile", "strictfp", "default"]

/-- The token is the keyword or sign of this spelling. -/
def spells (t : Token) (text : String) : Bool :=
  match t.kind with
  | .keyword | .sign => t.text == text
  | _ => false

/-- The token is a keyword that names a primitive type. -/
def isPrimitive (t : Token) : Bool := t.kind == .keyword && primitives.contains t.text

/-- The token is a keyword that modifies a declaration. -/
def isModifier (t : Token) : Bool := t.kind == .keyword && modifiers.contains t.text

/-- The token is a literal. -/
def isLiteral (t : Token) : Bool :=
  match t.kind with
  | .number | .string | .character | .textBlock => true
  | .keyword => ["true", "false", "null"].contains t.text
  | _ => false

end Token
end JavaIndex
