import JavaIndex.Token.DocComment
import JavaIndex.Tree.Basic

/-! The heads of declarations as a reader is shown them: annotations as they are written, modifiers,
types and names, with one blank between each two. -/
namespace JavaIndex.Signature

/-- The parts that are not empty, with blanks between them. -/
def join (parts : List String) : String := " ".intercalate (parts.filter (· ≠ ""))

/-- Annotations as the source text has them, then the modifying words. -/
def modifiers (source : String) (m : Modifiers) : List String :=
  m.annotations.map (fun a => a.range.slice source) ++ m.keywords.map Modifier.keyword

/-- A type variable and its bounds. -/
def typeParam (p : TypeParam) : String :=
  if p.bounds.isEmpty then p.name.text
  else p.name.text ++ " extends " ++ " & ".intercalate (p.bounds.map WrittenType.text)

/-- Type variables in their angle brackets, if there are any. -/
def typeParams (ps : List TypeParam) : String :=
  if ps.isEmpty then "" else "<" ++ ", ".intercalate (ps.map typeParam) ++ ">"

/-- The head of a type declaration. -/
def typeDecl (source : String) (d : TypeDecl) : String :=
  join (modifiers source d.modifiers ++ [d.kind.keyword, d.name.text ++ typeParams d.typeParams])

/-- A parameter. -/
def param (source : String) (p : Param) : String :=
  join (modifiers source p.modifiers
    ++ [p.type.text ++ (if p.varargs then "..." else ""), p.name.text])

/-- The types of exceptions that a method may throw. -/
def throwing (types : List TypeRef) : List String :=
  if types.isEmpty then [] else ["throws " ++ ", ".intercalate (types.map WrittenType.text)]

/-- The head of a method. A compact constructor shows no parameters. -/
def method (source : String) (m : MethodDecl) : String :=
  let params := "(" ++ ", ".intercalate (m.params.map (param source)) ++ ")"
  join (modifiers source m.modifiers ++ [typeParams m.typeParams]
    ++ (m.returns.map WrittenType.text).toList
    ++ [if m.compact then m.name.text else m.name.text ++ params]
    ++ throwing m.throwing)

/-- One of the variables of a declaration. -/
def declarator (source : String) (m : Modifiers) (type : TypeRef) (d : Declarator) : String :=
  join (modifiers source m ++ [type.text ++ brackets d.extraDims, d.name.text])

/-- A parameter of a lambda expression. -/
def lambdaParam (source : String) (p : LambdaParam) : String :=
  join (modifiers source p.modifiers ++ (p.type.map WrittenType.text).toList ++ [p.name.text])

/-- A constant of an enum. -/
def constant (c : EnumConstant) : String := c.name.text

/-- A variable that a pattern binds. -/
def pattern (type : TypeRef) (name : Ident) : String := type.text ++ " " ++ name.text

/-- The variable of a handler for exceptions of some types. -/
def caught (types : List TypeRef) (name : Ident) : String :=
  " | ".intercalate (types.map WrittenType.text) ++ " " ++ name.text

/-- What a documentation comment says, if it says anything. -/
def comment? (doc : Option Comment) : Option String :=
  (doc.map Comment.words).filter (· ≠ "")

end JavaIndex.Signature
