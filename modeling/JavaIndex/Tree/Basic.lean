import JavaIndex.Token.Basic
import JavaIndex.Tree.WrittenType

/-! The syntax tree of a Java source file. Every identifier keeps the place of its token, and the larger
nodes keep the stretch of text they were read from, so that whatever is found out about the program can
be told back in terms of its text. -/
namespace JavaIndex

/-- The five sorts of type declaration. -/
inductive DeclKind where
  | classType
  | interfaceType
  | enumType
  | recordType
  | annotationType
deriving DecidableEq, Repr, Inhabited

namespace DeclKind

/-- What a declaration of this sort begins with. -/
def keyword : DeclKind → String
  | classType => "class"
  | interfaceType => "interface"
  | enumType => "enum"
  | recordType => "record"
  | annotationType => "@interface"

end DeclKind

/-- The words that modify a declaration. -/
inductive Modifier where
  | publicAccess
  | protectedAccess
  | privateAccess
  | static
  | abstract
  | final
  | native
  | synchronized
  | transient
  | volatile
  | strictfp
  | default
  | sealed
deriving DecidableEq, Repr, Inhabited

namespace Modifier

/-- The word itself. -/
def keyword : Modifier → String
  | publicAccess => "public"
  | protectedAccess => "protected"
  | privateAccess => "private"
  | static => "static"
  | abstract => "abstract"
  | final => "final"
  | native => "native"
  | synchronized => "synchronized"
  | transient => "transient"
  | volatile => "volatile"
  | strictfp => "strictfp"
  | default => "default"
  | sealed => "sealed"

/-- The modifiers that are keywords wherever they stand. -/
def reserved : List Modifier :=
  [publicAccess, protectedAccess, privateAccess, static, abstract, final, native, synchronized,
   transient, volatile, strictfp, default]

/-- The modifier that a token is, if it is one of the keywords. -/
def ofToken? (t : Token) : Option Modifier :=
  reserved.find? fun m => t.spells m.keyword

end Modifier

/-- What sort of value a literal is. -/
inductive LiteralKind where
  | int
  | long
  | float
  | double
  | char
  | string
  | boolean
  | null
deriving DecidableEq, Repr, Inhabited

/-- Operators on one operand. -/
inductive UnaryOp where
  | plus
  | minus
  | not
  | bitNot
  | preIncrement
  | preDecrement
  | postIncrement
  | postDecrement
deriving DecidableEq, Repr, Inhabited

/-- Operators on two operands. -/
inductive BinaryOp where
  | or
  | and
  | bitOr
  | bitXor
  | bitAnd
  | eq
  | notEq
  | lt
  | gt
  | ltEq
  | gtEq
  | shl
  | shr
  | ushr
  | add
  | sub
  | mul
  | div
  | rem
deriving DecidableEq, Repr, Inhabited

namespace BinaryOp

/-- The result is a truth value whatever the operands are. -/
def isBoolean : BinaryOp → Bool
  | or | and | eq | notEq | lt | gt | ltEq | gtEq => true
  | _ => false

end BinaryOp

/-- Which constructor a constructor calls first: one of its own class or one of the class above. -/
inductive Delegate where
  | this
  | super
deriving DecidableEq, Repr, Inhabited

mutual

/-- An annotation and the values it is given. -/
structure Annotation where
  name : List Ident
  args : List AnnotationArg
  range : Span

/-- A value for a named element, or the one value of the short form. -/
structure AnnotationArg where
  name : Option Ident
  value : Expr

/-- The modifying words of a declaration in their order, and its annotations. -/
structure Modifiers where
  keywords : List Modifier
  annotations : List Annotation

/-- A type variable and its bounds. -/
structure TypeParam where
  annotations : List Annotation
  name : Ident
  bounds : List (WrittenType Annotation)

/-- A parameter of a method, or a component of a record. -/
structure Param where
  modifiers : Modifiers
  type : WrittenType Annotation
  varargs : Bool
  name : Ident
  range : Span

/-- One of the variables of a declaration, with the array dimensions written after its name. -/
structure Declarator where
  name : Ident
  extraDims : Nat
  init : Option Expr

/-- A declaration of variables: of a block, of a class, of a loop. -/
structure VarDecl where
  modifiers : Modifiers
  type : WrittenType Annotation
  declarators : List Declarator

/-- A method. A constructor has no return type, and a compact one has no parameter list either. -/
structure MethodDecl where
  modifiers : Modifiers
  typeParams : List TypeParam
  returns : Option (WrittenType Annotation)
  name : Ident
  params : List Param
  throwing : List (WrittenType Annotation)
  body : Option Block
  defaultValue : Option Expr
  compact : Bool
  doc : Option Comment
  range : Span

/-- A constant of an enum, perhaps with arguments and with a class body of its own. -/
structure EnumConstant where
  annotations : List Annotation
  name : Ident
  args : Option (List Expr)
  body : Option (List Member)
  doc : Option Comment

/-- What a class body holds. -/
inductive Member where
  | field (decl : VarDecl) (doc : Option Comment) (range : Span)
  | method (decl : MethodDecl)
  | initializer (isStatic : Bool) (body : Block)
  | type (decl : TypeDecl)

/-- A declaration of a type. -/
structure TypeDecl where
  kind : DeclKind
  modifiers : Modifiers
  name : Ident
  typeParams : List TypeParam
  extending : List (WrittenType Annotation)
  implementing : List (WrittenType Annotation)
  permitting : List (WrittenType Annotation)
  components : List Param
  constants : List EnumConstant
  members : List Member
  doc : Option Comment
  range : Span

/-- Statements between braces. -/
structure Block where
  stmts : List Stmt
  range : Span

/-- A handler for some types of exception. -/
structure CatchClause where
  modifiers : Modifiers
  types : List (WrittenType Annotation)
  name : Ident
  body : Block

/-- A case of a `switch`: a colon and statements, or an arrow and one statement. -/
inductive SwitchCase where
  | group (labels : List CaseLabel) (guard : Option Expr) (body : List Stmt)
  | rule (labels : List CaseLabel) (guard : Option Expr) (body : Stmt)

/-- What a case stands for. -/
inductive CaseLabel where
  | default
  | expr (value : Expr)
  | pattern (type : WrittenType Annotation) (name : Ident)

/-- A statement. -/
inductive Stmt where
  | locals (decl : VarDecl)
  | localType (decl : TypeDecl)
  | expr (value : Expr)
  | block (body : Block)
  | ifThen (condition : Expr) (thenBranch : Stmt)
  | ifElse (condition : Expr) (thenBranch : Stmt) (elseBranch : Stmt)
  | whileLoop (condition : Expr) (body : Stmt)
  | doLoop (body : Stmt) (condition : Expr)
  | forLoop (init : List Stmt) (condition : Option Expr) (update : List Expr) (body : Stmt)
  | forEach (decl : VarDecl) (iterable : Expr) (body : Stmt)
  | returning (value : Option Expr)
  | throwing (value : Expr)
  | yielding (value : Expr)
  | breaking (label : Option Ident)
  | continuing (label : Option Ident)
  /-- The resources are declarations of variables and expressions. -/
  | trying (resources : List Stmt) (body : Block) (catches : List CatchClause)
      (closing : Option Block)
  | switching (selector : Expr) (cases : List SwitchCase) (range : Span)
  | synchronized (lock : Expr) (body : Block)
  | labeled (label : Ident) (body : Stmt)
  | asserting (condition : Expr) (message : Option Expr)
  | empty

/-- A parameter of a lambda expression; its type may be left out. -/
structure LambdaParam where
  modifiers : Modifiers
  type : Option (WrittenType Annotation)
  name : Ident

/-- An expression. -/
inductive Expr where
  | literal (kind : LiteralKind) (range : Span)
  | name (name : Ident)
  | field (target : Expr) (name : Ident) (range : Span)
  | call (target : Option Expr) (typeArgs : List (WrittenType Annotation)) (name : Ident)
      (args : List Expr) (range : Span)
  | delegate (kind : Delegate) (keyword : Span) (qualifier : Option Expr) (args : List Expr)
      (range : Span)
  | create (qualifier : Option Expr) (type : WrittenType Annotation) (args : List Expr)
      (body : Option (List Member)) (range : Span)
  | createArray (element : WrittenType Annotation) (sizes : List Expr) (init : Option (List Expr))
      (range : Span)
  | arrayInit (elements : List Expr) (range : Span)
  | index (array : Expr) (index : Expr) (range : Span)
  | unary (op : UnaryOp) (operand : Expr) (range : Span)
  | binary (op : BinaryOp) (left : Expr) (right : Expr) (range : Span)
  | assign (target : Expr) (value : Expr) (range : Span)
  | conditional (condition : Expr) (thenValue : Expr) (elseValue : Expr) (range : Span)
  | cast (type : WrittenType Annotation) (bounds : List (WrittenType Annotation)) (value : Expr)
      (range : Span)
  | instanceOf (value : Expr) (type : WrittenType Annotation) (binding : Option Ident)
      (range : Span)
  | lambda (params : List LambdaParam) (body : Expr) (range : Span)
  | blockLambda (params : List LambdaParam) (body : Block) (range : Span)
  | methodRef (target : Expr) (name : Ident) (range : Span)
  | typeMethodRef (target : WrittenType Annotation) (name : Ident) (range : Span)
  | this (qualifier : Option Expr) (range : Span)
  | super (qualifier : Option Expr) (range : Span)
  | classLiteral (type : WrittenType Annotation) (range : Span)
  | paren (inner : Expr) (range : Span)
  | switching (selector : Expr) (cases : List SwitchCase) (range : Span)
  | annotated (value : Annotation)

end

/-- A type as it is written in a program. -/
abbrev TypeRef := WrittenType Annotation

/-- The package clause of a file. -/
structure PackageDecl where
  annotations : List Annotation
  name : List Ident
  range : Span

/-- An import: of one name, or on demand of everything that a name holds. -/
structure ImportDecl where
  isStatic : Bool
  path : List Ident
  onDemand : Bool
  range : Span

/-- A whole source file. -/
structure CompilationUnit where
  package : Option PackageDecl
  imports : List ImportDecl
  types : List TypeDecl

namespace CompilationUnit

/-- The dotted package name, empty for the package without a name. -/
def packageName (u : CompilationUnit) : String :=
  match u.package with
  | some p => Ident.dotted p.name
  | none => ""

end CompilationUnit

namespace Modifiers

/-- No modifiers. -/
def none : Modifiers := ⟨[], []⟩

/-- The word is among the modifiers. -/
def has (m : Modifiers) (word : Modifier) : Bool := m.keywords.contains word

/-- The declaration is static. -/
def isStatic (m : Modifiers) : Bool := m.has .static

end Modifiers

namespace MethodDecl

/-- Constructors are the methods without a return type. -/
def isConstructor (m : MethodDecl) : Bool := m.returns.isNone

/-- The last parameter takes any number of arguments. -/
def isVarargs (m : MethodDecl) : Bool := (m.params.getLast?.map Param.varargs).getD false

end MethodDecl

namespace Expr

/-- Where the expression stands. -/
def range : Expr → Span
  | .name n => n.range
  | .annotated a => a.range
  | .literal _ r | .field _ _ r | .call _ _ _ _ r | .delegate _ _ _ _ r | .create _ _ _ _ r
  | .createArray _ _ _ r | .arrayInit _ r | .index _ _ r | .unary _ _ r | .binary _ _ _ r
  | .assign _ _ r | .conditional _ _ _ r | .cast _ _ _ r | .instanceOf _ _ _ r | .lambda _ _ r
  | .blockLambda _ _ r | .methodRef _ _ r | .typeMethodRef _ _ r | .this _ r | .super _ r
  | .classLiteral _ r | .paren _ r | .switching _ _ r => r

/-- The identifiers of an expression that is nothing but names joined by dots. -/
def nameChain? : Expr → Option (List Ident)
  | .name n => some [n]
  | .field target n _ => (nameChain? target).map (· ++ [n])
  | _ => none

end Expr
end JavaIndex
