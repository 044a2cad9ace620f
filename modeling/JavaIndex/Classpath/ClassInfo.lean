import JavaIndex.Project.FileId
import JavaIndex.JavaType.Basic
import JavaIndex.Symbol.Naming

/-! What is known of a class: its type variables, what it extends, and its members, each with its symbol.
Classes of the project and of libraries are described alike. -/
namespace JavaIndex

/-- Where a class is declared. -/
inductive Origin where
  | project (file : FileId)
  | external
  /-- In a body. -/
  | local
deriving DecidableEq, Repr, Inhabited

/-- A field or a constant. -/
structure FieldInfo where
  name : String
  type : JavaType
  isStatic : Bool
  symbol : Symbol
deriving Inhabited

/-- A method or a constructor. -/
structure MethodInfo where
  name : String
  params : List JavaType
  varargs : Bool
  returns : JavaType
  isStatic : Bool
  symbol : Symbol
deriving Inhabited

/-- A class, interface, enum, record or annotation type. -/
structure ClassInfo where
  /-- The dotted name, with dots for nesting. -/
  qualifiedName : String
  package : String
  symbol : Symbol
  origin : Origin
  typeParams : List String
  superclass : Option JavaType
  interfaces : List JavaType
  fields : List FieldInfo
  methods : List MethodInfo
  constructors : List MethodInfo
  /-- Every name is the name of a constant: the class is generated from resources. -/
  syntheticMembers : Bool
deriving Inhabited

namespace ClassInfo

/-- What sort of type the class is. -/
def kind (c : ClassInfo) : SymbolKind := c.symbol.kind

/-- The last segment of the name. -/
def simpleName (c : ClassInfo) : String := Dotted.last c.qualifiedName

/-- The class is an interface or an annotation type. -/
def isInterface (c : ClassInfo) : Bool :=
  c.kind == .interfaceType || c.kind == .annotationType

/-- The class as a type, applied to its own type variables. -/
def selfType (c : ClassInfo) : JavaType :=
  .named c.qualifiedName (c.typeParams.map .variable)

/-- What the class extends and implements, its superclass first. -/
def supertypes (c : ClassInfo) : List JavaType := c.superclass.toList ++ c.interfaces

/-- The first field of the name. -/
def field? (c : ClassInfo) (name : String) : Option FieldInfo :=
  c.fields.find? fun f => f.name == name

/-- The methods of the name in their order. -/
def methodsNamed (c : ClassInfo) (name : String) : List MethodInfo :=
  c.methods.filter fun m => m.name == name

/-- The types that a use of the class gives to its type variables; none, unless it gives one to each. -/
def bindings (c : ClassInfo) (args : List JavaType) : JavaType.Bindings :=
  if args.length = c.typeParams.length then JavaType.Bindings.ofLists c.typeParams args else []

end ClassInfo

/-- A class being described, and the names of the methods described so far. -/
structure ClassBuilder where
  info : ClassInfo
  seen : OverloadCounter
deriving Inhabited

/-- A step in the description of a class. A step that fails may all the same have counted a method. -/
abbrev Build := ExceptT NamingError (StateM ClassBuilder)

namespace ClassBuilder

/-- A class with nothing but a name. The owner is its package or the class around it. -/
def ofName (owner : Symbol) (package qualifiedName : String) (kind : SymbolKind) (origin : Origin) :
    Except NamingError ClassBuilder :=
  match Symbol.ofDeclaration (.type (Dotted.last qualifiedName) kind) (some owner) with
  | .error e => .error e
  | .ok symbol =>
    .ok ⟨⟨qualifiedName, package, symbol, origin, [], none, [], [], [], [], false⟩, .empty⟩

/-- The same class with no members yet. -/
def ofHeader (info : ClassInfo) : ClassBuilder :=
  ⟨{ info with fields := [], methods := [], constructors := [] }, .empty⟩

/-- The declaration that the next method of the name will be; the name of constructors gives one of
those. -/
def nextDeclaration (b : ClassBuilder) (name : String) : Declaration :=
  if name = Symbol.constructorName then .constructor (b.seen.peek name)
  else .method name (b.seen.peek name)

/-- The symbol that the next method of the name will have. -/
def nextCallable (b : ClassBuilder) (name : String) : Except NamingError Symbol :=
  Symbol.ofDeclaration (b.nextDeclaration name) (some b.info.symbol)

/-- A method of the name with so many parameters has been described. -/
def hasMethod (b : ClassBuilder) (name : String) (arity : Nat) : Bool :=
  b.info.methods.any fun m => m.name == name && m.params.length == arity

/-- One more type variable. -/
def addTypeParam (b : ClassBuilder) (name : String) : ClassBuilder :=
  { b with info.typeParams := b.info.typeParams ++ [name] }

/-- The class extends this type. -/
def setSuperclass (b : ClassBuilder) (t : JavaType) : ClassBuilder :=
  { b with info.superclass := some t }

/-- The class implements this type too. -/
def addInterface (b : ClassBuilder) (t : JavaType) : ClassBuilder :=
  { b with info.interfaces := b.info.interfaces ++ [t] }

/-- The class is generated from resources. -/
def setSynthetic (b : ClassBuilder) : ClassBuilder := { b with info.syntheticMembers := true }

end ClassBuilder

namespace Build

/-- The symbol of a declaration inside the class. -/
def name (decl : Declaration) : Build Symbol := do
  let b ← get
  match Symbol.ofDeclaration decl (some b.info.symbol) with
  | .ok s => return s
  | .error e => throw e

/-- One more field. -/
def field (name : String) (type : JavaType) (isStatic : Bool) (kind : SymbolKind) : Build Symbol := do
  let symbol ← Build.name (.member name kind)
  modify fun b =>
    { b with info.fields := b.info.fields ++ [⟨name, type, isStatic, symbol⟩] }
  return symbol

/-- One more method. -/
def method (name : String) (params : List JavaType) (varargs : Bool) (returns : JavaType)
    (isStatic : Bool) : Build Symbol := do
  let b ← get
  set { b with seen := b.seen.add name }
  let symbol ← Build.name (.method name (b.seen.peek name))
  modify fun b =>
    { b with info.methods := b.info.methods ++ [⟨name, params, varargs, returns, isStatic, symbol⟩] }
  return symbol

/-- One more constructor. -/
def constructor (params : List JavaType) (varargs : Bool) : Build Symbol := do
  let b ← get
  let name := Symbol.constructorName
  set { b with seen := b.seen.add name }
  let symbol ← Build.name (.constructor (b.seen.peek name))
  modify fun b =>
    { b with info.constructors :=
        b.info.constructors ++ [⟨name, params, varargs, b.info.selfType, false, symbol⟩] }
  return symbol

end Build
end JavaIndex
