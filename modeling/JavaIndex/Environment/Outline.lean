import JavaIndex.Environment.TypeNames

/-! What a declared class consists of as far as others can see: the types that it extends, and the types of
its members, declared and implied. -/
namespace JavaIndex

/-- The parts of a class body that declare members. -/
structure ClassBody where
  kind : DeclKind
  constants : List EnumConstant
  components : List Param
  members : List Member

namespace ClassBody

/-- The body of a declared type. -/
def ofDecl (d : TypeDecl) : ClassBody := ⟨d.kind, d.constants, d.components, d.members⟩

/-- The body of a class without a name. -/
def unnamed (members : List Member) : ClassBody := ⟨.classType, [], [], members⟩

/-- Fields are static even if they do not say so. -/
def hasStaticFields (b : ClassBody) : Bool :=
  b.kind == .interfaceType || b.kind == .annotationType

end ClassBody

/-- The types in the head of a method. -/
structure CallableTypes where
  params : List JavaType
  varargs : Bool
  /-- What is returned; constructors say nothing about it. -/
  returns : JavaType
  isStatic : Bool
deriving Inhabited

/-- A method that a class has without declaring it. -/
structure ImpliedMethod where
  name : String
  types : CallableTypes
deriving Inhabited

namespace Environment

/-- The known ones among the types that written types denote. -/
def knownTypes (env : Environment) (place : Place) (types : List TypeRef) : List JavaType :=
  (types.map (env.convert place)).filter JavaType.isKnown

/-- What a declared type extends and implements, said or not. -/
def supertypesOf (env : Environment) (place : Place) (d : TypeDecl) (c : ClassInfo) :
    Option JavaType × List JavaType :=
  let implemented := env.knownTypes place d.implementing
  match d.kind with
  | .classType =>
    let unsaid := if c.qualifiedName ≠ objectName then some JavaType.object else none
    ((env.knownTypes place d.extending).head?.or unsaid, implemented)
  | .interfaceType | .annotationType => (none, env.knownTypes place d.extending)
  | .enumType => (some (.named "java.lang.Enum" [c.selfType]), implemented)
  | .recordType => (some (.ofName "java.lang.Record"), implemented)

/-- The names and types of the components of a record. -/
def componentTypes (env : Environment) (place : Place) (components : List Param) :
    List (Ident × JavaType) :=
  components.map fun p => (p.name, env.convertParam place p)

/-- The types in the head of a method whose type variables are bound. A compact constructor takes the
components of its record. -/
def callableTypes (env : Environment) (place : Place) (components : List (Ident × JavaType))
    (m : MethodDecl) : CallableTypes where
  params :=
    if m.isConstructor && m.compact then components.map Prod.snd
    else m.params.map (env.convertParam place)
  varargs := m.isVarargs
  returns := (m.returns.map (env.convert place)).getD .unknown
  isStatic := m.modifiers.isStatic

end Environment

/-- The method that reads a component of a record. -/
def ImpliedMethod.accessor (component : Ident × JavaType) : ImpliedMethod :=
  ⟨component.1.text, [], false, component.2, false⟩

/-- The methods that every enum has. -/
def ImpliedMethod.ofEnum (self : JavaType) : List ImpliedMethod :=
  [⟨"values", [], false, .array self, true⟩, ⟨"valueOf", [.string], false, self, true⟩]

/-- The symbols of the type variables of a class. -/
def ClassInfo.typeParamSymbols (c : ClassInfo) : List (String × Symbol) :=
  c.typeParams.filterMap fun name =>
    match Symbol.ofDeclaration (.typeParameter name) (some c.symbol) with
    | .ok symbol => some (name, symbol)
    | .error _ => none

namespace Scopes

/-- The scopes with a further one for a method, whose type variables have the given symbols where they
have any. -/
def pushTypeParams (ss : Scopes) (params : List TypeParam) (symbol? : TypeParam → Option Symbol) :
    Scopes :=
  params.foldl
    (fun ss p =>
      match symbol? p with
      | some symbol => ss.bindType p.name.text (.typeParam p.name.text symbol)
      | none => ss)
    (ss.push .methodBody none)

end Scopes
end JavaIndex
