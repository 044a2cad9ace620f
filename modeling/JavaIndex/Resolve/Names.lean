import JavaIndex.Resolve.Basic

/-! How the segments of dotted names are mentioned: in types, annotations and imports, and in chains of
names in expressions. -/
namespace JavaIndex

/-- What the name of a type leads to: the type, and the class that it names if it names one. -/
structure NamedType where
  type : JavaType
  info : Option ClassInfo
deriving Inhabited

namespace NamedType

/-- A name that leads to no type. -/
def unknown : NamedType := ⟨.unknown, none⟩

/-- The type with these type arguments, if it is a class. -/
def withArgs (n : NamedType) (args : List JavaType) : NamedType :=
  match n.type with
  | .named name _ => { n with type := .named name args }
  | _ => n

end NamedType

namespace Resolve

/-- What each segment of the name of a type means. -/
def typePath (names : List Ident) : Resolve (List Segment) := do
  return (← environment).typePath (← place) (names.map Ident.text)

/-- Mentions of the segments that mean something, and a report of the rest. -/
def mentionPath (names : List Ident) (path : List Segment) : Resolve Unit := do
  let known := path.takeWhile (·.symbol?.isSome)
  mentionAll (names.zip (known.map Segment.symbol?))
  unresolved (names.drop known.length) false

/-- The class that a path leads to. -/
def pathClass? (path : List Segment) : Option ClassInfo := path.getLast?.bind Segment.class?

/-- The segments of the name of a type one after the other, each with what it means, which is mentioned; the
class at the end may be left to be mentioned otherwise. The last segment says what the type is, without type
arguments. The first that means nothing ends the way, and is reported with all that follow it. -/
def typeSegments (mentionClass : Bool) : List Ident → List Segment → Resolve NamedType
  | name :: names, .package symbol :: path => do
    reference name.range symbol
    typeSegments mentionClass names path
  | name :: names, .typeParam _ symbol :: path => do
    reference name.range symbol
    if names.isEmpty then return ⟨.variable name.text, none⟩
    else typeSegments mentionClass names path
  | name :: names, .ofClass c :: path => do
    mention name (if !names.isEmpty || mentionClass then some c.symbol else none)
    if names.isEmpty then return ⟨.named c.qualifiedName [], some c⟩
    else typeSegments mentionClass names path
  | name :: names, .unresolved :: _ => do
    unresolved (name :: names) false
    return .unknown
  | _, _ => return .unknown

/-- The name of a type, whose annotations and type arguments are resolved by the given steps. The class at
its end may be left to be mentioned otherwise. -/
def namedType (names : List Ident) (mentionClass : Bool) (annotations : Resolve Unit)
    (args : Resolve (List JavaType)) : Resolve NamedType := do
  let path ← typePath names
  annotations
  let named ← typeSegments mentionClass names path
  return named.withArgs (← args)

/-- The name of an annotation type. -/
def annotationType (names : List Ident) : Resolve (Option ClassInfo) := do
  let path ← typePath names
  mentionPath names path
  return pathClass? path

/-- The name of an element of an annotation, which is a method of its type. -/
def annotationElement (c : Option ClassInfo) (name : Option Ident) : Resolve Unit := do
  match c, name with
  | some c, some name =>
    mention name ((c.methodsNamed name.text).head?.map MethodInfo.symbol)
  | _, _ => return

/-- A chain of names in an expression. -/
def nameChain (names : List Ident) : Resolve Receiver := do
  let selected := (← environment).chain (← place) (names.map Ident.text)
  mentionAll (names.zip (selected.map Selected.symbol))
  match names.drop selected.length with
  | [] => return (selected.getLast?.map Selected.receiver).getD .unknown
  | rest => do
    unresolved rest true
    return .unknown

/-- A member selected from the value of an expression. -/
def selectMember (receiver : Receiver) (name : Ident) : Resolve JavaType := do
  match (← environment).member? receiver name.text with
  | some s =>
    mention name s.symbol
    return s.receiver.type
  | none =>
    unresolved [name] true
    return .unknown

/-! Imports. -/

/-- A fully qualified name, and the class that it leads to. -/
def qualifiedName (names : List Ident) : Resolve (Option ClassInfo) := do
  let path := (← environment).qualified (names.map Ident.text)
  mentionPath names path
  return pathClass? path

/-- The symbol of a member of a class that is imported by name: a field, a method, or a member type. -/
def importable? (env : Environment) (c : ClassInfo) (name : String) : Option Symbol :=
  (((env.field? c.selfType name).map FieldInfo.symbol).or
    ((env.methods c.selfType name).head?.map Candidate.symbol)).or
      ((env.memberType? c name).map ClassInfo.symbol)

/-- A member of a class that is imported by name. -/
def importedMember (c : ClassInfo) (name : Ident) : Resolve Unit := do
  match importable? (← environment) c name.text with
  | some symbol => reference name.range symbol
  | none => unresolved [name] true

/-- An import. -/
def importDecl (i : ImportDecl) : Resolve Unit := do
  if i.isStatic && !i.onDemand then
    match i.path.getLast? with
    | none => return
    | some member =>
      match ← qualifiedName i.path.dropLast with
      | some c => importedMember c member
      | none => return
  else discard (qualifiedName i.path)

end Resolve
end JavaIndex
