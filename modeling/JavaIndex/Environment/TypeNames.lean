import JavaIndex.Environment.Members
import JavaIndex.Imports
import JavaIndex.Scope.Basic

/-! What the name of a type means at a place in a file. A simple name is looked for in the scopes, from the
innermost out, and then among the imports. A dotted name begins with a simple name that means something,
or else with the name of a package. -/
namespace JavaIndex

/-- Where a name stands: the scopes around it, and what its file imports. -/
structure Place where
  scopes : Scopes
  imports : Imports
deriving Inhabited

/-- What one segment of a dotted name means. -/
inductive Segment where
  | package (symbol : Symbol)
  | ofClass (info : ClassInfo)
  | typeParam (name : String) (symbol : Symbol)
  | unresolved
deriving Inhabited

namespace Segment

/-- The class that a segment means. -/
def class? : Segment → Option ClassInfo
  | .ofClass info => some info
  | _ => none

/-- The symbol that a segment mentions. -/
def symbol? : Segment → Option Symbol
  | .package symbol | .typeParam _ symbol => some symbol
  | .ofClass info => some info.symbol
  | .unresolved => none

end Segment

namespace Environment

/-- The class has a name that programs can write. -/
def isWritable (c : ClassInfo) : Bool := c.qualifiedName.toList.head? ≠ some '<'

/-- What the simple name of a type means by one scope: what it binds, the class whose body it is, or a
member type of that class. -/
def scopeType? (env : Environment) (name : String) (s : Scope) : Option TypeBinding :=
  (s.type? name).or <|
    match s.classInfo with
    | none => none
    | some c =>
      if c.simpleName == name && isWritable c then some (.ofClass c)
      else (env.memberType? c name).map .ofClass

/-- What the simple name of a type means. -/
def simpleType? (env : Environment) (place : Place) (name : String) : Option TypeBinding :=
  (place.scopes.findSome? (env.scopeType? name)).or
    (((place.imports.typeCandidates name).findSome? env.class?).map .ofClass)

/-- What further segments mean inside a class: its member types, up to the first that is none. -/
def memberPath (env : Environment) (c : ClassInfo) : List String → List Segment
  | [] => []
  | name :: rest =>
    match env.memberType? c name with
    | some inner => .ofClass inner :: env.memberPath inner rest
    | none => .unresolved :: rest.map fun _ => .unresolved

/-- The dotted names of the beginnings of a path, from the shortest on. -/
def beginnings (path : List String) : List String :=
  (List.range path.length).map fun i => Dotted.join (path.take (i + 1))

/-- The class that a path reaches first when its beginning is read as a package, with the path of that
package and the rest of the segments. All packages on the way have to exist. -/
def classBelow? (env : Environment) (package : List String) :
    List String → Option (List String × ClassInfo × List String)
  | [] => none
  | name :: rest =>
    if !env.hasPackage (Dotted.join package) then none
    else
      match env.class? (Dotted.within (Dotted.join package) name) with
      | some c => some (package, c, rest)
      | none => env.classBelow? (package ++ [name]) rest

/-- The class that a fully qualified name begins with. -/
def qualifiedClass? (env : Environment) : List String → Option (List String × ClassInfo × List String)
  | [] => none
  | first :: rest => env.classBelow? [first] rest

/-- The segments of a package's name. -/
def packagePath (env : Environment) (package : List String) : List Segment :=
  (beginnings package).map fun name => .package (env.packageSymbol name)

/-- The segments of a name that means no class: packages, as long as they exist. -/
def knownPackages (env : Environment) (path : List String) : List Segment :=
  let known := (beginnings path).takeWhile env.hasPackage
  known.map (fun name => .package (env.packageSymbol name))
    ++ List.replicate (path.length - known.length) .unresolved

/-- What each segment of a fully qualified name means: packages, a class in the last of them, and member
types. -/
def qualified (env : Environment) (path : List String) : List Segment :=
  match env.qualifiedClass? path with
  | some (package, c, rest) => env.packagePath package ++ .ofClass c :: env.memberPath c rest
  | none => env.knownPackages path

/-- What each segment of the name of a type means. -/
def typePath (env : Environment) (place : Place) : List String → List Segment
  | [] => []
  | first :: rest =>
    match env.simpleType? place first with
    | some (.ofClass c) => .ofClass c :: env.memberPath c rest
    | some (.typeParam name symbol) =>
      .typeParam name symbol :: rest.map fun _ => .unresolved
    | none => if rest.isEmpty then [.unresolved] else env.qualified (first :: rest)

/-- The type that a name with such segments denotes, when its last segment has these type arguments. A
type variable has no members, so that it stands alone. -/
def typeOfPath (path : List Segment) (names : List String) (args : List JavaType) : JavaType :=
  match path.getLast?, names with
  | some (.ofClass c), _ => .named c.qualifiedName args
  | some (.typeParam _ _), [name] => .variable name
  | _, _ => .unknown

mutual

/-- The type that a written type denotes. -/
def convert {A : Type} (env : Environment) (place : Place) : WrittenType A → JavaType
  | .primitive keyword _ => .primitive keyword
  | .array element dims _ => .arrayOf dims (env.convert place element)
  | .named segments _ =>
    let names := segments.map fun s => s.name.text
    typeOfPath (env.typePath place names) names (env.lastArgs place segments)

/-- The type arguments of the last segment. -/
def lastArgs {A : Type} (env : Environment) (place : Place) : List (TypeSegment A) → List JavaType
  | [] => []
  | [⟨_, _, args⟩] => env.convertArgList place args
  | _ :: s :: rest => env.lastArgs place (s :: rest)

/-- Type arguments, if there are angle brackets. -/
def convertArgList {A : Type} (env : Environment) (place : Place) :
    Option (List (TypeArg A)) → List JavaType
  | none => []
  | some args => env.convertArgs place args

/-- Each of the type arguments. -/
def convertArgs {A : Type} (env : Environment) (place : Place) : List (TypeArg A) → List JavaType
  | [] => []
  | arg :: rest => env.convertArg place arg :: env.convertArgs place rest

/-- A type argument. A wildcard counts as its upper bound. -/
def convertArg {A : Type} (env : Environment) (place : Place) : TypeArg A → JavaType
  | .type t => env.convert place t
  | .bounded .upper t _ => env.convert place t
  | .wildcard _ => .object
  | .bounded .lower _ _ => .object

end

/-- The type of a parameter. One that takes any number of arguments is an array. -/
def convertParam (env : Environment) (place : Place) (p : Param) : JavaType :=
  .arrayOf (if p.varargs then 1 else 0) (env.convert place p.type)

end Environment
end JavaIndex
