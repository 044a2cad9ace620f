import JavaIndex.Config
import JavaIndex.Environment.Outline

/-! How the classes of a project are found. First every class is named, then it is said what each one
extends, and then its members are described; each step can refer to all classes as the step before left
them. -/
namespace JavaIndex

/-- A file of a project and its tree. -/
structure SourceUnit where
  file : FileId
  tree : CompilationUnit

/-- A declaration of a type outside all bodies. -/
structure Site where
  unit : SourceUnit
  /-- The qualified names of the types around it, innermost first. -/
  outer : List String
  /-- Its own qualified name. -/
  name : String
  decl : TypeDecl

namespace Site

mutual

/-- A declaration and those nested in it, the outer ones first. -/
def nested (unit : SourceUnit) (outer : List String) (name : String) : TypeDecl → List Site
  | ⟨kind, modifiers, ident, typeParams, extending, implementing, permitting, components, constants,
      members, doc, range⟩ =>
    ⟨unit, outer, name, ⟨kind, modifiers, ident, typeParams, extending, implementing, permitting,
      components, constants, members, doc, range⟩⟩ :: ofMembers unit (name :: outer) name members

/-- The declarations of types among the members of a type. -/
def ofMembers (unit : SourceUnit) (outer : List String) (name : String) : List Member → List Site
  | [] => []
  | .type d :: rest =>
    nested unit outer (name ++ "." ++ d.name.text) d ++ ofMembers unit outer name rest
  | .field _ _ _ :: rest => ofMembers unit outer name rest
  | .method _ :: rest => ofMembers unit outer name rest
  | .initializer _ _ :: rest => ofMembers unit outer name rest

end

/-- The declarations of a file. -/
def ofUnit (unit : SourceUnit) : List Site :=
  unit.tree.types.flatMap fun d =>
    nested unit [] (Dotted.within unit.tree.packageName d.name.text) d

/-- The package of the declaration. -/
def package (s : Site) : String := s.unit.tree.packageName

/-- What the file of the declaration sees. -/
def imports (s : Site) (config : Config) : Imports :=
  .ofUnit s.unit.tree config.implicitImports

/-- The scopes inside the body of the declaration. -/
def scopes (s : Site) (env : Environment) : Scopes :=
  (s.name :: s.outer).reverse.foldl
    (fun ss name =>
      match env.class? name with
      | some c => ss.pushClass c c.typeParamSymbols
      | none => ss)
    (Scopes.push [] .package (some (env.packageSymbol s.package)))

/-- The place inside the body of the declaration. -/
def place (s : Site) (env : Environment) (config : Config) : Place :=
  ⟨s.scopes env, s.imports config⟩

end Site

namespace ProjectClasses

/-- The names of the package of a file and of the packages around it. -/
def packageNames (u : CompilationUnit) : List String :=
  Environment.beginnings (Dotted.steps u.packageName)

/-- The symbol of what a declaration stands in, if that has a symbol. -/
def ownerOf? (p : ProjectClasses) (s : Site) : Option Symbol :=
  match s.outer with
  | [] => some (Symbol.package s.package .project)
  | outer :: _ => (p.class? outer).map ClassInfo.symbol

/-- One more class with its name and its type variables, unless it has no name. -/
def addNamed (p : ProjectClasses) (s : Site) : ProjectClasses :=
  match p.ownerOf? s with
  | none => p
  | some owner =>
    match ClassBuilder.ofName owner s.package s.name (.ofDecl s.decl.kind) (.project s.unit.file) with
    | .ok b =>
      p.insert ((s.decl.typeParams.map fun t => t.name.text).foldl ClassBuilder.addTypeParam b).info
    | .error _ => p

/-- The classes with nothing but their names. -/
def named (sites : List Site) (packages : List String) : ProjectClasses :=
  sites.foldl addNamed ⟨∅, Std.TreeSet.ofList packages⟩

/-- The same classes with more said about each. -/
def refine (p : ProjectClasses) (sites : List Site) (say : Site → ClassInfo → ClassInfo) :
    ProjectClasses :=
  sites.foldl
    (fun next s =>
      match p.class? s.name with
      | some c => next.insert (say s c)
      | none => next)
    ⟨∅, p.packages⟩

/-- A class with what it extends and implements. -/
def withSupertypes (env : Environment) (config : Config) (s : Site) (c : ClassInfo) : ClassInfo :=
  let (superclass, interfaces) := env.supertypesOf (s.place env config) s.decl c
  { c with superclass, interfaces }

end ProjectClasses

namespace Build

/-- A step of which nothing more is said if it fails. -/
def attempt (step : Build Symbol) : Build Unit := fun b => do
  let (_, b) ← step b
  return (.ok (), b)

/-- The constants and the components of a body. -/
def heads (body : ClassBody) (components : List (Ident × JavaType)) (self : JavaType) : Build Unit := do
  body.constants.forM fun c => attempt (field c.name.text self true .enumConstant)
  components.forM fun (name, type) => attempt (field name.text type false .field)

/-- The scopes in which the head of the next method of a class is read: its type variables belong to the
symbol that the method will have. -/
def methodScopes (b : ClassBuilder) (ss : Scopes) (m : MethodDecl) : Scopes :=
  let name := if m.isConstructor then Symbol.constructorName else m.name.text
  let owner? := (b.nextCallable name).toOption
  ss.pushTypeParams m.typeParams fun p =>
    owner?.bind fun owner =>
      (Symbol.ofDeclaration (.typeParameter p.name.text) (some owner)).toOption

/-- A field or a method of a body. -/
def member (env : Environment) (place : Place) (body : ClassBody)
    (components : List (Ident × JavaType)) : Member → Build Unit
  | .field d _ _ => do
    let type := env.convert place d.type
    d.declarators.forM fun v =>
      attempt (field v.name.text (.arrayOf v.extraDims type)
        (body.hasStaticFields || d.modifiers.isStatic) .field)
  | .method m => do
    let b ← get
    let inside := { place with scopes := methodScopes b place.scopes m }
    let types := env.callableTypes inside components m
    if m.isConstructor then attempt (constructor types.params types.varargs)
    else attempt (method m.name.text types.params types.varargs types.returns types.isStatic)
  | .initializer _ _ => return
  | .type _ => return

/-- A method that is implied. -/
def implied (m : ImpliedMethod) : Build Unit :=
  attempt (method m.name m.types.params m.types.varargs m.types.returns m.types.isStatic)

/-- The method that reads a component, unless the body declares it. -/
def accessor (component : Ident × JavaType) : Build Unit := do
  if (← get).hasMethod component.1.text 0 then return
  else implied (.accessor component)

/-- All members of a body: constants, components, fields and methods in their order, and then what is
implied. -/
def members (env : Environment) (place : Place) (body : ClassBody) : Build Unit := do
  let self := (← get).info.selfType
  let components := env.componentTypes place body.components
  heads body components self
  body.members.forM (member env place body components)
  components.forM accessor
  if body.kind = .enumType then (ImpliedMethod.ofEnum self).forM implied

end Build

namespace ProjectClasses

/-- A class with its members. -/
def withMembers (env : Environment) (config : Config) (s : Site) (c : ClassInfo) : ClassInfo :=
  let step := Build.members env (s.place env config) (.ofDecl s.decl)
  (step.run (.ofHeader c)).2.info

/-- The classes of a project. -/
def build (units : List SourceUnit) (external : ExternalTable) (config : Config) : ProjectClasses :=
  let sites := units.flatMap Site.ofUnit
  let packages := units.flatMap fun u => packageNames u.tree
  let named := named sites packages
  let headed := named.refine sites (withSupertypes (.start named external) config)
  headed.refine sites (withMembers (.start headed external) config)

end ProjectClasses
end JavaIndex
