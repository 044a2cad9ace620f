import JavaIndex.Classpath.Table
import JavaIndex.JavaType.Reader
import JavaIndex.Json.Decode
import JavaIndex.Json.Reader

/-! Descriptions of libraries as JSON documents. Classes are listed by their binary names, in which dollar
signs separate a nested class from the class around it, together with their members and types. -/
namespace JavaIndex.Manifest

/-- A described field. Without a type it has the type of its class; a constant is one of an enum. -/
structure Field where
  name : String
  type : String
  isStatic : Bool
  constant : Bool
deriving DecidableEq, Repr, Inhabited

/-- A described method. -/
structure Method where
  name : String
  params : List String
  returns : String
  isStatic : Bool
  varargs : Bool
  typeParams : List String
deriving DecidableEq, Repr, Inhabited

/-- A described constructor. -/
structure Constructor where
  params : List String
  varargs : Bool
deriving DecidableEq, Repr, Inhabited

/-- A described class. -/
structure Class where
  name : String
  kind : DeclKind
  superclass : Option String
  interfaces : List String
  typeParams : List String
  fields : List Field
  methods : List Method
  constructors : List Constructor
deriving DecidableEq, Repr, Inhabited

end Manifest

/-- A description of a library. -/
structure Manifest where
  classes : List Manifest.Class
  resourcePackages : List String
deriving DecidableEq, Repr, Inhabited

namespace Manifest

/-! Reading. -/

/-- A list of texts. -/
def texts? : Json → Option (List String) := Json.list? Json.text?

/-- The words for the kinds of types. -/
def kindWords : List (String × DeclKind) :=
  [("class", .classType), ("interface", .interfaceType), ("enum", .enumType),
   ("record", .recordType), ("annotation", .annotationType)]

/-- A field. -/
def field? (j : Json) : Option Field := do
  match ← j.recordFields? ["name", "type", "static", "constant"] with
  | [name, type, isStatic, constant] =>
    return ⟨← Json.fieldOr "" Json.text? name, ← Json.fieldOr "" Json.text? type,
      ← Json.fieldOr false Json.bool? isStatic, ← Json.fieldOr false Json.bool? constant⟩
  | _ => none

/-- A method. What it returns is nothing unless it is said. -/
def method? (j : Json) : Option Method := do
  let names := ["name", "parameters", "returns", "static", "varargs", "type_parameters"]
  match ← j.recordFields? names with
  | [name, params, returns, isStatic, varargs, typeParams] =>
    return ⟨← Json.fieldOr "" Json.text? name, ← Json.fieldOr [] texts? params,
      ← Json.fieldOr "void" Json.text? returns, ← Json.fieldOr false Json.bool? isStatic,
      ← Json.fieldOr false Json.bool? varargs, ← Json.fieldOr [] texts? typeParams⟩
  | _ => none

/-- A constructor. -/
def constructor? (j : Json) : Option Constructor := do
  match ← j.recordFields? ["parameters", "varargs"] with
  | [params, varargs] =>
    return ⟨← Json.fieldOr [] texts? params, ← Json.fieldOr false Json.bool? varargs⟩
  | _ => none

/-- A class. -/
def class? (j : Json) : Option Class := do
  let names := ["name", "kind", "superclass", "interfaces", "type_parameters", "fields", "methods",
    "constructors"]
  match ← j.recordFields? names with
  | [name, kind, superclass, interfaces, typeParams, fields, methods, constructors] =>
    return ⟨← Json.fieldOr "" Json.text? name,
      ← Json.fieldOr .classType (Json.choice? kindWords) kind,
      ← Json.fieldOr none (Json.nullable? Json.text?) superclass,
      ← Json.fieldOr [] texts? interfaces, ← Json.fieldOr [] texts? typeParams,
      ← Json.fieldOr [] (Json.list? field?) fields,
      ← Json.fieldOr [] (Json.list? method?) methods,
      ← Json.fieldOr [] (Json.list? constructor?) constructors⟩
  | _ => none

/-- The description that a document is. -/
def ofJson? (j : Json) : Option Manifest := do
  match ← j.recordFields? ["classes", "resource_packages"] with
  | [classes, packages] =>
    return ⟨← Json.fieldOr [] (Json.list? class?) classes, ← Json.fieldOr [] texts? packages⟩
  | _ => none

/-- The description that a text is. -/
def read? (source : String) : Option Manifest := (Json.read? source).bind ofJson?

/-! Building. -/

/-- The package of a binary name, and the names of the nested classes from the outermost on. -/
def splitBinaryName (name : String) : String × List String :=
  let (package, classes) := (Dotted.splitLast? name).getD ("", name)
  (package, (Lists.split '$' classes.toList).map String.ofList)

/-- The symbol of what a class stands in: its package, or the class around it. -/
def ownerSymbol (package : String) (chain : List String) : Except NamingError Symbol :=
  chain.dropLast.foldlM
    (fun owner outer => Symbol.ofDeclaration (.type outer .classType) (some owner))
    (Symbol.package package .external)

/-- What a class extends. A class, an enum and a record extend something even if it is not said, except
for the class above all others. -/
def Class.superType (c : Class) : Option JavaType :=
  let qualified := Dotted.ofBinary c.name
  match c.superclass, c.kind with
  | some s, _ => some (JavaType.read c.typeParams s)
  | none, .classType => if qualified ≠ "java.lang.Object" then some .object else none
  | none, .enumType => some (.named "java.lang.Enum" [.ofName qualified])
  | none, .recordType => some (.ofName "java.lang.Record")
  | none, _ => none

/-- One more field of the class being described. -/
def Class.buildField (c : Class) (f : Field) : Build Unit := do
  let type :=
    if f.type = "" then JavaType.ofName (Dotted.ofBinary c.name)
    else JavaType.read c.typeParams f.type
  let kind := if f.constant then SymbolKind.enumConstant else .field
  discard (Build.field f.name type (f.isStatic || f.constant) kind)

/-- One more constructor of the class being described. -/
def Class.buildConstructor (c : Class) (k : Constructor) : Build Unit :=
  discard (Build.constructor (k.params.map (JavaType.read c.typeParams)) k.varargs)

/-- One more method of the class being described. -/
def Class.buildMethod (c : Class) (m : Method) : Build Unit := do
  let read := JavaType.read (c.typeParams ++ m.typeParams)
  discard (Build.method m.name (m.params.map read) m.varargs (read m.returns) m.isStatic)

/-- The members of the class being described: fields, constructors, methods. -/
def Class.buildMembers (c : Class) : Build Unit := do
  c.fields.forM c.buildField
  c.constructors.forM c.buildConstructor
  c.methods.forM c.buildMethod

/-- The class that is described. -/
def Class.build (c : Class) : Except NamingError ClassInfo := do
  let (package, chain) := splitBinaryName c.name
  let owner ← ownerSymbol package chain
  let b ← ClassBuilder.ofName owner package (Dotted.ofBinary c.name) (.ofDecl c.kind) .external
  let info := { b.info with
    typeParams := c.typeParams
    superclass := c.superType
    interfaces := c.interfaces.map (JavaType.read c.typeParams) }
  match c.buildMembers.run { b with info } with
  | (.ok _, b) => return b.info
  | (.error e, _) => throw e

end Manifest

namespace ExternalTable

/-- The classes put in one by one, up to the first that has no name. -/
def addClasses (t : ExternalTable) : List Manifest.Class → Option NamingError × ExternalTable
  | [] => (none, t)
  | c :: cs =>
    match c.build with
    | .ok info => addClasses (t.insert info) cs
    | .error e => (some e, t)

/-- Everything that a description lists put in, and the number of its classes. A class without a name ends
it; the classes before it stay. -/
def load (t : ExternalTable) (m : Manifest) : Except NamingError Nat × ExternalTable :=
  match t.addClasses m.classes with
  | (none, t) => (.ok m.classes.length, m.resourcePackages.foldl addResourcePackage t)
  | (some e, t) => (.error e, t)

end ExternalTable
end JavaIndex
