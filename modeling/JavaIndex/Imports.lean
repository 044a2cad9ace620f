import JavaIndex.Tree.Basic
import JavaIndex.Text.Dotted

/-! The names that a file sees without qualification: its own package and what it imports. -/
namespace JavaIndex

/-- What is visible in a file before its scopes are asked. -/
structure Imports where
  /-- The package of the file, empty for the package without a name. -/
  package : String
  /-- Types imported by name, each with its simple name; of two with one simple name the first holds. -/
  single : List (String × String)
  /-- Packages and types of which everything is imported. -/
  onDemand : List String
  /-- Static members imported by name, each with the class it is a member of. -/
  staticSingle : List (String × String)
  /-- Classes of which every static member is imported. -/
  staticOnDemand : List String
  /-- Packages that every file imports. -/
  implicit : List String
deriving Repr, Inhabited

namespace Imports

/-- What a type import of one name makes visible. -/
def singleOf? (i : ImportDecl) : Option (String × String) :=
  if i.isStatic || i.onDemand then none
  else i.path.getLast?.map fun last => (last.text, Ident.dotted i.path)

/-- What an import on demand, static or not, makes visible the members of. -/
def onDemandOf? (isStatic : Bool) (i : ImportDecl) : Option String :=
  if i.onDemand && i.isStatic == isStatic then some (Ident.dotted i.path) else none

/-- What a static import of one name makes visible. A lone name names no member of a class. -/
def staticSingleOf? (i : ImportDecl) : Option (String × String) :=
  if !i.isStatic || i.onDemand then none
  else
    match i.path.reverse with
    | member :: owner :: outer => some (member.text, Ident.dotted (owner :: outer).reverse)
    | _ => none

/-- What a file sees, with the packages that every file imports. -/
def ofUnit (u : CompilationUnit) (implicit : List String) : Imports where
  package := u.packageName
  single := u.imports.filterMap singleOf?
  onDemand := (u.imports.filterMap (onDemandOf? false)).eraseDups
  staticSingle := (u.imports.filterMap staticSingleOf?).eraseDups
  staticOnDemand := (u.imports.filterMap (onDemandOf? true)).eraseDups
  implicit := implicit

/-- The type that is imported by name under a simple name. -/
def single? (i : Imports) (simple : String) : Option String :=
  (i.single.find? fun (n, _) => n == simple).map Prod.snd

/-- The qualified names that a simple name of a type may stand for, the most specific first: the type
imported by name, the package of the file, imports on demand, the packages that every file imports. -/
def typeCandidates (i : Imports) (simple : String) : List String :=
  (i.single? simple).toList
    ++ (i.package :: i.onDemand ++ i.implicit).map fun outer => Dotted.within outer simple

/-- The classes that a static member of the name may come from. -/
def staticOwners (i : Imports) (name : String) : List String :=
  (i.staticSingle.filter fun (n, _) => n == name).map Prod.snd ++ i.staticOnDemand

end Imports
end JavaIndex
