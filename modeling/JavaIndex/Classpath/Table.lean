import JavaIndex.Classpath.Resources
import Std.Data.TreeSet

/-! The table of what libraries declare. Classes and packages are put in by name, and what is generated
from resources is made when it is asked for. Every look-up comes in two forms: a plain one, which makes
generated entries anew, and one that remembers them in the table. -/
namespace JavaIndex

/-- What a look-up by name is after. -/
inductive LookupKind where
  | package
  | type
  /-- A member of a class, by the name of the class, a dot and the name of the member. -/
  | member
  /-- A type, else a package, else a member. -/
  | any
deriving DecidableEq, Repr, Inhabited

/-- How many shards remember generated entries. -/
abbrev Resources.shardCount : Nat := 16

/-- The shard of a key, by the sum of its characters. -/
def Resources.place (key : String) : Fin shardCount :=
  Fin.ofNat shardCount (Lists.total (key.toList.map Char.toNat))

/-- What libraries declare, and the generated entries remembered so far. -/
structure ExternalTable where
  classes : Std.TreeMap String ClassInfo
  packages : Std.TreeSet String
  resourcePackages : Std.TreeSet String
  cache : ResourceCache Resources.shardCount

namespace ExternalTable

/-- A table of nothing. -/
def empty : ExternalTable := ⟨∅, ∅, ∅, .empty Resources.place⟩

instance : Inhabited ExternalTable := ⟨empty⟩

/-- The packages that a dotted name mentions: its beginnings, measured by the segments that are not empty
and one byte for each dot between them. -/
def packageNames (package : String) : List String :=
  let ends := (Dotted.steps package).foldl
    (fun (read, found) step =>
      let stop := read + step.utf8ByteSize
      (stop + 1, stop :: found))
    ((0, []) : Nat × List Nat)
  ends.2.reverse.map fun stop => Span.slice ⟨0, stop⟩ package

/-- The package and the packages around it exist. -/
def addPackage (t : ExternalTable) (package : String) : ExternalTable :=
  { t with packages := t.packages.insertMany (packageNames package) }

/-- One more class, in place of an earlier one of its name. -/
def insert (t : ExternalTable) (c : ClassInfo) : ExternalTable :=
  let t := t.addPackage c.package
  { t with classes := t.classes.insert c.qualifiedName c }

/-- The package has resources. -/
def addResourcePackage (t : ExternalTable) (package : String) : ExternalTable :=
  let t := t.addPackage package
  { t with resourcePackages := t.resourcePackages.insert package }

/-- The package exists. -/
def hasPackage (t : ExternalTable) (package : String) : Bool := t.packages.contains package

/-- The package has resources. -/
def isResourcePackage (t : ExternalTable) (package : String) : Bool :=
  t.resourcePackages.contains package

/-- How many classes were put in. -/
def size (t : ExternalTable) : Nat := t.classes.size

/-- Everything of another table put in as well. What that one remembers is not taken over. -/
def merge (t other : ExternalTable) : ExternalTable :=
  { t with
    classes := t.classes.insertMany other.classes.toList
    packages := t.packages.insertMany other.packages.toList
    resourcePackages := t.resourcePackages.insertMany other.resourcePackages.toList }

/-! Plain look-ups. -/

/-- The generated entry of a name. -/
def resource? (t : ExternalTable) (name : String) : Option ResourceEntry := do
  let parts ← Resources.split? name
  if t.isResourcePackage parts.package then Resources.generate? parts else none

/-- The class that an entry is. -/
def entryClass? : ResourceEntry → Option ClassInfo
  | .ofClass info => some info
  | .constant _ => none

/-- The constant that an entry is. -/
def entryConstant? : ResourceEntry → Option FieldInfo
  | .ofClass _ => none
  | .constant field => some field

/-- The class of a name. -/
def class? (t : ExternalTable) (name : String) : Option ClassInfo :=
  t.classes[name]?.or ((t.resource? name).bind entryClass?)

/-- A constant of a generated class. -/
def constant? (t : ExternalTable) (c : ClassInfo) (name : String) : Option FieldInfo :=
  if c.syntheticMembers then (t.resource? (c.qualifiedName ++ "." ++ name)).bind entryConstant?
  else none

/-- The symbol of a package. -/
def packageSymbol? (t : ExternalTable) (name : String) : Option Symbol :=
  if t.hasPackage name then some (Symbol.package name .external) else none

/-- The member that a class declares under a name: a field, else a method. -/
def declared? (c : ClassInfo) (name : String) : Option Symbol :=
  ((c.field? name).map FieldInfo.symbol).or ((c.methodsNamed name).head?.map MethodInfo.symbol)

/-- The symbol of a member of a class. -/
def member? (t : ExternalTable) (name : String) : Option Symbol := do
  let (owner, member) ← Dotted.splitLast? name
  let c ← t.class? owner
  (declared? c member).or ((t.constant? c member).map FieldInfo.symbol)

/-- The symbol of a name. -/
def lookup? (t : ExternalTable) (name : String) : LookupKind → Option Symbol
  | .package => t.packageSymbol? name
  | .type => (t.class? name).map ClassInfo.symbol
  | .member => t.member? name
  | .any =>
    (((t.class? name).map ClassInfo.symbol).or (t.packageSymbol? name)).or (t.member? name)

/-! Look-ups that remember. -/

/-- The generated entry of a name. -/
def recallResource (t : ExternalTable) (name : String) : Option ResourceEntry × ExternalTable :=
  match Resources.split? name with
  | none => (none, t)
  | some parts =>
    if t.isResourcePackage parts.package then
      let (entry, cache, _) := t.cache.getOrMake name fun _ => Resources.generate? parts
      (entry, { t with cache })
    else (none, t)

/-- The class of a name. -/
def recallClass (t : ExternalTable) (name : String) : Option ClassInfo × ExternalTable :=
  match t.classes[name]? with
  | some c => (some c, t)
  | none =>
    let (entry, t) := t.recallResource name
    (entry.bind entryClass?, t)

/-- A constant of a generated class. -/
def recallConstant (t : ExternalTable) (c : ClassInfo) (name : String) :
    Option FieldInfo × ExternalTable :=
  if c.syntheticMembers then
    let (entry, t) := t.recallResource (c.qualifiedName ++ "." ++ name)
    (entry.bind entryConstant?, t)
  else (none, t)

/-- The symbol of a member of a class. -/
def recallMember (t : ExternalTable) (name : String) : Option Symbol × ExternalTable :=
  match Dotted.splitLast? name with
  | none => (none, t)
  | some (owner, member) =>
    match t.recallClass owner with
    | (none, t) => (none, t)
    | (some c, t) =>
      match declared? c member with
      | some s => (some s, t)
      | none =>
        let (field, t) := t.recallConstant c member
        (field.map FieldInfo.symbol, t)

/-- The symbol of a type. -/
def recallType (t : ExternalTable) (name : String) : Option Symbol × ExternalTable :=
  let (c, t) := t.recallClass name
  (c.map ClassInfo.symbol, t)

/-- The symbol of a name. -/
def recallName (t : ExternalTable) (name : String) : LookupKind → Option Symbol × ExternalTable
  | .package => (t.packageSymbol? name, t)
  | .type => t.recallType name
  | .member => t.recallMember name
  | .any =>
    match t.recallType name with
    | (some s, t) => (some s, t)
    | (none, t) =>
      match t.packageSymbol? name with
      | some s => (some s, t)
      | none => t.recallMember name

end ExternalTable
end JavaIndex
