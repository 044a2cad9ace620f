import JavaIndex.Text.Dotted
import JavaIndex.Text.Identifier
import JavaIndex.Tree.Basic

/-! Symbols: the names by which declarations are known across files and libraries. A symbol is a path of
descriptors in one of three universes. Its text is what descriptors write one after the other, except
that local declarations show nothing but their number. -/
namespace JavaIndex

/-- The universe a symbol belongs to. -/
inductive Scheme where
  /-- Parameters, local variables, and declarations inside bodies. -/
  | local
  /-- What the files of the project declare. -/
  | project
  /-- What libraries declare. -/
  | external
deriving DecidableEq, Repr, Inhabited

/-- One step of a path. -/
inductive Descriptor where
  | package (name : String)
  | type (name : String)
  /-- Fields and constants. -/
  | term (name : String)
  /-- A method, with the number of methods of its name before it in its class. -/
  | method (name : String) (overload : Nat)
  | typeParameter (name : String)
  | local (number : Nat)
deriving DecidableEq, Repr, Inhabited

/-- What sort of thing a symbol names. It never tells two symbols apart. -/
inductive SymbolKind where
  | package
  | classType
  | interfaceType
  | enumType
  | recordType
  | annotationType
  | method
  | constructor
  | field
  | enumConstant
  | parameter
  | localVariable
  | typeParameter
  /-- A member of a class that is generated from resources. -/
  | syntheticMember
  /-- Stands for a name that means nothing known. -/
  | unknown
deriving DecidableEq, Repr, Inhabited

namespace SymbolKind

/-- The kinds of types. -/
def isType : SymbolKind → Bool
  | classType | interfaceType | enumType | recordType | annotationType => true
  | _ => false

/-- The kinds of what can be called. -/
def isCallable : SymbolKind → Bool
  | method | constructor => true
  | _ => false

/-- The kinds of fields and constants. -/
def isTerm : SymbolKind → Bool
  | field | enumConstant | syntheticMember => true
  | _ => false

/-- The words for a kind. -/
def words : SymbolKind → List String
  | package => ["package"]
  | classType => ["class"]
  | interfaceType => ["interface"]
  | enumType => ["enum"]
  | recordType => ["record"]
  | annotationType => ["annotation"]
  | method => ["method"]
  | constructor => ["constructor"]
  | field => ["field"]
  | enumConstant => ["enum", "constant"]
  | parameter => ["parameter"]
  | localVariable => ["local", "variable"]
  | typeParameter => ["type", "parameter"]
  | syntheticMember => ["synthetic", "member"]
  | unknown => ["unknown"]

/-- The kind as people read it. -/
def shown (k : SymbolKind) : String := " ".intercalate k.words

/-- The kind as documents write it. -/
def code (k : SymbolKind) : String := "-".intercalate k.words

/-- The kind of a declared type. -/
def ofDecl : DeclKind → SymbolKind
  | .classType => classType
  | .interfaceType => interfaceType
  | .enumType => enumType
  | .recordType => recordType
  | .annotationType => annotationType

end SymbolKind

namespace Scheme

/-- The place of a universe in the order of symbols. -/
def rank : Scheme → Nat
  | .local => 0
  | .project => 1
  | .external => 2

/-- The word for a universe. -/
def word : Scheme → String
  | .local => "local"
  | .project => "project"
  | .external => "external"

end Scheme

namespace Descriptor

/-- A name as texts show it: between backticks unless it is an identifier. -/
def quoted (name : String) : String :=
  if Identifier.isIdentifier name then name else "`" ++ name ++ "`"

/-- The text of a numbered local declaration. -/
def localText (number : Nat) : String := "local" ++ toString number

/-- The text of a step. Its end tells the sort of step. -/
def text : Descriptor → String
  | .package name => quoted name ++ "/"
  | .type name => quoted name ++ "#"
  | .term name => quoted name ++ "."
  | .method name 0 => quoted name ++ "()."
  | .method name (n + 1) => quoted name ++ "(+" ++ toString (n + 1) ++ ")."
  | .typeParameter name => "[" ++ quoted name ++ "]"
  | .local number => localText number

/-- The name of a step as a program writes it. -/
def name : Descriptor → String
  | .package name | .type name | .term name | .method name _ | .typeParameter name => name
  | .local number => localText number

/-- The place of a sort of step in the order of symbols. -/
def rank : Descriptor → Nat
  | .package _ => 0
  | .type _ => 1
  | .term _ => 2
  | .method _ _ => 3
  | .typeParameter _ => 4
  | .local _ => 5

/-- By sort, then by name, then by number. -/
def order (a b : Descriptor) : Ordering :=
  match a, b with
  | .method n i, .method m j => (compare n m).then (compare i j)
  | .local i, .local j => compare i j
  | a, b => (compare a.rank b.rank).then (compare a.name b.name)

end Descriptor

/-- What makes two symbols the same: the universe and the path. -/
structure SymbolId where
  scheme : Scheme
  path : List Descriptor
deriving DecidableEq, Repr, Inhabited

/-- The identity of a declaration, and what sort of thing it is. -/
structure Symbol where
  id : SymbolId
  kind : SymbolKind
deriving Repr, Inhabited

/-- Symbols are the same if they have one identity, of whatever kind they are. -/
instance : BEq Symbol := ⟨fun a b => a.id == b.id⟩

namespace SymbolId

/-- The order of paths, step by step. -/
def pathOrder : List Descriptor → List Descriptor → Ordering
  | [], [] => .eq
  | [], _ :: _ => .lt
  | _ :: _, [] => .gt
  | a :: as, b :: bs => (a.order b).then (pathOrder as bs)

/-- By universe, then by path. -/
def order (a b : SymbolId) : Ordering :=
  (compare a.scheme.rank b.scheme.rank).then (pathOrder a.path b.path)

/-- The text of a symbol. A local one shows only its number. -/
def text (s : SymbolId) : String :=
  match s.scheme, s.path.getLast? with
  | .local, some (.local number) => Descriptor.localText number
  | _, _ => String.join (s.path.map Descriptor.text)

end SymbolId

namespace Symbol

/-- The universe. -/
def scheme (s : Symbol) : Scheme := s.id.scheme

/-- The steps. -/
def path (s : Symbol) : List Descriptor := s.id.path

/-- The text. -/
def text (s : Symbol) : String := s.id.text

/-- The order of symbols. -/
def order (a b : Symbol) : Ordering := a.id.order b.id

/-- The symbol belongs to a body. -/
def isLocal (s : Symbol) : Bool := s.scheme == .local

/-- The symbol stands for a name that means nothing known. -/
def isPlaceholder (s : Symbol) : Bool := s.kind == .unknown

/-- The same symbol as another kind of thing. -/
def withKind (s : Symbol) (kind : SymbolKind) : Symbol := { s with kind }

/-- The name of the declaration itself. -/
def displayName (s : Symbol) : String := (s.path.getLast?.map Descriptor.name).getD ""

/-- One step further in the same universe. -/
def child (s : Symbol) (step : Descriptor) (kind : SymbolKind) : Symbol :=
  ⟨⟨s.scheme, s.path ++ [step]⟩, kind⟩

/-- The package of a dotted name. The package without a name has the empty path. -/
def package (dotted : String) (scheme : Scheme) : Symbol :=
  ⟨⟨scheme, (Dotted.steps dotted).map .package⟩, .package⟩

/-- What stands for a name that means nothing known. A lone name is shaped as a value or as a type, and
of several names the first is shaped as a package and the others as types. -/
def placeholder (segments : List String) (isValue : Bool) : Symbol :=
  let path := match segments with
    | [] => []
    | [single] => if isValue then [.term single] else [.type single]
    | head :: rest => .package head :: rest.map .type
  ⟨⟨.external, path⟩, .unknown⟩

/-- What stands for each beginning of an unknown name, one symbol for each of its segments. -/
def placeholderChain (segments : List String) (isValue : Bool) : List Symbol :=
  (List.range segments.length).map fun i =>
    match segments.take (i + 1), decide (1 < segments.length) with
    | [head], true => ⟨⟨.external, [.package head]⟩, .unknown⟩
    | beginning, _ => placeholder beginning isValue

end Symbol
end JavaIndex
