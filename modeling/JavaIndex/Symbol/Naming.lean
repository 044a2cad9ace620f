import JavaIndex.Symbol.Basic

/-! The naming scheme: which symbol a declaration has inside its owner, and which declarations cannot
stand inside which owners. Files and libraries are named by the same function, so that a use and its
declaration agree wherever they come from. -/
namespace JavaIndex

/-- A declaration as the naming scheme sees it. -/
inductive Declaration where
  /-- A dotted name. The universe counts only if the package has no owner. -/
  | package (name : String) (scheme : Scheme)
  | type (name : String) (kind : SymbolKind)
  | member (name : String) (kind : SymbolKind)
  | method (name : String) (overload : Nat)
  | constructor (overload : Nat)
  | typeParameter (name : String)
  /-- Anything declared inside a body. -/
  | local (number : Nat) (kind : SymbolKind)
deriving Repr, Inhabited

namespace Declaration

/-- The declaration in words. -/
def describe : Declaration → String
  | .package name _ => "package " ++ name
  | .type name kind | .member name kind => kind.shown ++ " " ++ name
  | .method name _ => "method " ++ name
  | .constructor _ => "constructor"
  | .typeParameter name => "type parameter " ++ name
  | .local number kind => kind.shown ++ " " ++ Descriptor.localText number

end Declaration

/-- Why a declaration cannot stand where it does. -/
inductive NamingFault where
  | packageOutsidePackage
  | localInPackage
  | missingOwner
  | insideLocal
  | notTypeKind
  | typeOutsideType
  | notMemberKind
  | fieldOutsideType
  | methodOutsideType
  | constructorOutsideClass
  | typeParameterOutside
  /-- A member of a class declared in a body has no symbol there. -/
  | notDescribed
deriving DecidableEq, Repr, Inhabited

namespace NamingFault

/-- The rule that is broken. -/
def reason : NamingFault → String
  | packageOutsidePackage => "a package can only be nested in a package"
  | localInPackage => "a local declaration cannot be owned by a package"
  | missingOwner => "missing owner"
  | insideLocal => "declarations inside a local scope take local symbols"
  | notTypeKind => "not a type kind"
  | typeOutsideType => "a member type must be owned by a package or a type"
  | notMemberKind => "not a member kind"
  | fieldOutsideType => "a field must be owned by a type"
  | methodOutsideType => "a method must be owned by a type"
  | constructorOutsideClass => "a constructor must be owned by a class, enum or record"
  | typeParameterOutside => "a type parameter must be owned by a type or a method"
  | notDescribed => "member of a local class was not described"

end NamingFault

/-- A declaration that has no name where it stands. -/
structure NamingError where
  declaration : String
  fault : NamingFault
deriving DecidableEq, Repr, Inhabited

namespace NamingError

/-- What a reader is told. -/
def message (e : NamingError) : String :=
  "malformed context for `" ++ e.declaration ++ "`: " ++ e.fault.reason

end NamingError

namespace Symbol

/-- The name of constructors. -/
def constructorName : String := "<init>"

/-- The kinds of types that have constructors. -/
def mayConstruct : SymbolKind → Bool
  | .classType | .enumType | .recordType => true
  | _ => false

/-- The symbol of a declaration inside an owner, or the rule that it breaks there. -/
def named (decl : Declaration) (owner : Option Symbol) : Except NamingFault Symbol :=
  match decl, owner with
  | .package name scheme, none => .ok (package name scheme)
  | .package name _, some owner =>
    if owner.kind ≠ .package then .error .packageOutsidePackage
    else .ok ⟨⟨owner.scheme, owner.path ++ (Dotted.steps name).map .package⟩, .package⟩
  | .local number kind, some owner =>
    if owner.kind = .package then .error .localInPackage
    else .ok ⟨⟨.local, owner.path ++ [.local number]⟩, kind⟩
  | _, none => .error .missingOwner
  | decl, some owner =>
    if owner.isLocal then .error .insideLocal
    else
      match decl with
      | .type name kind =>
        if !kind.isType then .error .notTypeKind
        else if owner.kind ≠ .package && !owner.kind.isType then .error .typeOutsideType
        else .ok (owner.child (.type name) kind)
      | .member name kind =>
        if !kind.isTerm then .error .notMemberKind
        else if !owner.kind.isType then .error .fieldOutsideType
        else .ok (owner.child (.term name) kind)
      | .method name overload =>
        if !owner.kind.isType then .error .methodOutsideType
        else .ok (owner.child (.method name overload) .method)
      | .constructor overload =>
        if !mayConstruct owner.kind then .error .constructorOutsideClass
        else .ok (owner.child (.method constructorName overload) .constructor)
      | .typeParameter name =>
        if !owner.kind.isType && !owner.kind.isCallable then .error .typeParameterOutside
        else .ok (owner.child (.typeParameter name) .typeParameter)
      | .package _ _ | .local _ _ => .error .missingOwner

/-- The symbol of a declaration inside an owner. -/
def ofDeclaration (decl : Declaration) (owner : Option Symbol) : Except NamingError Symbol :=
  match named decl owner with
  | .ok s => .ok s
  | .error fault => .error ⟨decl.describe, fault⟩

end Symbol

/-- The names of the methods of a class seen so far. -/
abbrev OverloadCounter := List String

namespace OverloadCounter

/-- No method seen. -/
def empty : OverloadCounter := []

/-- The number of the next method of the name: how many of that name came before. -/
def peek (seen : OverloadCounter) (name : String) : Nat := seen.count name

/-- One more method of the name. -/
def add (seen : OverloadCounter) (name : String) : OverloadCounter := name :: seen

end OverloadCounter
end JavaIndex
