import JavaIndex.Environment.TypeNames

/-! What names mean in expressions. A chain of names joined by dots begins with a value, else with a type,
else with a package that leads to a class; what follows are members. -/
namespace JavaIndex

/-- What stands before a dot. -/
inductive Receiver where
  /-- An expression of this type. -/
  | value (type : JavaType)
  /-- A class, for its static members and its member types. -/
  | ofClass (info : ClassInfo)
  | unknown
deriving Inhabited

namespace Receiver

/-- The type whose members can be selected. -/
def type : Receiver → JavaType
  | value t => t
  | ofClass c => c.selfType
  | unknown => .unknown

end Receiver

/-- What a name selects: the symbol that it mentions, if it mentions one, and what that leads to. -/
structure Selected where
  symbol : Option Symbol
  receiver : Receiver
deriving Inhabited

namespace Selected

/-- A class. -/
def ofClass (c : ClassInfo) : Selected := ⟨some c.symbol, .ofClass c⟩

/-- A field. -/
def ofField (f : FieldInfo) : Selected := ⟨some f.symbol, .value f.type⟩

end Selected

/-- The value that a field is. -/
def ValueBinding.ofField (f : FieldInfo) : ValueBinding := ⟨f.symbol, f.type⟩

namespace Environment

/-- What the name of a value means by one scope: what it binds, or a field of the class whose body it
is. -/
def scopeValue? (env : Environment) (name : String) (s : Scope) : Option ValueBinding :=
  (s.value? name).or <|
    s.classInfo.bind fun c => (env.field? c.selfType name).map .ofField

/-- The classes that a static member of the name may come from, as far as they are known. -/
def staticOwners (env : Environment) (place : Place) (name : String) : List ClassInfo :=
  (place.imports.staticOwners name).filterMap env.class?

/-- What the name of a value means: a local variable or a field, from the innermost scope out, or a field
that is imported. -/
def value? (env : Environment) (place : Place) (name : String) : Option ValueBinding :=
  (place.scopes.findSome? (env.scopeValue? name)).or <|
    (env.staticOwners place name).findSome? fun c => (env.field? c.selfType name).map .ofField

/-- The methods that a call without a receiver may mean: those of the innermost class around it that has
any of the name, else the static ones that are imported. -/
def callables (env : Environment) (place : Place) (name : String) : List Candidate :=
  let around? := place.scopes.enclosingClasses.findSome? fun c =>
    some (env.methods c.selfType name) |>.filter (!·.isEmpty)
  match around? with
  | some found => found
  | none =>
    ((env.staticOwners place name).flatMap fun c => env.methods c.selfType name).filter
      Candidate.isStatic

/-- The field or the member type that a name selects. The length of an array is no field. -/
def member? (env : Environment) (r : Receiver) (name : String) : Option Selected :=
  match r with
  | .value (.array e) =>
    if name = "length" then some ⟨none, .value .int⟩
    else (env.field? (.array e) name).map .ofField
  | .value t => (env.field? t name).map .ofField
  | .ofClass c =>
    ((env.field? c.selfType name).map .ofField).or ((env.memberType? c name).map .ofClass)
  | .unknown => none

/-- The beginning of a chain of names, name by name, and the names after it. -/
def chainHead? (env : Environment) (place : Place) :
    List String → Option (List Selected × Receiver × List String)
  | [] => none
  | first :: rest =>
    match env.value? place first with
    | some b => some ([⟨some b.symbol, .value b.type⟩], .value b.type, rest)
    | none =>
      match env.simpleType? place first with
      | some (.ofClass c) => some ([.ofClass c], .ofClass c, rest)
      | some (.typeParam _ symbol) => some ([⟨some symbol, .unknown⟩], .unknown, rest)
      | none =>
        match env.qualifiedClass? (first :: rest) with
        | some (package, c, rest) =>
          let packages := (beginnings package).map fun name =>
            (⟨some (env.packageSymbol name), .unknown⟩ : Selected)
          some (packages ++ [.ofClass c], .ofClass c, rest)
        | none => none

/-- What names select one after the other, up to the first that selects nothing. -/
def memberChain (env : Environment) (r : Receiver) : List String → List Selected
  | [] => []
  | name :: rest =>
    match env.member? r name with
    | some s => s :: env.memberChain s.receiver rest
    | none => []

/-- What the names of a chain select, up to the first that selects nothing. -/
def chain (env : Environment) (place : Place) (names : List String) : List Selected :=
  match env.chainHead? place names with
  | some (head, receiver, rest) => head ++ env.memberChain receiver rest
  | none => []

end Environment
end JavaIndex
