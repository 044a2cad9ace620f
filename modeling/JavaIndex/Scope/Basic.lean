import JavaIndex.Classpath.ClassInfo

/-! The lexical scopes around a place in a program, innermost first. The members of a class are not bound
in the scope of its body; they are found through the class. -/
namespace JavaIndex

/-- What opened a scope. -/
inductive ScopeKind where
  | package
  | typeBody
  | methodBody
  | block
deriving DecidableEq, Repr, Inhabited

/-- What the name of a value means. -/
structure ValueBinding where
  symbol : Symbol
  type : JavaType
deriving Inhabited

/-- What the name of a type means. -/
inductive TypeBinding where
  | ofClass (info : ClassInfo)
  | typeParam (name : String) (symbol : Symbol)
deriving Inhabited

/-- One scope and what it binds; of two bindings of a name the later one, which stands first, holds. -/
structure Scope where
  kind : ScopeKind
  /-- The declaration that opened the scope. -/
  owner : Option Symbol
  /-- The class whose body this is. -/
  classInfo : Option ClassInfo
  values : List (String × ValueBinding)
  types : List (String × TypeBinding)
deriving Inhabited

namespace Scope

/-- A scope that binds nothing. -/
def opened (kind : ScopeKind) (owner : Option Symbol) : Scope := ⟨kind, owner, none, [], []⟩

/-- The scope of a class body, which binds the type variables of the class. -/
def ofClass (info : ClassInfo) (typeParams : List (String × Symbol)) : Scope :=
  { opened .typeBody (some info.symbol) with
    classInfo := some info
    types := (typeParams.map fun (name, symbol) => (name, .typeParam name symbol)).reverse }

/-- What the scope binds the name of a value to. -/
def value? (s : Scope) (name : String) : Option ValueBinding :=
  (s.values.find? fun (n, _) => n == name).map Prod.snd

/-- What the scope binds the name of a type to. -/
def type? (s : Scope) (name : String) : Option TypeBinding :=
  (s.types.find? fun (n, _) => n == name).map Prod.snd

end Scope

/-- Scopes from the innermost to the outermost. -/
abbrev Scopes := List Scope

namespace Scopes

/-- One more scope inside the others. -/
def push (ss : Scopes) (kind : ScopeKind) (owner : Option Symbol) : Scopes :=
  Scope.opened kind owner :: ss

/-- The scope of a class body inside the others. -/
def pushClass (ss : Scopes) (info : ClassInfo) (typeParams : List (String × Symbol)) : Scopes :=
  Scope.ofClass info typeParams :: ss

/-- The innermost scope binds the name of a value. Outside all scopes nothing can be bound. -/
def bindValue (ss : Scopes) (name : String) (b : ValueBinding) : Scopes :=
  match ss with
  | [] => []
  | s :: rest => { s with values := (name, b) :: s.values } :: rest

/-- The innermost scope binds the name of a type. -/
def bindType (ss : Scopes) (name : String) (b : TypeBinding) : Scopes :=
  match ss with
  | [] => []
  | s :: rest => { s with types := (name, b) :: s.types } :: rest

/-- The class of the innermost class body. -/
def enclosingClass? (ss : Scopes) : Option ClassInfo := ss.findSome? Scope.classInfo

/-- The classes of all class bodies around, innermost first. -/
def enclosingClasses (ss : Scopes) : List ClassInfo := ss.filterMap Scope.classInfo

/-- The innermost declaration that opened a scope. -/
def owner? (ss : Scopes) : Option Symbol := ss.findSome? Scope.owner

/-- What the name of a type means by the innermost scope that binds it. -/
def type? (ss : Scopes) (name : String) : Option TypeBinding := ss.findSome? (·.type? name)

end Scopes
end JavaIndex
