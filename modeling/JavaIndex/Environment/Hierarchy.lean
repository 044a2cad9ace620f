import JavaIndex.Environment.Basic

/-! The supertypes of a type, breadth first: generation after generation, a superclass before the
interfaces beside it, every class once however it is reached. Each comes with the types that its type
variables stand for. -/
namespace JavaIndex

/-- A class as it is seen from a type below it. -/
structure Ancestor where
  info : ClassInfo
  bindings : JavaType.Bindings
deriving Inhabited

namespace Ancestor

/-- The name of the class. -/
def name (a : Ancestor) : String := a.info.qualifiedName

/-- The class without types for its variables. -/
def bare (c : ClassInfo) : Ancestor := ⟨c, []⟩

end Ancestor

namespace Environment

/-- The class that a use of a class means. -/
def instance? (env : Environment) : JavaType → Option Ancestor
  | .named name args => (env.class? name).map fun c => ⟨c, c.bindings args⟩
  | _ => none

/-- What a class extends and implements, as far as it is known. -/
def parents (env : Environment) (a : Ancestor) : List Ancestor :=
  a.info.supertypes.filterMap fun t => env.instance? (t.substitute a.bindings)

/-- Those whose names are not among the given ones, each name once. -/
def unseen (seen : List String) : List Ancestor → List Ancestor
  | [] => []
  | a :: rest =>
    if seen.contains a.name then unseen seen rest else a :: unseen (a.name :: seen) rest

/-- A generation, and those above it that have not been seen, for so many generations. -/
def generations (env : Environment) : Nat → List String → List Ancestor → List Ancestor
  | _, _, [] => []
  | 0, _, _ => []
  | n + 1, seen, a :: rest =>
    let next := unseen seen ((a :: rest).flatMap env.parents)
    a :: rest ++ env.generations n (next.map Ancestor.name ++ seen) next

/-- The name of the class above all others. -/
def objectName : String := "java.lang.Object"

/-- The class above all others, if it is known. -/
def root? (env : Environment) : Option Ancestor := (env.class? objectName).map .bare

/-- The class that the members of a type are looked for in first. -/
def origin? (env : Environment) : JavaType → Option Ancestor
  | .variable _ => env.root?
  | t => env.instance? t

/-- The class of a type and everything above it. Every generation but the last holds a listed class that
no other generation holds, so that their number bounds the walk. Interfaces too end with the class
above all others. -/
def hierarchy (env : Environment) (t : JavaType) : List Ancestor :=
  match env.origin? t with
  | none => []
  | some a =>
    let above := env.generations (env.listedCount + 1) [a.name] [a]
    if above.any fun b => b.name == objectName then above else above ++ env.root?.toList

end Environment
end JavaIndex
