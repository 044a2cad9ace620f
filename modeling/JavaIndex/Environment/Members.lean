import JavaIndex.Environment.Hierarchy
import JavaIndex.Overload

/-! Members as they are seen from a type: declared in its class or inherited, with types for the type
variables of the class that declares them. -/
namespace JavaIndex

namespace Candidate

/-- The method with types for type variables. -/
def substitute (c : Candidate) (b : JavaType.Bindings) : Candidate :=
  { c with params := c.params.map (·.substitute b), returns := c.returns.substitute b }

/-- The parameters of both have the same types once type arguments are dropped. -/
def sameParams (c d : Candidate) : Bool :=
  c.params.length == d.params.length
    && (c.params.zip d.params).all fun (s, t) => s.sameErasure t

end Candidate

namespace Environment

/-- The member type of a name, declared or inherited. -/
def memberType? (env : Environment) (c : ClassInfo) (name : String) : Option ClassInfo :=
  (env.hierarchy c.selfType).findSome? fun a => env.class? (a.name ++ "." ++ name)

/-- The field of a name that one class declares, or the constant that is generated for it. -/
def declaredField? (env : Environment) (a : Ancestor) (name : String) : Option FieldInfo :=
  match a.info.field? name with
  | some f => some { f with type := f.type.substitute a.bindings }
  | none => env.external.constant? a.info name

/-- The field of a name as a type sees it. -/
def field? (env : Environment) (t : JavaType) (name : String) : Option FieldInfo :=
  (env.hierarchy t).findSome? fun a => env.declaredField? a name

/-- One more method, unless one with the same parameters is there. -/
def addMethod (found : List Candidate) (c : Candidate) : List Candidate :=
  if found.any fun d => d.sameParams c then found else found ++ [c]

/-- The methods of a name that one class declares. -/
def declaredMethods (a : Ancestor) (name : String) : List Candidate :=
  (a.info.methodsNamed name).map fun m => (Candidate.ofMethod m).substitute a.bindings

/-- The methods of a name as a type sees them, those declared nearest first. A method overridden nearer is
not listed again. -/
def methods (env : Environment) (t : JavaType) (name : String) : List Candidate :=
  ((env.hierarchy t).flatMap fun a => declaredMethods a name).foldl addMethod []

/-- The constructors of a class that is created with type arguments. -/
def constructors (c : ClassInfo) (args : List JavaType) : List Candidate :=
  let b := c.bindings args
  c.constructors.map fun m =>
    let candidate := Candidate.ofMethod m
    { candidate with params := candidate.params.map (·.substitute b) }

/-- A method with these parameters takes the place of the inherited one: the parameters agree, where a
type variable of the inherited one agrees with everything. -/
def isOverriddenBy (m : MethodInfo) (b : JavaType.Bindings) (params : List JavaType) : Bool :=
  let inherited := m.params.map (·.substitute b)
  let agrees : JavaType × JavaType → Bool
    | (.variable _, _) => true
    | (s, t) => s.sameErasure t
  m.params.length == params.length && (inherited.zip params).all agrees && !m.isStatic

/-- The inherited methods that a method of a class with this name and these parameters overrides. -/
def overridden (env : Environment) (c : ClassInfo) (name : String) (params : List JavaType) :
    List Symbol :=
  ((env.hierarchy c.selfType).drop 1).flatMap fun a =>
    ((a.info.methodsNamed name).filter fun m => isOverriddenBy m a.bindings params).map
      MethodInfo.symbol

end Environment
end JavaIndex
