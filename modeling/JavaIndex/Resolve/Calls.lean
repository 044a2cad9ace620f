import JavaIndex.JavaType.Operators
import JavaIndex.Resolve.Names

/-! How methods and constructors are mentioned by the expressions that call or name them. -/
namespace JavaIndex

/-- The word of a call from one constructor to another. -/
def Delegate.word : Delegate → String
  | .this => "this"
  | .super => "super"

namespace Resolve

/-- The method that a call means, mentioned over a stretch of the text. A call that several methods fit
equally well is reported. -/
def mentionSelected (span : Span) (name : String) (candidates : List Candidate)
    (args : List JavaType) : Resolve (Option Candidate) := do
  match Selection.select candidates args with
  | .unique c =>
    reference span c.symbol
    return some c
  | .ambiguous c survivors =>
    reference span c.symbol
    report span (.ambiguous name c.symbol survivors)
    return some c
  | .notFound => return none

/-- The methods that a call may mean, by what stands before its dot. -/
def calledMethods (receiver : Option Receiver) (name : String) : Resolve (List Candidate) := do
  match receiver with
  | some r => return (← environment).methods r.type name
  | none => return (← environment).callables (← place) name

/-- A call of a method, and the type of what it returns. -/
def callMethod (name : Ident) (candidates : List Candidate) (args : List JavaType) :
    Resolve JavaType := do
  match ← mentionSelected name.range name.text candidates args with
  | some c => return c.returns
  | none =>
    unresolved [name] true
    return .unknown

/-- The class whose constructor a constructor calls first, with its type arguments. -/
def delegateClass (kind : Delegate) : Resolve (Option (ClassInfo × List JavaType)) := do
  match (← get).scopes.enclosingClass? with
  | none => return none
  | some c =>
    match kind, c.superclass with
    | .this, _ => return some (c, [])
    | .super, some (.named name args) =>
      return ((← environment).class? name).map fun parent => (parent, args)
    | .super, _ => return none

/-- A call from one constructor to another, which mentions nothing if none is known. -/
def callDelegate (kind : Delegate) (keyword : Span) (args : List JavaType) : Resolve Unit := do
  match ← delegateClass kind with
  | some (c, typeArgs) =>
    discard (mentionSelected keyword kind.word (Environment.constructors c typeArgs) args)
  | none => return

/-- The inner class that is created inside a given object. -/
def innerClass (outer : Receiver) (name : Ident) : Resolve NamedType := do
  let env ← environment
  let inner? := ((outer.type.className?).bind env.class?).bind fun c => env.memberType? c name.text
  match inner? with
  | some inner => return ⟨inner.selfType, some inner⟩
  | none =>
    unresolved [name] false
    return ⟨.unknown, none⟩

/-- The type arguments of a type. -/
def typeArgsOf : JavaType → List JavaType
  | .named _ args => args
  | _ => []

/-- The creation of an object, mentioned over the name of its class: the constructor that fits, or the
class if it declares none. -/
def callConstructor (name : Ident) (created : NamedType) (args : List JavaType) : Resolve Unit := do
  match created.info with
  | none => return
  | some c =>
    let candidates := Environment.constructors c (typeArgsOf created.type)
    match ← mentionSelected name.range name.text candidates args with
    | some _ => return
    | none => reference name.range c.symbol

/-- A method that is named without arguments. The first candidate is taken, and others are reported. -/
def mentionFirst (name : Ident) (candidates : List Candidate) : Resolve Bool := do
  match candidates with
  | [] => return false
  | c :: rest =>
    reference name.range c.symbol
    unless rest.isEmpty do
      report name.range (.ambiguous name.text c.symbol (candidates.map Candidate.symbol))
    return true

/-- A reference to a method or a constructor of what stands before the colons. -/
def mentionMethod (receiver : Receiver) (name : Ident) : Resolve Unit := do
  if name.text = "new" then
    match receiver with
    | .ofClass c =>
      unless ← mentionFirst name (Environment.constructors c []) do
        reference name.range c.symbol
    | _ => return
  else
    unless ← mentionFirst name ((← environment).methods receiver.type name.text) do
      unresolved [name] true

/-- What a written type before the colons of a method reference denotes. -/
def receiverOfType (t : JavaType) : Resolve Receiver := do
  match t.className?.bind (← environment).class? with
  | some c => return .ofClass c
  | none => return .value t

/-- What `this` denotes. -/
def thisType : Resolve JavaType := do
  return (((← get).scopes.enclosingClass?).map ClassInfo.selfType).getD .unknown

/-- What `super` denotes, alone or after the name of an interface. -/
def superOf (qualifier : Option Receiver) : Resolve Receiver := do
  match qualifier with
  | some (.ofClass c) => return .value c.selfType
  | some other => return other
  | none =>
    return ((((← get).scopes.enclosingClass?).bind ClassInfo.superclass).map .value).getD .unknown

/-- The constant of an enum that a case names without the enum. -/
def enumConstant? (selector : JavaType) (label : Expr) : Resolve (Option (Ident × Symbol)) := do
  let env ← environment
  match label, selector.className?.bind env.class? with
  | .name name, some c =>
    if c.kind = .enumType then
      return (env.field? c.selfType name.text).map fun f => (name, f.symbol)
    else return none
  | _, _ => return none

/-- A case that names a constant of an enum, or else an expression resolved by the given step. -/
def caseLabel (selector : JavaType) (label : Expr) (expression : Resolve Unit) : Resolve Unit := do
  match ← enumConstant? selector label with
  | some (name, symbol) => reference name.range symbol
  | none => expression

end Resolve
end JavaIndex
