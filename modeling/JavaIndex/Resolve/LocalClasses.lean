import JavaIndex.Resolve.Basic

/-! Classes declared in bodies. On first sight such a class is described with all that is in it, before its
own members are resolved; it and its members get local symbols, and its name is one that no program can
write. -/
namespace JavaIndex.Resolve

/-- Members described so far. -/
structure Described where
  fields : List FieldInfo
  methods : List MethodInfo
  constructors : List MethodInfo
deriving Inhabited

namespace Described

/-- No members. -/
def none : Described := ⟨[], [], []⟩

/-- These members, and then those. -/
def append (a b : Described) : Described :=
  ⟨a.fields ++ b.fields, a.methods ++ b.methods, a.constructors ++ b.constructors⟩

/-- Fields alone. -/
def ofFields (fields : List FieldInfo) : Described := ⟨fields, [], []⟩

end Described

/-- The results of a step for each member of a list, one after the other. -/
def describeEach (step : α → Resolve Described) : List α → Resolve Described
  | [] => return .none
  | a :: rest => do
    let here ← step a
    return here.append (← describeEach step rest)

/-- A field. -/
def describeField (owner : Symbol) (name : Ident) (type : JavaType) (isStatic : Bool)
    (kind : SymbolKind) : Resolve Described := do
  match ← localSymbolIn (some owner) kind name.range with
  | some symbol => return .ofFields [⟨name.text, type, isStatic, symbol⟩]
  | none => return .none

/-- The types in the head of a method, whose type variables need only be known as such while it is read. -/
def headTypes (components : List (Ident × JavaType)) (m : MethodDecl) : Resolve CallableTypes :=
  withScopes (·.pushTypeParams m.typeParams fun p => some (Symbol.placeholder [p.name.text] false)) do
    return (← environment).callableTypes (← place) components m

/-- A method or a constructor. -/
def describeMethod (owner : Symbol) (self : JavaType) (components : List (Ident × JavaType))
    (m : MethodDecl) : Resolve Described := do
  let kind := if m.isConstructor then SymbolKind.constructor else .method
  match ← localSymbolIn (some owner) kind m.name.range with
  | none => return .none
  | some symbol =>
    let types ← headTypes components m
    if m.isConstructor then
      let name := Symbol.constructorName
      return ⟨[], [], [⟨name, types.params, types.varargs, self, false, symbol⟩]⟩
    else
      return ⟨[], [⟨m.name.text, types.params, types.varargs, types.returns, types.isStatic, symbol⟩],
        []⟩

/-- A member of a body. -/
def describeMember (owner : Symbol) (self : JavaType) (body : ClassBody)
    (components : List (Ident × JavaType)) : Member → Resolve Described
  | .field d _ _ => do
    let type := (← environment).convert (← place) d.type
    describeEach
      (fun v => describeField owner v.name (.arrayOf v.extraDims type)
        (body.hasStaticFields || d.modifiers.isStatic) .field)
      d.declarators
  | .method m => describeMethod owner self components m
  | .initializer _ _ => return .none
  | .type _ => return .none

/-- A method that is implied by something at a stretch of the text. -/
def describeImplied (owner : Symbol) (span : Span) (m : ImpliedMethod) : Resolve Described := do
  match ← localSymbolIn (some owner) .method span with
  | some symbol =>
    return ⟨[], [⟨m.name, m.types.params, m.types.varargs, m.types.returns, m.types.isStatic, symbol⟩],
      []⟩
  | none => return .none

/-- The method that reads a component, unless it has been declared. -/
def describeAccessor (owner : Symbol) (declared : List MethodInfo) (component : Ident × JavaType) :
    Resolve Described := do
  if declared.any fun m => m.name == component.1.text && m.params.isEmpty then return .none
  else describeImplied owner component.1.range (.accessor component)

/-- The methods that read components, each only if there is none of its name yet. -/
def describeAccessors (owner : Symbol) (declared : List MethodInfo) :
    List (Ident × JavaType) → Resolve Described
  | [] => return .none
  | component :: rest => do
    let here ← describeAccessor owner declared component
    return here.append (← describeAccessors owner (declared ++ here.methods) rest)

/-- A class with the members that its body declares or implies. -/
def describe (c : ClassInfo) (body : ClassBody) (span : Span) : Resolve ClassInfo := do
  let self := c.selfType
  let owner := c.symbol
  let constants ←
    describeEach (fun k => describeField owner k.name self true .enumConstant) body.constants
  let components := (← environment).componentTypes (← place) body.components
  let heads ← describeEach (fun (name, type) => describeField owner name type false .field) components
  let members ← describeEach (describeMember owner self body components) body.members
  let accessors ← describeAccessors owner members.methods components
  let implied := if body.kind = .enumType then ImpliedMethod.ofEnum self else []
  let ofEnum ← describeEach (describeImplied owner span) implied
  let all := constants.append (heads.append (members.append (accessors.append ofEnum)))
  return { c with fields := all.fields, methods := all.methods, constructors := all.constructors }

/-- A class known from now on. -/
def addClass (c : ClassInfo) : Resolve Unit :=
  modify fun p => { p with environment := p.environment.addLocal c }

/-- A name for a class that no program can write. -/
def freshClassName (sort : String) : Resolve String := do
  let p ← get
  set { p with classCount := p.classCount + 1 }
  return "<" ++ sort ++ ">" ++ toString p.classCount

/-- A class of which nothing but its name and its symbol is known. -/
def bareClass (name : String) (symbol : Symbol) : Resolve ClassInfo := do
  return ⟨name, (← read).imports.package, symbol, .local, [], none, [], [], [], [], false⟩

/-- The symbols of the type variables of a class. -/
def classTypeParams (symbol : Symbol) : List TypeParam → Resolve (List (String × Symbol))
  | [] => return []
  | p :: rest => do
    match ← localSymbolIn (some symbol) .typeParameter p.name.range with
    | some s => return (p.name.text, s) :: (← classTypeParams symbol rest)
    | none => classTypeParams symbol rest

/-- The name of a class means it from now on, if it has a name that can be written. -/
def bindClass (name : Option Ident) (c : ClassInfo) : Resolve Unit :=
  match name with
  | some name => bindType name.text (.ofClass c)
  | none => return

/-- What a declared class extends, read inside the class. -/
def supertypes (d : TypeDecl) (c : ClassInfo) (typeParams : List (String × Symbol)) :
    Resolve (Option JavaType × List JavaType) :=
  inClass c typeParams do return (← environment).supertypesOf (← place) d c

/-- A class with its type variables and all that it extends, which is known from now on. -/
def registerHead (d : TypeDecl) (name : String) (symbol : Symbol) (bound : Option Ident) :
    Resolve (ClassInfo × List (String × Symbol)) := do
  let typeParams ← classTypeParams symbol d.typeParams
  modify fun p => { p with typeParams := p.typeParams.insert name typeParams }
  let bare := { ← bareClass name symbol with typeParams := typeParams.map Prod.fst }
  addClass bare
  bindClass bound bare
  let (superclass, interfaces) ← supertypes d bare typeParams
  let c := { bare with superclass, interfaces }
  addClass c
  return (c, typeParams)

mutual

/-- A declared class and the types declared in it, all of which are known from now on. If a name is given,
it means the class in the scopes around. -/
def register (name : String) (symbol : Symbol) (bound : Option Ident) : TypeDecl → Resolve ClassInfo
  | ⟨kind, modifiers, ident, typeParams, extending, implementing, permitting, components, constants,
      members, doc, range⟩ => do
    let d : TypeDecl := ⟨kind, modifiers, ident, typeParams, extending, implementing, permitting,
      components, constants, members, doc, range⟩
    let (head, typeVars) ← registerHead d name symbol bound
    let c ← inClass head typeVars do
      registerMembers head.qualifiedName head.symbol members
      describe head (.ofDecl d) ident.range
    addClass c
    bindClass bound c
    return c

/-- The types declared among the members of a class. -/
def registerMembers (outer : String) (owner : Symbol) : List Member → Resolve Unit
  | [] => return
  | .type d :: rest => do
    match ← localSymbolIn (some owner) (.ofDecl d.kind) d.name.range with
    | some symbol => discard (register (outer ++ "." ++ d.name.text) symbol none d)
    | none => pure ()
    registerMembers outer owner rest
  | .field _ _ _ :: rest => registerMembers outer owner rest
  | .method _ :: rest => registerMembers outer owner rest
  | .initializer _ _ :: rest => registerMembers outer owner rest

end

/-- A class declared by a statement, with the symbols of its type variables. It is visible in its own body
and in the rest of the block. -/
def localClass (d : TypeDecl) : Resolve (Option (ClassInfo × List (String × Symbol))) := do
  match ← localSymbol (.ofDecl d.kind) d.name.range with
  | none => return none
  | some symbol =>
    let name ← freshClassName "local"
    let c ← register name symbol (some d.name) d
    return some (c, ((← get).typeParams[name]?).getD [])

/-- What a class without a name extends: the type it is created from, beside the class above all others if
that type is an interface. -/
def unnamedSupertypes (parent : Option ClassInfo) (type : JavaType) :
    Option JavaType × List JavaType :=
  match parent with
  | some c => if c.isInterface then (some .object, [type]) else (some type, [])
  | none => (some .object, [])

/-- The class of a body without a name, at a stretch of the text. -/
def unnamedClass (parent : Option ClassInfo) (type : JavaType) (members : List Member) (span : Span) :
    Resolve (Option ClassInfo) := do
  match ← localSymbol .classType span with
  | none => return none
  | some symbol =>
    let name ← freshClassName "anon"
    let (superclass, interfaces) := unnamedSupertypes parent type
    let head := { ← bareClass name symbol with superclass, interfaces }
    addClass head
    let c ← inClass head [] do
      registerMembers head.qualifiedName head.symbol members
      describe head (.unnamed members) span
    addClass c
    return some c

end JavaIndex.Resolve
