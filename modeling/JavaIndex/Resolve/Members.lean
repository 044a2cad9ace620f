import JavaIndex.Resolve.LocalClasses

/-! The symbols of the declarations in a class body, as they are met one after the other. They are those
with which the class was described, so that a declaration and its uses agree. -/
namespace JavaIndex

/-- A class, and the names of its methods met so far. Constructors go under a name of their own. -/
structure MemberNames where
  info : ClassInfo
  seen : OverloadCounter
deriving Inhabited

namespace MemberNames

/-- No member met. -/
def start (c : ClassInfo) : MemberNames := ⟨c, .empty⟩

/-- The symbol of a field, a constant or a component. -/
def field (names : MemberNames) (name : String) (kind : SymbolKind) : Except NamingError Symbol :=
  match names.info.field? name with
  | some f => .ok f.symbol
  | none => Symbol.ofDeclaration (.member name kind) (some names.info.symbol)

/-- The name under which a method is counted. -/
def counted (m : MethodDecl) : String :=
  if m.isConstructor then Symbol.constructorName else m.name.text

/-- What the description of a class in a body says about the next method: as many of its sort come before
it as have been met. -/
def described? (names : MemberNames) (m : MethodDecl) : Option MethodInfo :=
  let constructors := names.seen.peek Symbol.constructorName
  if m.isConstructor then names.info.constructors[constructors]?
  else names.info.methods[names.seen.length - constructors]?

/-- The symbol of the next method. -/
def callable (names : MemberNames) (m : MethodDecl) : Except NamingError Symbol :=
  if names.info.origin = .local then
    match names.described? m with
    | some described => .ok described.symbol
    | none => .error ⟨m.name.text, .notDescribed⟩
  else
    let number := names.seen.peek (counted m)
    let declaration : Declaration :=
      if m.isConstructor then .constructor number else .method m.name.text number
    Symbol.ofDeclaration declaration (some names.info.symbol)

/-- The names after a member has been met. -/
def after (names : MemberNames) : Member → MemberNames
  | .method m => { names with seen := names.seen.add (counted m) }
  | _ => names

end MemberNames

namespace Resolve

/-- A symbol, unless the declaration has none where it stands, which is reported. -/
def nameOrReport (name : Ident) (symbol : Except NamingError Symbol) : Resolve (Option Symbol) := do
  match symbol with
  | .ok symbol => return some symbol
  | .error e =>
    malformed name e
    return none

/-- A type declared outside all bodies or in a class: its class, with the symbols of its type variables. A
type that is not known has no name where it stands. -/
def knownClass (d : TypeDecl) (name : String) :
    Resolve (Option (ClassInfo × List (String × Symbol))) := do
  match (← environment).class? name with
  | some c =>
    return some (c, ((← get).typeParams[c.qualifiedName]?).getD c.typeParamSymbols)
  | none =>
    let package := (← environment).packageSymbol (← read).imports.package
    let owner := (← get).enclosing.head?.getD package
    match Symbol.ofDeclaration (.type d.name.text (.ofDecl d.kind)) (some owner) with
    | .ok _ => return none
    | .error e =>
      malformed d.name e
      return none

/-- The symbols of the type variables of a declared type. -/
def boundTypeParams (known : List (String × Symbol)) (params : List TypeParam) :
    List (Option Symbol) :=
  params.map fun p => (known.find? fun (name, _) => name == p.name.text).map Prod.snd

/-- The methods that a method overrides. -/
def overriddenBy (c : ClassInfo) (symbol : Symbol) (m : MethodDecl) : Resolve (List Symbol) := do
  if m.isConstructor || m.modifiers.isStatic then return []
  else
    let params := ((c.methods.find? fun d => d.symbol == symbol).map MethodInfo.params).getD []
    return (← environment).overridden c m.name.text params

/-- The symbol of a type variable of a method. -/
def methodTypeParam (method : Symbol) (p : TypeParam) : Resolve (Option Symbol) :=
  if method.isLocal then localSymbol .typeParameter p.name.range
  else nameOrReport p.name (Symbol.ofDeclaration (.typeParameter p.name.text) (some method))

/-- The symbols of the type variables of a method, all of which are visible before any of their bounds is
read. -/
def methodTypeParams (method : Symbol) : List TypeParam → Resolve (List (Option Symbol))
  | [] => return []
  | p :: rest => do
    let symbol ← methodTypeParam method p
    match symbol with
    | some s => bindType p.name.text (.typeParam p.name.text s)
    | none => pure ()
    return symbol :: (← methodTypeParams method rest)

end Resolve
end JavaIndex
