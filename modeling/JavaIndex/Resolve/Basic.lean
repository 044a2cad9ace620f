import JavaIndex.Environment.Outline
import JavaIndex.Environment.ValueNames
import JavaIndex.Index.Emission
import JavaIndex.Index.Signature
import JavaIndex.Symbol.LocalIds
import JavaIndex.Text.LineIndex

/-! The state in which a file is resolved, and the steps that everything else is made of: scopes are
opened, local declarations get numbers, and mentions and problems are noted. -/
namespace JavaIndex

/-- What stays the same while a part of a file is resolved. -/
structure Setting where
  file : FileId
  source : String
  lines : LineIndex
  config : Config
  imports : Imports

/-- What changes on the way through a file. -/
structure Progress where
  scopes : Scopes
  /-- The declarations around, the innermost first. -/
  enclosing : List Symbol
  /-- All classes known, those in the bodies passed so far among them. -/
  environment : Environment
  /-- The type variables of the classes in bodies, by the names of the classes. -/
  typeParams : Std.TreeMap String (List (String × Symbol))
  /-- How many classes in bodies have been named. -/
  classCount : Nat
  ids : LocalIds
  emission : Emission
  /-- The problems found, the latest first. -/
  problems : List Diagnostic

/-- A step on the way through a file. -/
abbrev Resolve := ReaderT Setting (StateM Progress)

namespace Resolve

/-- All classes known. -/
def environment : Resolve Environment := return (← get).environment

/-- Where a name at this point stands. -/
def place : Resolve Place := return ⟨(← get).scopes, (← read).imports⟩

/-! Scopes. -/

/-- The step in one more scope, which is opened as said and is closed when the step is done. -/
def withScopes (opened : Scopes → Scopes) (step : Resolve α) : Resolve α := do
  modify fun p => { p with scopes := opened p.scopes }
  let a ← step
  modify fun p => { p with scopes := p.scopes.tail }
  return a

/-- The step in a scope of its own. -/
def inScope (kind : ScopeKind) (step : Resolve α) : Resolve α :=
  withScopes (·.push kind none) step

/-- The step in the body of a class. -/
def inClass (c : ClassInfo) (typeParams : List (String × Symbol)) (step : Resolve α) : Resolve α :=
  withScopes (·.pushClass c typeParams) step

/-- The step with a declaration around it, if one is given. -/
def enclosedBy (owner : Option Symbol) (step : Resolve α) : Resolve α :=
  match owner with
  | some owner => do
    modify fun p => { p with enclosing := owner :: p.enclosing }
    let a ← step
    modify fun p => { p with enclosing := p.enclosing.tail }
    return a
  | none => step

/-- The step in a body that numbers its local declarations: of a method, an initializer, or a field. -/
def inBody (owner : Option Symbol) (step : Resolve α) : Resolve α :=
  enclosedBy owner do
    modify fun p => { p with ids := p.ids.enter }
    let a ← withScopes (·.push .methodBody owner) step
    modify fun p => { p with ids := p.ids.leave }
    return a

/-- The name of a value means this from now on, as far as the innermost scope reaches. -/
def bindValue (name : String) (b : ValueBinding) : Resolve Unit :=
  modify fun p => { p with scopes := p.scopes.bindValue name b }

/-- The name of a type means this from now on, as far as the innermost scope reaches. -/
def bindType (name : String) (b : TypeBinding) : Resolve Unit :=
  modify fun p => { p with scopes := p.scopes.bindType name b }

/-! Mentions and problems. -/

/-- A problem at a stretch of the text. -/
def report (span : Span) (problem : Problem) : Resolve Unit := do
  let s ← read
  modify fun p => { p with problems := ⟨s.file, s.lines.region span, problem⟩ :: p.problems }

/-- A use of a symbol. -/
def reference (span : Span) (symbol : Symbol) : Resolve Unit := do
  let s ← read
  modify fun p =>
    { p with emission := p.emission.reference (s.lines.region span) symbol p.enclosing.head? }

/-- A use of a symbol over a name, unless there is no symbol. -/
def mention (name : Ident) (symbol : Option Symbol) : Resolve Unit :=
  match symbol with
  | some symbol => reference name.range symbol
  | none => return

/-- Uses of symbols over names, one for each name that has one. -/
def mentionAll : List (Ident × Option Symbol) → Resolve Unit
  | [] => return
  | (name, symbol) :: rest => do
    mention name symbol
    mentionAll rest

/-- The declaration of a symbol over its name, with what is known of it. -/
def define (name : Ident) (symbol : Symbol) (signature : String) (doc : Option Comment)
    (overrides : List Symbol) : Resolve Unit := do
  let s ← read
  let documentation : Option Documentation :=
    if s.config.documentation then some ⟨signature, Signature.comment? doc⟩ else none
  let occurrence : Occurrence :=
    ⟨s.lines.region name.range, symbol, .definition, (← get).enclosing.head?, documentation⟩
  let info : SymbolInfo := ⟨symbol, name.text, some signature, overrides⟩
  modify fun p => { p with emission := (p.emission.emit occurrence).note info }

/-- Names that mean nothing known, of which there may be none. They are reported together at the first of
them, and each is marked by a symbol that stands for it. -/
def unresolved (names : List Ident) (isValue : Bool) : Resolve Unit := do
  match names with
  | [] => return
  | first :: _ =>
    report first.range (.unresolved (Ident.dotted names))
    if (← read).config.emitUnresolved then
      mentionAll (names.zip ((Symbol.placeholderChain (names.map Ident.text) isValue).map some))

/-- A declaration that has no name where it stands. -/
def malformed (name : Ident) (error : NamingError) : Resolve Unit :=
  report name.range (.malformed error)

/-! Local declarations. -/

/-- The next number for a local declaration. -/
def freshNumber : Resolve Nat := do
  let (number, ids) := (← get).ids.fresh
  modify fun p => { p with ids }
  return number

/-- The symbol of a local declaration inside an owner, at a stretch of the text. -/
def localSymbolIn (owner : Option Symbol) (kind : SymbolKind) (span : Span) :
    Resolve (Option Symbol) := do
  let number ← freshNumber
  match Symbol.ofDeclaration (.local number kind) owner with
  | .ok symbol => return some symbol
  | .error e => do
    report span (.malformed e)
    return none

/-- The symbol of a local declaration. -/
def localSymbol (kind : SymbolKind) (span : Span) : Resolve (Option Symbol) := do
  localSymbolIn (← get).enclosing.head? kind span

/-- A parameter or a local variable, which can be mentioned from now on. -/
def declareLocal (name : Ident) (kind : SymbolKind) (type : JavaType) (signature : String) :
    Resolve Unit := do
  match ← localSymbol kind name.range with
  | some symbol =>
    define name symbol signature none []
    bindValue name.text ⟨symbol, type⟩
  | none => return

/-- A variable with an initial value. Its type is given, and it is visible inside its own initial value;
or it is the type of the initial value, and it is visible after that. -/
def declareVariable (name : Ident) (type : Option JavaType) (signature : String)
    (init : Resolve JavaType) : Resolve Unit := do
  match ← localSymbol .localVariable name.range with
  | none => discard init
  | some symbol =>
    define name symbol signature none []
    match type with
    | some type =>
      bindValue name.text ⟨symbol, type⟩
      discard init
    | none => bindValue name.text ⟨symbol, ← init⟩

end Resolve
end JavaIndex
