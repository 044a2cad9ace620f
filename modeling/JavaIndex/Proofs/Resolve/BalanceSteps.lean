import JavaIndex.Proofs.Resolve.Balance
import JavaIndex.Proofs.Resolve.TypeSegments
import JavaIndex.Resolve.Calls
import JavaIndex.Resolve.Members

/-! The steps between the parts of a tree. All of them close what they open, and only a local declaration and a
type variable are bound where they stand. -/
namespace JavaIndex

namespace Moves

variable {α : Type} {r : Progress → Progress → Prop} [Progress.Frame r]

/-! Names. -/

theorem typePath (names : List Ident) : Moves r (Resolve.typePath names) := environment.both place

theorem mentionPath (names : List Ident) (path : List Segment) : Moves r (Resolve.mentionPath names path) :=
  (mentionAll _).seq (unresolved _ _)

theorem namedType (names : List Ident) (mentionClass : Bool) {annotations : Resolve Unit}
    {args : Resolve (List JavaType)} (onNames : Moves r annotations) (inBrackets : Moves r args) :
    Moves r (Resolve.namedType names mentionClass annotations args) := by
  rw [Resolve.namedType_eq]
  apply (typePath names).bind
  intro path
  apply onNames.seq
  cases mentionClass with
  | true => exact (mentionPath _ _).seq inBrackets.answering
  | false => exact (mentionPath _ _).seq inBrackets.answering

theorem annotationType (names : List Ident) : Moves r (Resolve.annotationType names) :=
  (typePath names).bind fun _ => (mentionPath _ _).answering

theorem annotationElement (c : Option ClassInfo) (name : Option Ident) :
    Moves r (Resolve.annotationElement c name) := by
  unfold Resolve.annotationElement
  split
  · exact mention _ _
  · exact pure ()

theorem qualifiedName (names : List Ident) : Moves r (Resolve.qualifiedName names) :=
  environment.bind fun _ => (mentionPath _ _).answering

theorem importedMember (c : ClassInfo) (name : Ident) : Moves r (Resolve.importedMember c name) := by
  apply environment.bind
  intro env
  split
  · exact reference _ _
  · exact unresolved _ _

theorem importDecl (i : ImportDecl) : Moves r (Resolve.importDecl i) := by
  unfold Resolve.importDecl
  split
  · split
    · exact pure ()
    · apply (qualifiedName _).bind
      intro found
      cases found with
      | none => exact pure ()
      | some c => exact importedMember c _
  · exact (qualifiedName _).discard

theorem nameChain (names : List Ident) : Moves r (Resolve.nameChain names) := by
  apply environment.bind
  intro env
  apply place.bind
  intro here
  apply (mentionAll _).seq
  split
  · exact pure _
  · exact (unresolved _ _).answering

theorem selectMember (receiver : Receiver) (name : Ident) : Moves r (Resolve.selectMember receiver name) := by
  apply environment.bind
  intro env
  split
  · exact (mention _ _).answering
  · exact (unresolved _ _).answering

/-! Calls. -/

theorem mentionSelected (span : Span) (name : String) (candidates : List Candidate) (args : List JavaType) :
    Moves r (Resolve.mentionSelected span name candidates args) := by
  unfold Resolve.mentionSelected
  split
  · exact (reference _ _).answering
  · exact (reference _ _).seq (report _ _).answering
  · exact pure _

theorem calledMethods (receiver : Option Receiver) (name : String) :
    Moves r (Resolve.calledMethods receiver name) := by
  cases receiver with
  | none => exact environment.both place
  | some receiver => exact environment.answering

theorem callMethod (name : Ident) (candidates : List Candidate) (args : List JavaType) :
    Moves r (Resolve.callMethod name candidates args) := by
  apply (mentionSelected _ _ _ _).bind
  intro found
  cases found with
  | none => exact (unresolved _ _).answering
  | some c => exact pure _

theorem delegateClass (kind : Delegate) : Moves r (Resolve.delegateClass kind) := by
  apply progress.bind
  intro p
  split
  · exact pure _
  · split
    · exact pure _
    · exact environment.answering
    · exact pure _

theorem callDelegate (kind : Delegate) (keyword : Span) (args : List JavaType) :
    Moves r (Resolve.callDelegate kind keyword args) := by
  apply (delegateClass kind).bind
  intro found
  cases found with
  | none => exact pure ()
  | some c => exact (mentionSelected _ _ _ _).discard

theorem innerClass (outer : Receiver) (name : Ident) : Moves r (Resolve.innerClass outer name) := by
  apply environment.bind
  intro env
  dsimp only
  split
  · exact pure _
  · exact (unresolved _ _).answering

theorem callConstructor (name : Ident) (created : NamedType) (args : List JavaType) :
    Moves r (Resolve.callConstructor name created args) := by
  unfold Resolve.callConstructor
  split
  · exact pure ()
  · apply (mentionSelected _ _ _ _).bind
    intro found
    cases found with
    | none => exact reference _ _
    | some c => exact pure ()

theorem mentionFirst (name : Ident) (candidates : List Candidate) : Moves r (Resolve.mentionFirst name candidates) := by
  cases candidates with
  | nil => exact pure _
  | cons c rest =>
    apply (reference _ _).seq
    cases rest with
    | nil => exact pure _
    | cons other more => exact (report _ _).answering

theorem mentionMethod (receiver : Receiver) (name : Ident) : Moves r (Resolve.mentionMethod receiver name) := by
  unfold Resolve.mentionMethod
  split
  · split
    · apply (mentionFirst _ _).bind
      intro known
      cases known with
      | true => exact pure ()
      | false => exact reference _ _
    · exact pure ()
  · apply environment.bind
    intro env
    apply (mentionFirst _ _).bind
    intro known
    cases known with
    | true => exact pure ()
    | false => exact unresolved [name] true

theorem receiverOfType (type : JavaType) : Moves r (Resolve.receiverOfType type) := by
  apply environment.bind
  intro env
  split
  · exact pure _
  · exact pure _

theorem thisType : Moves r Resolve.thisType := progress.answering

theorem superOf (qualifier : Option Receiver) : Moves r (Resolve.superOf qualifier) := by
  unfold Resolve.superOf
  split
  · exact pure _
  · exact pure _
  · exact progress.answering

theorem caseLabel (selector : JavaType) (label : Expr) {expression : Resolve Unit} (h : Moves r expression) :
    Moves r (Resolve.caseLabel selector label expression) := by
  have constant : Moves r (Resolve.enumConstant? selector label) := by
    apply environment.bind
    intro env
    split
    · split
      · exact pure _
      · exact pure _
    · exact pure _
  apply constant.bind
  intro found
  cases found with
  | none => exact h
  | some found => exact reference _ _

/-! Classes in bodies. While one is described, its scope is opened several times. -/

theorem describeEach {step : α → Resolve Resolve.Described} (h : ∀ a, Moves r (step a)) (xs : List α) :
    Moves r (Resolve.describeEach step xs) := by
  induction xs with
  | nil => exact pure _
  | cons a rest ih => exact (h a).both ih

theorem describeField (owner : Symbol) (name : Ident) (type : JavaType) (isStatic : Bool) (kind : SymbolKind) :
    Moves r (Resolve.describeField owner name type isStatic kind) := by
  apply (localSymbolIn _ _ _).bind
  intro found
  cases found with
  | none => exact pure _
  | some symbol => exact pure _

theorem headTypes (components : List (Ident × JavaType)) (m : MethodDecl) :
    Moves r (Resolve.headTypes components m) := by
  have read : Resolve.Balanced (do
      return (← Resolve.environment).callableTypes (← Resolve.place) components m) := environment.both place
  exact read.withScopes fun ss => ss.tail_pushTypeParams _ _

theorem describeMethod (owner : Symbol) (self : JavaType) (components : List (Ident × JavaType)) (m : MethodDecl) :
    Moves r (Resolve.describeMethod owner self components m) := by
  apply (localSymbolIn _ _ _).bind
  intro found
  cases found with
  | none => exact pure _
  | some symbol =>
    apply (headTypes components m).bind
    intro types
    dsimp only
    split
    · exact pure _
    · exact pure _

theorem describeMember (owner : Symbol) (self : JavaType) (body : ClassBody) (components : List (Ident × JavaType))
    (m : Member) : Moves r (Resolve.describeMember owner self body components m) := by
  cases m with
  | field d doc range =>
    exact environment.bind fun _ => place.bind fun _ => describeEach (fun _ => describeField _ _ _ _ _) _
  | method m => exact describeMethod owner self components m
  | initializer isStatic body => exact pure _
  | type d => exact pure _

theorem describeImplied (owner : Symbol) (span : Span) (m : ImpliedMethod) :
    Moves r (Resolve.describeImplied owner span m) := by
  apply (localSymbolIn _ _ _).bind
  intro found
  cases found with
  | none => exact pure _
  | some symbol => exact pure _

theorem describeAccessors (owner : Symbol) (declared : List MethodInfo) (components : List (Ident × JavaType)) :
    Moves r (Resolve.describeAccessors owner declared components) := by
  induction components generalizing declared with
  | nil => exact pure _
  | cons component rest ih =>
    have one : Moves r (Resolve.describeAccessor owner declared component) := by
      unfold Resolve.describeAccessor
      split
      · exact pure _
      · exact describeImplied _ _ _
    exact one.bind fun _ => (ih _).answering

theorem describe (c : ClassInfo) (body : ClassBody) (span : Span) : Moves r (Resolve.describe c body span) := by
  apply (describeEach (fun _ => describeField _ _ _ _ _) _).bind
  intro constants
  apply environment.bind
  intro env
  apply place.bind
  intro here
  apply (describeEach (fun _ => describeField _ _ _ _ _) _).bind
  intro heads
  apply (describeEach (fun _ => describeMember _ _ _ _ _) _).bind
  intro members
  apply (describeAccessors _ _ _).bind
  intro accessors
  exact (describeEach (fun _ => describeImplied _ _ _) _).answering

theorem addClass (c : ClassInfo) : Moves r (Resolve.addClass c) := elsewhere fun _ => ⟨rfl, rfl, rfl⟩

theorem freshClassName (sort : String) : Moves r (Resolve.freshClassName sort) :=
  ofSealed ⟨fun _ _ => ⟨rfl, rfl, rfl⟩⟩

theorem bareClass (name : String) (symbol : Symbol) : Moves r (Resolve.bareClass name symbol) := setting.answering

theorem bindClass (name : Option Ident) (c : ClassInfo) : Resolve.Balanced (Resolve.bindClass name c) := by
  cases name with
  | none => exact pure ()
  | some name => exact bindType _ _

theorem classTypeParams (symbol : Symbol) (params : List TypeParam) :
    Moves r (Resolve.classTypeParams symbol params) := by
  induction params with
  | nil => exact pure _
  | cons p rest ih =>
    apply (localSymbolIn _ _ _).bind
    intro found
    cases found with
    | none => exact ih
    | some s => exact ih.answering

theorem supertypes (d : TypeDecl) (c : ClassInfo) (vars : List (String × Symbol)) :
    Moves r (Resolve.supertypes d c vars) :=
  inClass c vars (environment.both place)

theorem registerHead (d : TypeDecl) (name : String) (symbol : Symbol) (bound : Option Ident) :
    Resolve.Balanced (Resolve.registerHead d name symbol bound) := by
  apply (classTypeParams symbol d.typeParams).bind
  intro vars
  have noted : Resolve.Balanced
      (modify fun p => { p with typeParams := p.typeParams.insert name vars } : Resolve Unit) :=
    elsewhere fun _ => ⟨rfl, rfl, rfl⟩
  apply noted.seq
  apply (bareClass name symbol).bind
  intro bare
  apply (addClass _).seq
  apply (bindClass bound _).seq
  apply (supertypes d _ vars).bind
  intro types
  exact (addClass _).answering

mutual

theorem register (name : String) (symbol : Symbol) (bound : Option Ident) : ∀ d : TypeDecl,
    Resolve.Balanced (Resolve.register name symbol bound d)
  | ⟨kind, modifiers, ident, typeParams, extending, implementing, permitting, components, constants,
      members, doc, range⟩ => by
    rw [Resolve.register]
    apply (registerHead _ name symbol bound).bind
    intro head
    apply (inClass head.1 head.2 ((registerMembers _ _ members).seq (describe _ _ _))).bind
    intro c
    exact (addClass c).seq (bindClass bound c).answering

theorem registerMembers (outer : String) (owner : Symbol) : ∀ ms : List Member,
    Resolve.Balanced (Resolve.registerMembers outer owner ms)
  | [] => pure ()
  | .type d :: rest => by
    rw [Resolve.registerMembers]
    apply (localSymbolIn _ _ _).bind
    intro found
    cases found with
    | none => exact registerMembers outer owner rest
    | some symbol => exact (register _ symbol none d).discard.seq (registerMembers outer owner rest)
  | .field _ _ _ :: rest => registerMembers outer owner rest
  | .method _ :: rest => registerMembers outer owner rest
  | .initializer _ _ :: rest => registerMembers outer owner rest

end

theorem localClass (d : TypeDecl) : Resolve.Balanced (Resolve.localClass d) := by
  apply (localSymbol _ _).bind
  intro found
  cases found with
  | none => exact pure _
  | some symbol =>
    apply (freshClassName _).bind
    intro name
    exact (register name symbol _ d).both progress

theorem unnamedClass (parent : Option ClassInfo) (type : JavaType) (members : List Member) (span : Span) :
    Moves r (Resolve.unnamedClass parent type members span) := by
  apply (localSymbol _ _).bind
  intro found
  cases found with
  | none => exact pure _
  | some symbol =>
    apply (freshClassName _).bind
    intro name
    apply (bareClass name symbol).bind
    intro bare
    apply (addClass _).seq
    apply (inClass _ [] ((registerMembers _ _ members).seq (describe _ _ _))).bind
    intro c
    exact (addClass c).answering

/-! Members. -/

theorem nameOrReport (name : Ident) (symbol : Except NamingError Symbol) :
    Moves r (Resolve.nameOrReport name symbol) := by
  cases symbol with
  | ok symbol => exact pure _
  | error e => exact (report _ _).answering

theorem knownClass (d : TypeDecl) (name : String) : Moves r (Resolve.knownClass d name) := by
  apply environment.bind
  intro env
  split
  · exact progress.answering
  · apply environment.bind
    intro env
    apply setting.bind
    intro s
    apply progress.bind
    intro p
    dsimp only
    split
    · exact pure _
    · exact (report _ _).answering

theorem overriddenBy (c : ClassInfo) (symbol : Symbol) (m : MethodDecl) :
    Moves r (Resolve.overriddenBy c symbol m) := by
  unfold Resolve.overriddenBy
  split
  · exact pure _
  · exact environment.answering

theorem methodTypeParams (method : Symbol) (params : List TypeParam) :
    Resolve.Balanced (Resolve.methodTypeParams method params) := by
  induction params with
  | nil => exact pure _
  | cons p rest ih =>
    have drawn : Resolve.Balanced (Resolve.methodTypeParam method p) := by
      unfold Resolve.methodTypeParam
      split
      · exact localSymbol _ _
      · exact nameOrReport _ _
    apply drawn.bind
    intro found
    cases found with
    | none => exact ih.answering
    | some symbol => exact (bindType _ _).seq ih.answering

end Moves
end JavaIndex
