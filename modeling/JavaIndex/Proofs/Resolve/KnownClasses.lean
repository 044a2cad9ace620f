import JavaIndex.Proofs.Resolve.Balance
import JavaIndex.Proofs.Resolve.KnownSteps

/-! Classes declared in bodies. All that is described of them gets a symbol of its own, which has a kind, so that
they can be added to the classes that are known. -/
namespace JavaIndex

variable {given : Symbol → Prop}

namespace Upholds

variable {α : Type}

/-- The members described so far are known. -/
structure Members (given : Symbol → Prop) (d : Resolve.Described) : Prop where
  fields : ∀ f ∈ d.fields, f.symbol.Known given
  methods : ∀ m ∈ d.methods, m.symbol.Known given
  constructors : ∀ m ∈ d.constructors, m.symbol.Known given

namespace Members

theorem none : Members given .none :=
  ⟨List.forall_mem_nil _, List.forall_mem_nil _, List.forall_mem_nil _⟩

theorem append {a b : Resolve.Described} (first : Members given a) (second : Members given b) :
    Members given (a.append b) where
  fields f hf := (List.mem_append.mp hf).elim (first.fields f) (second.fields f)
  methods m hm := (List.mem_append.mp hm).elim (first.methods m) (second.methods m)
  constructors m hm := (List.mem_append.mp hm).elim (first.constructors m) (second.constructors m)

/-- A class with these members. -/
theorem ofClass {d : Resolve.Described} (known : Members given d) {c : ClassInfo} (symbol : c.symbol.Known given)
    (fields : c.fields = d.fields) (methods : c.methods = d.methods)
    (constructors : c.constructors = d.constructors) : c.Known given := by
  refine ⟨symbol, fun s offered => ?_⟩
  cases offered with
  | field found => exact known.fields _ (fields ▸ List.mem_of_find?_eq_some found)
  | method hm => exact known.methods _ (methods ▸ hm)
  | constructor hm => exact known.constructors _ (constructors ▸ hm)

end Members

theorem describeEach {step : α → Resolve Resolve.Described} (h : ∀ a, Upholds given (step a) (Members given))
    (xs : List α) : Upholds given (Resolve.describeEach step xs) (Members given) := by
  induction xs with
  | nil => exact pure .none
  | cons a rest ih => exact (h a).bind fun _ here => ih.bindPure fun _ later => here.append later

theorem describeField (owner : Symbol) (name : Ident) (type : JavaType) (isStatic : Bool) {kind : SymbolKind}
    (sort : kind ≠ .unknown) :
    Upholds given (Resolve.describeField owner name type isStatic kind) (Members given) := by
  refine (localSymbolIn _ sort _).bind fun found known => ?_
  cases found with
  | none => exact pure .none
  | some symbol =>
    exact pure ⟨by simpa [Resolve.Described.ofFields] using known symbol rfl, List.forall_mem_nil _, List.forall_mem_nil _⟩

theorem headTypes (components : List (Ident × JavaType)) (m : MethodDecl) :
    KeepsKnown given (Resolve.headTypes components m) := by
  rw [Resolve.headTypes_read]
  exact place.bind fun _ _ => environment.bindPure fun _ _ => trivial

theorem describeMethod (owner : Symbol) (self : JavaType) (components : List (Ident × JavaType))
    (m : MethodDecl) : Upholds given (Resolve.describeMethod owner self components m) (Members given) := by
  have sort : (if m.isConstructor then SymbolKind.constructor else .method) ≠ .unknown := by
    split <;> decide
  refine (localSymbolIn _ sort _).bind fun found known => ?_
  cases found with
  | none => exact pure .none
  | some symbol =>
    refine (headTypes components m).bind fun types _ => ?_
    dsimp only
    split
    · exact pure ⟨List.forall_mem_nil _, List.forall_mem_nil _, by simpa using known symbol rfl⟩
    · exact pure ⟨List.forall_mem_nil _, by simpa using known symbol rfl, List.forall_mem_nil _⟩

theorem describeMember (owner : Symbol) (self : JavaType) (body : ClassBody)
    (components : List (Ident × JavaType)) (m : Member) :
    Upholds given (Resolve.describeMember owner self body components m) (Members given) := by
  cases m with
  | field d doc range =>
    exact environment.bind fun _ _ => place.bind fun _ _ =>
      describeEach (fun _ => describeField _ _ _ _ (by decide)) _
  | method m => exact describeMethod owner self components m
  | initializer isStatic block => exact pure .none
  | type d => exact pure .none

theorem describeImplied (owner : Symbol) (span : Span) (m : ImpliedMethod) :
    Upholds given (Resolve.describeImplied owner span m) (Members given) := by
  refine (localSymbolIn _ (by decide) _).bind fun found known => ?_
  cases found with
  | none => exact pure .none
  | some symbol => exact pure ⟨List.forall_mem_nil _, by simpa using known symbol rfl, List.forall_mem_nil _⟩

theorem describeAccessors (owner : Symbol) (declared : List MethodInfo) (components : List (Ident × JavaType)) :
    Upholds given (Resolve.describeAccessors owner declared components) (Members given) := by
  induction components generalizing declared with
  | nil => exact pure .none
  | cons component rest ih =>
    have one : Upholds given (Resolve.describeAccessor owner declared component) (Members given) := by
      unfold Resolve.describeAccessor
      split
      · exact pure .none
      · exact describeImplied _ _ _
    exact one.bind fun here known => (ih _).bindPure fun _ later => known.append later

theorem describe {c : ClassInfo} (known : c.Known given) (body : ClassBody) (span : Span) :
    Upholds given (Resolve.describe c body span) fun d => d.Known given ∧ d.symbol = c.symbol := by
  refine (describeEach (fun _ => describeField _ _ _ _ (by decide)) _).bind fun constants h₁ => ?_
  refine environment.bind fun _ _ => place.bind fun _ _ => ?_
  refine (describeEach (fun _ => describeField _ _ _ _ (by decide)) _).bind fun heads h₂ => ?_
  refine (describeEach (fun _ => describeMember _ _ _ _ _) _).bind fun members h₃ => ?_
  refine (describeAccessors _ _ _).bind fun accessors h₄ => ?_
  refine (describeEach (fun _ => describeImplied _ _ _) _).bind fun ofEnum h₅ => ?_
  have all := h₁.append (h₂.append (h₃.append (h₄.append h₅)))
  exact pure ⟨all.ofClass known.symbol rfl rfl rfl, rfl⟩

theorem addClass {c : ClassInfo} (known : c.Known given) : KeepsKnown given (Resolve.addClass c) :=
  change (fun _ before => { before with environment := before.environment.addLocal known }) fun _ => ⟨rfl, rfl, rfl⟩

theorem bindClass (name : Option Ident) {c : ClassInfo} (known : c.Known given) :
    KeepsKnown given (Resolve.bindClass name c) := by
  cases name with
  | none => exact pure trivial
  | some name => exact bindType _ known

theorem freshClassName (sort : String) : KeepsKnown given (Resolve.freshClassName sort) :=
  fun _ _ known => ⟨{ known with }, .none rfl rfl rfl, trivial⟩

/-- A class of which only the symbol is known. -/
theorem bareKnown {c : ClassInfo} (symbol : c.symbol.Known given) (fields : c.fields = [])
    (methods : c.methods = []) (constructors : c.constructors = []) : c.Known given := by
  have none : Members given .none := .none
  exact none.ofClass symbol fields methods constructors

theorem bareClass (name : String) (symbol : Symbol) :
    Upholds given (Resolve.bareClass name symbol)
      fun c => c.symbol = symbol ∧ c.fields = [] ∧ c.methods = [] ∧ c.constructors = [] :=
  setting.bindPure fun _ _ => ⟨rfl, rfl, rfl, rfl⟩

theorem classTypeParams (symbol : Symbol) (params : List TypeParam) :
    Upholds given (Resolve.classTypeParams symbol params) fun vars => ∀ v ∈ vars, v.2.Known given := by
  induction params with
  | nil => exact pure nofun
  | cons p rest ih =>
    refine (localSymbolIn _ (by decide) _).bind fun found known => ?_
    cases found with
    | none => exact ih
    | some s =>
      refine ih.bind fun vars later => ?_
      refine pure fun v hv => ?_
      rcases List.mem_cons.mp hv with rfl | hv
      · exact known s rfl
      · exact later v hv

theorem supertypes (d : TypeDecl) (c : ClassInfo) (vars : List (String × Symbol)) :
    KeepsKnown given (Resolve.supertypes d c vars) := by
  rw [Resolve.supertypes_read]
  exact place.bind fun _ _ => environment.bindPure fun _ _ => trivial

theorem registerHead (d : TypeDecl) (name : String) {symbol : Symbol} (known : symbol.Known given)
    (bound : Option Ident) :
    Upholds given (Resolve.registerHead d name symbol bound) (KnownWithVars given) := by
  refine (classTypeParams symbol d.typeParams).bind fun vars params => ?_
  have noted : KeepsKnown given
      (modify fun p => { p with typeParams := p.typeParams.insert name vars } : Resolve Unit) := by
    refine change (fun p before => { before with typeParams := fun name' vars' found => ?_ }) fun _ => ⟨rfl, rfl, rfl⟩
    rw [Std.TreeMap.getElem?_insert] at found
    split at found
    · cases found
      exact params
    · exact before.typeParams name' vars' found
  refine noted.seq ((bareClass name symbol).bind fun bare ⟨same, fields, methods, constructors⟩ => ?_)
  have head : ∀ (superclass : Option JavaType) (interfaces : List JavaType), ClassInfo.Known given
      { bare with typeParams := vars.map Prod.fst, superclass, interfaces } :=
    fun _ _ => bareKnown (by rw [← same] at known; exact known) fields methods constructors
  have bareHead := head bare.superclass bare.interfaces
  refine (addClass bareHead).seq ((bindClass bound bareHead).seq ?_)
  refine (supertypes d _ vars).bind fun types _ => ?_
  exact (addClass (head _ _)).seq (pure ⟨head _ _, params⟩)

mutual

theorem register {given : Symbol → Prop} (name : String) {symbol : Symbol} (known : symbol.Known given)
    (bound : Option Ident) : ∀ d : TypeDecl,
    Upholds given (Resolve.register name symbol bound d) fun c => c.Known given
  | ⟨kind, modifiers, ident, typeParams, extending, implementing, permitting, components, constants,
      members, doc, range⟩ => by
    rw [Resolve.register]
    refine (registerHead _ name known bound).bind fun (head, vars) ⟨ofClass, params⟩ => ?_
    refine (inClass ofClass params ((registerMembers head.qualifiedName head.symbol members).seq
      (describe ofClass _ _))).bind fun c ⟨described, _⟩ => ?_
    exact (addClass described).seq ((bindClass bound described).seq (pure described))

theorem registerMembers {given : Symbol → Prop} (outer : String) (owner : Symbol) : ∀ ms : List Member,
    KeepsKnown given (Resolve.registerMembers outer owner ms)
  | [] => pure trivial
  | .type d :: rest => by
    rw [Resolve.registerMembers]
    have sort : SymbolKind.ofDecl d.kind ≠ .unknown := by cases d.kind <;> decide
    refine (localSymbolIn _ sort _).bind fun found known => ?_
    cases found with
    | none => exact registerMembers outer owner rest
    | some symbol =>
      exact (register _ (known symbol rfl) none d).discard.seq (registerMembers outer owner rest)
  | .field _ _ _ :: rest => registerMembers outer owner rest
  | .method _ :: rest => registerMembers outer owner rest
  | .initializer _ _ :: rest => registerMembers outer owner rest

end

theorem localClass (d : TypeDecl) :
    Upholds given (Resolve.localClass d) fun found => ∀ r, found = some r → KnownWithVars given r := by
  have sort : SymbolKind.ofDecl d.kind ≠ .unknown := by cases d.kind <;> decide
  refine (localSymbol sort _).bind fun found known => ?_
  cases found with
  | none => exact pure fun _ h => nomatch h
  | some symbol =>
    refine (freshClassName _).bind fun name _ => ?_
    refine (register name (known symbol rfl) _ d).bind fun c ofClass => progress.bind fun p before => ?_
    refine pure fun r hr => ?_
    cases hr
    refine ⟨ofClass, fun v hv => ?_⟩
    cases vars : p.typeParams[name]? with
    | none =>
      rw [vars] at hv
      cases hv
    | some vs =>
      rw [vars] at hv
      exact before.typeParams name vs vars v hv

theorem unnamedClass (parent : Option ClassInfo) (type : JavaType) (members : List Member) (span : Span) :
    Upholds given (Resolve.unnamedClass parent type members span)
      fun found => ∀ c, found = some c → c.Known given ∧ c.symbol.IsUnnamedClass := by
  refine (freshSymbol .classType _).bind fun found made => ?_
  cases found with
  | none => exact pure fun _ h => nomatch h
  | some symbol =>
    have unnamed : symbol.IsUnnamedClass := made symbol rfl
    have known : symbol.Known given := .ofKind (by rw [unnamed.2]; decide)
    refine (freshClassName _).bind fun name _ => ?_
    refine (bareClass name symbol).bind fun bare ⟨same, fields, methods, constructors⟩ => ?_
    have head : ClassInfo.Known given { bare with
        superclass := (Resolve.unnamedSupertypes parent type).1
        interfaces := (Resolve.unnamedSupertypes parent type).2 } :=
      bareKnown (by rw [same]; exact known) fields methods constructors
    refine (addClass head).seq ?_
    refine (inClass head (by simp) ((registerMembers _ _ members).seq (describe head _ _))).bind
      fun c ⟨described, kept⟩ => ?_
    refine (addClass described).seq (pure fun c' hc => ?_)
    cases hc
    exact ⟨described, (kept.trans same) ▸ unnamed⟩

end Upholds
end JavaIndex
