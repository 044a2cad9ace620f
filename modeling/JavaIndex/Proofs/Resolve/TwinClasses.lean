import JavaIndex.Proofs.Resolve.Balance
import JavaIndex.Proofs.Resolve.TwinSteps
import JavaIndex.Resolve.Members

/-! The classes in bodies, which both runs describe when they first come to them, and the names of members.
To describe a class mentions nothing. -/
namespace JavaIndex

namespace Twins.Steps

variable {w : Twins} {α β : Type}

/-! Members of classes in bodies. -/

theorem describeEach {step : α → Resolve Resolve.Described} {step' : β → Resolve Resolve.Described}
    {γ : Type} {f : γ → α} {g : γ → β} (xs : List γ)
    (each : ∀ x ∈ xs, Steps w [] (step (f x)) (step' (g x)) Eq) :
    Steps w [] (Resolve.describeEach step (xs.map f)) (Resolve.describeEach step' (xs.map g)) Eq := by
  induction xs with
  | nil => exact .pure rfl
  | cons x xs ih =>
    apply (each x List.mem_cons_self).bindNone
    rintro here _ rfl
    apply (ih fun y hy => each y (List.mem_cons_of_mem x hy)).bindPure
    rintro later _ rfl
    rfl

theorem describeField (owner : Symbol) (name : Ident) (type : JavaType) (isStatic : Bool)
    (kind : SymbolKind) : Steps w [] (Resolve.describeField owner (w.first.ident name) type isStatic kind)
      (Resolve.describeField owner (w.second.ident name) type isStatic kind) Eq := by
  apply (localSymbolIn (some owner) kind name.range).bindNone
  rintro symbol _ rfl
  cases symbol with
  | none => exact .pure rfl
  | some symbol => exact .pure rfl

theorem headTypes (components : List (Ident × JavaType)) (m : MethodDecl) :
    Steps w [] (Resolve.headTypes (w.first.componentTypes components) (w.first.methodDecl m))
      (Resolve.headTypes (w.second.componentTypes components) (w.second.methodDecl m)) Eq := by
  rw [Resolve.headTypes_read, Resolve.headTypes_read]
  apply place.bindNone
  rintro here _ rfl
  apply environment.bindNone
  intro env env' moves
  let typeVar (p : TypeParam) : Option Symbol := some (Symbol.placeholder [p.name.text] false)
  have inside (l : Layout) (ss : Scopes) :
      ss.pushTypeParams (l.methodDecl m).typeParams typeVar = ss.pushTypeParams m.typeParams typeVar := by
    rw [l.methodDecl_eq]
    exact l.pushTypeParams_typeParams ss m.typeParams fun _ => rfl
  have types : env'.callableTypes
      ⟨(w.homes.scopes here.scopes).pushTypeParams (w.second.methodDecl m).typeParams typeVar, here.imports⟩
        (w.second.componentTypes components) (w.second.methodDecl m) =
      env.callableTypes ⟨here.scopes.pushTypeParams (w.first.methodDecl m).typeParams typeVar, here.imports⟩
        (w.first.componentTypes components) (w.first.methodDecl m) := by
    rw [inside, inside, w.second.callableTypes_methodDecl, w.first.callableTypes_methodDecl,
      ← w.homes.scopes_pushTypeParams]
    exact moves.callableTypes ⟨_, here.imports⟩ components m
  exact .pure types.symm

theorem describeMethod (owner : Symbol) (self : JavaType) (components : List (Ident × JavaType))
    (m : MethodDecl) :
    Steps w [] (Resolve.describeMethod owner self (w.first.componentTypes components) (w.first.methodDecl m))
      (Resolve.describeMethod owner self (w.second.componentTypes components) (w.second.methodDecl m)) Eq := by
  unfold Resolve.describeMethod
  rw [w.first.methodDecl_isConstructor, w.second.methodDecl_isConstructor]
  have named : Steps w []
      (Resolve.localSymbolIn (some owner) (if m.isConstructor then .constructor else .method)
        (w.first.methodDecl m).name.range)
      (Resolve.localSymbolIn (some owner) (if m.isConstructor then .constructor else .method)
        (w.second.methodDecl m).name.range) Eq := by
    rw [w.first.methodDecl_eq, w.second.methodDecl_eq]
    exact localSymbolIn (some owner) _ m.name.range
  apply named.bindNone
  rintro symbol _ rfl
  cases symbol with
  | none => exact .pure rfl
  | some symbol =>
    apply (headTypes components m).bindNone
    rintro types _ rfl
    have name (l : Layout) : (l.methodDecl m).name.text = m.name.text := by rw [l.methodDecl_eq]; rfl
    apply either Iff.rfl
    · exact .pure rfl
    · apply Steps.pure
      rw [name, name]

theorem describeMember (owner : Symbol) (self : JavaType) (body : ClassBody)
    (components : List (Ident × JavaType)) (m : Member) :
    Steps w []
      (Resolve.describeMember owner self (w.first.classBody body) (w.first.componentTypes components)
        (w.first.member m))
      (Resolve.describeMember owner self (w.second.classBody body) (w.second.componentTypes components)
        (w.second.member m)) Eq := by
  cases m with
  | field d doc range =>
    obtain ⟨mods, type, declarators⟩ := d
    apply environment.bindNone
    intro env env' moves
    apply place.bindNone
    rintro here _ rfl
    have types : env'.convert (w.homes.place here) (w.second.typeRef type) =
        env.convert here (w.first.typeRef type) := by
      rw [w.second.convert_typeRef, w.first.convert_typeRef, moves.convert]
    simp only [Layout.varDecl, types, Layout.declarators_eq, Layout.modifiers_isStatic]
    exact describeEach declarators fun v _ => describeField owner v.name _ _ .field
  | method m => exact describeMethod owner self components m
  | initializer isStatic body => exact .pure rfl
  | type d => exact .pure rfl

theorem describeImplied (owner : Symbol) (span : Span) (m : ImpliedMethod) :
    Steps w [] (Resolve.describeImplied owner (w.first.mark span) m)
      (Resolve.describeImplied owner (w.second.mark span) m) Eq := by
  apply (localSymbolIn (some owner) .method span).bindNone
  rintro symbol _ rfl
  cases symbol with
  | none => exact .pure rfl
  | some symbol => exact .pure rfl

theorem describeAccessor (owner : Symbol) (declared : List MethodInfo) (component : Ident × JavaType) :
    Steps w [] (Resolve.describeAccessor owner declared (w.first.ident component.1, component.2))
      (Resolve.describeAccessor owner declared (w.second.ident component.1, component.2)) Eq := by
  apply either Iff.rfl
  · exact .pure rfl
  · exact describeImplied owner component.1.range (.accessor component)

theorem describeAccessors (owner : Symbol) (declared : List MethodInfo) (components : List (Ident × JavaType)) :
    Steps w [] (Resolve.describeAccessors owner declared (w.first.componentTypes components))
      (Resolve.describeAccessors owner declared (w.second.componentTypes components)) Eq := by
  induction components generalizing declared with
  | nil => exact .pure rfl
  | cons component rest ih =>
    apply (describeAccessor owner declared component).bindNone
    rintro here _ rfl
    apply (ih (declared ++ here.methods)).bindPure
    rintro later _ rfl
    rfl

/-- A class with its members. -/
theorem describe (c : ClassInfo) (body : ClassBody) (span : Span) :
    Steps w [] (Resolve.describe c (w.first.classBody body) (w.first.mark span))
      (Resolve.describe (w.homes.classInfo c) (w.second.classBody body) (w.second.mark span))
      fun a b => b = w.homes.classInfo a := by
  refine (describeEach body.constants fun k _ =>
    describeField c.symbol k.name c.selfType true .enumConstant).bindNone ?_
  rintro constants _ rfl
  apply environment.bindNone
  intro env env' moves
  apply place.bindNone
  rintro here _ rfl
  have components (l : Layout) (env : Environment) (place : Place) :
      env.componentTypes place (l.classBody body).components =
        l.componentTypes (env.componentTypes place body.components) :=
    l.componentTypes_params env place body.components
  rw [components, components, moves.componentTypes]
  generalize env.componentTypes here body.components = components
  refine (describeEach components fun k _ => describeField c.symbol k.1 k.2 false .field).bindNone ?_
  rintro heads _ rfl
  refine (describeEach body.members fun m _ =>
    describeMember c.symbol c.selfType body components m).bindNone ?_
  rintro members _ rfl
  apply (describeAccessors c.symbol members.methods components).bindNone
  rintro accessors _ rfl
  have implied : Steps w []
      (Resolve.describeEach (Resolve.describeImplied c.symbol (w.first.mark span))
        (if body.kind = .enumType then ImpliedMethod.ofEnum c.selfType else []))
      (Resolve.describeEach (Resolve.describeImplied c.symbol (w.second.mark span))
        (if body.kind = .enumType then ImpliedMethod.ofEnum c.selfType else [])) Eq := by
    have each := describeEach (w := w) (f := id) (g := id)
      (if body.kind = .enumType then ImpliedMethod.ofEnum c.selfType else [])
      fun m _ => describeImplied c.symbol span m
    rwa [List.map_id] at each
  apply implied.bindPure
  rintro ofEnum _ rfl
  rfl

/-! Registration. -/

theorem addClass (c : ClassInfo) :
    Goes w [] (Resolve.addClass c) (Resolve.addClass (w.homes.classInfo c)) :=
  quiet fun _ _ _ _ _ _ meet => ⟨trivial, { meet with moves := meet.moves.addLocal c }⟩

theorem freshClassName (sort : String) :
    Steps w [] (Resolve.freshClassName sort) (Resolve.freshClassName sort) Eq := by
  apply quiet
  intro s s' p p' log set meet
  have count := meet.classCount
  refine ⟨?_, { meet with classCount := congrArg (· + 1) count }⟩
  change "<" ++ sort ++ ">" ++ toString p.classCount = "<" ++ sort ++ ">" ++ toString p'.classCount
  rw [count]

theorem bareClass (name : String) (symbol : Symbol) :
    Steps w [] (Resolve.bareClass name symbol) (Resolve.bareClass name symbol)
      fun a b => a = b ∧ a.origin = .local := by
  apply setting.bindPure
  intro s s' set
  rw [set.imports]
  exact ⟨rfl, rfl⟩

/-- A class in a body stays there. -/
theorem classInfo_inBody {c : ClassInfo} (inBody : c.origin = .local) : w.homes.classInfo c = c := by
  rw [Homes.classInfo, inBody, (w.homes.isLocal .local).mpr rfl, ← inBody]

theorem classTypeParams (symbol : Symbol) (params : List TypeParam) :
    Steps w [] (Resolve.classTypeParams symbol (params.map w.first.typeParam))
      (Resolve.classTypeParams symbol (params.map w.second.typeParam)) Eq := by
  induction params with
  | nil => exact .pure rfl
  | cons p rest ih =>
    apply (localSymbolIn (some symbol) .typeParameter p.name.range).bindNone
    rintro s _ rfl
    cases s with
    | none => exact ih
    | some s =>
      apply ih.bindPure
      rintro later _ rfl
      rfl

theorem bindClass (name : Option Ident) (c : ClassInfo) :
    Goes w [] (Resolve.bindClass (name.map w.first.ident) c)
      (Resolve.bindClass (name.map w.second.ident) (w.homes.classInfo c)) := by
  cases name with
  | none => exact .pure trivial
  | some name => exact bindType name.text (.ofClass c)

/-- The answer about a class and its type variables. -/
def withVars (h : Homes) (found : ClassInfo × List (String × Symbol)) :
    ClassInfo × List (String × Symbol) :=
  (h.classInfo found.1, found.2)

theorem knownVars (name : String) (vars : List (String × Symbol)) :
    Goes w [] (modify fun p => { p with typeParams := p.typeParams.insert name vars } : Resolve Unit)
      (modify fun p => { p with typeParams := p.typeParams.insert name vars } : Resolve Unit) := by
  apply quiet
  intro s s' p p' log set meet
  exact ⟨trivial, { meet with typeParams := congrArg (·.insert name vars) meet.typeParams }⟩

/-- A class in a body stays where it is. -/
theorem supertypes (d : TypeDecl) {c : ClassInfo} (vars : List (String × Symbol))
    (stays : w.homes.classInfo c = c) :
    Steps w [] (Resolve.supertypes (w.first.typeDecl d) c vars)
      (Resolve.supertypes (w.second.typeDecl d) c vars) Eq := by
  rw [Resolve.supertypes_read, Resolve.supertypes_read]
  apply place.bindNone
  rintro here _ rfl
  apply environment.bindNone
  intro env env' moves
  have types : env'.supertypesOf ⟨(w.homes.scopes here.scopes).pushClass c vars, here.imports⟩
        (w.second.typeDecl d) c =
      env.supertypesOf ⟨here.scopes.pushClass c vars, here.imports⟩ (w.first.typeDecl d) c := by
    rw [w.second.supertypesOf_typeDecl, w.first.supertypesOf_typeDecl]
    have moved := moves.supertypesOf ⟨here.scopes.pushClass c vars, here.imports⟩ d c
    rw [Homes.place, w.homes.scopes_pushClass, stays] at moved
    exact moved
  exact .pure types.symm

theorem registerHead (d : TypeDecl) (name : String) (symbol : Symbol) (bound : Option Ident) :
    Steps w [] (Resolve.registerHead (w.first.typeDecl d) name symbol (bound.map w.first.ident))
      (Resolve.registerHead (w.second.typeDecl d) name symbol (bound.map w.second.ident))
      fun a b => b = withVars w.homes a := by
  have params (l : Layout) : (l.typeDecl d).typeParams = d.typeParams.map l.typeParam := by
    rw [l.typeDecl_eq]
  unfold Resolve.registerHead
  rw [params, params]
  apply (classTypeParams symbol d.typeParams).bindNone
  rintro vars _ rfl
  apply (knownVars name vars).bindNone
  rintro - - -
  apply (bareClass name symbol).bindNone
  rintro bare _ ⟨rfl, inBody⟩
  let head : ClassInfo := { bare with typeParams := vars.map Prod.fst }
  have stays : w.homes.classInfo head = head := classInfo_inBody inBody
  have added := addClass (w := w) head
  have meant := bindClass (w := w) bound head
  rw [stays] at added meant
  apply added.bindNone
  rintro - - -
  apply meant.bindNone
  rintro - - -
  apply (supertypes d vars stays).bindNone
  rintro ⟨superclass, interfaces⟩ _ rfl
  have whole : w.homes.classInfo { head with superclass, interfaces } = { head with superclass, interfaces } :=
    classInfo_inBody inBody
  have known := addClass (w := w) { head with superclass, interfaces }
  rw [whole] at known
  apply known.bindPure
  rintro - - -
  exact congrArg (·, vars) whole.symm

theorem register_eq (name : String) (symbol : Symbol) (bound : Option Ident) (d : TypeDecl) :
    Resolve.register name symbol bound d = (do
      let found ← Resolve.registerHead d name symbol bound
      let c ← Resolve.inClass found.1 found.2 do
        Resolve.registerMembers found.1.qualifiedName found.1.symbol d.members
        Resolve.describe found.1 (.ofDecl d) d.name.range
      Resolve.addClass c
      Resolve.bindClass bound c
      return c) := by
  cases d
  rw [Resolve.register]

mutual

/-- A declared class and the types declared in it. -/
theorem register (name : String) (symbol : Symbol) (bound : Option Ident) : ∀ d : TypeDecl,
    Steps w [] (Resolve.register name symbol (bound.map w.first.ident) (w.first.typeDecl d))
      (Resolve.register name symbol (bound.map w.second.ident) (w.second.typeDecl d))
      fun a b => b = w.homes.classInfo a
  | ⟨kind, modifiers, ident, typeParams, extending, implementing, permitting, components, constants,
      members, doc, range⟩ => by
    rw [register_eq, register_eq]
    apply (registerHead _ name symbol bound).bindNone
    rintro ⟨head, vars⟩ _ rfl
    rw [Layout.classBody_ofDecl, Layout.classBody_ofDecl]
    have inside := (registerMembers head.qualifiedName head.symbol members).bindNone fun _ _ _ =>
      describe (w := w) head (.ofDecl ⟨kind, modifiers, ident, typeParams, extending, implementing, permitting,
        components, constants, members, doc, range⟩) ident.range
    apply (inside.inClass head vars).bindNone
    rintro c _ rfl
    apply (addClass c).bindNone
    rintro - - -
    exact (bindClass bound c).bindPure fun _ _ _ => rfl

/-- The types declared among the members of a class. -/
theorem registerMembers (outer : String) (owner : Symbol) : ∀ ms : List Member,
    Goes w [] (Resolve.registerMembers outer owner (w.first.members ms))
      (Resolve.registerMembers outer owner (w.second.members ms))
  | [] => .pure trivial
  | .type d :: rest => by
    have kind (l : Layout) : (l.typeDecl d).kind = d.kind := by rw [l.typeDecl_eq]
    have name (l : Layout) : (l.typeDecl d).name = l.ident d.name := by rw [l.typeDecl_eq]
    simp only [Layout.members, Layout.member, Resolve.registerMembers, kind, name]
    apply (localSymbolIn (some owner) (.ofDecl d.kind) d.name.range).bindNone
    rintro symbol _ rfl
    cases symbol with
    | none => exact registerMembers outer owner rest
    | some symbol =>
      exact (register _ symbol none d).discard.bindNone fun _ _ _ => registerMembers outer owner rest
  | .field _ _ _ :: rest => registerMembers outer owner rest
  | .method _ :: rest => registerMembers outer owner rest
  | .initializer _ _ :: rest => registerMembers outer owner rest

end

/-- A class declared by a statement. -/
theorem localClass (d : TypeDecl) :
    Steps w [] (Resolve.localClass (w.first.typeDecl d)) (Resolve.localClass (w.second.typeDecl d))
      fun a b => b = a.map (withVars w.homes) := by
  have kind (l : Layout) : (l.typeDecl d).kind = d.kind := by rw [l.typeDecl_eq]
  have name (l : Layout) : (l.typeDecl d).name = l.ident d.name := by rw [l.typeDecl_eq]
  unfold Resolve.localClass
  simp only [kind, name]
  apply (localSymbol (.ofDecl d.kind) d.name.range).bindNone
  rintro symbol _ rfl
  cases symbol with
  | none => exact .pure rfl
  | some symbol =>
    apply (freshClassName "local").bindNone
    rintro name _ rfl
    apply (register name symbol (some d.name) d).bindNone
    rintro c _ rfl
    apply progress.bindPure
    rintro p p' ⟨log, meet⟩
    rw [meet.typeParams]
    rfl

/-- The class of a body without a name. -/
theorem unnamedClass (parent : Option ClassInfo) (type : JavaType) (members : List Member) (span : Span) :
    Steps w [] (Resolve.unnamedClass parent type (w.first.members members) (w.first.mark span))
      (Resolve.unnamedClass (parent.map w.homes.classInfo) type (w.second.members members)
        (w.second.mark span)) fun a b => b = a.map w.homes.classInfo := by
  apply (localSymbol .classType span).bindNone
  rintro symbol _ rfl
  cases symbol with
  | none => exact .pure rfl
  | some symbol =>
    apply (freshClassName "anon").bindNone
    rintro name _ rfl
    have supertypes : Resolve.unnamedSupertypes (parent.map w.homes.classInfo) type =
        Resolve.unnamedSupertypes parent type := by
      cases parent <;> rfl
    dsimp only
    rw [supertypes]
    obtain ⟨superclass, interfaces⟩ := Resolve.unnamedSupertypes parent type
    apply (bareClass name symbol).bindNone
    rintro bare _ ⟨rfl, inBody⟩
    let head : ClassInfo := { bare with superclass, interfaces }
    have stays : w.homes.classInfo head = head := classInfo_inBody inBody
    have added := addClass (w := w) head
    rw [stays] at added
    apply added.bindNone
    rintro - - -
    rw [Layout.classBody_unnamed, Layout.classBody_unnamed]
    have described := describe (w := w) head (.unnamed members) span
    have inside := (registerMembers head.qualifiedName head.symbol members).bindNone fun _ _ _ => described
    have around := inside.inClass head []
    rw [stays] at around
    apply around.bindNone
    rintro c _ rfl
    exact (addClass c).bindPure fun _ _ _ => rfl

/-! The names of members. -/

/-- The members met so far, of the class as the second run knows it. -/
def memberNames (h : Homes) (names : MemberNames) : MemberNames := { names with info := h.classInfo names.info }

theorem counted (l : Layout) (m : MethodDecl) : MemberNames.counted (l.methodDecl m) = MemberNames.counted m := by
  unfold MemberNames.counted
  rw [l.methodDecl_isConstructor, l.methodDecl_eq]
  rfl

theorem callable (h : Homes) (l l' : Layout) (names : MemberNames) (m : MethodDecl) :
    (memberNames h names).callable (l'.methodDecl m) = names.callable (l.methodDecl m) := by
  have described (l : Layout) : names.described? (l.methodDecl m) = names.described? m := by
    unfold MemberNames.described?
    rw [l.methodDecl_isConstructor]
  have name (l : Layout) : (l.methodDecl m).name.text = m.name.text := by rw [l.methodDecl_eq]; rfl
  have here : (memberNames h names).described? (l'.methodDecl m) = names.described? (l'.methodDecl m) := rfl
  have inBody : (memberNames h names).info.origin = .local ↔ names.info.origin = .local :=
    h.isLocal names.info.origin
  unfold MemberNames.callable
  rw [here, described, described, counted, counted, name, name, l.methodDecl_isConstructor,
    l'.methodDecl_isConstructor]
  by_cases own : names.info.origin = .local
  · rw [if_pos own, if_pos (inBody.mpr own)]
  · rw [if_neg own, if_neg fun own' => own (inBody.mp own')]
    rfl

theorem after_member (l : Layout) (names : MemberNames) (m : Member) :
    names.after (l.member m) = names.after m := by
  cases m with
  | method m =>
    change MemberNames.mk _ (names.seen.add (MemberNames.counted (l.methodDecl m))) = _
    rw [counted]
    rfl
  | _ => rfl

theorem after_memberNames (h : Homes) (names : MemberNames) (m : Member) :
    (memberNames h names).after m = memberNames h (names.after m) := by
  cases m <;> rfl

theorem nameOrReport (name : Ident) (symbol : Except NamingError Symbol) :
    Steps w [] (Resolve.nameOrReport (w.first.ident name) symbol)
      (Resolve.nameOrReport (w.second.ident name) symbol) Eq := by
  cases symbol with
  | ok symbol => exact .pure rfl
  | error e => exact (malformed name e).bindPure fun _ _ _ => rfl

/-- A type declared outside all bodies or in a class. -/
theorem knownClass (d : TypeDecl) (name : String) :
    Steps w [] (Resolve.knownClass (w.first.typeDecl d) name) (Resolve.knownClass (w.second.typeDecl d) name)
      fun a b => b = a.map (withVars w.homes) := by
  have kind (l : Layout) : (l.typeDecl d).kind = d.kind := by rw [l.typeDecl_eq]
  have ident (l : Layout) : (l.typeDecl d).name = l.ident d.name := by rw [l.typeDecl_eq]
  unfold Resolve.knownClass
  simp only [kind, ident]
  apply environment.bindNone
  intro env env' moves
  rw [moves.class?]
  cases env.class? name with
  | some c =>
    apply progress.bindPure
    rintro p p' ⟨log, meet⟩
    rw [meet.typeParams]
    rfl
  | none =>
    apply environment.bindNone
    intro env env' moves
    apply setting.bindNone
    intro s s' set
    apply progress.bindNone
    rintro p p' ⟨_, meet⟩
    rw [meet.enclosing, set.imports, moves.packageSymbol]
    dsimp only [Layout.ident_text]
    split
    · exact .pure rfl
    · exact (malformed d.name _).bindPure fun _ _ _ => rfl

/-- The methods that a method overrides. -/
theorem overriddenBy (c : ClassInfo) (symbol : Symbol) (m : MethodDecl) :
    Steps w [] (Resolve.overriddenBy c symbol (w.first.methodDecl m))
      (Resolve.overriddenBy (w.homes.classInfo c) symbol (w.second.methodDecl m)) Eq := by
  have isStatic (l : Layout) : (l.methodDecl m).modifiers.isStatic = m.modifiers.isStatic := by
    rw [l.methodDecl_eq, l.modifiers_isStatic]
  have name (l : Layout) : (l.methodDecl m).name.text = m.name.text := by rw [l.methodDecl_eq]; rfl
  unfold Resolve.overriddenBy
  rw [w.first.methodDecl_isConstructor, w.second.methodDecl_isConstructor, isStatic, isStatic, name, name]
  apply either Iff.rfl
  · exact .pure rfl
  · apply environment.bindPure
    intro env env' moves
    exact (moves.overridden c m.name.text _).symm

theorem methodTypeParam (method : Symbol) (p : TypeParam) :
    Steps w [] (Resolve.methodTypeParam method (w.first.typeParam p))
      (Resolve.methodTypeParam method (w.second.typeParam p)) Eq :=
  either Iff.rfl (localSymbol .typeParameter p.name.range) (nameOrReport p.name _)

/-- The symbols of the type variables of a method. -/
theorem methodTypeParams (method : Symbol) (params : List TypeParam) :
    Steps w [] (Resolve.methodTypeParams method (params.map w.first.typeParam))
      (Resolve.methodTypeParams method (params.map w.second.typeParam)) Eq := by
  induction params with
  | nil => exact .pure rfl
  | cons p rest ih =>
    apply (methodTypeParam method p).bindNone
    rintro symbol _ rfl
    have later : Steps w [] (Resolve.methodTypeParams method (rest.map w.first.typeParam) >>= fun later =>
        Pure.pure (symbol :: later)) (Resolve.methodTypeParams method (rest.map w.second.typeParam) >>=
          fun later => Pure.pure (symbol :: later)) Eq := ih.bindPure fun _ _ same => congrArg _ same
    cases symbol with
    | none => exact later
    | some s => exact (bindType p.name.text (.typeParam p.name.text s)).bindNone fun _ _ _ => later

theorem boundTypeParams (l : Layout) (known : List (String × Symbol)) (params : List TypeParam) :
    Resolve.boundTypeParams known (params.map l.typeParam) = Resolve.boundTypeParams known params := by
  unfold Resolve.boundTypeParams
  rw [List.map_map]
  rfl

end Twins.Steps
end JavaIndex
