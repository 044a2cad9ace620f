import JavaIndex.Proofs.Resolve.Matching

/-! The description of a class that stands outside all bodies. Its members are described one after the
other; each step appends one entry, or none, and counts the methods as resolution counts them. -/
namespace JavaIndex

namespace Symbol

/-- Types stand in packages and in types. -/
theorem ofDeclaration_type {owner : Symbol} (outside : owner.isLocal = false)
    (holds : owner.kind = .package ∨ owner.kind.isType = true) {kind : SymbolKind} (type : kind.isType = true)
    (name : String) : ofDeclaration (.type name kind) (some owner) = .ok (owner.child (.type name) kind) := by
  obtain h | h := holds <;> simp [ofDeclaration, named, outside, type, h]

/-- The symbol of a type outside all bodies. -/
structure IsType (s : Symbol) : Prop where
  outside : s.isLocal = false
  type : s.kind.isType = true

namespace IsType

variable {owner : Symbol} (type : owner.IsType)

include type

theorem member (name : String) {kind : SymbolKind} (term : kind.isTerm = true) :
    ofDeclaration (.member name kind) (some owner) = .ok (owner.child (.term name) kind) := by
  simp [ofDeclaration, named, type.outside, type.type, term]

theorem method (name : String) (overload : Nat) :
    ofDeclaration (.method name overload) (some owner) = .ok (owner.child (.method name overload) .method) := by
  simp [ofDeclaration, named, type.outside, type.type]

theorem constructor (overload : Nat) (may : mayConstruct owner.kind = true) :
    ofDeclaration (.constructor overload) (some owner) =
      .ok (owner.child (.method constructorName overload) .constructor) := by
  simp [ofDeclaration, named, type.outside, may]

theorem no_constructor (overload : Nat) (may : mayConstruct owner.kind = false) (s : Symbol) :
    ofDeclaration (.constructor overload) (some owner) ≠ .ok s := by
  simp [ofDeclaration, named, type.outside, may]

theorem typeParameter (name : String) :
    ofDeclaration (.typeParameter name) (some owner) =
      .ok (owner.child (.typeParameter name) .typeParameter) := by
  simp [ofDeclaration, named, type.outside, type.type]

end IsType

end Symbol

namespace Build

/-- From a description a step goes on to another one, without fail. -/
def Leads (x : Build Unit) (before : ClassBuilder) (post : ClassBuilder → Prop) : Prop :=
  ∃ after, x before = (.ok (), after) ∧ post after

variable {α : Type} {x y : Build Unit} {b : ClassBuilder} {post post' : ClassBuilder → Prop}

theorem Leads.pure (h : post b) : Leads (Pure.pure ()) b post := ⟨b, rfl, h⟩

theorem run_bind {β γ : Type} {x : Build β} {a : β} {b' : ClassBuilder} (run : x b = (.ok a, b'))
    (f : β → Build γ) : (x >>= f) b = f a b' := by
  simp [Bind.bind, ExceptT.bind, ExceptT.mk, ExceptT.bindCont, StateT.bind, run]

theorem run_failed {β γ : Type} {x : Build β} {e : NamingError} {b' : ClassBuilder}
    (run : x b = (.error e, b')) (f : β → Build γ) : (x >>= f) b = (.error e, b') := by
  simp only [Bind.bind, ExceptT.bind, ExceptT.mk, ExceptT.bindCont, StateT.bind, run]
  rfl

theorem Leads.seq (first : Leads x b post) (second : ∀ b', post b' → Leads y b' post') :
    Leads (x >>= fun _ => y) b post' := by
  obtain ⟨b', run, h⟩ := first
  obtain ⟨b'', run', h'⟩ := second b' h
  exact ⟨b'', (run_bind run _).trans run', h'⟩

/-- What every step carries on holds when all have been taken. -/
theorem Leads.forM {f : α → Build Unit} {xs : List α} (inv : List α → ClassBuilder → Prop)
    (start : inv [] b)
    (step : ∀ done a rest b, xs = done ++ a :: rest → inv done b → Leads (f a) b (inv (done ++ [a]))) :
    Leads (xs.forM f) b (inv xs) := by
  have from_here : ∀ rest done b, xs = done ++ rest → inv done b → Leads (rest.forM f) b (inv xs) := by
    intro rest
    induction rest with
    | nil =>
      intro done b split h
      rw [List.append_nil] at split
      exact .pure (split ▸ h)
    | cons a rest ih =>
      intro done b split h
      exact (step done a rest b split h).seq fun b' h' => ih (done ++ [a]) b' (by simp [split]) h'
  exact from_here xs [] b rfl start

/-- A step that comes to a given end. -/
def given : Except NamingError Symbol → Build Symbol
  | .ok s => return s
  | .error e => throw e

theorem name_run (decl : Declaration) (b : ClassBuilder) :
    Build.name decl b = (Symbol.ofDeclaration decl (some b.info.symbol), b) := by
  have run : Build.name decl b = given (Symbol.ofDeclaration decl (some b.info.symbol)) b := rfl
  rw [run]
  cases Symbol.ofDeclaration decl (some b.info.symbol) <;> rfl

/-- Whether the step fails is not asked. -/
theorem attempt_run {x : Build Symbol} {r : Except NamingError Symbol} {b' : ClassBuilder}
    (run : x b = (r, b')) : attempt x b = (.ok (), b') :=
  congrArg (fun p : Except NamingError Symbol × ClassBuilder => ((.ok (), p.2) :
    Except NamingError Unit × ClassBuilder)) run

/-- A description of a class so far. -/
def describing (c : ClassInfo) (fields : List FieldInfo) (methods constructors : List MethodInfo)
    (seen : OverloadCounter) : ClassBuilder :=
  ⟨{ c with fields, methods, constructors }, seen⟩

section

variable {c : ClassInfo} (type : c.symbol.IsType) {fields : List FieldInfo}
  {methods constructors : List MethodInfo} {seen : OverloadCounter}

include type

theorem field_run (name : String) (fieldType : JavaType) (isStatic : Bool) {kind : SymbolKind}
    (term : kind.isTerm = true) :
    field name fieldType isStatic kind (describing c fields methods constructors seen) =
      (.ok (c.symbol.child (.term name) kind),
        describing c (fields ++ [⟨name, fieldType, isStatic, c.symbol.child (.term name) kind⟩])
          methods constructors seen) := by
  have named := name_run (.member name kind) (describing c fields methods constructors seen)
  rw [show (describing c fields methods constructors seen).info.symbol = c.symbol from rfl,
    type.member name term] at named
  exact run_bind named _

theorem method_run (name : String) (params : List JavaType) (varargs : Bool) (returns : JavaType)
    (isStatic : Bool) :
    method name params varargs returns isStatic (describing c fields methods constructors seen) =
      (.ok (c.symbol.child (.method name (seen.peek name)) .method),
        describing c fields (methods ++ [⟨name, params, varargs, returns, isStatic,
          c.symbol.child (.method name (seen.peek name)) .method⟩]) constructors (seen.add name)) := by
  have named := name_run (.method name (seen.peek name))
    (describing c fields methods constructors (seen.add name))
  rw [show (describing c fields methods constructors (seen.add name)).info.symbol = c.symbol from rfl,
    type.method] at named
  exact run_bind named _

theorem constructor_run (may : Symbol.mayConstruct c.symbol.kind = true) (params : List JavaType)
    (varargs : Bool) :
    constructor params varargs (describing c fields methods constructors seen) =
      (.ok (c.symbol.child (.method Symbol.constructorName (seen.peek Symbol.constructorName)) .constructor),
        describing c fields methods (constructors ++ [⟨Symbol.constructorName, params, varargs,
          c.selfType, false, c.symbol.child (.method Symbol.constructorName
            (seen.peek Symbol.constructorName)) .constructor⟩]) (seen.add Symbol.constructorName)) := by
  have named := name_run (.constructor (seen.peek Symbol.constructorName))
    (describing c fields methods constructors (seen.add Symbol.constructorName))
  rw [show (describing c fields methods constructors (seen.add Symbol.constructorName)).info.symbol =
    c.symbol from rfl, type.constructor _ may] at named
  exact run_bind named _

/-- A constructor that cannot stand where it does is counted all the same. -/
theorem attempt_no_constructor (may : Symbol.mayConstruct c.symbol.kind = false) (params : List JavaType)
    (varargs : Bool) :
    attempt (constructor params varargs) (describing c fields methods constructors seen) =
      (.ok (), describing c fields methods constructors (seen.add Symbol.constructorName)) := by
  have named := name_run (.constructor (seen.peek Symbol.constructorName))
    (describing c fields methods constructors (seen.add Symbol.constructorName))
  rw [show (describing c fields methods constructors (seen.add Symbol.constructorName)).info.symbol =
    c.symbol from rfl] at named
  cases made : Symbol.ofDeclaration (.constructor (seen.peek Symbol.constructorName)) (some c.symbol) with
  | ok s => exact absurd made (type.no_constructor _ may s)
  | error e =>
    rw [made] at named
    exact attempt_run (run_failed named _)

end

end Build

/-! What the members of a class are described with. -/

/-- The place in which the head of a method is read. Its type variables belong to the method. -/
def methodPlace (place : Place) (m : MethodDecl) (method : Option Symbol) : Place :=
  let scopes := place.scopes.pushTypeParams m.typeParams fun p =>
    method.bind fun owner =>
      (Symbol.ofDeclaration (.typeParameter p.name.text) (some owner)).toOption
  { place with scopes }

/-- The description of a field outside all bodies. -/
def DeclaredField (c : ClassInfo) (i : Ident) (f : FieldInfo) : Prop :=
  f.name = i.text ∧ ∃ kind, f.symbol = c.symbol.child (.term i.text) kind

/-- The description of a method outside all bodies, after other members of its class. -/
structure DeclaredMethod (c : ClassInfo) (env : Environment) (place : Place) (b : ClassBody)
    (before : List Member) (m : MethodDecl) (info : MethodInfo) : Prop where
  symbol : (MemberNames.past c before).callable m = .ok info.symbol
  name : info.name = MemberNames.counted m
  params : info.params = (env.callableTypes (methodPlace place m (some info.symbol))
    (env.componentTypes place b.components) m).params

/-- How many methods stand among some members. -/
def methodCount (ms : List Member) : Nat :=
  ((ClassBody.callablesOf ms).filter fun m => !m.isConstructor).length

/-- How many constructors stand among some members. -/
def constructorCount (ms : List Member) : Nat :=
  ((ClassBody.callablesOf ms).filter MethodDecl.isConstructor).length

/-- The members of a class so far, when some of its fields and some of its members have been met. -/
structure DescribedSoFar (c : ClassInfo) (env : Environment) (place : Place) (body : ClassBody)
    (met : List Ident) (done : List Member) (fs : List FieldInfo) (ms cs : List MethodInfo) :
    Prop where
  fields : List.Forall₂ (DeclaredField c) met fs
  methods : ∀ before m after, done = before ++ .method m :: after → m.isConstructor = false →
    ∃ info, ms[methodCount before]? = some info ∧ DeclaredMethod c env place body before m info
  methodCount : ms.length = methodCount done
  constructors : Symbol.mayConstruct c.symbol.kind = true → ∀ before m after,
    done = before ++ .method m :: after → m.isConstructor = true →
      ∃ info, cs[constructorCount before]? = some info ∧
        DeclaredMethod c env place body before m info
  constructorCount : cs.length =
    if Symbol.mayConstruct c.symbol.kind then constructorCount done else 0

/-- A builder has come so far with a class. -/
def SoFar (c : ClassInfo) (env : Environment) (place : Place) (body : ClassBody) (met : List Ident)
    (done : List Member) (b : ClassBuilder) : Prop :=
  ∃ fields methods constructors,
    b = Build.describing c fields methods constructors (MemberNames.past c done).seen ∧
      DescribedSoFar c env place body met done fields methods constructors

/-- One more member stands last, or it is not the one asked for. -/
theorem split_snoc {done before after : List Member} {x y : Member}
    (split : done ++ [x] = before ++ y :: after) :
    (before = done ∧ x = y) ∨ ∃ after', done = before ++ y :: after' := by
  obtain rfl | ⟨after', z, rfl⟩ := List.eq_nil_or_concat after
  · obtain ⟨rfl, same⟩ := List.append_inj' split rfl
    exact .inl ⟨rfl, List.singleton_inj.mp same⟩
  · rw [List.concat_eq_append, ← List.cons_append, ← List.append_assoc] at split
    exact .inr ⟨after', (List.append_inj' split rfl).1⟩

/-- The methods described before stay where they are. -/
theorem earlier {c : ClassInfo} {env : Environment} {place : Place} {body : ClassBody}
    {done : List Member} {infos : List MethodInfo} {m : MethodDecl} {P : MethodDecl → Prop}
    {count : List Member → Nat}
    (old : ∀ before n after, done = before ++ .method n :: after → P n →
      ∃ info, infos[count before]? = some info ∧ DeclaredMethod c env place body before n info)
    (more : List MethodInfo)
    (new : P m → ∃ info, (infos ++ more)[count done]? = some info ∧
      DeclaredMethod c env place body done m info) :
    ∀ before n after, done ++ [.method m] = before ++ .method n :: after → P n →
      ∃ info, (infos ++ more)[count before]? = some info ∧
        DeclaredMethod c env place body before n info := by
  intro before n after split sort
  obtain ⟨rfl, same⟩ | ⟨after', split⟩ := split_snoc split
  · cases same
    exact new sort
  · obtain ⟨info, found, declared⟩ := old before n after' split sort
    exact ⟨info, by rw [List.getElem?_append_left (List.getElem?_eq_some_iff.mp found).1, found], declared⟩

theorem methodCount_snoc (done : List Member) (m : MethodDecl) :
    methodCount (done ++ [.method m]) = methodCount done + if m.isConstructor then 0 else 1 := by
  cases sort : m.isConstructor <;>
    simp [methodCount, ClassBody.callablesOf_append, ClassBody.callablesOf, sort]

theorem constructorCount_snoc (done : List Member) (m : MethodDecl) :
    constructorCount (done ++ [.method m]) = constructorCount done + if m.isConstructor then 1 else 0 := by
  cases sort : m.isConstructor <;>
    simp [constructorCount, ClassBody.callablesOf_append, ClassBody.callablesOf, sort]

namespace DescribedSoFar

variable {c : ClassInfo} {env : Environment} {place : Place} {body : ClassBody} {met : List Ident}
  {done : List Member} {fs : List FieldInfo} {ms cs : List MethodInfo} {m : MethodDecl}
  {info : MethodInfo} (h : DescribedSoFar c env place body met done fs ms cs)

include h

theorem method (sort : m.isConstructor = false) (declared : DeclaredMethod c env place body done m info) :
    DescribedSoFar c env place body met (done ++ [.method m]) fs (ms ++ [info]) cs where
  fields := h.fields
  methods := earlier h.methods [info] fun _ =>
    ⟨info, by rw [← h.methodCount, List.getElem?_concat_length], declared⟩
  methodCount := by rw [methodCount_snoc, List.length_append, h.methodCount, sort]; rfl
  constructors may := by
    simpa using earlier (h.constructors may) [] fun other => by simp [sort] at other
  constructorCount := by rw [constructorCount_snoc, h.constructorCount, sort]; rfl

theorem constructor (may : Symbol.mayConstruct c.symbol.kind = true) (sort : m.isConstructor = true)
    (declared : DeclaredMethod c env place body done m info) :
    DescribedSoFar c env place body met (done ++ [.method m]) fs ms (cs ++ [info]) where
  fields := h.fields
  methods := by simpa using earlier h.methods [] fun other => by simp [sort] at other
  methodCount := by rw [methodCount_snoc, h.methodCount, sort]; rfl
  constructors may := earlier (h.constructors may) [info] fun _ => by
    have count := h.constructorCount
    rw [if_pos may] at count
    exact ⟨info, by rw [← count, List.getElem?_concat_length], declared⟩
  constructorCount := by
    rw [constructorCount_snoc, List.length_append, h.constructorCount, sort, if_pos may, if_pos may]
    rfl

theorem noConstructor (may : Symbol.mayConstruct c.symbol.kind = false) (sort : m.isConstructor = true) :
    DescribedSoFar c env place body met (done ++ [.method m]) fs ms cs where
  fields := h.fields
  methods := by simpa using earlier h.methods [] fun other => by simp [sort] at other
  methodCount := by rw [methodCount_snoc, h.methodCount, sort]; rfl
  constructors other := by simp [may] at other
  constructorCount := by rw [h.constructorCount, may]; rfl

end DescribedSoFar

namespace SoFar

variable {c : ClassInfo} {env : Environment} {place : Place} {body : ClassBody} {met : List Ident}
  {done : List Member} {b : ClassBuilder}

theorem field (type : c.symbol.IsType) (h : SoFar c env place body met done b) (i : Ident)
    (fieldType : JavaType) (isStatic : Bool) {kind : SymbolKind} (term : kind.isTerm = true) :
    Build.Leads (Build.attempt (Build.field i.text fieldType isStatic kind)) b
      (SoFar c env place body (met ++ [i]) done) := by
  obtain ⟨fields, methods, constructors, rfl, h⟩ := h
  refine ⟨_, Build.attempt_run (Build.field_run type i.text fieldType isStatic term), _, _, _, rfl, ?_, h.methods,
    h.methodCount, h.constructors, h.constructorCount⟩
  exact List.rel_append h.fields (.cons ⟨rfl, kind, rfl⟩ .nil)

/-- What is no method leaves the methods as they are. -/
theorem other {m : Member} (h : SoFar c env place body met done b)
    (noMethod : ClassBody.callablesOf [m] = []) : SoFar c env place body met (done ++ [m]) b := by
  obtain ⟨fields, methods, constructors, rfl, h⟩ := h
  have same : ClassBody.callablesOf (done ++ [m]) = ClassBody.callablesOf done := by
    rw [ClassBody.callablesOf_append, noMethod, List.append_nil]
  have old {before after : List Member} {n : MethodDecl}
      (split : done ++ [m] = before ++ .method n :: after) :
      ∃ after', done = before ++ .method n :: after' := by
    obtain ⟨-, rfl⟩ | h := split_snoc split
    · cases noMethod
    · exact h
  refine ⟨fields, methods, constructors, ?_, h.fields, ?_, ?_, ?_, ?_⟩
  · rw [MemberNames.past_seen, MemberNames.past_seen, same]
  · intro before n after split sort
    obtain ⟨after', split⟩ := old split
    exact h.methods before n after' split sort
  · rw [h.methodCount, JavaIndex.methodCount, JavaIndex.methodCount, same]
  · intro may before n after split sort
    obtain ⟨after', split⟩ := old split
    exact h.constructors may before n after' split sort
  · rw [h.constructorCount, JavaIndex.constructorCount, JavaIndex.constructorCount, same]

/-- Resolution names the next method as its description does. -/
theorem callable_outside (done : List Member) (outside : c.origin ≠ .local) (m : MethodDecl) :
    (MemberNames.past c done).callable m = Symbol.ofDeclaration
      (if m.isConstructor then
        .constructor ((MemberNames.past c done).seen.peek (MemberNames.counted m))
      else .method m.name.text ((MemberNames.past c done).seen.peek (MemberNames.counted m)))
      (some c.symbol) := by
  rw [MemberNames.callable, MemberNames.past_info, if_neg outside]

/-- The builder of a class gives a method the symbol that resolution gives it. -/
theorem nextCallable_eq (done : List Member) (outside : c.origin ≠ .local) {m : MethodDecl}
    (plain : Plain m.name.text) (fields : List FieldInfo) (methods constructors : List MethodInfo) :
    (Build.describing c fields methods constructors (MemberNames.past c done).seen).nextCallable
      (MemberNames.counted m) = (MemberNames.past c done).callable m := by
  rw [callable_outside done outside]
  have same := MemberNames.counted_eq_constructorName plain
  cases sort : m.isConstructor with
  | true =>
    have name : MemberNames.counted m = Symbol.constructorName := same.mpr sort
    simp [ClassBuilder.nextCallable, ClassBuilder.nextDeclaration, name, Build.describing]
  | false =>
    have name : MemberNames.counted m ≠ Symbol.constructorName := fun h => by simp [same.mp h] at sort
    simp [ClassBuilder.nextCallable, ClassBuilder.nextDeclaration, name, Build.describing]
    simp [MemberNames.counted, sort]

theorem methodScopes_eq (place : Place) (done : List Member) (outside : c.origin ≠ .local)
    {m : MethodDecl} (plain : Plain m.name.text) (fields : List FieldInfo)
    (methods constructors : List MethodInfo) :
    Build.methodScopes (Build.describing c fields methods constructors (MemberNames.past c done).seen)
      place.scopes m =
        (methodPlace place m ((MemberNames.past c done).callable m).toOption).scopes := by
  rw [Build.methodScopes, ← nextCallable_eq done outside plain fields methods constructors]
  rfl

/-- The next method of a class is described. -/
theorem method (type : c.symbol.IsType) (outside : c.origin ≠ .local) {m : MethodDecl}
    (plain : Plain m.name.text) (h : SoFar c env place body met done b) :
    Build.Leads (Build.member env place body (env.componentTypes place body.components) (.method m)) b
      (SoFar c env place body met (done ++ [.method m])) := by
  obtain ⟨fields, methods, constructors, rfl, h⟩ := h
  let seen := (MemberNames.past c done).seen
  let components := env.componentTypes place body.components
  let types := env.callableTypes { place with
    scopes := Build.methodScopes (Build.describing c fields methods constructors seen) place.scopes m }
    components m
  have run : Build.member env place body components (.method m)
      (Build.describing c fields methods constructors seen) =
        (if m.isConstructor then Build.attempt (Build.constructor types.params types.varargs)
          else Build.attempt (Build.method m.name.text types.params types.varargs types.returns
            types.isStatic)) (Build.describing c fields methods constructors seen) := rfl
  have callable := callable_outside done outside m
  have params {s : Symbol} (named : (MemberNames.past c done).callable m = .ok s) :
      types.params = (env.callableTypes (methodPlace place m (some s)) components m).params := by
    have scopes := methodScopes_eq place done outside plain fields methods constructors
    rw [named] at scopes
    exact congrArg (fun scopes => (env.callableTypes { place with scopes } components m).params) scopes
  have counted : (MemberNames.past c (done ++ [.method m])).seen = seen.add (MemberNames.counted m) := by
    rw [MemberNames.past_member]
    rfl
  rw [Build.Leads, run]
  cases sort : m.isConstructor with
  | false =>
    have name : MemberNames.counted m = m.name.text := by simp [MemberNames.counted, sort]
    rw [sort, name] at callable
    have named := callable.trans (type.method _ _)
    refine ⟨_, Build.attempt_run (Build.method_run type _ _ _ _ _), _, _, _, by rw [counted, name], ?_⟩
    exact h.method sort ⟨named, name.symm, params named⟩
  | true =>
    have name : MemberNames.counted m = Symbol.constructorName := by simp [MemberNames.counted, sort]
    rw [sort, name] at callable
    cases may : Symbol.mayConstruct c.symbol.kind with
    | true =>
      have named := callable.trans (type.constructor _ may)
      refine ⟨_, Build.attempt_run (Build.constructor_run type may _ _), _, _, _, by rw [counted, name], ?_⟩
      exact h.constructor may sort ⟨named, name.symm, params named⟩
    | false =>
      refine ⟨_, Build.attempt_no_constructor type may _ _, _, _, _, by rw [counted, name], ?_⟩
      exact h.noConstructor may sort

/-- Fields are described in their order. -/
theorem fields {α : Type} (type : c.symbol.IsType) (name : α → Ident) (fieldType : α → JavaType)
    (isStatic : Bool) {kind : SymbolKind} (term : kind.isTerm = true) (xs : List α)
    (h : SoFar c env place body met done b) :
    Build.Leads (xs.forM fun x =>
        Build.attempt (Build.field (name x).text (fieldType x) isStatic kind)) b
      (SoFar c env place body (met ++ xs.map name) done) := by
  let inv (ys : List α) := SoFar c env place body (met ++ ys.map name) done
  have start : inv [] b := by simpa [inv] using h
  refine Build.Leads.forM inv start fun ys x rest b' _ h' => ?_
  simpa [inv] using h'.field type (name x) (fieldType x) isStatic term

/-- The next member of a class is described. -/
theorem member (type : c.symbol.IsType) (outside : c.origin ≠ .local) (m : Member)
    (plain : ∀ n ∈ ClassBody.callablesOf [m], Plain n.name.text)
    (h : SoFar c env place body met done b) :
    Build.Leads (Build.member env place body (env.componentTypes place body.components) m) b
      (SoFar c env place body (met ++ ClassBody.fieldsOf [m]) (done ++ [m])) := by
  cases m with
  | field d doc range =>
    have term : SymbolKind.field.isTerm = true := rfl
    obtain ⟨b', run, h'⟩ := h.fields type Declarator.name
      (fun v => .arrayOf v.extraDims (env.convert place d.type))
      (body.hasStaticFields || d.modifiers.isStatic) term d.declarators
    refine ⟨b', run, ?_⟩
    simpa [ClassBody.fieldsOf] using h'.other (m := .field d doc range) rfl
  | method m =>
    simpa [ClassBody.fieldsOf] using h.method type outside (plain m List.mem_cons_self)
  | initializer isStatic block =>
    exact ⟨b, rfl, by simpa [ClassBody.fieldsOf] using h.other (m := .initializer isStatic block) rfl⟩
  | type d => exact ⟨b, rfl, by simpa [ClassBody.fieldsOf] using h.other (m := .type d) rfl⟩

end SoFar

/-- A method that a class outside all bodies has without declaring it. -/
def Implied (body : ClassBody) (m : MethodInfo) : Prop :=
  (body.kind = .enumType ∧ m.name ∈ ["values", "valueOf"]) ∨
    ∃ p ∈ body.components, m.name = p.name.text ∧ m.params = []

/-- The description of a class outside all bodies, from what was known before of its members. -/
structure ClassInfo.MembersOf (final c : ClassInfo) (env : Environment) (place : Place) (body : ClassBody) :
    Prop where
  header : final = { c with fields := final.fields, methods := final.methods,
                            constructors := final.constructors }
  members : ∃ own implied, final.methods = own ++ implied ∧ (∀ m ∈ implied, Implied body m) ∧
    DescribedSoFar c env place body body.fieldNames body.members final.fields own final.constructors

namespace Build

variable {c : ClassInfo} {env : Environment} {place : Place} {body : ClassBody} {b : ClassBuilder}

/-- A builder has come to the end of what a class declares. -/
def Declared (c : ClassInfo) (env : Environment) (place : Place) (body : ClassBody) (b : ClassBuilder) :
    Prop :=
  ∃ fields own implied constructors seen, b = describing c fields (own ++ implied) constructors seen ∧
    (∀ m ∈ implied, Implied body m) ∧
    DescribedSoFar c env place body body.fieldNames body.members fields own constructors

theorem Declared.implied (type : c.symbol.IsType) (h : Declared c env place body b) (m : ImpliedMethod)
    (implied : ∀ info : MethodInfo, info.name = m.name → info.params = m.types.params → Implied body info) :
    Leads (Build.implied m) b (Declared c env place body) := by
  obtain ⟨fields, own, more, constructors, seen, rfl, free, h⟩ := h
  refine ⟨_, attempt_run (method_run type _ _ _ _ _), fields, own, more ++ [_], constructors, _,
    by rw [List.append_assoc], ?_, h⟩
  intro info hinfo
  obtain hinfo | hinfo := List.mem_append.mp hinfo
  · exact free info hinfo
  · rw [List.mem_singleton.mp hinfo]
    exact implied _ rfl rfl

theorem fieldsOf_append (ms ns : List Member) :
    ClassBody.fieldsOf (ms ++ ns) = ClassBody.fieldsOf ms ++ ClassBody.fieldsOf ns := by
  induction ms with
  | nil => rfl
  | cons m ms ih => cases m <;> simp [ClassBody.fieldsOf, ih]

/-- What a class declares is described. -/
theorem declared_run (type : c.symbol.IsType) (outside : c.origin ≠ .local)
    (plain : ∀ m ∈ ClassBody.callablesOf body.members, Plain m.name.text) {met : List Ident}
    (h : SoFar c env place body met [] b) :
    Leads (body.members.forM (member env place body (env.componentTypes place body.components))) b
      (SoFar c env place body (met ++ ClassBody.fieldsOf body.members) body.members) := by
  let inv (done : List Member) := SoFar c env place body (met ++ ClassBody.fieldsOf done) done
  have start : inv [] b := by simpa [inv, ClassBody.fieldsOf] using h
  refine Leads.forM inv start fun done m rest b' split h' => ?_
  have plain : ∀ n ∈ ClassBody.callablesOf [m], Plain n.name.text := fun n hn => plain n (by
    rw [split, ClassBody.callablesOf_append]
    refine List.mem_append_right _ ?_
    rw [← List.singleton_append, ClassBody.callablesOf_append]
    exact List.mem_append_left _ hn)
  simpa [inv, fieldsOf_append] using h'.member type outside m plain

/-- The methods that read components are described, unless they are declared. -/
theorem accessors_run (type : c.symbol.IsType) (h : Declared c env place body b) :
    Leads ((env.componentTypes place body.components).forM accessor) b (Declared c env place body) := by
  let inv (_ : List (Ident × JavaType)) := Declared c env place body
  have start : inv [] b := h
  refine Leads.forM inv start fun done component rest b' split h' => ?_
  have run : accessor component b' =
      (if b'.hasMethod component.1.text 0 then Pure.pure () else Build.implied (.accessor component)) b' :=
    rfl
  rw [Leads, run]
  split
  · exact Leads.pure h'
  · refine h'.implied type _ fun info name params => .inr ?_
    have : component ∈ env.componentTypes place body.components := by simp [split]
    obtain ⟨p, hp, rfl⟩ := List.mem_map.mp this
    exact ⟨p, hp, name, params⟩

theorem members_eq (env : Environment) (place : Place) (body : ClassBody) (c : ClassInfo) :
    Build.members env place body (.ofHeader c) =
      (heads body (env.componentTypes place body.components) c.selfType >>= fun _ =>
        body.members.forM (member env place body (env.componentTypes place body.components)) >>= fun _ =>
          (env.componentTypes place body.components).forM accessor >>= fun _ =>
            if body.kind = .enumType then (ImpliedMethod.ofEnum c.selfType).forM Build.implied
            else Pure.pure ()) (.ofHeader c) := by
  have start : (get : Build ClassBuilder) (.ofHeader c) = (.ok (.ofHeader c), .ofHeader c) := rfl
  have self : (ClassBuilder.ofHeader c).info.selfType = c.selfType := rfl
  rw [members, run_bind start, self]

/-- All members of a class are described. -/
theorem members_run (env : Environment) (place : Place) (body : ClassBody) (type : c.symbol.IsType)
    (outside : c.origin ≠ .local)
    (plain : ∀ m ∈ ClassBody.callablesOf body.members, Plain m.name.text) :
    Leads (Build.members env place body) (.ofHeader c) (Declared c env place body) := by
  have start : SoFar c env place body [] [] (.ofHeader c) := by
    refine ⟨[], [], [], rfl, .nil, ?_, rfl, ?_, ?_⟩
    · intro before m after split
      simp at split
    · intro _ before m after split
      simp at split
    · split <;> rfl
  rw [Leads, members_eq]
  have heads : Leads (heads body (env.componentTypes place body.components) c.selfType) (.ofHeader c)
      (SoFar c env place body (body.constants.map EnumConstant.name ++
        body.components.map Param.name) []) := by
    have constant : SymbolKind.enumConstant.isTerm = true := rfl
    have component : SymbolKind.field.isTerm = true := rfl
    refine (start.fields type EnumConstant.name (fun _ => c.selfType) true constant body.constants).seq
      fun b' h' => ?_
    have all := h'.fields type Prod.fst Prod.snd false component (env.componentTypes place body.components)
    simpa [Environment.componentTypes, Function.comp_def] using all
  refine heads.seq fun b' h' => (declared_run type outside plain h').seq fun b'' h'' => ?_
  obtain ⟨fields, methods, constructors, rfl, described⟩ := h''
  have described : Declared c env place body
      (describing c fields methods constructors (MemberNames.past c body.members).seen) :=
    ⟨fields, methods, [], constructors, _, by rw [List.append_nil], by simp, by
      simpa [ClassBody.fieldNames] using described⟩
  refine (accessors_run type described).seq fun b h => ?_
  split
  · rename_i sort
    let inv (_ : List ImpliedMethod) := Declared c env place body
    refine Leads.forM inv h fun done m rest b' split h' => h'.implied type m fun info name params => .inl ⟨sort, ?_⟩
    have : m ∈ ImpliedMethod.ofEnum c.selfType := by simp [split]
    simp only [ImpliedMethod.ofEnum, List.mem_cons, List.not_mem_nil, or_false] at this
    obtain rfl | rfl := this <;> simp [name]
  · exact .pure h

end Build

/-- What comes of a class when its members are described. -/
theorem ProjectClasses.withMembers_of {env : Environment} {config : Config} {s : Site} {c : ClassInfo}
    (type : c.symbol.IsType) (outside : c.origin ≠ .local)
    (plain : ∀ m ∈ ClassBody.callablesOf s.decl.members, Plain m.name.text) :
    (withMembers env config s c).MembersOf c env (s.place env config) (.ofDecl s.decl) := by
  obtain ⟨b, run, fields, own, implied, constructors, seen, rfl, free, described⟩ :=
    Build.members_run env (s.place env config) (.ofDecl s.decl) type outside plain
  have final : withMembers env config s c =
      (Build.describing c fields (own ++ implied) constructors seen).info :=
    congrArg (fun r => ClassBuilder.info r.2) run
  rw [final]
  exact ⟨rfl, own, implied, rfl, free, described⟩

end JavaIndex
