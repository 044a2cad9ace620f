import JavaIndex.Resolve.LocalClasses

/-! The discipline of scopes. A step closes every scope, declaration and body that it opens, on all its ways out,
and what it binds it binds in the scope that was innermost before it. -/
namespace JavaIndex

/-- More has been bound in a scope, and nothing has been unbound. -/
def Scope.Extends (after before : Scope) : Prop :=
  ∃ values types, after = { before with values := values ++ before.values, types := types ++ before.types }

theorem Scope.Extends.refl (sc : Scope) : sc.Extends sc := ⟨[], [], rfl⟩

theorem Scope.Extends.trans {a b c : Scope} (first : b.Extends a) (second : c.Extends b) : c.Extends a := by
  obtain ⟨values, types, rfl⟩ := first
  obtain ⟨values', types', rfl⟩ := second
  exact ⟨values' ++ values, types' ++ types, by simp only [List.append_assoc]⟩

namespace Scopes

/-- As many scopes as before are open, and more may have been bound in the innermost one. -/
structure Grown (before after : Scopes) : Prop where
  depth : after.length = before.length
  outer : after.tail = before.tail
  innermost : ∀ sc ∈ before.head?, ∃ sc' ∈ after.head?, sc'.Extends sc

variable {a b c : Scopes}

theorem Grown.refl (ss : Scopes) : Grown ss ss := ⟨rfl, rfl, fun sc hsc => ⟨sc, hsc, .refl sc⟩⟩

theorem Grown.trans (first : Grown a b) (second : Grown b c) : Grown a c where
  depth := second.depth.trans first.depth
  outer := second.outer.trans first.outer
  innermost sc hsc := by
    obtain ⟨sc', hsc', grown⟩ := first.innermost sc hsc
    obtain ⟨sc'', hsc'', grown'⟩ := second.innermost sc' hsc'
    exact ⟨sc'', hsc'', grown.trans grown'⟩

theorem grown_bindValue (ss : Scopes) (name : String) (b : ValueBinding) : Grown ss (ss.bindValue name b) := by
  cases ss with
  | nil => exact .refl []
  | cons sc rest => exact ⟨rfl, rfl, fun _ same => ⟨_, rfl, [(name, b)], [], by cases same; rfl⟩⟩

theorem grown_bindType (ss : Scopes) (name : String) (b : TypeBinding) : Grown ss (ss.bindType name b) := by
  cases ss with
  | nil => exact .refl []
  | cons sc rest => exact ⟨rfl, rfl, fun _ same => ⟨_, rfl, [], [(name, b)], by cases same; rfl⟩⟩

/-- The type variables of a method are bound in the scope that is opened for them. -/
theorem tail_pushTypeParams (ss : Scopes) (params : List TypeParam) (symbol? : TypeParam → Option Symbol) :
    (ss.pushTypeParams params symbol?).tail = ss := by
  have outer : (ss.push .methodBody none).tail = ss := rfl
  unfold pushTypeParams
  generalize ss.push .methodBody none = inner at outer ⊢
  induction params generalizing inner with
  | nil => exact outer
  | cons p rest ih =>
    rw [List.foldl_cons]
    apply ih
    cases symbol? p with
    | none => exact outer
    | some symbol => exact (inner.grown_bindType p.name.text _).outer.trans outer

end Scopes

namespace Progress

/-- As many scopes, declarations and bodies are open as before, and only the innermost scope may bind more. -/
structure Balanced (p q : Progress) : Prop where
  scopes : p.scopes.Grown q.scopes
  enclosing : q.enclosing = p.enclosing
  bodies : q.ids.depth = p.ids.depth

/-- All that is open is as it was before. -/
structure Restored (p q : Progress) : Prop where
  scopes : q.scopes = p.scopes
  enclosing : q.enclosing = p.enclosing
  bodies : q.ids.depth = p.ids.depth

/-- How a step may change what is open: not at all, for one, and in one step after another. -/
class Frame (r : Progress → Progress → Prop) : Prop where
  restored {p q : Progress} : p.Restored q → r p q
  trans {p q t : Progress} : r p q → r q t → r p t

instance : Frame Restored where
  restored h := h
  trans first second :=
    ⟨second.scopes.trans first.scopes, second.enclosing.trans first.enclosing, second.bodies.trans first.bodies⟩

instance : Frame Balanced where
  restored h := ⟨h.scopes ▸ .refl _, h.enclosing, h.bodies⟩
  trans first second :=
    ⟨first.scopes.trans second.scopes, second.enclosing.trans first.enclosing, second.bodies.trans first.bodies⟩

end Progress

/-- From every state the step leads to one that is related to it. -/
structure Moves {α : Type} (r : Progress → Progress → Prop) (x : Resolve α) : Prop where
  step : ∀ s p, r p (x s p).2

/-- The step closes what it opens. It may bind names in the scope it is taken in. -/
abbrev Resolve.Balanced {α : Type} (x : Resolve α) : Prop := Moves Progress.Balanced x

/-- The step closes what it opens, and it binds nothing in the scope it is taken in. -/
abbrev Resolve.Sealed {α : Type} (x : Resolve α) : Prop := Moves Progress.Restored x

namespace Moves

variable {α β γ : Type} {r : Progress → Progress → Prop} {x : Resolve α} {y : Resolve β}

/-! Rules. -/

theorem discard (h : Moves r x) : Moves r (Functor.discard x) := ⟨h.step⟩

theorem change {f : Progress → Progress} (h : ∀ p, r p (f p)) : Moves r (modify f : Resolve Unit) :=
  ⟨fun _ p => h p⟩

variable [Progress.Frame r]

theorem ofSealed (h : Resolve.Sealed x) : Moves r x := ⟨fun s p => Progress.Frame.restored (h.step s p)⟩

theorem pure (a : α) : Moves r (Pure.pure a : Resolve α) := ofSealed ⟨fun _ _ => ⟨rfl, rfl, rfl⟩⟩

theorem bind {f : α → Resolve β} (first : Moves r x) (second : ∀ a, Moves r (f a)) : Moves r (x >>= f) :=
  ⟨fun s p => Progress.Frame.trans (first.step s p) ((second _).step s _)⟩

theorem seq (first : Moves r x) (second : Moves r y) : Moves r (x >>= fun _ => y) := first.bind fun _ => second

theorem answering {f : α → β} (h : Moves r x) : Moves r (x >>= fun a => Pure.pure (f a)) :=
  h.bind fun _ => pure _

/-- An answer made of two answers. -/
theorem both {f : α → β → γ} (first : Moves r x) (second : Moves r y) :
    Moves r (x >>= fun a => y >>= fun b => Pure.pure (f a b)) :=
  first.bind fun _ => second.answering

theorem setting : Moves r (read : Resolve Setting) := ofSealed ⟨fun _ _ => ⟨rfl, rfl, rfl⟩⟩

theorem progress : Moves r (get : Resolve Progress) := ofSealed ⟨fun _ _ => ⟨rfl, rfl, rfl⟩⟩

theorem environment : Moves r Resolve.environment := progress.answering

theorem place : Moves r Resolve.place := progress.bind fun _ => setting.answering

/-- A change of something else. -/
theorem elsewhere {f : Progress → Progress} (h : ∀ p, Progress.Restored p (f p)) :
    Moves r (modify f : Resolve Unit) :=
  ofSealed (change h)

/-! What is opened and closed again. -/

/-- One more scope is opened, and all that a balanced step binds it binds there. -/
theorem withScopes {opened : Scopes → Scopes} (one : ∀ ss, (opened ss).tail = ss) (h : Resolve.Balanced x) :
    Moves r (Resolve.withScopes opened x) := by
  apply ofSealed
  constructor
  intro s p
  have inner := h.step s { p with scopes := opened p.scopes }
  have closed : (x s { p with scopes := opened p.scopes }).2.scopes.tail = p.scopes :=
    inner.scopes.outer.trans (one p.scopes)
  exact ⟨closed, inner.enclosing, inner.bodies⟩

theorem inScope (kind : ScopeKind) (h : Resolve.Balanced x) : Moves r (Resolve.inScope kind x) :=
  h.withScopes fun _ => rfl

theorem inClass (c : ClassInfo) (vars : List (String × Symbol)) (h : Resolve.Balanced x) :
    Moves r (Resolve.inClass c vars x) :=
  h.withScopes fun _ => rfl

theorem enclosedBy (owner : Option Symbol) (h : Resolve.Sealed x) : Moves r (Resolve.enclosedBy owner x) := by
  apply ofSealed
  cases owner with
  | none => exact h
  | some symbol =>
    constructor
    intro s p
    have inner := h.step s { p with enclosing := symbol :: p.enclosing }
    exact ⟨inner.scopes, congrArg List.tail inner.enclosing, inner.bodies⟩

theorem inBody (owner : Option Symbol) (h : Resolve.Balanced x) : Moves r (Resolve.inBody owner x) := by
  have body : Resolve.Sealed (Resolve.withScopes (·.push .methodBody owner) x) := h.withScopes fun _ => rfl
  apply enclosedBy owner
  constructor
  intro s p
  have inner := body.step s { p with ids := p.ids.enter }
  have closed : (Resolve.withScopes (·.push .methodBody owner) x s { p with ids := p.ids.enter }).2.ids.depth - 1 =
      p.ids.depth := by
    rw [inner.bodies]
    exact Nat.add_sub_cancel p.ids.depth 1
  exact ⟨inner.scopes, inner.enclosing, closed⟩

/-! What is bound, noted and drawn. -/

theorem bindValue (name : String) (b : ValueBinding) : Resolve.Balanced (Resolve.bindValue name b) :=
  change fun p => ⟨p.scopes.grown_bindValue name b, rfl, rfl⟩

theorem bindType (name : String) (b : TypeBinding) : Resolve.Balanced (Resolve.bindType name b) :=
  change fun p => ⟨p.scopes.grown_bindType name b, rfl, rfl⟩

theorem report (span : Span) (problem : Problem) : Moves r (Resolve.report span problem) :=
  setting.bind fun _ => elsewhere fun _ => ⟨rfl, rfl, rfl⟩

theorem reference (span : Span) (symbol : Symbol) : Moves r (Resolve.reference span symbol) :=
  setting.bind fun _ => elsewhere fun _ => ⟨rfl, rfl, rfl⟩

theorem mention (name : Ident) (symbol : Option Symbol) : Moves r (Resolve.mention name symbol) := by
  cases symbol with
  | none => exact pure ()
  | some symbol => exact reference name.range symbol

theorem mentionAll (names : List (Ident × Option Symbol)) : Moves r (Resolve.mentionAll names) := by
  induction names with
  | nil => exact pure ()
  | cons n rest ih => exact (mention n.1 n.2).seq ih

theorem define (name : Ident) (symbol : Symbol) (signature : String) (doc : Option Comment)
    (overrides : List Symbol) : Moves r (Resolve.define name symbol signature doc overrides) :=
  setting.bind fun _ => progress.bind fun _ => elsewhere fun _ => ⟨rfl, rfl, rfl⟩

theorem unresolved (names : List Ident) (isValue : Bool) : Moves r (Resolve.unresolved names isValue) := by
  cases names with
  | nil => exact pure ()
  | cons first rest =>
    apply (report _ _).seq
    apply setting.bind
    intro s
    split
    · exact mentionAll _
    · exact pure ()

theorem localSymbolIn (owner : Option Symbol) (kind : SymbolKind) (span : Span) :
    Moves r (Resolve.localSymbolIn owner kind span) := by
  have fresh : Moves r Resolve.freshNumber :=
    -- drawing a number leaves the count of open bodies alone
    ofSealed ⟨fun _ _ => ⟨rfl, rfl, rfl⟩⟩
  apply fresh.bind
  intro number
  split
  · exact pure _
  · exact (report _ _).answering

theorem localSymbol (kind : SymbolKind) (span : Span) : Moves r (Resolve.localSymbol kind span) :=
  progress.bind fun p => localSymbolIn p.enclosing.head? kind span

theorem declareLocal (name : Ident) (kind : SymbolKind) (type : JavaType) (signature : String) :
    Resolve.Balanced (Resolve.declareLocal name kind type signature) := by
  apply (localSymbol kind name.range).bind
  intro found
  cases found with
  | none => exact pure ()
  | some symbol => exact (define name symbol signature none []).seq (bindValue _ _)

theorem declareVariable (name : Ident) (type : Option JavaType) (signature : String) {init : Resolve JavaType}
    (h : Resolve.Balanced init) : Resolve.Balanced (Resolve.declareVariable name type signature init) := by
  apply (localSymbol .localVariable name.range).bind
  intro found
  cases found with
  | none => exact h.discard
  | some symbol =>
    apply (define name symbol signature none []).seq
    cases type with
    | some type => exact (bindValue _ _).seq h.discard
    | none => exact h.bind fun _ => bindValue _ _

end Moves

/-! What is only read inside a scope can be read without opening it. -/

namespace Resolve

/-- A scope that is opened only to look around in it leaves no trace. -/
theorem withScopes_read {α : Type} {opened : Scopes → Scopes} (one : ∀ ss, (opened ss).tail = ss)
    (f : Environment → Place → α) :
    withScopes opened (do return f (← environment) (← place)) = (do
      let here ← place
      return f (← environment) { here with scopes := opened here.scopes }) := by
  funext s p
  change (f p.environment ⟨opened p.scopes, s.imports⟩, { p with scopes := (opened p.scopes).tail }) =
    (f p.environment ⟨opened p.scopes, s.imports⟩, p)
  rw [one]

theorem headTypes_read (components : List (Ident × JavaType)) (m : MethodDecl) :
    headTypes components m = (do
      let here ← place
      let scopes := here.scopes.pushTypeParams m.typeParams fun p => some (Symbol.placeholder [p.name.text] false)
      return (← environment).callableTypes { here with scopes } components m) :=
  withScopes_read (fun ss => ss.tail_pushTypeParams _ _) fun env here => env.callableTypes here components m

theorem supertypes_read (d : TypeDecl) (c : ClassInfo) (typeParams : List (String × Symbol)) :
    supertypes d c typeParams = (do
      let here ← place
      return (← environment).supertypesOf { here with scopes := here.scopes.pushClass c typeParams } d c) :=
  withScopes_read (fun _ => rfl) fun env here => env.supertypesOf here d c

end Resolve
end JavaIndex
