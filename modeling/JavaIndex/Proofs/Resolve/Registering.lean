import JavaIndex.Proofs.Resolve.Describing

/-! How a class in a body comes to be known, with all classes declared in it. It goes under a name that
nothing has gone under before, and nothing else that is known changes. -/
namespace JavaIndex

open ClassName (Within)

variable {w : World} {t u v : Moment} {touched : String → Prop}

/-- Numbers have been drawn, and something is known under names of some sort. Nothing has been defined. -/
structure Registers (touched : String → Prop) (t u : Moment) : Prop extends Moment.Around t u where
  grants : ∀ g ∈ t.ledger.grants, g ∈ u.ledger.grants
  entries : u.ledger.entries = t.ledger.entries
  epoch : u.ledger.epoch = t.ledger.epoch
  emission : u.progress.emission = t.progress.emission
  problems : u.progress.problems = t.progress.problems
  classCount : u.progress.classCount = t.progress.classCount
  policy : u.progress.ids.policy = t.progress.ids.policy
  project : u.progress.environment.project = t.progress.environment.project
  external : u.progress.environment.external = t.progress.environment.external
  locals : ∀ key, ¬ touched key → u.locals[key]? = t.locals[key]?
  typeParams : ∀ key, ¬ touched key → u.progress.typeParams[key]? = t.progress.typeParams[key]?

/-- Nothing is known under the name of a class or of anything in it. -/
def Absent (t : Moment) (name : String) : Prop :=
  ∀ key, Within name key → t.locals[key]? = none ∧ t.progress.typeParams[key]? = none

namespace Registers

theorem refl (touched : String → Prop) (t : Moment) : Registers touched t t :=
  ⟨.refl t, fun _ h => h, rfl, rfl, rfl, rfl, rfl, rfl, rfl, rfl, fun _ _ => rfl, fun _ _ => rfl⟩

theorem trans (first : Registers touched t u) (second : Registers touched u v) :
    Registers touched t v where
  toAround := first.toAround.trans second.toAround
  grants g h := second.grants g (first.grants g h)
  entries := second.entries.trans first.entries
  epoch := second.epoch.trans first.epoch
  emission := second.emission.trans first.emission
  problems := second.problems.trans first.problems
  classCount := second.classCount.trans first.classCount
  policy := second.policy.trans first.policy
  project := second.project.trans first.project
  external := second.external.trans first.external
  locals key h := (second.locals key h).trans (first.locals key h)
  typeParams key h := (second.typeParams key h).trans (first.typeParams key h)

theorem widen {more : String → Prop} (h : Registers touched t u)
    (wider : ∀ key, touched key → more key) : Registers more t u :=
  { h with
    locals := fun key outside => h.locals key fun inside => outside (wider key inside)
    typeParams := fun key outside => h.typeParams key fun inside => outside (wider key inside) }

theorem keeps (h : Registers touched t u) : t.Keeps u := ⟨h.grants, fun _ he => h.entries ▸ he⟩

theorem housed (h : Registers touched t u) {path : List Descriptor} (housed : Housed t path) :
    Housed u path := by
  obtain inType | ⟨inside, met⟩ := housed
  · exact .inl inType
  · refine .inr ⟨by rw [h.depth]; exact inside, ?_⟩
    rw [h.epoch]
    exact met.mono h.keeps

theorem absent (h : Registers touched t u) {name : String} (absent : Absent t name)
    (apart : ∀ key, Within name key → ¬ touched key) : Absent u name := by
  intro key inside
  rw [h.locals key (apart key inside), h.typeParams key (apart key inside)]
  exact absent key inside

/-- What was known before is known after, if it goes under other names. -/
theorem le (h : Registers touched t u)
    (absent : ∀ key, touched key → t.locals[key]? = none ∧ t.progress.typeParams[key]? = none) :
    t ≤ u where
  toKeeps := h.keeps
  locals key c known := by
    by_cases inside : touched key
    · rw [(absent key inside).1] at known
      contradiction
    · rw [h.locals key inside]
      exact known
  typeParams key vars known := by
    by_cases inside : touched key
    · rw [(absent key inside).2] at known
      contradiction
    · rw [h.typeParams key inside]
      exact known
  classCount := h.classCount.ge
  depth := h.depth.ge
  epoch _ := h.epoch
  clean clean := by rw [Moment.Clean, h.problems] at clean; exact clean

end Registers

theorem Drawing.registers (h : Drawing t u) : Registers touched t u := by
  obtain ⟨ids, same, depth, policy⟩ := h.ids
  constructor
  case grants => exact h.grants
  case entries => exact h.entries
  case epoch => exact h.epoch
  case toAround =>
    refine ⟨?_, by rw [same]⟩
    rw [Moment.depth, Moment.depth, same]
    exact depth
  case policy => rw [same]; exact policy
  all_goals
    intros
    simp only [Moment.locals, same]

namespace Moment

/-- The same moment with a class known. -/
def withClass (t : Moment) (c : ClassInfo) : Moment :=
  { t with progress := { t.progress with environment := t.progress.environment.addLocal c } }

/-- The same moment with type variables known. -/
def withVars (t : Moment) (name : String) (vars : List (String × Symbol)) : Moment :=
  { t with progress := { t.progress with typeParams := t.progress.typeParams.insert name vars } }

theorem withClass_self (t : Moment) (c : ClassInfo) :
    (t.withClass c).locals[c.qualifiedName]? = some c :=
  Std.TreeMap.getElem?_insert_self

theorem withClass_other (t : Moment) (c : ClassInfo) {key : String} (other : key ≠ c.qualifiedName) :
    (t.withClass c).locals[key]? = t.locals[key]? := by
  refine Std.TreeMap.getElem?_insert.trans (if_neg ?_)
  rw [Std.LawfulEqOrd.compare_eq_iff_eq]
  exact other.symm

theorem withVars_self (t : Moment) (name : String) (vars : List (String × Symbol)) :
    (t.withVars name vars).progress.typeParams[name]? = some vars :=
  Std.TreeMap.getElem?_insert_self

theorem withVars_other (t : Moment) {name key : String} (vars : List (String × Symbol))
    (other : key ≠ name) :
    (t.withVars name vars).progress.typeParams[key]? = t.progress.typeParams[key]? := by
  refine Std.TreeMap.getElem?_insert.trans (if_neg ?_)
  rw [Std.LawfulEqOrd.compare_eq_iff_eq]
  exact other.symm

theorem registers_withClass (t : Moment) {c : ClassInfo} (own : touched c.qualifiedName) :
    Registers touched t (t.withClass c) where
  grants _ h := h
  entries := rfl
  epoch := rfl
  emission := rfl
  problems := rfl
  classCount := rfl
  enclosing := rfl
  depth := rfl
  policy := rfl
  project := rfl
  external := rfl
  locals _ outside := t.withClass_other c fun same => outside (same ▸ own)
  typeParams _ _ := rfl

theorem registers_withVars (t : Moment) {name : String} (vars : List (String × Symbol))
    (own : touched name) : Registers touched t (t.withVars name vars) where
  grants _ h := h
  entries := rfl
  epoch := rfl
  emission := rfl
  problems := rfl
  classCount := rfl
  enclosing := rfl
  depth := rfl
  policy := rfl
  project := rfl
  external := rfl
  locals _ _ := rfl
  typeParams _ outside := t.withVars_other vars fun same => outside (same ▸ own)

theorem registers_withScopes (t : Moment) (scopes : Scopes) :
    Registers touched t (t.withScopes scopes) :=
  ⟨⟨rfl, rfl⟩, fun _ h => h, rfl, rfl, rfl, rfl, rfl, rfl, rfl, rfl, fun _ _ => rfl, fun _ _ => rfl⟩

end Moment

/-! Which classes are known under which names. -/

/-- A declared type and those declared in it, by their names. -/
inductive InTree : String → TypeDecl → String → TypeDecl → Prop
  | root {name d} : InTree name d name d
  | inner {name d inner key d'} : inner ∈ ClassBody.typesOf d.members →
      InTree (name ++ "." ++ inner.name.text) inner key d' → InTree name d key d'

/-- Under a name there is nothing known, or else a class of which this is true. -/
def Holds (t : Moment) (key : String) (P : ClassInfo → List (String × Symbol) → Prop) : Prop :=
  (t.locals[key]? = none ∧ t.progress.typeParams[key]? = none) ∨
    ∃ c vars, t.locals[key]? = some c ∧ t.progress.typeParams[key]? = some vars ∧
      c.qualifiedName = key ∧ P c vars

/-- Nothing but a declared type and those declared in it is known under its name and the names inside. -/
def Grown (t : Moment) (name : String) (d : TypeDecl) : Prop :=
  ∀ key, Within name key → Holds t key fun c vars =>
    ∃ d', InTree name d key d' ∧ LocalBody t c vars (.declared d')

theorem Holds.frame {key : String} {P Q : ClassInfo → List (String × Symbol) → Prop}
    (h : Holds t key P) (same : u.locals[key]? = t.locals[key]?)
    (same' : u.progress.typeParams[key]? = t.progress.typeParams[key]?)
    (imp : ∀ c vars, P c vars → Q c vars) : Holds u key Q := by
  unfold Holds
  rw [same, same']
  exact h.imp_right fun ⟨c, vars, known, params, named, p⟩ =>
    ⟨c, vars, known, params, named, imp c vars p⟩

theorem Grown.frame {name : String} {d : TypeDecl} (h : Grown t name d) (r : Registers touched t u)
    (apart : ∀ key, Within name key → ¬ touched key) : Grown u name d := by
  intro key inside
  refine (h key inside).frame (r.locals key (apart key inside)) (r.typeParams key (apart key inside)) ?_
  rintro c vars ⟨d', tree, described⟩
  exact ⟨d', tree, described.mono r.keeps⟩

theorem Known.frame {name : String} {d : TypeDecl} (h : Known w t name d) (r : Registers touched t u)
    (apart : ∀ key, Within name key → ¬ touched key) : Known w u name d := by
  induction h with
  | @intro name d c vars found named matched housed nested ih =>
    have found' : Found w u name c vars := by
      cases found with
      | inBody known params =>
        exact .inBody ((r.locals name (apart name (.refl name))).trans known)
          ((r.typeParams name (apart name (.refl name))).trans params)
      | project unmarked known => exact .project unmarked known
    refine .intro found' named (matched.mono r.keeps) (r.housed housed) fun inner hinner => ?_
    exact ih inner hinner fun key inside => apart key ((Within.member name _).trans inside)

/-! Steps of the registration. -/

/-- One step after another one whose outcome is known. -/
theorem run_bind {α β : Type} {x : Resolve α} {s : Setting} {p p' : Progress} {a : α}
    (run : x s p = (a, p')) (f : α → Resolve β) : (x >>= f) s p = f a s p' := by
  change f (x s p).1 s (x s p).2 = _
  rw [run]

theorem withScopes_run {α : Type} {opened : Scopes → Scopes} {x : Resolve α} {s : Setting} {a : α}
    (run : x s (t.withScopes (opened t.progress.scopes)).progress = (a, u.progress)) :
    Resolve.withScopes opened x s t.progress =
      (a, (u.withScopes u.progress.scopes.tail).progress) := by
  let inner := x s (t.withScopes (opened t.progress.scopes)).progress
  change (inner.1, { inner.2 with scopes := inner.2.scopes.tail }) = _
  rw [show inner = (a, u.progress) from run]
  rfl

/-- A class bound in the innermost scope, if its name can be written. -/
def rebound (name : Option Ident) (c : ClassInfo) (scopes : Scopes) : Scopes :=
  match name with
  | some name => scopes.bindType name.text (.ofClass c)
  | none => scopes

theorem Draws.classTypeParams {owner : Symbol} {env : Environment} {place : Place} {since : Moment}
    (inside : owner.kind ≠ .package) (params : List TypeParam) :
    Draws owner since env place (Resolve.classTypeParams owner params) fun vars t =>
      List.Forall₂ (fun p v => v.1 = p.name.text ∧ t.Granted owner v.2 p.name.range) params vars := by
  induction params generalizing since with
  | nil => exact Draws.pure fun _ _ => .nil
  | cons p rest ih =>
    refine (Draws.localSymbolIn inside _ p.name.range).bind fun symbol t _ ⟨s, hs, _, granted⟩ => ?_
    rw [hs]
    refine ih.bind fun vars u keep all => Draws.pure fun v keep' => .cons ⟨rfl, ?_⟩ ?_
    · exact (granted.mono keep).mono keep'
    · exact all.imp fun _ _ h => ⟨h.1, h.2.mono keep'⟩

/-- A class of which nothing is known that could be found in it. -/
structure Bare (c : ClassInfo) : Prop where
  fields : c.fields = []
  methods : c.methods = []
  constructors : c.constructors = []

theorem Bare.sound {c : ClassInfo} (bare : Bare c) : ClassSound w t c := by
  intro s offered
  cases offered with
  | field found => simp [ClassInfo.field?, bare.fields] at found
  | method h => simp [bare.methods] at h
  | constructor h => simp [bare.constructors] at h

/-- What the head of a class is known to be. -/
structure Headed (t : Moment) (d : TypeDecl) (name : String) (symbol : Symbol) (c : ClassInfo)
    (vars : List (String × Symbol)) : Prop where
  named : c.qualifiedName = name
  owner : c.symbol = symbol
  origin : c.origin = .local
  known : t.locals[name]? = some c
  params : t.progress.typeParams[name]? = some vars
  granted : List.Forall₂ (fun p v => v.1 = p.name.text ∧ t.Granted symbol v.2 p.name.range)
    d.typeParams vars

theorem registerHead_run (d : TypeDecl) (name : String) {symbol : Symbol} (bound : Option Ident)
    (s : Setting) (numbered : Numbered t) (housed : Housed t symbol.path)
    (inside : symbol.kind ≠ .package) :
    ∃ u c vars bare, Resolve.registerHead d name symbol bound s t.progress = ((c, vars), u.progress) ∧
      Registers (· = name) t u ∧ Numbered u ∧ Headed u d name symbol c vars ∧
      Bare bare ∧ bare.symbol = symbol ∧ bare.qualifiedName = name ∧
      u.progress.scopes = rebound bound bare t.progress.scopes := by
  obtain ⟨t₁, h₁, drawing, numbered₁, granted⟩ := Draws.classTypeParams inside d.typeParams s t
    numbered housed ⟨fun _ h => h, fun _ h => h⟩ rfl rfl
  let vars := (Resolve.classTypeParams symbol d.typeParams s t.progress).1
  let bare : ClassInfo :=
    ⟨name, s.imports.package, symbol, .local, vars.map Prod.fst, none, [], [], [], [], false⟩
  let t₂ := (t₁.withVars name vars).withClass bare
  let t₃ := t₂.withScopes (rebound bound bare t₂.progress.scopes)
  let place := t₃.place s
  let types := t₃.progress.environment.supertypesOf
    { place with scopes := place.scopes.pushClass bare vars } d bare
  let c : ClassInfo := { bare with superclass := types.1, interfaces := types.2 }
  have run : Resolve.registerHead d name symbol bound s t.progress =
      ((c, vars), (t₃.withClass c).progress) := by
    have first : Resolve.classTypeParams symbol d.typeParams s t.progress = (vars, t₁.progress) :=
      Prod.ext rfl h₁
    refine (run_bind first _).trans ?_
    cases bound <;> rfl
  have toVars : Registers (· = name) t (t₁.withVars name vars) :=
    drawing.registers.trans (t₁.registers_withVars vars rfl)
  have toScopes : Registers (· = name) t t₃ :=
    (toVars.trans (Moment.registers_withClass _ rfl)).trans (Moment.registers_withScopes _ _)
  have registers : Registers (· = name) t (t₃.withClass c) :=
    toScopes.trans (Moment.registers_withClass _ rfl)
  refine ⟨t₃.withClass c, c, vars, bare, run, registers, numbered₁.of_eq rfl rfl, ?_, ⟨rfl, rfl, rfl⟩,
    rfl, rfl, ?_⟩
  · exact ⟨rfl, rfl, rfl, t₃.withClass_self c, t₁.withVars_self name vars, granted⟩
  · change rebound bound bare t₁.progress.scopes = _
    rw [drawing.scopes]

/-! The registration itself. -/

/-- The name belongs to a type declared among the members of a class, or is inside one. -/
def InMembers (outer : String) (ms : List Member) (key : String) : Prop :=
  ∃ inner ∈ ClassBody.typesOf ms, Within (outer ++ "." ++ inner.name.text) key

/-- What the registration of a declared type comes to. -/
structure Registered (w : World) (t u : Moment) (name : String) (symbol : Symbol) (bound : Option Ident)
    (d : TypeDecl) (c : ClassInfo) : Prop where
  registers : Registers (Within name) t u
  numbered : Numbered u
  owner : c.symbol = symbol
  known : u.locals[name]? = some c
  tree : Known w u name d
  grown : Grown u name d
  scopes : ∃ bare, Bare bare ∧ bare.symbol = symbol ∧ bare.qualifiedName = name ∧
    u.progress.scopes = rebound bound c (rebound bound bare t.progress.scopes)

/-- What the registration of the types among the members of a class comes to. -/
structure MembersRegistered (w : World) (t u : Moment) (outer : String) (ms : List Member) : Prop where
  registers : Registers (InMembers outer ms) t u
  numbered : Numbered u
  scopes : u.progress.scopes = t.progress.scopes
  trees : ∀ inner ∈ ClassBody.typesOf ms, Known w u (outer ++ "." ++ inner.name.text) inner ∧
    Grown u (outer ++ "." ++ inner.name.text) inner

theorem MembersRegistered.skip {outer : String} {m : Member} {ms : List Member}
    (h : MembersRegistered w t u outer ms) (same : ClassBody.typesOf (m :: ms) = ClassBody.typesOf ms) :
    MembersRegistered w t u outer (m :: ms) where
  registers := by
    refine h.registers.widen fun key ⟨inner, hinner, inside⟩ => ⟨inner, ?_, inside⟩
    rw [same]
    exact hinner
  numbered := h.numbered
  scopes := h.scopes
  trees := by
    rw [same]
    exact h.trees

/-- What is known of a class and of those declared in it, once the class itself has been described. -/
theorem registered_tree {name : String} {d : TypeDecl} {c : ClassInfo} {vars : List (String × Symbol)}
    {t₁ t₂ : Moment} (absent : Absent t name) (entered : Registers (· = name) t t₁)
    (members : Registers (InMembers name d.members) t₁ t₂)
    (trees : ∀ inner ∈ ClassBody.typesOf d.members,
      Known w t₂ (name ++ "." ++ inner.name.text) inner ∧ Grown t₂ (name ++ "." ++ inner.name.text) inner)
    (closed : Registers (· = name) t₂ u) (known : u.locals[name]? = some c)
    (params : u.progress.typeParams[name]? = some vars) (named : c.qualifiedName = name)
    (described : LocalBody u c vars (.declared d)) (housed : Housed u c.symbol.path) :
    Known w u name d ∧ Grown u name d := by
  have apart (inner : TypeDecl) (key : String)
      (inside : Within (name ++ "." ++ inner.name.text) key) : ¬ key = name := inside.ne_outer
  constructor
  · exact .intro (.inBody known params) named (.inr described) housed fun inner hinner =>
      (trees inner hinner).1.frame closed (apart inner)
  · intro key within
    by_cases here : key = name
    · subst here
      exact .inr ⟨c, vars, known, params, named, d, .root, described⟩
    · by_cases inside : InMembers name d.members key
      · obtain ⟨inner, hinner, inside⟩ := inside
        refine ((trees inner hinner).2.frame closed (apart inner) key inside).frame rfl rfl ?_
        rintro c' vars' ⟨d', tree, described'⟩
        exact ⟨d', .inner hinner tree, described'⟩
      · refine .inl ?_
        rw [closed.locals key here, members.locals key inside, entered.locals key here,
          closed.typeParams key here, members.typeParams key inside, entered.typeParams key here]
        exact absent key within

/-- What a class comes to whose members have been registered and described. -/
structure BodyDescribed (w : World) (t u : Moment) (head c : ClassInfo) (vars : List (String × Symbol))
    (b : ClassSyntax) : Prop where
  registers : Registers (InMembers head.qualifiedName b.body.members) t u
  numbered : Numbered u
  scopes : u.progress.scopes = t.progress.scopes
  trees : ∀ inner ∈ ClassBody.typesOf b.body.members,
    Known w u (head.qualifiedName ++ "." ++ inner.name.text) inner ∧
      Grown u (head.qualifiedName ++ "." ++ inner.name.text) inner
  named : c.qualifiedName = head.qualifiedName
  owner : c.symbol = head.symbol
  described : LocalBody u c vars b

/-- A class is described in its own scope, after the types among its members. -/
theorem describe_run (head : ClassInfo) {vars : List (String × Symbol)} {b : ClassSyntax} (span : Span)
    {s : Setting} (housed : Housed t head.symbol.path)
    (inside : head.symbol.kind ≠ .package) (origin : head.origin = .local)
    (granted : ∀ i, b.name? = some i → ∃ o, t.Granted o head.symbol i.range)
    (varsGranted : List.Forall₂ (fun p v => v.1 = p.name.text ∧
      t.Granted head.symbol v.2 p.name.range) b.typeParams vars)
    (members : ∃ u, Resolve.registerMembers head.qualifiedName head.symbol b.body.members s
        (t.withScopes (t.progress.scopes.pushClass head vars)).progress = ((), u.progress) ∧
      MembersRegistered w (t.withScopes (t.progress.scopes.pushClass head vars)) u
        head.qualifiedName b.body.members) :
    ∃ u c, Resolve.inClass head vars (do
        Resolve.registerMembers head.qualifiedName head.symbol b.body.members
        Resolve.describe head b.body span) s t.progress = (c, u.progress) ∧
      BodyDescribed w t u head c vars b := by
  obtain ⟨t₁, membersRun, registered⟩ := members
  have registers : Registers (InMembers head.qualifiedName b.body.members) t t₁ :=
    (t.registers_withScopes _).trans registered.registers
  have keep := registers.keeps
  obtain ⟨t₂, describeRun, drawing, numbered₂, ⟨fields, methods, constructors, same⟩, described⟩ :=
    Draws.describe inside span origin vars
      (fun i named =>
        let ⟨o, granted⟩ := granted i named
        ⟨o, granted.mono keep⟩)
      (varsGranted.imp fun _ _ v => ⟨v.1, v.2.mono keep⟩)
      s t₁ registered.numbered (registers.housed housed) ⟨fun _ h => h, fun _ h => h⟩ rfl rfl
  have both : (do
      Resolve.registerMembers head.qualifiedName head.symbol b.body.members
      Resolve.describe head b.body span : Resolve ClassInfo) s
        (t.withScopes (t.progress.scopes.pushClass head vars)).progress =
      ((Resolve.describe head b.body span s t₁.progress).1, t₂.progress) :=
    (run_bind membersRun _).trans (Prod.ext rfl describeRun)
  have toEnd (touched : String → Prop) :
      Registers touched t₁ (t₂.withScopes t₂.progress.scopes.tail) :=
    drawing.registers.trans (t₂.registers_withScopes _)
  have closed : t₂.progress.scopes.tail = t.progress.scopes :=
    congrArg List.tail (drawing.scopes.trans registered.scopes)
  refine ⟨t₂.withScopes t₂.progress.scopes.tail, _, withScopes_run both, registers.trans (toEnd _),
    numbered₂.of_eq rfl rfl, closed, fun inner hinner => ?_, ?_, ?_, described.mono (.of_eq rfl)⟩
  · obtain ⟨tree, grown⟩ := registered.trees inner hinner
    exact ⟨tree.frame (toEnd fun _ => False) fun _ _ h => h,
      grown.frame (toEnd fun _ => False) fun _ _ h => h⟩
  · rw [same]
  · rw [same]

/-- A class whose members have been registered is described and known. -/
theorem register_run {name : String} {symbol : Symbol} (bound : Option Ident) {d : TypeDecl}
    {s : Setting} (numbered : Numbered t) (housed : Housed t symbol.path)
    (inside : symbol.kind ≠ .package) (granted : ∃ o, t.Granted o symbol d.name.range)
    (absent : Absent t name)
    (members : ∀ t, Numbered t → Housed t symbol.path →
      (∀ inner ∈ ClassBody.typesOf d.members, Absent t (name ++ "." ++ inner.name.text)) →
      ∃ u, Resolve.registerMembers name symbol d.members s t.progress = ((), u.progress) ∧
        MembersRegistered w t u name d.members) :
    ∃ u c, Resolve.register name symbol bound d s t.progress = (c, u.progress) ∧
      Registered w t u name symbol bound d c := by
  obtain ⟨t₁, head, vars, bare, headRun, entered, numbered₁, headed, isBare, bareSymbol, bareName, scopes₁⟩ :=
    registerHead_run d name bound s numbered housed inside
  have absent₁ : ∀ scopes, ∀ inner ∈ ClassBody.typesOf d.members,
      Absent (t₁.withScopes scopes) (name ++ "." ++ inner.name.text) := by
    intro scopes inner _
    refine entered.absent (fun key within => absent key ((Within.member _ _).trans within)) ?_
    exact fun key within => within.ne_outer
  obtain ⟨rfl, rfl, origin, -, params, varsGranted⟩ := headed
  obtain ⟨t₂, c, bodyRun, body⟩ := describe_run _ (b := .declared d) d.name.range
    (entered.housed housed) inside origin
    (fun i named => by
      cases Option.some.inj named
      obtain ⟨o, granted⟩ := granted
      exact ⟨o, granted.mono entered.keeps⟩)
    varsGranted (members _ (numbered₁.of_eq rfl rfl)
      ((entered.housed housed).mono (t₁.le_withScopes _)) (absent₁ _))
  let t₃ := t₂.withClass c
  let u := t₃.withScopes (rebound bound c t₃.progress.scopes)
  have run : Resolve.register head.qualifiedName head.symbol bound d s t.progress = (c, u.progress) := by
    cases d
    refine (run_bind headRun _).trans ((run_bind bodyRun _).trans ?_)
    cases bound <;> rfl
  have toClass : Registers (· = head.qualifiedName) t₂ t₃ := Moment.registers_withClass _ body.named
  have closed : Registers (· = head.qualifiedName) t₂ u := toClass.trans (Moment.registers_withScopes _ _)
  have here : u.locals[head.qualifiedName]? = some c := by
    rw [← body.named]
    exact Moment.withClass_self _ c
  have varsHere : u.progress.typeParams[head.qualifiedName]? = some vars :=
    (body.registers.typeParams head.qualifiedName fun ⟨_, _, within⟩ => within.ne_outer rfl).trans params
  have housed₂ : Housed u c.symbol.path := by
    rw [body.owner]
    exact closed.housed (body.registers.housed (entered.housed housed))
  obtain ⟨tree, grown⟩ := registered_tree absent entered body.registers body.trees closed here varsHere
    body.named (body.described.mono (.of_eq rfl)) housed₂
  refine ⟨u, c, run, ?_, body.numbered.of_eq rfl rfl, body.owner, here, tree, grown, bare, isBare,
    bareSymbol, bareName, ?_⟩
  · have wide : ∀ key, InMembers head.qualifiedName d.members key → Within head.qualifiedName key :=
      fun key ⟨_, _, within⟩ => (Within.member _ _).trans within
    exact ((entered.widen fun key same => .inl same).trans (body.registers.widen wide)).trans
      (closed.widen fun key same => .inl same)
  · change rebound bound c t₂.progress.scopes = _
    rw [body.scopes, scopes₁]

mutual

theorem register (d : TypeDecl) {name : String} {symbol : Symbol} (bound : Option Ident) {s : Setting}
    {t : Moment} (fine : ∀ n ∈ Nodes.typeDecl d, Fine w n) (numbered : Numbered t)
    (housed : Housed t symbol.path) (inside : symbol.kind ≠ .package)
    (granted : ∃ o, t.Granted o symbol d.name.range) (absent : Absent t name) :
    ∃ u c, Resolve.register name symbol bound d s t.progress = (c, u.progress) ∧
      Registered w t u name symbol bound d c := by
  match d with
  | ⟨kind, modifiers, ident, typeParams, extending, implementing, permitting, components, constants,
      members, doc, range⟩ =>
    exact register_run bound numbered housed inside granted absent fun t numbered housed absent =>
      registerMembers members (Nodes.members_fine fine) (Nodes.class_fine fine).2.1 numbered housed inside
        absent

theorem registerMembers (ms : List Member) {outer : String} {owner : Symbol} {s : Setting} {t : Moment}
    (fine : ∀ n ∈ Nodes.members ms, Fine w n)
    (distinct : ((ClassBody.typesOf ms).map fun d => d.name.text).Nodup) (numbered : Numbered t)
    (housed : Housed t owner.path) (inside : owner.kind ≠ .package)
    (absent : ∀ inner ∈ ClassBody.typesOf ms, Absent t (outer ++ "." ++ inner.name.text)) :
    ∃ u, Resolve.registerMembers outer owner ms s t.progress = ((), u.progress) ∧
      MembersRegistered w t u outer ms := by
  match ms with
  | [] => exact ⟨t, rfl, .refl _ t, numbered, rfl, by simp [ClassBody.typesOf]⟩
  | .field d doc range :: rest =>
    obtain ⟨u, run, done⟩ := registerMembers rest (fun n hn => fine n (List.mem_append_right _ hn))
      distinct numbered housed inside absent
    exact ⟨u, run, done.skip rfl⟩
  | .method m :: rest =>
    obtain ⟨u, run, done⟩ := registerMembers rest (fun n hn => fine n (List.mem_append_right _ hn))
      distinct numbered housed inside absent
    exact ⟨u, run, done.skip rfl⟩
  | .initializer isStatic body :: rest =>
    obtain ⟨u, run, done⟩ := registerMembers rest (fun n hn => fine n (List.mem_append_right _ hn))
      distinct numbered housed inside absent
    exact ⟨u, run, done.skip rfl⟩
  | .type d :: rest =>
    obtain ⟨t₁, drawRun, drawing, numbered₁, symbol, drawn, kind, granted⟩ := Draws.localSymbolIn inside
      (.ofDecl d.kind) d.name.range s t numbered housed ⟨fun _ h => h, fun _ h => h⟩ rfl rfl
    have inside₁ : symbol.kind ≠ .package := by
      rw [kind]
      cases d.kind <;> simp [SymbolKind.ofDecl]
    have housed₁ : Housed t₁ symbol.path := by
      obtain ⟨-, number, path⟩ := LocalBody.granted_local granted
      rw [path]
      exact (housed.mono drawing.le).append_local number
    have fineHere : ∀ n ∈ Nodes.typeDecl d, Fine w n := fun n hn => fine n (List.mem_append_left _ hn)
    have fineRest : ∀ n ∈ Nodes.members rest, Fine w n := fun n hn => fine n (List.mem_append_right _ hn)
    obtain ⟨fresh, distinctRest⟩ := List.nodup_cons.mp distinct
    have apart : ∀ inner ∈ ClassBody.typesOf rest, ∀ key, Within (outer ++ "." ++ inner.name.text) key →
        ¬ Within (outer ++ "." ++ d.name.text) key := by
      intro inner hinner key within within'
      have plain := Nodes.name_plain (Nodes.types_fine fineRest inner hinner)
      have same := within'.member_unique (Nodes.name_plain fineHere) plain within
      exact fresh (List.mem_map.mpr ⟨inner, hinner, same.symm⟩)
    obtain ⟨t₂, c, registerRun, done⟩ := register d none fineHere numbered₁ housed₁ inside₁
      ⟨owner, granted⟩ (Registers.absent drawing.registers (absent d List.mem_cons_self) fun _ _ h => h)
    have toHere : Registers (Within (outer ++ "." ++ d.name.text)) t t₂ :=
      drawing.registers.trans done.registers
    obtain ⟨u, restRun, rests⟩ := registerMembers rest fineRest distinctRest done.numbered
      (toHere.housed housed) inside fun inner hinner =>
        toHere.absent (absent inner (List.mem_cons_of_mem _ hinner)) (apart inner hinner)
    have run : Resolve.registerMembers outer owner (.type d :: rest) s t.progress = ((), u.progress) := by
      have drawn : Resolve.localSymbolIn (some owner) (.ofDecl d.kind) d.name.range s t.progress =
          (some symbol, t₁.progress) := Prod.ext drawn drawRun
      have discarded : Functor.discard (Resolve.register (outer ++ "." ++ d.name.text) symbol none d) s
          t₁.progress = ((), t₂.progress) := by
        change ((), (Resolve.register (outer ++ "." ++ d.name.text) symbol none d s t₁.progress).2) = _
        rw [registerRun]
      exact (run_bind drawn _).trans ((run_bind discarded _).trans restRun)
    refine ⟨u, run, ⟨?_, rests.numbered, ?_, ?_⟩⟩
    · exact (toHere.widen fun key within => ⟨d, List.mem_cons_self, within⟩).trans
        (rests.registers.widen fun key ⟨inner, hinner, within⟩ =>
          ⟨inner, List.mem_cons_of_mem _ hinner, within⟩)
    · obtain ⟨bare, -, -, -, scopes⟩ := done.scopes
      rw [rests.scopes, scopes]
      exact drawing.scopes
    · intro inner hinner
      obtain rfl | hinner := List.mem_cons.mp hinner
      · have kept : ∀ key, Within (outer ++ "." ++ inner.name.text) key → ¬ InMembers outer rest key :=
          fun key within ⟨other, hother, within'⟩ => apart other hother key within' within
        exact ⟨done.tree.frame rests.registers kept, done.grown.frame rests.registers kept⟩
      · exact rests.trees inner hinner

end

end JavaIndex
