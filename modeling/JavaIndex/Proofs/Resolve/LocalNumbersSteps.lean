import JavaIndex.Proofs.Resolve.LocalNumbers

/-! The steps that define, open bodies and come to classes in bodies, and what they tell apart. An outermost body
in which numbers start again is looked at as if nothing had been numbered before. -/
namespace JavaIndex

variable {w : World} {since t u : Moment} {ns : List Node} {bs : List (List Node)}

/-! Nothing is asked of what is used. -/

section

variable (lax : w.lax)

include lax

theorem ClassSound.unasked (c : ClassInfo) : ClassSound w t c := fun _ _ => .unasked lax

theorem ClassNamed.unasked (c : ClassInfo) : ClassNamed w t c := ⟨.unasked lax c, .unasked lax, .inl lax⟩

theorem ScopeSound.unasked (sc : Scope) : ScopeSound w t sc where
  values _ _ := .unasked lax
  types b _ := by
    cases b.2 with
    | ofClass c => exact ClassNamed.unasked lax c
    | typeParam name s => exact Sound.unasked lax
  members c _ := .unasked lax c
  ofClass c _ _ := .unasked lax c

theorem ReceiverSound.unasked (r : Receiver) : ReceiverSound w t r := fun c _ => .unasked lax c

end

/-! Another ledger for the same state. -/

/-- What the index tells of a definition. -/
def Entry.told (e : Entry) : Ident × SymbolId := (e.name, e.symbol)

/-- The epochs of what has been defined do not matter, and neither does it which numbers have been given out, as
long as all that is around is met in its body. -/
theorem Ready.relabel {s : Setting} {enclosing : List Symbol} {ids : LocalIds} {ledger : Ledger}
    (loose : w.Loose) (ready : Ready w s u) (policy : ids.policy = u.progress.ids.policy)
    (entries : ledger.entries.map Entry.told = u.ledger.entries.map Entry.told)
    (numbered : Numbered ⟨{ u.progress with enclosing, ids }, ledger⟩)
    (around : ∀ o ∈ enclosing, Housed ⟨{ u.progress with enclosing, ids }, ledger⟩ o.path)
    (oneEpoch : w.policy = .perUnit → ledger.epoch = 0) :
    Ready w s ⟨{ u.progress with enclosing, ids }, ledger⟩ where
  toNumbered := numbered
  lines := ready.lines
  imports := ready.imports
  project := ready.project
  external := ready.external
  policy := policy.trans ready.policy
  named := ready.named
  known _ c _ := ⟨.unasked loose.lax c, fun _ => .unasked loose.lax⟩
  typeParams name vars known := ⟨(ready.typeParams name vars known).1, fun _ _ => .unasked loose.lax⟩
  scopes sc _ := .unasked loose.lax sc
  definitions := by
    have told := congrArg (List.map fun e : Ident × SymbolId => (w.lines.region e.1.range, e.2)) entries
    rw [List.map_map, List.map_map] at told
    exact ready.definitions.trans (congrArg List.reverse told).symm
  references _ _ _ := .unasked loose.lax
  infos := by
    refine ⟨ready.infos.1, fun id => (ready.infos.2 id).trans ?_⟩
    have symbols := congrArg (List.map Prod.snd) entries
    rw [List.map_map, List.map_map] at symbols
    have same : id ∈ u.ledger.entries.map Entry.symbol ↔ id ∈ ledger.entries.map Entry.symbol := by
      change id ∈ u.ledger.entries.map (Prod.snd ∘ Entry.told) ↔ id ∈ ledger.entries.map (Prod.snd ∘ Entry.told)
      rw [symbols]
    simpa only [List.mem_map] using same
  given distinct := absurd distinct loose.plain
  enclosing := around
  oneEpoch := oneEpoch

namespace Moment

/-- The same moment as if no number had been given out before. -/
def anew (t : Moment) : Moment :=
  { t with ledger := ⟨[], t.ledger.entries.map fun e => { e with epoch := 0 }, 0⟩ }

/-- The end of an outermost body, where the numbers given out in it do not matter any more. -/
def closed (t u : Moment) (added : List Entry) : Moment :=
  ⟨(u.left t.progress.enclosing).progress, ⟨t.ledger.grants, t.ledger.entries ++ added, t.bodyEpoch⟩⟩

end Moment

theorem Housed.anew {path : List Descriptor} (h : Housed t path) : Housed t.anew path := by
  obtain inType | ⟨inside, inType | ⟨e, he, symbol, -⟩⟩ := h
  · exact .inl inType
  · exact .inl inType
  · exact .inr ⟨inside, .inr ⟨{ e with epoch := 0 }, List.mem_map_of_mem he, symbol, rfl⟩⟩

theorem Ready.anew {s : Setting} (loose : w.Loose) (ready : Ready w s t) : Ready w s t.anew := by
  refine ready.relabel loose rfl ?_ ⟨nofun, nofun, nofun⟩ (fun o ho => (ready.enclosing o ho).anew) fun _ => rfl
  simp only [List.map_map]
  rfl

/-! Bodies. -/

namespace Adds

variable {es : List Entry}

/-- What begins at one moment, and in the first epoch, is a body of its own. -/
theorem body (h : Adds w ns [] t u es) (grounded : w.Grounded) (numbered : Numbered u) (first : u.ledger.epoch = 0)
    (on : t.GoesOn) : Adds w ns [ns] t u es := by
  refine ⟨h.grown, h.names, h.numbers, h.given, h.hold.self, fun body hbody => ?_⟩
  obtain rfl | hbody := List.mem_cons.mp hbody
  · exact .of_given grounded numbered first (h.given on) _
  · exact h.apart body hbody

theorem entry {emission : Emission} {e : Entry} (grounded : w.Grounded)
    (given : Given w.strict t e.symbol e.name.range) :
    Adds w (Nodes.declaration e.name) [] t (t.withEntry emission e) [e] where
  grown := rfl
  names d hd := by
    rw [List.mem_singleton.mp hd]
    exact List.mem_singleton_self e.name
  numbers d hd inBody := by
    rw [List.mem_singleton.mp hd] at inBody ⊢
    obtain ⟨g, -, symbol, -⟩ := given.granted_of_local grounded inBody
    exact ⟨g.number, symbol ▸ g.text⟩
  given _ d hd := by
    rw [List.mem_singleton.mp hd]
    exact given.mono (t.le_withEntry emission e).toKeeps
  hold := .declaration e.name
  apart body hbody := by
    have none : Nodes.bodies (Nodes.declaration e.name) = [] := rfl
    rw [none] at hbody
    cases hbody

end Adds

/-- In the project a symbol stands for the same at every moment. -/
theorem Given.anywhere {s : SymbolId} {span : Span} (h : Given w t s span) (outside : s.scheme ≠ .local) :
    Given w u s span := by
  cases h with
  | planned site known plan => exact .planned site known plan
  | granted => exact absurd rfl outside

/-- A type variable of a method has a name in the project, or none that is planned. -/
theorem Plan.methodTypeParam.outside {method s : Symbol} {m : MethodDecl} {i : Ident}
    (plan : Plan.methodTypeParam method m i s) : s.scheme ≠ .local := by
  obtain ⟨p, -, -, planned⟩ := plan
  rw [Symbol.ofDeclaration_scheme planned nofun]
  intro inside
  have owner : method.isLocal = true := by simp [Symbol.isLocal, inside]
  exact Walks.ofDeclaration_inside_local owner _ s planned

/-- Each type variable that has a symbol can be defined with it. -/
def ParamsBacked (w : World) (t : Moment) (params : List TypeParam) (symbols : List (Option Symbol)) : Prop :=
  List.Forall₂ (fun p symbol => ∀ s : Symbol, symbol = some s → Given w.strict t s.id p.name.range) params symbols

theorem ParamsBacked.mono {params : List TypeParam} {symbols : List (Option Symbol)}
    (h : ParamsBacked w t params symbols) (le : t.Keeps u) : ParamsBacked w u params symbols :=
  h.imp fun _ _ given s hs => (given s hs).mono le

/-- Where no class repeats a name, all of a class can be defined as planned. -/
theorem Backed.strictly {c : ClassInfo} {vars : List (String × Symbol)} {b : ClassSyntax}
    (backed : Backed w t c vars b) (grounded : w.Grounded) (fine : Fine w.strict (.ofPart (.ofClass b)))
    (plain : ∀ m ∈ ClassBody.callablesOf b.body.members, Plain m.name.text) :
    Feasible w.strict t (Plan.ofClass c vars b) := by
  intro i s plan
  have matched : Matched w.strict t c vars b := backed.matched
  obtain ⟨fields, params⟩ := fine.2.2 trivial
  exact ⟨fun _ => matched.given plain fields params plan, backed.matched.anchored grounded plain backed.housed plan⟩

theorem Feasible.paramsBacked {c : ClassInfo} {vars : List (String × Symbol)} {b : ClassSyntax}
    (feasible : Feasible w.strict t (Plan.ofClass c vars b)) :
    ParamsBacked w t b.typeParams (Resolve.boundTypeParams vars b.typeParams) := by
  refine List.forall₂_map_right_iff.mpr (List.forall₂_same.mpr fun p hp s bound => ?_)
  exact (feasible p.name s (.typeParam ⟨p, hp, rfl, bound⟩)).1 trivial

namespace Tallies

variable {α β : Type} {x : Resolve α}

/-- A step whose answer is used by another one that resolves nothing itself. -/
theorem bind_last {f : α → Resolve β} (first : Tallies w since ns bs x)
    (second : ∀ a t, since ≤ t → Tallies w t [] [] (f a)) : Tallies w since ns bs (x >>= f) := by
  have walk := first.bind second
  rwa [List.append_nil, List.append_nil] at walk

theorem typeOf {x : Resolve Receiver} (h : Tallies w since ns bs x) : Tallies w since ns bs (Resolve.typeOf x) :=
  h.answering

theorem valueOf {x : Resolve JavaType} (h : Tallies w since ns bs x) : Tallies w since ns bs (Resolve.valueOf x) :=
  h.answering

theorem inside {b : ClassSyntax} (h : Tallies w since ns bs x) : Tallies w since (Nodes.inside b ns) bs x := by
  intro sorted s t ready level le
  obtain ⟨u, es, hu, le₁, around, ready₁, adds⟩ := h sorted.inside s t ready level le
  exact ⟨u, es, hu, le₁, around, ready₁, adds.inside⟩

/-- A class whose members have been resolved. -/
theorem ofClass {b : ClassSyntax} (h : Tallies w since ns b.bodies x) :
    Tallies w since (Nodes.classNode b ++ ns) [] x := by
  intro sorted s t ready level le
  obtain ⟨u, es, hu, le₁, around, ready₁, adds⟩ := h sorted.right s t ready level le
  exact ⟨u, es, hu, le₁, around, ready₁, adds.ofClass⟩

/-! Scopes and owners. -/

section

variable (loose : w.Loose)

include loose

theorem withScopes {opened : Scopes → Scopes} (h : Tallies w since ns bs x) :
    Tallies w since ns bs (Resolve.withScopes opened x) := by
  intro sorted s t ready level le
  have ready₁ : Ready w s (t.withScopes (opened t.progress.scopes)) :=
    ready.withScopes fun sc _ => .unasked loose.lax sc
  have le₁ := t.le_withScopes (opened t.progress.scopes)
  obtain ⟨u, es, hu, le₂, around, ready₂, adds⟩ := h sorted s _ ready₁ level (le.trans le₁)
  have le₃ := u.le_withScopes u.progress.scopes.tail
  exact ⟨u.withScopes u.progress.scopes.tail, es, Resolve.withScopes_run hu, (le₁.trans le₂).trans le₃,
    ⟨around.depth, around.enclosing⟩, ready₂.withScopes fun sc _ => .unasked loose.lax sc,
    adds.between rfl rfl id le₃.toKeeps⟩

theorem inScope {kind : ScopeKind} (h : Tallies w since ns bs x) :
    Tallies w since ns bs (Resolve.inScope kind x) :=
  withScopes loose h

theorem inScopeIf {own : Bool} (h : Tallies w since ns bs x) : Tallies w since ns bs (Resolve.inScopeIf own x) := by
  unfold Resolve.inScopeIf
  split
  · exact inScope loose h
  · exact h

theorem switchScope {cases : List SwitchCase} (h : Tallies w since ns bs x) :
    Tallies w since ns bs (Resolve.switchScope cases x) :=
  inScopeIf loose h

theorem inClass {c : ClassInfo} {vars : List (String × Symbol)} (h : Tallies w since ns bs x) :
    Tallies w since ns bs (Resolve.inClass c vars x) :=
  withScopes loose h

omit loose in
theorem enclosedBy {owner : Symbol} (housed : Housed since owner.path) (h : Tallies w since ns bs x) :
    Tallies w since ns bs (Resolve.enclosedBy (some owner) x) := by
  intro sorted s t ready level le
  have ready₁ := ready.within (ready.housed_cons (housed.mono le))
  have le₁ := t.le_within (owner :: t.progress.enclosing)
  obtain ⟨u, es, hu, le₂, around, ready₂, adds⟩ := h sorted s _ ready₁ level (le.trans le₁)
  have outer : u.progress.enclosing.tail = t.progress.enclosing := congrArg List.tail around.enclosing
  have le₃ := u.le_within u.progress.enclosing.tail
  exact ⟨u.within u.progress.enclosing.tail, es, Resolve.enclosedBy_run hu, (le₁.trans le₂).trans le₃,
    ⟨around.depth, outer⟩, ready₂.within fun o ho => ready₂.enclosing o (List.mem_of_mem_tail ho),
    adds.between rfl rfl id le₃.toKeeps⟩

/-! Definitions. -/

theorem define (name : Ident) {symbol : Symbol} (signature : String) (doc : Option Comment)
    (overrides : List Symbol) (given : Given w.strict since symbol.id name.range) :
    Tallies w since (Nodes.declaration name) [] (Resolve.define name symbol signature doc overrides) := by
  intro sorted s t ready level le
  obtain ⟨emission, run, ready₁⟩ := Walks.define_run name signature doc overrides ready
    fun distinct => absurd distinct loose.plain
  let e : Entry := ⟨name, symbol.id, t.bodyEpoch⟩
  exact ⟨t.withEntry emission e, [e], run, t.le_withEntry _ e, ⟨rfl, rfl⟩, ready₁,
    .entry (e := e) loose.grounded (given.mono le.toKeeps)⟩

theorem declareLocal (name : Ident) (kind : SymbolKind) (type : JavaType) (signature : String) :
    Tallies w since (Nodes.declaration name) [] (Resolve.declareLocal name kind type signature) := by
  refine bind_nil (Walks.localSymbol kind name.range) fun symbol t _ drawn => ?_
  split
  · rename_i s
    obtain ⟨-, -, o, -, granted⟩ := drawn.made s rfl
    exact (define loose name signature none [] (.of_granted granted)).bind_last fun _ u _ =>
      still (Walks.bindValue name.text (.unasked loose.lax))
  · exact idle (.declaration name) ()

theorem declareVariable (name : Ident) (type : Option JavaType) (signature : String) {init : Resolve JavaType}
    (value : Tallies w since ns [] init) :
    Tallies w since (Nodes.declaration name ++ ns) [] (Resolve.declareVariable name type signature init) := by
  refine bind_nil (Walks.localSymbol .localVariable name.range) fun symbol t le drawn => ?_
  split
  · exact skipping (.declaration name) (value.from_later le).discard
  · rename_i s
    obtain ⟨-, -, o, -, granted⟩ := drawn.made s rfl
    refine (define loose name signature none [] (.of_granted granted)).bind fun _ u le' => ?_
    split
    · exact (still (Walks.bindValue name.text (.unasked loose.lax))).seq fun v le'' =>
        (value.from_later ((le.trans le').trans le'')).discard
    · exact (value.from_later (le.trans le')).bind_last fun a v _ =>
        still (Walks.bindValue name.text (.unasked loose.lax))

/-! Bodies. -/

/-- A body tells apart what it defines, whether numbers go on in it or start again. -/
theorem inBody_run {owner : Option Symbol} {x : Resolve Unit} {s : Setting} (ready : Ready w s t) (level : t.Level)
    (admitted : ∀ o, owner = some o → HousedAt t t.bodyEpoch o.path) (sorted : Nodes.Sorted w ns)
    (h : ∀ since, Tallies w since ns [] x) : Tallied w s t ns [ns] (Resolve.inBody owner x s t.progress).2 := by
  have pushed : ∀ since, Tallies w since ns [] (Resolve.withScopes (·.push .methodBody owner) x) :=
    fun since => withScopes loose (h since)
  have entered : Ready w s (t.entered owner) := ready.entered admitted
  have inside : (t.entered owner).GoesOn := .inr (Nat.succ_pos _)
  by_cases on : t.GoesOn
  · have level₁ : (t.entered owner).Level := fun _ => on.bodyEpoch.trans (level on)
    obtain ⟨u, es, hu, le, around, ready₁, adds⟩ := pushed _ sorted s _ entered level₁ (le_refl _)
    have first : u.ledger.epoch = 0 := level₁.mono le around ready₁ (inside.mono le entered ready₁)
    have whole := adds.body loose.grounded ready₁.toNumbered first inside
    exact ⟨u.left t.progress.enclosing, es, Resolve.inBody_run hu around.enclosing, le.left around, around.left,
      ready₁.left (le.left around) ready, whole.between rfl rfl (fun _ => inside) (.of_eq rfl)⟩
  · obtain ⟨policy, outside⟩ : w.policy ≠ .perUnit ∧ t.depth = 0 := by
      rw [← ready.policy]
      exact ⟨fun same => on (.inl same), Nat.eq_zero_of_not_pos fun inner => on (.inr inner)⟩
    have later : t.bodyEpoch = t.ledger.epoch + 1 := by
      unfold Moment.bodyEpoch
      rw [if_pos]
      refine ⟨?_, outside⟩
      cases h : t.progress.ids.policy with
      | perUnit => exact absurd (ready.policy.symm.trans h) policy
      | perMethod => rfl
    have ready₀ : Ready w s (t.entered owner).anew := entered.anew loose
    obtain ⟨u, es, hu, le, around, ready₁, adds⟩ := pushed _ sorted s _ ready₀ (fun _ => rfl) (le_refl _)
    have first : u.ledger.epoch = 0 := le.epoch (Nat.succ_pos _)
    have whole := adds.body loose.grounded ready₁.toNumbered first inside
    have depth : u.progress.ids.depth = t.depth + 1 := around.depth
    have le₁ : t ≤ t.closed u es := {
      grants := fun _ h => h
      entries := fun _ h => List.mem_append_left _ h
      locals := le.locals
      typeParams := le.typeParams
      classCount := le.classCount
      depth := by
        rw [outside]
        exact Nat.zero_le _
      epoch := fun inner => absurd inner (by omega)
      clean := le.clean }
    refine ⟨t.closed u es, es, Resolve.inBody_run (t := t) hu around.enclosing, le₁, ⟨?_, rfl⟩, ?_, rfl, whole.names,
      whole.numbers, fun goesOn => absurd goesOn on, whole.hold, whole.apart⟩
    · change u.progress.ids.depth - 1 = t.depth
      omega
    · refine ready₁.relabel loose rfl ?_ ⟨fun g hg => ?_, ready.numbers, fun g hg => ?_⟩ (fun o ho => ?_)
        fun perUnit => absurd perUnit policy
      · change (t.ledger.entries ++ es).map Entry.told = _
        rw [adds.grown, List.map_append, List.map_append]
        simp only [Moment.anew, List.map_map]
        rfl
      · have old := (ready.epochs g hg).1
        refine ⟨old.trans t.epoch_le_bodyEpoch, fun same => ?_⟩
        change g.epoch = t.bodyEpoch at same
        omega
      · exact (ready.homes g hg).mono le₁.toKeeps
      · exact (ready.enclosing o ho).mono le₁

/-- A body that belongs to no declaration of its own. -/
theorem initializer {x : Resolve Unit} (h : ∀ since, Tallies w since ns [] x) :
    Tallies w since ns [ns] (Resolve.inBody none x) :=
  fun sorted _ _ ready level _ => inBody_run loose ready level (by rintro _ ⟨⟩) sorted h

/-- A declaration with a body, which is resolved right after the definition. -/
theorem defineBody (name : Ident) {symbol : Symbol} (signature : String) (doc : Option Comment)
    (overrides : List Symbol) {x : Resolve Unit} (given : Given w.strict since symbol.id name.range)
    (anchored : Walks.Anchored since symbol) (h : ∀ since, Tallies w since ns [] x) :
    Tallies w since (Nodes.declaration name ++ ns) [ns]
      (Resolve.define name symbol signature doc overrides >>= fun _ => Resolve.inBody (some symbol) x) := by
  intro sorted s t ready level le
  obtain ⟨emission, run, ready₁⟩ := Walks.define_run name signature doc overrides ready
    fun distinct => absurd distinct loose.plain
  let e : Entry := ⟨name, symbol.id, t.bodyEpoch⟩
  have le₁ := t.le_withEntry emission e
  have defined : Walks.DefinedNow name symbol (t.withEntry emission e) :=
    ⟨e, List.mem_append_right _ (List.mem_singleton_self e), rfl, rfl, rfl⟩
  have admitted : ∀ o, some symbol = some o → HousedAt (t.withEntry emission e) t.bodyEpoch o.path := by
    rintro _ ⟨⟩
    exact Walks.admitted ((anchored.mono le).mono le₁) defined
  have body := inBody_run loose ready₁ level admitted sorted.right h
  have whole := Tallied.after ready le₁ ⟨rfl, rfl⟩ ready₁ (.entry (e := e) loose.grounded (given.mono le.toKeeps))
    sorted.distinct body
  change Tallied w s t _ _
    (Resolve.inBody (some symbol) x s (Resolve.define name symbol signature doc overrides s t.progress).2).2
  rw [run]
  exact whole

/-! Type variables of methods, and classes in bodies. -/

theorem methodTypeParams {method : Symbol} {m : MethodDecl} {x : List (Option Symbol) → Resolve Unit}
    (given : ∀ i s, Plan.methodTypeParam method m i s → Given w.strict since s.id i.range)
    (h : ∀ t symbols, ParamsBacked w t m.typeParams symbols → Tallies w t ns [] (x symbols)) (later : Moment) :
    Tallies w later ns [] (Resolve.methodTypeParams method m.typeParams >>= x) := by
  intro sorted s t ready level _
  refine (Walks.methodTypeParams_run method ready fun _ _ _ => .unasked loose.lax).before Nodes.silent_nil ready
    level sorted.distinct fun symbols u _ ready₁ level₁ all => ?_
  have backed : ParamsBacked w u m.typeParams symbols := by
    refine List.forall₂_iff_get.mpr ⟨all.length_eq, fun i hi hi' y hy => ?_⟩
    obtain planned | ⟨o, granted⟩ := ((List.forall₂_iff_get.mp all).2 i hi hi').made y hy
    · have plan : Plan.methodTypeParam method m _ y := ⟨m.typeParams.get ⟨i, hi⟩, List.get_mem _ _, rfl, planned⟩
      exact (given _ y plan).anywhere plan.outside
    · exact .of_granted granted
  exact h u symbols backed sorted s u ready₁ level₁ (le_refl u)

/-- A declaration of a class among statements. -/
theorem localType {d : TypeDecl}
    (h : ∀ t c vars, since ≤ t → Backed w t c vars (.declared d) →
      Tallies w t (Nodes.typeDecl d) [] (Resolve.typeDecl (Pure.pure (some (c, vars))) d)) :
    Tallies w since (Nodes.typeDecl d) [] (Resolve.typeDecl (Resolve.localClass d) d) := by
  intro sorted s t ready level le
  obtain ⟨r, t₁, run, le₁, around₁, entries₁, missing | ⟨name, c, vars, rfl, seen⟩⟩ :=
    localClass_run ready fun n hn => (sorted.fine n hn).of_strict
  · obtain ⟨rfl, ready₁, -⟩ := missing
    have whole : Resolve.typeDecl (Resolve.localClass d) d s t.progress = ((), t₁.progress) := by
      cases d
      exact (run_bind run _).trans rfl
    rw [whole]
    exact ⟨t₁, [], rfl, le₁, around₁, ready₁, .nothing (Nodes.hold_typeDecl d) entries₁⟩
  · have whole : Resolve.typeDecl (Resolve.localClass d) d s t.progress =
        Resolve.typeDecl (Pure.pure (some (c, vars))) d s t₁.progress := by
      cases d
      exact (run_bind run _).trans rfl
    have ready₁ : Ready w s t₁ := seen.ready.discharge fun _ _ => .unasked loose.lax
    obtain ⟨c', vars', found, -, backed⟩ := seen.known.backed ready₁
    obtain ⟨rfl, rfl⟩ := seen.found.unique seen.marked found
    rw [whole]
    exact .after ready le₁ around₁ ready₁ (.nothing .nil entries₁) sorted.distinct
      (h t₁ c vars (le.trans le₁) backed sorted s t₁ ready₁ (level.mono le₁ around₁ ready₁) (le_refl t₁))

/-- The body of a class without a name. -/
theorem createdBody {created : NamedType} {span : Span} {members : List Member}
    (h : ∀ t c, since ≤ t → Backed w t c [] (.unnamed members) →
      Feasible w.strict t (Plan.ofClass c [] (.unnamed members)) →
      Tallies w t (Nodes.members members) (members.flatMap Member.bodies) (Resolve.members (.start c) members)) :
    Tallies w since (Nodes.unnamedBody (some members)) [] (Resolve.createdBody created span (some members)) := by
  intro sorted s t ready level le
  have fine : ∀ n ∈ Nodes.unnamedBody (some members), Fine w n := fun n hn => (sorted.fine n hn).of_strict
  obtain ⟨r, t₁, run, le₁, around₁, entries₁, missing | ⟨number, c, rfl, seen⟩⟩ := unnamedClass_run ready fine
  · obtain ⟨rfl, ready₁, -⟩ := missing
    have whole : Resolve.createdBody created span (some members) s t.progress = (.unknown, t₁.progress) :=
      (run_bind run _).trans rfl
    rw [whole]
    exact ⟨t₁, [], rfl, le₁, around₁, ready₁, .nothing (Nodes.hold_unnamedBody (some members)) entries₁⟩
  · have ready₁ : Ready w s t₁ := seen.ready.discharge fun _ _ => .unasked loose.lax
    have backed : Backed w t₁ c [] (.unnamed members) := seen.backed ready₁
    have fineMembers : ∀ n ∈ Nodes.members members, Fine w n := fun n hn =>
      fine (n.within (.unnamed members)) (List.mem_append_right _ (List.mem_map_of_mem hn))
    have feasible := backed.strictly loose.grounded
      (sorted.fine (.ofPart (.ofClass _)) (List.mem_append_left _ (List.mem_singleton_self _)))
      (Nodes.callables_plain fineMembers)
    let resolved : Resolve JavaType := do
      Resolve.enclosedBy (some c.symbol) (Resolve.inClass c [] (Resolve.members (.start c) members))
      return c.selfType
    have walk : Tallies w t₁ (Nodes.unnamedBody (some members)) [] resolved :=
      (ofClass (b := .unnamed members) (inside (enclosedBy backed.housed
        (inClass loose (h t₁ c (le.trans le₁) backed feasible))))).answering
    have whole : Resolve.createdBody created span (some members) s t.progress =
        resolved s t₁.progress := (run_bind run _).trans rfl
    rw [whole]
    exact .after ready le₁ around₁ ready₁ (.nothing .nil entries₁) sorted.distinct
      (walk sorted s t₁ ready₁ (level.mono le₁ around₁ ready₁) (le_refl t₁))

end

end Tallies
end JavaIndex
