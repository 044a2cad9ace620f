import JavaIndex.Proofs.Resolve.Balance
import JavaIndex.Proofs.Resolve.Matching

/-! How classes in bodies are described. Nothing happens on the way but that numbers are drawn, one for each
member, and all members are read at the same place. -/
namespace JavaIndex

variable {t u v since : Moment} {α β : Type}

/-- Only numbers have been drawn in between. -/
structure Drawing (t u : Moment) : Prop where
  ids : ∃ ids : LocalIds, u.progress = { t.progress with ids } ∧
    ids.depth = t.progress.ids.depth ∧ ids.policy = t.progress.ids.policy
  grants : ∀ g ∈ t.ledger.grants, g ∈ u.ledger.grants
  entries : u.ledger.entries = t.ledger.entries
  epoch : u.ledger.epoch = t.ledger.epoch

namespace Drawing

theorem refl (t : Moment) : Drawing t t := ⟨⟨_, rfl, rfl, rfl⟩, fun _ h => h, rfl, rfl⟩

theorem trans (first : Drawing t u) (second : Drawing u v) : Drawing t v where
  ids := by
    obtain ⟨ids, same, depth, policy⟩ := first.ids
    obtain ⟨ids', same', depth', policy'⟩ := second.ids
    rw [same] at same' depth' policy'
    exact ⟨ids', same', depth'.trans depth, policy'.trans policy⟩
  grants g h := second.grants g (first.grants g h)
  entries := second.entries.trans first.entries
  epoch := second.epoch.trans first.epoch

theorem keeps (h : Drawing t u) : t.Keeps u := ⟨h.grants, fun _ he => h.entries ▸ he⟩

theorem le (h : Drawing t u) : t ≤ u := by
  obtain ⟨ids, same, depth, -⟩ := h.ids
  exact {
    h.keeps with
    locals := fun name c hc => by rw [Moment.locals, same]; exact hc
    typeParams := fun name vars hvars => by rw [same]; exact hvars
    classCount := by rw [same]
    depth := by rw [Moment.depth, Moment.depth, same]; exact depth.ge
    epoch := fun _ => h.epoch
    clean := fun clean => by rw [Moment.Clean, same] at clean; exact clean }

theorem environment (h : Drawing t u) : u.progress.environment = t.progress.environment := by
  obtain ⟨ids, same, -⟩ := h.ids
  rw [same]

theorem scopes (h : Drawing t u) : u.progress.scopes = t.progress.scopes := by
  obtain ⟨ids, same, -⟩ := h.ids
  rw [same]

end Drawing

/-- A place in the file at some moment. -/
def Moment.place (t : Moment) (s : Setting) : Place := ⟨t.progress.scopes, s.imports⟩

/-- The step does nothing but draw numbers inside an owner, with one environment and at one place. -/
def Draws (owner : Symbol) (since : Moment) (env : Environment) (place : Place) (x : Resolve α)
    (post : α → Moment → Prop) : Prop :=
  ∀ s t, Numbered t → Housed t owner.path → since.Keeps t → t.progress.environment = env →
    t.place s = place → ∃ u, (x s t.progress).2 = u.progress ∧ Drawing t u ∧ Numbered u ∧
      post (x s t.progress).1 u

namespace Draws

variable {owner : Symbol} {env : Environment} {place : Place} {x : Resolve α} {post : α → Moment → Prop}

theorem pure {a : α} (h : ∀ t, since.Keeps t → post a t) : Draws owner since env place (pure a) post :=
  fun _ t numbered _ keep _ _ => ⟨t, rfl, .refl t, numbered, h t keep⟩

theorem bind {f : α → Resolve β} {post' : β → Moment → Prop} (first : Draws owner since env place x post)
    (second : ∀ a t, since.Keeps t → post a t → Draws owner t env place (f a) post') :
    Draws owner since env place (x >>= f) post' := by
  intro s t numbered housed keep known here
  obtain ⟨u, hu, drawing, numbered₁, h₁⟩ := first s t numbered housed keep known here
  have keep₁ : since.Keeps u :=
    ⟨fun g h => drawing.grants g (keep.grants g h), fun e h => drawing.keeps.entries e (keep.entries e h)⟩
  obtain ⟨v, hv, drawing', numbered₂, h₂⟩ := second _ u keep₁ h₁ s u numbered₁
    (housed.mono drawing.le) ⟨fun _ h => h, fun _ h => h⟩ (drawing.environment.trans known)
    (by rw [Moment.place, drawing.scopes]; exact here)
  have run : (x >>= f) s t.progress = f (x s t.progress).1 s u.progress := by
    rw [← hu]
    rfl
  rw [run]
  exact ⟨v, hv, drawing.trans drawing', numbered₂, h₂⟩

theorem weaken {post' : α → Moment → Prop} (h : Draws owner since env place x post)
    (imp : ∀ a t, since.Keeps t → post a t → post' a t) : Draws owner since env place x post' := by
  intro s t numbered housed keep known here
  obtain ⟨u, hu, drawing, numbered₁, h₁⟩ := h s t numbered housed keep known here
  exact ⟨u, hu, drawing, numbered₁, imp _ u
    ⟨fun g h => drawing.grants g (keep.grants g h), fun e h => drawing.keeps.entries e (keep.entries e h)⟩
    h₁⟩

theorem environment : Draws owner since env place Resolve.environment fun env' _ => env' = env :=
  fun _ t numbered _ _ known _ => ⟨t, rfl, .refl t, numbered, known⟩

theorem place_here : Draws owner since env place Resolve.place fun place' _ => place' = place :=
  fun _ t numbered _ _ _ here => ⟨t, rfl, .refl t, numbered, here⟩

theorem headTypes (components : List (Ident × JavaType)) (m : MethodDecl) :
    Draws owner since env place (Resolve.headTypes components m)
      fun types _ => types = env.callableTypes (headPlace place m) components m := by
  rw [Resolve.headTypes_read]
  refine place_here.bind fun _ t _ here => environment.bind fun _ u _ known => Draws.pure fun _ _ => ?_
  subst here known
  rfl

/-- Inside anything but a package a local declaration has a symbol. -/
theorem localSymbolIn (inside : owner.kind ≠ .package) (kind : SymbolKind) (span : Span) :
    Draws owner since env place (Resolve.localSymbolIn (some owner) kind span)
      fun symbol t => ∃ s, symbol = some s ∧ s.kind = kind ∧ t.Granted owner s span := by
  intro s t numbered housed _ _ _
  let symbol : Symbol := ⟨⟨.local, owner.path ++ [.local t.progress.ids.next]⟩, kind⟩
  let g : Grant := ⟨owner.path, t.progress.ids.next, t.ledger.epoch, span⟩
  have named : Symbol.ofDeclaration (.local t.progress.ids.next kind) (some owner) = .ok symbol := by
    simp [Symbol.ofDeclaration, Symbol.named, inside, symbol]
  have run : Resolve.localSymbolIn (some owner) kind span s t.progress =
      (some symbol, { t.progress with ids := t.progress.ids.fresh.2 }) := by
    change Walks.givenSymbol span (Symbol.ofDeclaration (.local t.progress.ids.next kind) (some owner)) s
      { t.progress with ids := t.progress.ids.fresh.2 } = _
    rw [named]
    rfl
  rw [run]
  refine ⟨t.withIds t.progress.ids.fresh.2 [g], rfl, ⟨⟨_, rfl, rfl, rfl⟩, ?_, rfl, rfl⟩,
    numbered.withIds (by simp) ?_, symbol, rfl, rfl, g, ?_, rfl, rfl, rfl⟩
  · exact fun _ h => List.mem_append_left _ h
  · intro g' hg
    rw [List.mem_singleton.mp hg]
    exact ⟨rfl, rfl, housed⟩
  · exact List.mem_append_right _ (List.mem_singleton_self g)

end Draws

/-! Descriptions. -/

/-- Members described so far: fields, methods and constructors, each with a number of its own. -/
structure Describes (t : Moment) (owner : Symbol) (env : Environment) (place : Place) (b : ClassSyntax)
    (fields : List Ident) (methods constructors : List MethodDecl) (r : Resolve.Described) : Prop where
  fields : List.Forall₂ (fun i (f : FieldInfo) => f.name = i.text ∧ t.Granted owner f.symbol i.range)
    fields r.fields
  methods : List.Forall₂ (DescribedMethod t owner env place b) methods r.methods
  constructors : List.Forall₂ (DescribedMethod t owner env place b) constructors r.constructors

/-- Members that the index makes up. -/
structure Implies (owner : Symbol) (b : ClassSyntax) (r : Resolve.Described) : Prop where
  fields : r.fields = []
  methods : ∀ m ∈ r.methods, ImpliedIn b m ∧ owner.NumberedIn m.symbol
  constructors : r.constructors = []

variable {owner : Symbol} {env : Environment} {place : Place} {b : ClassSyntax}

namespace Describes

theorem mono {is : List Ident} {ms ks : List MethodDecl} {r : Resolve.Described}
    (h : Describes t owner env place b is ms ks r) (keep : t.Keeps u) :
    Describes u owner env place b is ms ks r where
  fields := h.fields.imp fun _ _ f => ⟨f.1, f.2.mono keep⟩
  methods := h.methods.imp fun _ _ m => m.mono keep
  constructors := h.constructors.imp fun _ _ m => m.mono keep

theorem none : Describes t owner env place b [] [] [] .none := ⟨.nil, .nil, .nil⟩

theorem append {is is' : List Ident} {ms ms' ks ks' : List MethodDecl} {r r' : Resolve.Described}
    (h : Describes t owner env place b is ms ks r) (h' : Describes t owner env place b is' ms' ks' r') :
    Describes t owner env place b (is ++ is') (ms ++ ms') (ks ++ ks') (r.append r') where
  fields := List.rel_append h.fields h'.fields
  methods := List.rel_append h.methods h'.methods
  constructors := List.rel_append h.constructors h'.constructors

end Describes

theorem Implies.none : Implies owner b .none := ⟨rfl, by simp [Resolve.Described.none], rfl⟩

theorem Implies.append {r r' : Resolve.Described} (h : Implies owner b r) (h' : Implies owner b r') :
    Implies owner b (r.append r') where
  fields := by rw [Resolve.Described.append, h.fields, h'.fields]; rfl
  methods m hm := (List.mem_append.mp hm).elim (h.methods m) (h'.methods m)
  constructors := by rw [Resolve.Described.append, h.constructors, h'.constructors]; rfl

namespace Draws

theorem describeEach {step : α → Resolve Resolve.Described} (is : α → List Ident)
    (ms ks : α → List MethodDecl) {as : List α}
    (h : ∀ a ∈ as, ∀ t, since.Keeps t → Draws owner t env place (step a) fun r u =>
      Describes u owner env place b (is a) (ms a) (ks a) r) :
    Draws owner since env place (Resolve.describeEach step as) fun r u =>
      Describes u owner env place b (as.flatMap is) (as.flatMap ms) (as.flatMap ks) r := by
  induction as generalizing since with
  | nil => exact Draws.pure fun _ _ => .none
  | cons a as ih =>
    have first := h a List.mem_cons_self since ⟨fun _ h => h, fun _ h => h⟩
    refine first.bind fun here t keep described => ?_
    have rest : Draws owner t env place (Resolve.describeEach step as) fun r u =>
        Describes u owner env place b (as.flatMap is) (as.flatMap ms) (as.flatMap ks) r :=
      ih fun a' ha u keep' => h a' (List.mem_cons_of_mem _ ha) u (keep.trans keep')
    exact rest.bind fun later u keep' described' =>
      Draws.pure fun v keep'' => ((described.mono keep').append described').mono keep''

/-- Fields have one symbol each. -/
theorem describeFields {step : α → Resolve Resolve.Described} (name : α → Ident) {as : List α}
    (h : ∀ a ∈ as, ∀ t, since.Keeps t → Draws owner t env place (step a) fun r u =>
      Describes u owner env place b [name a] [] [] r) :
    Draws owner since env place (Resolve.describeEach step as) fun r u =>
      Describes u owner env place b (as.map name) [] [] r := by
  refine (describeEach (fun a => [name a]) (fun _ => []) (fun _ => []) h).weaken fun r t _ all => ?_
  have none : as.flatMap (fun _ => ([] : List MethodDecl)) = [] := by simp [List.flatMap_eq_nil_iff]
  rw [none] at all
  rw [List.map_eq_flatMap]
  exact all

variable (inside : owner.kind ≠ .package)

include inside

theorem describeField (name : Ident) (type : JavaType) (isStatic : Bool) (kind : SymbolKind) :
    Draws owner since env place (Resolve.describeField owner name type isStatic kind) fun r u =>
      Describes u owner env place b [name] [] [] r := by
  refine (localSymbolIn inside kind name.range).bind fun symbol t _ ⟨s, hs, _, granted⟩ => ?_
  rw [hs]
  exact Draws.pure fun u keep => ⟨.cons ⟨rfl, granted.mono keep⟩ .nil, .nil, .nil⟩

theorem describeMethod (self : JavaType) (m : MethodDecl) :
    Draws owner since env place
      (Resolve.describeMethod owner self (env.componentTypes place b.body.components) m) fun r u =>
      Describes u owner env place b [] ([m].filter fun n => !n.isConstructor)
        ([m].filter MethodDecl.isConstructor) r := by
  unfold Resolve.describeMethod
  refine (localSymbolIn inside _ m.name.range).bind fun symbol t _ ⟨s, hs, _, granted⟩ => ?_
  rw [hs]
  refine (headTypes _ m).bind fun types u keep known => ?_
  subst known
  cases sort : m.isConstructor with
  | true =>
    have counted : MemberNames.counted m = Symbol.constructorName := by simp [MemberNames.counted, sort]
    rw [List.filter_cons_of_neg (by simp [sort]), List.filter_cons_of_pos sort]
    refine Draws.pure fun v keep' => ⟨.nil, .nil, .cons ⟨?_, counted.symm, rfl⟩ .nil⟩
    exact (granted.mono keep).mono keep'
  | false =>
    have counted : MemberNames.counted m = m.name.text := by simp [MemberNames.counted, sort]
    rw [List.filter_cons_of_pos (by simp [sort]), List.filter_cons_of_neg (by simp [sort])]
    refine Draws.pure fun v keep' => ⟨.nil, .cons ⟨?_, counted.symm, rfl⟩ .nil, .nil⟩
    exact (granted.mono keep).mono keep'

theorem describeMember (self : JavaType) (m : Member) :
    Draws owner since env place
      (Resolve.describeMember owner self b.body (env.componentTypes place b.body.components) m)
      fun r u => Describes u owner env place b (ClassBody.fieldsOf [m])
        ((ClassBody.callablesOf [m]).filter fun n => !n.isConstructor)
        ((ClassBody.callablesOf [m]).filter MethodDecl.isConstructor) r := by
  cases m with
  | field d doc range =>
    refine environment.bind fun _ u _ _ => place_here.bind fun _ v _ _ => ?_
    refine (describeFields (b := b) Declarator.name fun v _ t _ =>
      describeField inside v.name _ _ _).weaken fun r t _ all => ?_
    simpa [ClassBody.fieldsOf, ClassBody.callablesOf] using all
  | method m => exact describeMethod inside self m
  | initializer isStatic body => exact Draws.pure fun _ _ => .none
  | type d => exact Draws.pure fun _ _ => .none

theorem describeImplied (span : Span) {m : ImpliedMethod}
    (implied : ∀ info : MethodInfo, info.name = m.name → info.params = m.types.params →
      ImpliedIn b info) :
    Draws owner since env place (Resolve.describeImplied owner span m) fun r _ => Implies owner b r := by
  refine (localSymbolIn inside .method span).bind fun symbol t _ ⟨s, hs, _, granted⟩ => ?_
  rw [hs]
  refine Draws.pure fun u _ => ⟨rfl, fun info hinfo => ?_, rfl⟩
  rw [List.mem_singleton.mp hinfo]
  exact ⟨implied _ rfl rfl, granted.numberedIn⟩

theorem describeAccessors {components : List (Ident × JavaType)} {declared : List MethodInfo}
    (own : ∀ c ∈ components, ∃ p ∈ b.body.components, c.1 = p.name) :
    Draws owner since env place (Resolve.describeAccessors owner declared components) fun r _ =>
      Implies owner b r := by
  induction components generalizing since declared with
  | nil => exact Draws.pure fun _ _ => .none
  | cons c rest ih =>
    have first : Draws owner since env place (Resolve.describeAccessor owner declared c) fun r _ =>
        Implies owner b r := by
      unfold Resolve.describeAccessor
      split
      · exact Draws.pure fun _ _ => .none
      · refine describeImplied inside _ fun info name params => .inr ?_
        obtain ⟨p, hp, same⟩ := own c List.mem_cons_self
        exact ⟨p, hp, name.trans (congrArg Ident.text same), params⟩
    refine first.bind fun here t _ h => ?_
    exact (ih fun c' hc => own c' (List.mem_cons_of_mem _ hc)).bind fun later u _ h' =>
      Draws.pure fun _ _ => h.append h'

theorem describeOfEnum (span : Span) {implied : List ImpliedMethod}
    (own : ∀ m ∈ implied, b.body.kind = .enumType ∧ m.name ∈ ["values", "valueOf"]) :
    Draws owner since env place (Resolve.describeEach (Resolve.describeImplied owner span) implied)
      fun r _ => Implies owner b r := by
  induction implied generalizing since with
  | nil => exact Draws.pure fun _ _ => .none
  | cons m rest ih =>
    have first : Draws owner since env place (Resolve.describeImplied owner span m) fun r _ =>
        Implies owner b r :=
      describeImplied inside span fun info name _ => .inl (name ▸ own m List.mem_cons_self)
    refine first.bind fun here t _ h => ?_
    exact (ih fun m' hm => own m' (List.mem_cons_of_mem _ hm)).bind fun later u _ h' =>
      Draws.pure fun _ _ => h.append h'

omit inside in
theorem fieldsOf_eq_flatMap (ms : List Member) :
    ms.flatMap (fun m => ClassBody.fieldsOf [m]) = ClassBody.fieldsOf ms := by
  induction ms with
  | nil => rfl
  | cons m ms ih => cases m <;> simp [ClassBody.fieldsOf, ih]

omit inside in
theorem callablesOf_eq_flatMap (counts : MethodDecl → Bool) (ms : List Member) :
    ms.flatMap (fun m => (ClassBody.callablesOf [m]).filter counts) =
      (ClassBody.callablesOf ms).filter counts := by
  induction ms with
  | nil => rfl
  | cons m ms ih =>
    rw [List.flatMap_cons, ih, ← List.filter_append, ← ClassBody.callablesOf_append]
    rfl

end Draws

theorem Resolve.Described.append_assoc (a b c : Resolve.Described) :
    (a.append b).append c = a.append (b.append c) := by
  simp [Resolve.Described.append, List.append_assoc]

/-- What is declared, and what the index makes up beside it, describe a class. -/
theorem Describes.localBody {c : ClassInfo} {vars : List (String × Symbol)}
    {r made : Resolve.Described} (origin : c.origin = .local)
    (symbol : ∀ i, b.name? = some i → ∃ o, t.Granted o c.symbol i.range)
    (params : List.Forall₂ (fun p v => v.1 = p.name.text ∧ t.Granted c.symbol v.2 p.name.range)
      b.typeParams vars)
    (described : Describes t c.symbol env place b b.body.fieldNames b.body.methods b.body.constructors r)
    (implied : Implies c.symbol b made) :
    LocalBody t { c with
      fields := (r.append made).fields
      methods := (r.append made).methods
      constructors := (r.append made).constructors } vars b where
  origin := origin
  symbol := symbol
  fields := by
    rw [Resolve.Described.append, implied.fields, List.append_nil]
    exact described.fields
  callables := by
    refine ⟨env, place, ⟨made.methods, implied.methods, r.methods, rfl, described.methods⟩, ?_⟩
    rw [Resolve.Described.append, implied.constructors, List.append_nil]
    exact described.constructors
  typeParams := params

/-- A class in a body is described with all that its body declares. -/
theorem Draws.describe {c : ClassInfo} (inside : c.symbol.kind ≠ .package) (span : Span)
    (origin : c.origin = .local) (vars : List (String × Symbol))
    (symbol : ∀ i, b.name? = some i → ∃ o, since.Granted o c.symbol i.range)
    (params : List.Forall₂ (fun p v => v.1 = p.name.text ∧ since.Granted c.symbol v.2 p.name.range)
      b.typeParams vars) :
    Draws c.symbol since env place (Resolve.describe c b.body span) fun r t =>
      (∃ fields methods constructors, r = { c with fields, methods, constructors }) ∧
        LocalBody t r vars b := by
  refine (describeFields (b := b) EnumConstant.name fun k _ t _ =>
    describeField inside k.name _ _ _).bind fun rc t₁ keep₁ hc => ?_
  refine Draws.environment.bind fun _ t₂ keep₂ known => Draws.place_here.bind fun _ t₃ keep₃ here => ?_
  rw [known, here]
  refine (describeFields (b := b) Prod.fst fun k _ t _ =>
    describeField inside k.1 _ _ _).bind fun rh t₄ keep₄ hh => ?_
  refine (describeEach _ _ _ fun m _ t _ =>
    describeMember (b := b) inside c.selfType m).bind fun rm t₅ keep₅ hm => ?_
  refine (describeAccessors (b := b) inside ?_).bind fun ra t₆ keep₆ ha => ?_
  · intro k hk
    obtain ⟨p, hp, rfl⟩ := List.mem_map.mp hk
    exact ⟨p, hp, rfl⟩
  refine (describeOfEnum (b := b) inside span ?_).bind fun re t₇ keep₇ he => ?_
  · intro m hm
    split at hm
    · rename_i isEnum
      refine ⟨isEnum, ?_⟩
      simp only [ImpliedMethod.ofEnum, List.mem_cons, List.not_mem_nil, or_false] at hm
      obtain rfl | rfl := hm <;> simp
    · simp at hm
  refine Draws.pure fun t keep₈ => ⟨⟨_, _, _, rfl⟩, ?_⟩
  have keep : t₅.Keeps t := (keep₆.trans keep₇).trans keep₈
  have keep' : t₄.Keeps t := keep₅.trans keep
  have keep'' : t₁.Keeps t := ((keep₂.trans keep₃).trans keep₄).trans keep'
  have all := ((hc.mono keep'').append (hh.mono keep')).append (hm.mono keep)
  rw [fieldsOf_eq_flatMap, callablesOf_eq_flatMap, callablesOf_eq_flatMap] at all
  have components : (env.componentTypes place b.body.components).map Prod.fst =
      b.body.components.map Param.name := by
    rw [Environment.componentTypes, List.map_map]
    rfl
  rw [components, List.append_assoc] at all
  have since' : since.Keeps t := keep₁.trans keep''
  rw [← Resolve.Described.append_assoc, ← Resolve.Described.append_assoc]
  refine Describes.localBody origin (fun i named => ?_) (params.imp fun _ _ v => ?_) all (ha.append he)
  · obtain ⟨o, granted⟩ := symbol i named
    exact ⟨o, granted.mono since'⟩
  · exact ⟨v.1, v.2.mono since'⟩

end JavaIndex
