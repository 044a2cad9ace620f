import JavaIndex.Proofs.Index.Noted
import JavaIndex.Proofs.Resolve.Origins
import JavaIndex.Proofs.Symbol.Placeholders

/-! What is mentioned is known, or it stands for an unknown name. All that the resolver comes by has a kind:
the environment, the scopes and what is declared in bodies lead to nothing else, unless a library gives a
symbol without one. A step upholds this if it holds after the step whenever it holds before. What the step
notes is nested in the declaration around, and whatever is unknown in it is reported. -/
namespace JavaIndex

variable {given : Symbol → Prop}

/-- The symbol is no placeholder, unless it is given as it is. -/
def Symbol.Known (given : Symbol → Prop) (s : Symbol) : Prop := s.isPlaceholder = true → given s

theorem Symbol.Known.ofKind {s : Symbol} (kind : s.kind ≠ .unknown) : s.Known given :=
  fun unknown => absurd (eq_of_beq unknown) kind

theorem Symbol.Known.ofDeclaration {decl : Declaration} {owner : Option Symbol} {s : Symbol}
    (made : Symbol.ofDeclaration decl owner = .ok s) (kind : ∀ number, decl ≠ .local number .unknown) :
    s.Known given := by
  intro unknown
  obtain ⟨number, same⟩ := Symbol.ofDeclaration_isPlaceholder made unknown
  exact absurd same (kind number)

/-- The class and all its members are known. -/
structure ClassInfo.Known (given : Symbol → Prop) (c : ClassInfo) : Prop where
  symbol : c.symbol.Known given
  members : ∀ s, Offers c s → s.Known given

/-- The same class with another head. -/
theorem ClassInfo.Known.same {c d : ClassInfo} (known : c.Known given) (symbol : d.symbol = c.symbol)
    (fields : d.fields = c.fields) (methods : d.methods = c.methods)
    (constructors : d.constructors = c.constructors) : d.Known given := by
  refine ⟨symbol ▸ known.symbol, fun s offered => ?_⟩
  cases offered with
  | field found => exact known.members _ (.field (by rwa [ClassInfo.field?, fields] at found))
  | method hm => exact known.members _ (.method (methods ▸ hm))
  | constructor hm => exact known.members _ (.constructor (constructors ▸ hm))

/-- All classes of an environment are known. -/
structure Environment.Known (given : Symbol → Prop) (env : Environment) : Prop where
  classes : ∀ name c, env.class? name = some c → c.Known given
  constants : ∀ c name f, env.external.constant? c name = some f → f.symbol.Known given

def TypeBinding.Known (given : Symbol → Prop) : TypeBinding → Prop
  | .ofClass c => c.Known given
  | .typeParam _ s => s.Known given

structure Scope.Known (given : Symbol → Prop) (sc : Scope) : Prop where
  values : ∀ b ∈ sc.values, b.2.symbol.Known given
  types : ∀ b ∈ sc.types, b.2.Known given
  ofClass : ∀ c, sc.classInfo = some c → c.Known given

def Scopes.Known (given : Symbol → Prop) (scopes : Scopes) : Prop := ∀ sc ∈ scopes, sc.Known given

def Segment.Known (given : Symbol → Prop) (g : Segment) : Prop :=
  (∀ s, g.symbol? = some s → s.Known given) ∧ ∀ c, g.class? = some c → c.Known given

def Receiver.Known (given : Symbol → Prop) (r : Receiver) : Prop := ∀ c, r = .ofClass c → c.Known given

def Selected.Known (given : Symbol → Prop) (s : Selected) : Prop :=
  (∀ x, s.symbol = some x → x.Known given) ∧ s.receiver.Known given

namespace Scopes.Known

variable {scopes : Scopes}

theorem nowhere : Place.nowhere.scopes.Known given := by simp [Place.nowhere, Scopes.Known]

theorem push (known : scopes.Known given) (kind : ScopeKind) (owner : Option Symbol) :
    (scopes.push kind owner).Known given := by
  intro sc hsc
  rcases List.mem_cons.mp hsc with rfl | hsc
  · constructor <;> simp [Scope.opened]
  · exact known sc hsc

theorem pushClass {c : ClassInfo} {vars : List (String × Symbol)} (known : scopes.Known given)
    (ofClass : c.Known given) (params : ∀ v ∈ vars, v.2.Known given) :
    (scopes.pushClass c vars).Known given := by
  intro sc hsc
  rcases List.mem_cons.mp hsc with rfl | hsc
  · constructor
    · simp [Scope.ofClass, Scope.opened]
    · intro b hb
      simp only [Scope.ofClass, List.mem_reverse, List.mem_map] at hb
      obtain ⟨v, hv, rfl⟩ := hb
      exact params v hv
    · intro c' hc
      cases Option.some.inj hc
      exact ofClass
  · exact known sc hsc

theorem tail (known : scopes.Known given) : Scopes.Known given scopes.tail :=
  fun sc hsc => known sc (List.mem_of_mem_tail hsc)

theorem bindValue {b : ValueBinding} (known : scopes.Known given) (name : String)
    (value : b.symbol.Known given) : (scopes.bindValue name b).Known given := by
  cases scopes with
  | nil => exact known
  | cons s rest =>
    intro sc hsc
    rcases List.mem_cons.mp hsc with rfl | hsc
    · have first := known s List.mem_cons_self
      refine ⟨fun b' hb => ?_, first.types, first.ofClass⟩
      rcases List.mem_cons.mp hb with rfl | hb
      · exact value
      · exact first.values b' hb
    · exact known sc (List.mem_cons_of_mem _ hsc)

theorem bindType {b : TypeBinding} (known : scopes.Known given) (name : String) (type : b.Known given) :
    (scopes.bindType name b).Known given := by
  cases scopes with
  | nil => exact known
  | cons s rest =>
    intro sc hsc
    rcases List.mem_cons.mp hsc with rfl | hsc
    · have first := known s List.mem_cons_self
      refine ⟨first.values, fun b' hb => ?_, first.ofClass⟩
      rcases List.mem_cons.mp hb with rfl | hb
      · exact type
      · exact first.types b' hb
    · exact known sc (List.mem_cons_of_mem _ hsc)

theorem enclosingClass {c : ClassInfo} (known : scopes.Known given) (around : scopes.enclosingClass? = some c) :
    c.Known given := by
  obtain ⟨sc, hsc, hc⟩ := List.exists_of_findSome?_eq_some around
  exact (known sc hsc).ofClass c hc

end Scopes.Known

namespace Environment.Known

variable {env : Environment} {place : Place} {names : List String}

theorem addLocal (known : env.Known given) {c : ClassInfo} (ofClass : c.Known given) :
    (env.addLocal c).Known given := by
  refine ⟨fun name c' found => ?_, known.constants⟩
  by_cases same : c.qualifiedName = name
  · have new : c' = c := by simpa [Environment.class?, Environment.addLocal, same] using found.symm
    exact new ▸ ofClass
  · refine known.classes name c' ?_
    simpa [Environment.class?, Environment.addLocal, Std.TreeMap.getElem?_insert, same] using found

section

variable (known : env.Known given)

include known

theorem supplied {s : Symbol} (h : env.Supplies s) : s.Known given := by
  cases h with
  | member held offered =>
    obtain ⟨name, found⟩ := held
    exact (known.classes name _ found).members _ offered
  | constant found => exact known.constants _ _ _ found

theorem memberType {c inner : ClassInfo} {name : String} (found : env.memberType? c name = some inner) :
    inner.Known given := by
  obtain ⟨a, -, h⟩ := List.exists_of_findSome?_eq_some found
  exact known.classes _ _ h

variable (scopes : place.scopes.Known given)

include scopes

theorem means {c : ClassInfo} (h : env.Means place names c) : c.Known given := by
  cases h with
  | bound hsc bound => exact (scopes _ hsc).types _ bound
  | around hsc hc => exact (scopes _ hsc).ofClass c hc
  | inside found => exact known.classes _ c found
  | imported _ found => exact known.classes _ c found
  | within _ found => exact known.classes _ c found

theorem leads {s : Symbol} (h : env.LeadsTo place names s) : s.Known given := by
  cases h with
  | package => exact .ofKind (show SymbolKind.package ≠ _ by decide)
  | ofClass h => exact (known.means scopes h).symbol
  | member h => exact known.supplied h
  | value hsc hb => exact (scopes _ hsc).values _ hb
  | typeParam hsc bound => exact (scopes _ hsc).types _ bound

theorem reads {g : Segment} (h : env.Reads place names g) : g.Known given :=
  ⟨fun s hs => known.leads scopes (h.symbol s hs), fun c hc => known.means scopes (h.ofClass c hc)⟩

theorem selects {s : Selected} (h : env.Selects place names s) : s.Known given :=
  ⟨fun x hx => known.leads scopes (h.symbol x hx), fun c hc => known.means scopes (h.receiver c hc)⟩

end

end Environment.Known

/-! Steps. -/

/-- The symbol is known, or it stands for an unknown name. -/
def Symbol.Mentioned (given : Symbol → Prop) (s : Symbol) : Prop := s.Known given ∨ s.StandsIn

/-- All that the resolver can come by is known. -/
structure Progress.Known (given : Symbol → Prop) (p : Progress) : Prop where
  environment : p.environment.Known given
  scopes : p.scopes.Known given
  typeParams : ∀ (name : String) (vars : List (String × Symbol)), p.typeParams[name]? = some vars →
    ∀ v ∈ vars, v.2.Known given

/-- All these symbols are mentioned over these identifiers. -/
theorem Resolve.mentionAll_run (is : List Ident) (ss : List Symbol) (s : Setting) (p : Progress) :
    (mentionAll (is.zip (ss.map some)) s p).2 = { p with emission := { p.emission with
      occurrences := ((is.zip ss).map fun m =>
        ⟨s.lines.region m.1.range, m.2, .reference, p.enclosing.head?, none⟩).reverse ++ p.emission.occurrences } } := by
  induction is generalizing ss p with
  | nil => rfl
  | cons i is ih =>
    cases ss with
    | nil => rfl
    | cons x ss =>
      refine (ih ss _).trans ?_
      simp [Emission.reference, Emission.emit]

/-- What has been noted since is nested in the declaration around, and of what is unknown it is a report.
The same declarations are around. -/
def Notes (given : Symbol → Prop) (s : Setting) (before after : Progress) : Prop :=
  after.enclosing = before.enclosing ∧
    ∃ names os ps, after.emission.occurrences = os ++ before.emission.occurrences ∧
      after.problems = ps ++ before.problems ∧
      Nested (Symbol.Mentioned given) before.enclosing.head? os ∧
      Reported (Symbol.Known given) s.file s.lines s.config.emitUnresolved names os ps

namespace Notes

variable {s : Setting} {p q r : Progress}

theorem none (same : q.emission.occurrences = p.emission.occurrences) (problems : q.problems = p.problems)
    (around : q.enclosing = p.enclosing) : Notes given s p q :=
  ⟨around, [], [], [], same, problems, .nil, .nil⟩

theorem trans (first : Notes given s p q) (second : Notes given s q r) : Notes given s p r := by
  obtain ⟨around, names, os, ps, grown, found, nested, reported⟩ := first
  obtain ⟨around', names', os', ps', grown', found', nested', reported'⟩ := second
  rw [around] at nested'
  exact ⟨around'.trans around, names' ++ names, os' ++ os, ps' ++ ps, by rw [grown', grown, List.append_assoc],
    by rw [found', found, List.append_assoc], nested'.append nested, reported'.append reported⟩

end Notes

/-- The step keeps everything known, it notes what is nested, and its answer is as said. -/
def Upholds {α : Type} (given : Symbol → Prop) (x : Resolve α) (post : α → Prop) : Prop :=
  ∀ s p, p.Known given → (x s p).2.Known given ∧ Notes given s p (x s p).2 ∧ post (x s p).1

/-- The same of a step whose answer does not matter. -/
abbrev KeepsKnown {α : Type} (given : Symbol → Prop) (x : Resolve α) : Prop := Upholds given x fun _ => True

namespace Upholds

variable {α β : Type} {x : Resolve α} {post : α → Prop}

theorem pure {a : α} (h : post a) : Upholds given (Pure.pure a) post := fun _ _ known => ⟨known, .none rfl rfl rfl, h⟩

theorem bind {f : α → Resolve β} {post' : β → Prop} (first : Upholds given x post)
    (second : ∀ a, post a → Upholds given (f a) post') : Upholds given (x >>= f) post' := by
  intro s p known
  obtain ⟨later, noted, h⟩ := first s p known
  obtain ⟨last, noted', h'⟩ := second _ h s _ later
  exact ⟨last, noted.trans noted', h'⟩

theorem seq {y : Resolve β} {post' : β → Prop} (first : Upholds given x post)
    (second : Upholds given y post') : Upholds given (x >>= fun _ => y) post' :=
  first.bind fun _ _ => second

theorem bindPure {f : α → β} {post' : β → Prop} (first : Upholds given x post)
    (answer : ∀ a, post a → post' (f a)) : Upholds given (x >>= fun a => Pure.pure (f a)) post' :=
  first.bind fun a h => .pure (answer a h)

theorem weaken {post' : α → Prop} (h : Upholds given x post) (weaker : ∀ a, post a → post' a) :
    Upholds given x post' := by
  intro s p known
  obtain ⟨later, noted, answer⟩ := h s p known
  exact ⟨later, noted, weaker _ answer⟩

theorem trivially (h : Upholds given x post) : KeepsKnown given x := h.weaken fun _ _ => trivial

theorem discard (h : Upholds given x post) : KeepsKnown given (Functor.discard x) :=
  fun s p known => ⟨(h s p known).1, (h s p known).2.1, trivial⟩

/-- Two steps taken as one, before a third one. -/
theorem grouped {γ : Type} {f : α → Resolve β} {g : β → Resolve γ} {post : γ → Prop}
    (h : Upholds given ((x >>= f) >>= g) post) : Upholds given (x >>= fun a => f a >>= g) post := h

/-! What is read, and what is changed. -/

theorem setting : KeepsKnown given (read : Resolve Setting) := fun _ _ known => ⟨known, .none rfl rfl rfl, trivial⟩

theorem progress : Upholds given (get : Resolve Progress) fun p => p.Known given :=
  fun _ _ known => ⟨known, .none rfl rfl rfl, known⟩

theorem environment : Upholds given Resolve.environment fun env => env.Known given :=
  fun _ _ known => ⟨known, .none rfl rfl rfl, known.environment⟩

theorem place : Upholds given Resolve.place fun place => place.scopes.Known given :=
  fun _ _ known => ⟨known, .none rfl rfl rfl, known.scopes⟩

/-- A change that notes nothing. -/
theorem change {f : Progress → Progress} (h : ∀ p, p.Known given → (f p).Known given)
    (silent : ∀ p, (f p).emission = p.emission ∧ (f p).problems = p.problems ∧
      (f p).enclosing = p.enclosing) : KeepsKnown given (modify f : Resolve Unit) :=
  fun _ p known =>
    ⟨h p known, .none (congrArg Emission.occurrences (silent p).1) (silent p).2.1 (silent p).2.2, trivial⟩

theorem withScopes {f : Scopes → Scopes} (scopes : ∀ ss : Scopes, ss.Known given → (f ss).Known given)
    (h : Upholds given x post) : Upholds given (Resolve.withScopes f x) post := by
  intro s p known
  have inner : Progress.Known given { p with scopes := f p.scopes } :=
    { known with scopes := scopes _ known.scopes }
  obtain ⟨later, noted, answer⟩ := h s _ inner
  exact ⟨{ later with scopes := later.scopes.tail }, noted, answer⟩

theorem inScope (kind : ScopeKind) (h : Upholds given x post) : Upholds given (Resolve.inScope kind x) post :=
  withScopes (fun _ known => known.push kind none) h

theorem inScopeIf (own : Bool) (h : Upholds given x post) : Upholds given (Resolve.inScopeIf own x) post := by
  cases own with
  | true => exact inScope .block h
  | false => exact h

theorem inClass {c : ClassInfo} {vars : List (String × Symbol)} (ofClass : c.Known given)
    (params : ∀ v ∈ vars, v.2.Known given) (h : Upholds given x post) :
    Upholds given (Resolve.inClass c vars x) post :=
  withScopes (fun _ known => known.pushClass ofClass params) h

/-- A class without a name is not mentioned itself. -/
theorem inUnnamed {symbol : Symbol} (unnamed : symbol.IsUnnamedClass) (h : Upholds given x post) :
    Upholds given (Resolve.enclosedBy (some symbol) x) post := by
  intro s p known
  obtain ⟨later, ⟨around, names, os, ps, grown, found, nested, reported⟩, answer⟩ :=
    h s { p with enclosing := symbol :: p.enclosing } { known with }
  exact ⟨{ later with }, ⟨congrArg List.tail around, names, os, ps, grown, found,
    .unnamed unnamed nested, reported⟩, answer⟩

theorem inBody (owner : Option Symbol) (h : Upholds given x post) : Upholds given (do
    modify fun p => { p with ids := p.ids.enter }
    let a ← Resolve.withScopes (·.push .methodBody owner) x
    modify fun p => { p with ids := p.ids.leave }
    return a) post := by
  have entered : KeepsKnown given (modify fun p => { p with ids := p.ids.enter } : Resolve Unit) :=
    change (fun _ known => { known with }) fun _ => ⟨rfl, rfl, rfl⟩
  have left : KeepsKnown given (modify fun p => { p with ids := p.ids.leave } : Resolve Unit) :=
    change (fun _ known => { known with }) fun _ => ⟨rfl, rfl, rfl⟩
  exact entered.seq ((withScopes (fun _ known => known.push .methodBody owner) h).bind
    fun _ answer => left.seq (pure answer))

theorem bindValue {b : ValueBinding} (name : String) (value : b.symbol.Known given) :
    KeepsKnown given (Resolve.bindValue name b) :=
  change (fun _ known => { known with scopes := known.scopes.bindValue name value }) fun _ => ⟨rfl, rfl, rfl⟩

theorem bindType {b : TypeBinding} (name : String) (type : b.Known given) :
    KeepsKnown given (Resolve.bindType name b) :=
  change (fun _ known => { known with scopes := known.scopes.bindType name type }) fun _ => ⟨rfl, rfl, rfl⟩

/-! What is noted. -/

theorem report (span : Span) {problem : Problem} (other : problem.code ≠ .unresolvedReference) :
    KeepsKnown given (Resolve.report span problem) :=
  fun s _ known => ⟨{ known with }, ⟨rfl, [], [], [⟨s.file, s.lines.region span, problem⟩], rfl, rfl, .nil,
    .problem other⟩, trivial⟩

theorem reference (span : Span) {symbol : Symbol} (h : symbol.Known given) :
    KeepsKnown given (Resolve.reference span symbol) :=
  fun s p known => ⟨{ known with }, ⟨rfl, [],
    [⟨s.lines.region span, symbol, .reference, p.enclosing.head?, none⟩], [], rfl, rfl,
    .mention rfl (.inl h), .mention h⟩, trivial⟩

theorem mention (name : Ident) {symbol : Option Symbol} (h : ∀ s, symbol = some s → s.Known given) :
    KeepsKnown given (Resolve.mention name symbol) := by
  cases symbol with
  | none => exact pure trivial
  | some s => exact reference name.range (h s rfl)

theorem mentionAll {names : List (Ident × Option Symbol)}
    (h : ∀ n ∈ names, ∀ s, n.2 = some s → s.Known given) :
    KeepsKnown given (Resolve.mentionAll names) := by
  induction names with
  | nil => exact pure trivial
  | cons n rest ih =>
    exact (mention n.1 (h n List.mem_cons_self)).seq (ih fun m hm => h m (List.mem_cons_of_mem _ hm))

/-- A declaration, and what is resolved in it. -/
theorem declared (name : Ident) {symbol : Symbol} (known : symbol.Known given) (signature : String)
    (doc : Option Comment) (overrides : List Symbol) (h : Upholds given x post) :
    Upholds given (Resolve.define name symbol signature doc overrides >>= fun _ =>
      Resolve.enclosedBy (some symbol) x) post := by
  intro s p before
  let documentation : Option Documentation :=
    if s.config.documentation then some ⟨signature, Signature.comment? doc⟩ else none
  let d : Occurrence := ⟨s.lines.region name.range, symbol, .definition, p.enclosing.head?, documentation⟩
  let q : Progress := { p with emission := (p.emission.emit d).note ⟨symbol, name.text, some signature, overrides⟩ }
  have noted : q.emission.occurrences = [d] ++ p.emission.occurrences := by
    -- what is known of a symbol is noted beside the mentions
    have beside (e : Emission) (info : SymbolInfo) : (e.note info).occurrences = e.occurrences := by
      unfold Emission.note
      split <;> rfl
    exact beside _ _
  obtain ⟨later, ⟨around, names, os, ps, grown, found, nested, reported⟩, answer⟩ :=
    h s { q with enclosing := symbol :: q.enclosing } { before with }
  refine ⟨{ later with }, ⟨congrArg List.tail around, names ++ [], os ++ [d], ps ++ [], ?_, ?_,
    .declaration rfl rfl (.inl known) nested, reported.append (.mention known)⟩, answer⟩
  · rw [List.append_assoc, ← noted]
    exact grown
  · rw [List.append_nil]
    exact found

theorem define (name : Ident) {symbol : Symbol} (known : symbol.Known given) (signature : String)
    (doc : Option Comment) (overrides : List Symbol) :
    KeepsKnown given (Resolve.define name symbol signature doc overrides) :=
  declared name known signature doc overrides (x := Pure.pure ()) (pure trivial)

theorem unresolved (names : List Ident) (isValue : Bool) :
    KeepsKnown given (Resolve.unresolved names isValue) := by
  cases names with
  | nil => exact pure trivial
  | cons first rest =>
    intro s p known
    let n : UnknownName := ⟨first, rest, isValue, p.enclosing.head?⟩
    have marked : Nested (Symbol.Mentioned given) p.enclosing.head? (n.marks s.lines).reverse := by
      refine .ofMentions fun o ho => ?_
      obtain ⟨-, inside, stands⟩ := UnknownName.of_marks (List.mem_reverse.mp ho)
      exact ⟨inside, .inr stands⟩
    let found : Progress := { p with problems := n.diagnostic s.file s.lines :: p.problems }
    have run : Resolve.unresolved (first :: rest) isValue s p = (if s.config.emitUnresolved then
        Resolve.mentionAll (n.idents.zip (n.symbols.map some)) else Pure.pure ()) s found := rfl
    rw [run]
    cases emit : s.config.emitUnresolved with
    | true =>
      rw [if_pos rfl, Resolve.mentionAll_run]
      have all : (n.marks s.lines).reverse.Perm (if s.config.emitUnresolved then n.marks s.lines else []) := by
        rw [emit, if_pos rfl]
        exact List.reverse_perm _
      exact ⟨{ known with }, ⟨rfl, [n], _, [n.diagnostic s.file s.lines], rfl, rfl, marked, .unknown n all⟩, trivial⟩
    | false =>
      exact ⟨{ known with }, ⟨rfl, [n], [], [n.diagnostic s.file s.lines], rfl, rfl, .nil,
        .unknown n (by simp [emit])⟩, trivial⟩

/-! Local declarations. -/

theorem freshSymbolIn (owner : Option Symbol) (kind : SymbolKind) (span : Span) :
    Upholds given (Resolve.localSymbolIn owner kind span)
      fun found => ∀ s, found = some s → s.scheme = .local ∧ s.kind = kind := by
  have fresh : KeepsKnown given Resolve.freshNumber := by
    refine progress.bind fun p _ => ?_
    have drawn : KeepsKnown given (modify fun q => { q with ids := p.ids.fresh.2 } : Resolve Unit) :=
      change (fun _ known => { known with }) fun _ => ⟨rfl, rfl, rfl⟩
    exact drawn.seq (pure trivial)
  refine fresh.bind fun number _ => ?_
  split
  · rename_i symbol made
    refine pure fun s hs => ?_
    cases hs
    exact Symbol.local_of_ofDeclaration made
  · exact (report _ (by simp [Problem.code])).seq (pure nofun)

theorem freshSymbol (kind : SymbolKind) (span : Span) :
    Upholds given (Resolve.localSymbol kind span)
      fun found => ∀ s, found = some s → s.scheme = .local ∧ s.kind = kind :=
  progress.bind fun p _ => freshSymbolIn p.enclosing.head? kind span

theorem localSymbolIn (owner : Option Symbol) {kind : SymbolKind} (sort : kind ≠ .unknown) (span : Span) :
    Upholds given (Resolve.localSymbolIn owner kind span) fun found => ∀ s, found = some s → s.Known given :=
  (freshSymbolIn owner kind span).weaken fun _ made s hs => .ofKind ((made s hs).2 ▸ sort)

theorem localSymbol {kind : SymbolKind} (sort : kind ≠ .unknown) (span : Span) :
    Upholds given (Resolve.localSymbol kind span) fun found => ∀ s, found = some s → s.Known given :=
  (freshSymbol kind span).weaken fun _ made s hs => .ofKind ((made s hs).2 ▸ sort)

theorem declareLocal (name : Ident) {kind : SymbolKind} (sort : kind ≠ .unknown) (type : JavaType)
    (signature : String) : KeepsKnown given (Resolve.declareLocal name kind type signature) := by
  refine (localSymbol sort name.range).bind fun found known => ?_
  cases found with
  | none => exact pure trivial
  | some symbol => exact (define name (known symbol rfl) _ _ _).seq (bindValue _ (known symbol rfl))

theorem declareVariable (name : Ident) (type : Option JavaType) (signature : String)
    {init : Resolve JavaType} (h : KeepsKnown given init) :
    KeepsKnown given (Resolve.declareVariable name type signature init) := by
  refine (localSymbol (by decide) name.range).bind fun found known => ?_
  cases found with
  | none => exact h.discard
  | some symbol =>
    refine (define name (known symbol rfl) _ _ _).seq ?_
    cases type with
    | some type => exact (bindValue _ (known symbol rfl)).seq h.discard
    | none => exact h.bind fun _ _ => bindValue _ (known symbol rfl)

theorem nameOrReport (name : Ident) {symbol : Except NamingError Symbol}
    (known : ∀ s, symbol = .ok s → s.Known given) :
    Upholds given (Resolve.nameOrReport name symbol) fun found => ∀ s, found = some s → s.Known given := by
  cases symbol with
  | ok symbol =>
    refine pure fun s hs => ?_
    cases hs
    exact known symbol rfl
  | error e => exact (report _ (by simp [Problem.code])).seq (pure nofun)

end Upholds
end JavaIndex
