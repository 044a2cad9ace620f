import JavaIndex.Proofs.Resolve.Registering

/-! The classes whose declarations resolution comes to. A class of the project is known from the start; a
class in a body is known from first sight, and until its declaration has been passed, its members may be
used in the expectation that they will be defined. -/
namespace JavaIndex

open ClassName (Within Mentionable MadeBefore)

variable {w : World} {since t u : Moment} {c : ClassInfo} {vars : List (String × Symbol)}
  {b : ClassSyntax}

/-- A class in the file about which enough is known to resolve its declaration. -/
structure Backed (w : World) (t : Moment) (c : ClassInfo) (vars : List (String × Symbol))
    (b : ClassSyntax) : Prop where
  listed : Listed w t c
  matched : Matched w t c vars b
  housed : Housed t c.symbol.path
  members : ClassSound w t c
  named : Environment.isWritable c = true → ClassNamed w t c
  vars : ∀ v ∈ vars, Sound w t v.2
  nested : ∀ inner ∈ ClassBody.typesOf b.body.members,
    Known w t (c.qualifiedName ++ "." ++ inner.name.text) inner

theorem Backed.mono (h : Backed w t c vars b) (le : t ≤ u) : Backed w u c vars b where
  listed := h.listed.mono le.locals
  matched := h.matched.mono le.toKeeps
  housed := h.housed.mono le
  members := h.members.mono le.toKeeps
  named writable := (h.named writable).mono le.toKeeps
  vars v hv := (h.vars v hv).mono le.toKeeps
  nested inner hinner := (h.nested inner hinner).mono le

/-- What is planned for some identifiers can be carried out. -/
def Feasible (w : World) (t : Moment) (plan : Ident → Symbol → Prop) : Prop :=
  ∀ i s, plan i s → (w.distinct → Given w t s.id i.range) ∧ Walks.Anchored t s

/-- What is planned for some identifiers has been carried out. -/
def CarriedOut (t : Moment) (plan : Ident → Symbol → Prop) : Prop := ∀ i s, plan i s → t.Defines i s

theorem Feasible.mono {plan : Ident → Symbol → Prop} (h : Feasible w t plan) (le : t ≤ u) :
    Feasible w u plan :=
  fun i s planned =>
    ⟨fun distinct => ((h i s planned).1 distinct).mono le.toKeeps, (h i s planned).2.mono le⟩

theorem CarriedOut.mono {plan : Ident → Symbol → Prop} (h : CarriedOut t plan) (le : t.Keeps u) :
    CarriedOut u plan :=
  fun i s planned => (h i s planned).mono le

theorem Backed.feasible (grounded : w.Grounded) (backed : Backed w t c vars b)
    (fine : Fine w (.ofPart (.ofClass b)))
    (plain : ∀ m ∈ ClassBody.callablesOf b.body.members, Plain m.name.text) :
    Feasible w t (Plan.ofClass c vars b) := by
  intro i s plan
  refine ⟨fun distinct => ?_, backed.matched.anchored grounded plain backed.housed plan⟩
  obtain ⟨fields, params⟩ := fine.2.2 distinct
  exact backed.matched.given plain fields params plan

theorem ClassName.MadeBefore.head {count : Nat} {name : String} (made : MadeBefore count name) :
    name.toList.head? = some '<' := by
  obtain ⟨sort, -, number, -, h⟩ := made
  cases letters : name.toList with
  | nil => simp [ClassName.stem, letters, ClassName.madeUp, String.toList_append] at h
  | cons x xs =>
    simp only [ClassName.stem, letters, ClassName.madeUp, String.toList_append, List.append_assoc] at h
    by_cases dot : x = '.'
    · simp [dot] at h
    · rw [List.takeWhile_cons_of_pos (by simpa using dot)] at h
      simp only [show "<".toList = ['<'] from rfl, List.cons_append] at h
      rw [(List.cons.inj h).1]
      rfl

/-- The name of a class in a body cannot be written. -/
theorem not_writable {count : Nat} (made : MadeBefore count c.qualifiedName) :
    Environment.isWritable c = false := by
  simp [Environment.isWritable, made.head]

theorem Known.backed {s : Setting} {name : String} {d : TypeDecl}
    (ready : Ready w s t) (known : Known w t name d) :
    ∃ c vars, Found w t name c vars ∧ c.qualifiedName = name ∧ Backed w t c vars (.declared d) := by
  cases known with
  | @intro _ _ c vars found named matched housed nested =>
    refine ⟨c, vars, found, named, ?_, matched, housed, ?_, ?_, ?_, by rw [named]; exact nested⟩
    · cases found with
      | inBody inBody params => exact .inBody (named ▸ inBody)
      | project unmarked inProject => exact .project (named ▸ unmarked) (named ▸ inProject)
    · cases found with
      | inBody inBody params => exact (ready.known name c inBody).1
      | project unmarked inProject => exact fun s offered => .project (.member inProject offered)
    · intro writable
      cases found with
      | inBody inBody params =>
        rw [not_writable (named.symm ▸ (ready.named name c inBody).2)] at writable
        contradiction
      | project unmarked inProject =>
        refine ⟨fun s offered => .project (.member inProject offered), .project (.ofClass inProject), ?_⟩
        rw [named]
        exact .inr (ClassName.mentionable_of_unmarked unmarked)
    · cases found with
      | inBody inBody params => exact (ready.typeParams name vars params).2
      | project unmarked inProject => exact fun v hv => .project (.typeParam inProject hv)

namespace Walks

/-- The class that has been found for a type, or the complaint that there is none. -/
def foundClass (d : TypeDecl) : Option ClassInfo → Resolve (Option (ClassInfo × List (String × Symbol)))
  | some c => return some (c, ((← get).typeParams[c.qualifiedName]?).getD c.typeParamSymbols)
  | none => do
    let package := (← Resolve.environment).packageSymbol (← read).imports.package
    let owner := (← get).enclosing.head?.getD package
    match Symbol.ofDeclaration (.type d.name.text (.ofDecl d.kind)) (some owner) with
    | .ok _ => return none
    | .error e =>
      Resolve.malformed d.name e
      return none

/-- A type that is known is found, with its type variables. -/
theorem knownClass {d : TypeDecl} {name : String} (known : Known w since name d) :
    Walks w since [] (Resolve.knownClass d name) fun r t =>
      ∃ c vars, r = some (c, vars) ∧ Found w t name c vars ∧ c.qualifiedName = name ∧
        Backed w t c vars (.declared d) := by
  intro _ s t ready le
  obtain ⟨c, vars, found, named, backed⟩ := (known.mono le).backed ready
  have run : Resolve.knownClass d name s t.progress = (some (c, vars), t.progress) := by
    have known : t.progress.environment.class? name = some c ∧
        (t.progress.typeParams[c.qualifiedName]?).getD c.typeParamSymbols = vars := by
      rw [named]
      cases found with
      | inBody inBody params =>
        have inBody : t.progress.environment.locals[name]? = some c := inBody
        simp [Environment.class?, inBody, params]
      | project unmarked inProject =>
        have noClass : t.progress.environment.locals[name]? = none := by
          by_contra other
          obtain ⟨c', hc⟩ := Option.ne_none_iff_exists'.mp other
          exact unmarked (ready.named name c' hc).2.marked
        have noVars : t.progress.typeParams[name]? = none := by
          by_contra other
          obtain ⟨vars', hvars⟩ := Option.ne_none_iff_exists'.mp other
          exact unmarked (ready.typeParams name vars' hvars).1.marked
        rw [← ready.project] at inProject
        simp [Environment.class?, noClass, noVars, inProject]
    change foundClass d (t.progress.environment.class? name) s t.progress = _
    rw [known.1, ← known.2]
    rfl
  rw [run]
  exact ⟨t, rfl, le_refl t, .refl t, ready, .nil rfl, c, vars, rfl, found, named, backed⟩


end Walks

/-! Expectations. -/

/-- The symbols to which the classes known under a name and inside it lead. -/
def Carries (t : Moment) (name : String) (id : SymbolId) : Prop :=
  ∃ s : Symbol, s.id = id ∧ ∃ key, Within name key ∧
    ((∃ c, t.locals[key]? = some c ∧ (Offers c s ∨ (Mentionable key ∧ s = c.symbol))) ∨
      ∃ vars, t.progress.typeParams[key]? = some vars ∧ ∃ v ∈ vars, s = v.2)

/-- Once classes have been registered, all is well in the expectation that they will be defined. -/
theorem Ready.registered {s : Setting} {name : String} (ready : Ready w s t)
    (registers : Registers (Within name) t u) (numbered : Numbered u)
    (made : ∀ key, Within name key → MadeBefore t.progress.classCount key)
    (named : ∀ key c, Within name key → u.locals[key]? = some c → c.qualifiedName = key)
    (scopes : ∀ sc ∈ u.progress.scopes, ScopeSound (w.expecting (Carries u name)) u sc) :
    Ready (w.expecting (Carries u name)) s u where
  toNumbered := numbered
  lines := ready.lines
  imports := ready.imports
  project := registers.project.trans ready.project
  external := registers.external.trans ready.external
  policy := registers.policy.trans ready.policy
  named key c known := by
    rw [registers.classCount]
    by_cases within : Within name key
    · exact ⟨named key c within known, made key within⟩
    · rw [registers.locals key within] at known
      exact ready.named key c known
  known key c known := by
    by_cases within : Within name key
    · refine ⟨fun x offered => .expected (.inr ?_), fun safe => ?_⟩
      · exact ⟨x, rfl, key, within, .inl ⟨c, known, .inl offered⟩⟩
      · obtain lax | mentionable := safe
        · exact .unasked lax
        · exact .expected (.inr ⟨_, rfl, key, within, .inl ⟨c, known, .inr ⟨mentionable, rfl⟩⟩⟩)
    · rw [registers.locals key within] at known
      obtain ⟨members, symbol⟩ := (ready.expecting (Carries u name)).known key c known
      exact ⟨members.mono registers.keeps, fun safe => (symbol safe).mono registers.keeps⟩
  typeParams key vars known := by
    rw [registers.classCount]
    by_cases within : Within name key
    · exact ⟨made key within, fun v hv =>
        .expected (.inr ⟨v.2, rfl, key, within, .inr ⟨vars, known, v, hv, rfl⟩⟩)⟩
    · rw [registers.typeParams key within] at known
      obtain ⟨made, sound⟩ := (ready.expecting (Carries u name)).typeParams key vars known
      exact ⟨made, fun v hv => (sound v hv).mono registers.keeps⟩
  scopes := scopes
  definitions := by rw [registers.emission, registers.entries]; exact ready.definitions
  references o ho used := by
    rw [registers.emission] at ho
    exact ((ready.expecting (Carries u name)).references o ho used).mono registers.keeps
  infos := by rw [registers.emission, registers.entries]; exact ready.infos
  given distinct e he := by
    rw [registers.entries] at he
    exact ((ready.expecting (Carries u name)).given distinct e he).mono registers.keeps
  enclosing o ho := by
    rw [registers.enclosing] at ho
    exact registers.housed (ready.enclosing o ho)
  oneEpoch policy := registers.epoch.trans (ready.oneEpoch policy)

/-- A class whose declaration has been passed is as it was when it was registered. -/
theorem Settled.in_tree {name key : String} {d d' : TypeDecl} (settled : Settled w t name d)
    (tree : InTree name d key d') : Settled w t key d' := by
  induction tree with
  | root => exact settled
  | inner member _ ih =>
    cases settled with
    | intro _ _ nested => exact ih (nested _ member)

theorem InTree.fine {name key : String} {d d' : TypeDecl} (tree : InTree name d key d')
    (fine : ∀ n ∈ Nodes.typeDecl d, Fine w n) : ∀ n ∈ Nodes.typeDecl d', Fine w n := by
  induction tree with
  | root => exact fine
  | inner member _ ih => exact ih (Nodes.types_fine (Nodes.members_fine fine) _ member)

/-- What is expected of a class comes about when its declaration has been passed. -/
theorem Settled.met {key : String} {d' : TypeDecl} {s : Symbol} (settled : Settled w u key d')
    (marked : '<' ∈ key.toList) (fine : ∀ n ∈ Nodes.typeDecl d', Fine w n) (le : t ≤ u)
    (known : t.locals[key]? = some c) (params : t.progress.typeParams[key]? = some vars)
    (described : LocalBody t c vars (.declared d'))
    (carried : Offers c s ∨ s = c.symbol ∨ ∃ v ∈ vars, s = v.2) : Met w u s.id := by
  cases settled with
  | @intro _ _ c' vars' found defined _ =>
    cases found with
    | project unmarked => exact absurd marked unmarked
    | inBody known' params' =>
      cases Option.some.inj (known'.symm.trans (le.locals key c known))
      cases Option.some.inj (params'.symm.trans (le.typeParams key vars params))
      have described := described.mono le.toKeeps
      have written := (Nodes.class_fine fine).1
      obtain offered | rfl | ⟨v, hv, rfl⟩ := carried
      · exact described.members_met written (Nodes.callables_plain (Nodes.members_fine fine)) defined
          offered
      · obtain ⟨e, he, -, same⟩ := defined d'.name _ (.name rfl)
        exact .inl ⟨e, he, same⟩
      · exact described.typeParams_met written defined v hv

/-- What has been expected of a declared class and those in it has come about. -/
theorem carried_met {name : String} {d : TypeDecl} (marked : '<' ∈ name.toList)
    (fine : ∀ n ∈ Nodes.typeDecl d, Fine w n) (le : t ≤ u) (grown : Grown t name d)
    (settled : Settled w u name d) {id : SymbolId} (carried : Carries t name id) : Met w u id := by
  obtain ⟨s, rfl, key, within, known⟩ := carried
  obtain ⟨noClass, noVars⟩ | ⟨c, vars, hc, hvars, -, d', tree, described⟩ := grown key within
  · obtain ⟨c, hc, -⟩ | ⟨vars, hvars, -⟩ := known
    · rw [noClass] at hc
      contradiction
    · rw [noVars] at hvars
      contradiction
  · refine (settled.in_tree tree).met (within.marked marked) (tree.fine fine) le hc hvars described ?_
    obtain ⟨c', hc', offered | ⟨-, rfl⟩⟩ | ⟨vars', hvars', v, hv, rfl⟩ := known
    · cases Option.some.inj (hc.symm.trans hc')
      exact .inl offered
    · cases Option.some.inj (hc.symm.trans hc')
      exact .inr (.inl rfl)
    · cases Option.some.inj (hvars.symm.trans hvars')
      exact .inr (.inr ⟨v, hv, rfl⟩)

/-! Classes in bodies on first sight. -/

/-- The same moment after a class has been given a name. -/
def Moment.counted (t : Moment) : Moment :=
  { t with progress := { t.progress with classCount := t.progress.classCount + 1 } }

theorem Moment.le_counted (t : Moment) : t ≤ t.counted :=
  ⟨.of_eq rfl, fun _ _ h => h, fun _ _ h => h, Nat.le_succ _, le_refl _, fun _ => rfl, id⟩

theorem Moment.around_counted (t : Moment) : t.Around t.counted := ⟨rfl, rfl⟩

theorem Ready.counted {s : Setting} (ready : Ready w s t) : Ready w s t.counted :=
  ready.carry (.of_eq rfl) (ready.toNumbered.of_eq rfl rfl) rfl rfl (Nat.le_succ _) rfl rfl rfl
    (fun sc hsc => (ready.scopes sc hsc).mono (.of_eq rfl)) ⟨rfl, rfl⟩
    (fun o ho => (ready.enclosing o ho).mono t.le_counted) ready.oneEpoch

/-- Nothing is known under a name that has just been made up. -/
theorem Ready.absent {s : Setting} {sort : String} (ready : Ready w s t) (known : sort ∈ ClassName.sorts) :
    Absent t.counted (ClassName.madeUp sort t.progress.classCount) := by
  intro key within
  have new := ClassName.not_madeBefore known within
  constructor
  · by_contra other
    obtain ⟨c, hc⟩ := Option.ne_none_iff_exists'.mp other
    exact new (ready.named key c hc).2
  · by_contra other
    obtain ⟨vars, hvars⟩ := Option.ne_none_iff_exists'.mp other
    exact new (ready.typeParams key vars hvars).1

theorem rebound_sound {name : Option Ident} {scopes : Scopes}
    (old : ∀ sc ∈ scopes, ScopeSound w t sc) (named : ClassNamed w t c) :
    ∀ sc ∈ rebound name c scopes, ScopeSound w t sc := by
  cases name with
  | none => exact old
  | some name => exact Walks.bindType_sound old named

/-- What a class declared by a statement is known to be on first sight. -/
structure FirstSeen (w : World) (s : Setting) (t : Moment) (name : String) (d : TypeDecl) (c : ClassInfo)
    (vars : List (String × Symbol)) : Prop where
  marked : '<' ∈ name.toList
  ready : Ready (w.expecting (Carries t name)) s t
  found : Found w t name c vars
  known : Known w t name d
  grown : Grown t name d

theorem Registered.firstSeen {s : Setting} {number : Nat} {symbol : Symbol} {bound : Option Ident}
    {d : TypeDecl} (ready : Ready w s t) (count : t.progress.classCount = number + 1)
    (done : Registered w t u (ClassName.madeUp "local" number) symbol bound d c) :
    ∃ vars, u.progress.typeParams[ClassName.madeUp "local" number]? = some vars ∧
      FirstSeen w s u (ClassName.madeUp "local" number) d c vars := by
  have sort : "local" ∈ ClassName.sorts := by simp [ClassName.sorts]
  have made : ∀ key, Within (ClassName.madeUp "local" number) key → MadeBefore t.progress.classCount key :=
    fun key within => count ▸ ClassName.madeBefore_succ sort within
  have marked := (made _ (.refl _)).marked
  have mentionable := ClassName.mentionable_local number
  have keys : ∀ key c', Within (ClassName.madeUp "local" number) key → u.locals[key]? = some c' →
      c'.qualifiedName = key := by
    intro key c' within known
    obtain ⟨noClass, -⟩ | ⟨c'', -, known', -, named, -⟩ := done.grown key within
    · rw [noClass] at known
      contradiction
    · cases Option.some.inj (known.symm.trans known')
      exact named
  have expected : Carries u (ClassName.madeUp "local" number) c.symbol.id :=
    ⟨_, rfl, _, .refl _, .inl ⟨c, done.known, .inr ⟨mentionable, rfl⟩⟩⟩
  have own : ClassNamed (w.expecting (Carries u (ClassName.madeUp "local" number))) u c := by
    refine ⟨fun x offered => .expected (.inr ?_), .expected (.inr expected), .inr ?_⟩
    · exact ⟨x, rfl, _, .refl _, .inl ⟨c, done.known, .inl offered⟩⟩
    · rw [keys _ c (.refl _) done.known]
      exact mentionable
  have scopes : ∀ sc ∈ u.progress.scopes,
      ScopeSound (w.expecting (Carries u (ClassName.madeUp "local" number))) u sc := by
    obtain ⟨bare, isBare, symbol, named, scopes⟩ := done.scopes
    rw [scopes]
    refine rebound_sound (rebound_sound (fun sc hsc => ?_) ⟨isBare.sound, ?_, ?_⟩) own
    · exact ((ready.expecting _).scopes sc hsc).mono done.registers.keeps
    · rw [symbol, ← done.owner]
      exact .expected (.inr expected)
    · rw [named]
      exact .inr mentionable
  have ready' := ready.registered done.registers done.numbered made keys scopes
  cases done.tree with
  | intro found named matched housed nested =>
    cases found with
    | project unmarked => exact absurd marked unmarked
    | inBody known params =>
      cases Option.some.inj (known.symm.trans done.known)
      exact ⟨_, params, marked, ready', .inBody known params, done.tree, done.grown⟩

theorem localClass_run {d : TypeDecl} {s : Setting} (ready : Ready w s t)
    (fine : ∀ n ∈ Nodes.typeDecl d, Fine w n) :
    ∃ r u, Resolve.localClass d s t.progress = (r, u.progress) ∧ t ≤ u ∧ t.Around u ∧
      u.ledger.entries = t.ledger.entries ∧
      ((r = none ∧ Ready w s u ∧ ¬ u.Clean) ∨
        ∃ name c vars, r = some (c, vars) ∧ FirstSeen w s u name d c vars) := by
  obtain ⟨t₁, h₁, le₁, around₁, ready₁, covers₁, drawn⟩ :=
    Walks.localSymbol (.ofDecl d.kind) d.name.range (by simp) s t ready (le_refl t)
  cases symbol? : (Resolve.localSymbol (.ofDecl d.kind) d.name.range s t.progress).1 with
  | none =>
    have first : Resolve.localSymbol (.ofDecl d.kind) d.name.range s t.progress = (none, t₁.progress) :=
      Prod.ext symbol? h₁
    exact ⟨none, t₁, (run_bind first _).trans rfl, le₁, around₁, covers₁.entries_eq,
      .inl ⟨rfl, ready₁, drawn.missing symbol?⟩⟩
  | some symbol =>
    have first : Resolve.localSymbol (.ofDecl d.kind) d.name.range s t.progress =
        (some symbol, t₁.progress) := Prod.ext symbol? h₁
    obtain ⟨kind, housed, o, -, granted⟩ := drawn.made symbol symbol?
    have inside : symbol.kind ≠ .package := by
      rw [kind]
      cases d.kind <;> simp [SymbolKind.ofDecl]
    have absent : Absent t₁.counted (ClassName.madeUp "local" t₁.progress.classCount) :=
      ready₁.absent (by simp [ClassName.sorts])
    obtain ⟨u, c, run, done⟩ := register d (some d.name) (s := s) fine ready₁.counted.toNumbered
      (housed.mono t₁.le_counted) inside ⟨o, granted⟩ absent
    obtain ⟨vars, params, seen⟩ := done.firstSeen ready₁.counted rfl
    have le := (le₁.trans t₁.le_counted).trans (done.registers.le absent)
    refine ⟨some (c, vars), u, ?_, le, (around₁.trans t₁.around_counted).trans done.registers.toAround,
      done.registers.entries.trans covers₁.entries_eq, .inr ⟨_, c, vars, rfl, seen⟩⟩
    have fresh : Resolve.freshClassName "local" s t₁.progress =
        (ClassName.madeUp "local" t₁.progress.classCount, t₁.counted.progress) := rfl
    refine (run_bind first _).trans ((run_bind fresh _).trans ((run_bind run _).trans ?_))
    change (some (c, (u.progress.typeParams[ClassName.madeUp "local" t₁.progress.classCount]?).getD []),
      u.progress) = _
    rw [params]
    rfl

/-- What a class without a name is known to be on first sight. -/
structure UnnamedSeen (w : World) (s : Setting) (t : Moment) (number : Nat) (members : List Member)
    (c : ClassInfo) : Prop where
  named : c.qualifiedName = ClassName.madeUp "anon" number
  ready : Ready (w.expecting (Carries t c.qualifiedName)) s t
  known : t.locals[c.qualifiedName]? = some c
  described : LocalBody t c [] (.unnamed members)
  housed : Housed t c.symbol.path
  trees : ∀ inner ∈ ClassBody.typesOf members,
    Known w t (c.qualifiedName ++ "." ++ inner.name.text) inner ∧
      Grown t (c.qualifiedName ++ "." ++ inner.name.text) inner
  only : ∀ key, Within c.qualifiedName key → ¬ InMembers c.qualifiedName members key →
    (key ≠ c.qualifiedName → t.locals[key]? = none) ∧ t.progress.typeParams[key]? = none

theorem unnamedClass_run {parent : Option ClassInfo} {type : JavaType} {members : List Member}
    {span : Span} {s : Setting} (ready : Ready w s t)
    (fine : ∀ n ∈ Nodes.unnamedBody (some members), Fine w n) :
    ∃ r u, Resolve.unnamedClass parent type members span s t.progress = (r, u.progress) ∧ t ≤ u ∧
      t.Around u ∧ u.ledger.entries = t.ledger.entries ∧
      ((r = none ∧ Ready w s u ∧ ¬ u.Clean) ∨
        ∃ number c, r = some c ∧ UnnamedSeen w s u number members c) := by
  have fineMembers : ∀ n ∈ Nodes.members members, Fine w n :=
    fun n hn => fine (n.within (.unnamed members)) (List.mem_append_right _ (List.mem_map_of_mem hn))
  have distinct : ((ClassBody.typesOf members).map fun d => d.name.text).Nodup :=
    (fine (.ofPart (.ofClass (.unnamed members)))
      (List.mem_append_left _ (List.mem_singleton_self _))).2.1
  obtain ⟨t₁, h₁, le₁, around₁, ready₁, covers₁, drawn⟩ :=
    Walks.localSymbol .classType span (by simp) s t ready (le_refl t)
  cases symbol? : (Resolve.localSymbol .classType span s t.progress).1 with
  | none =>
    have first : Resolve.localSymbol .classType span s t.progress = (none, t₁.progress) :=
      Prod.ext symbol? h₁
    exact ⟨none, t₁, (run_bind first _).trans rfl, le₁, around₁, covers₁.entries_eq,
      .inl ⟨rfl, ready₁, drawn.missing symbol?⟩⟩
  | some symbol =>
    have first : Resolve.localSymbol .classType span s t.progress = (some symbol, t₁.progress) :=
      Prod.ext symbol? h₁
    obtain ⟨kind, housed, -⟩ := drawn.made symbol symbol?
    have inside : symbol.kind ≠ .package := by simp [kind]
    have sort : "anon" ∈ ClassName.sorts := by simp [ClassName.sorts]
    let name := ClassName.madeUp "anon" t₁.progress.classCount
    have absent : Absent t₁.counted name := ready₁.absent sort
    let types := Resolve.unnamedSupertypes parent type
    let head : ClassInfo :=
      ⟨name, s.imports.package, symbol, .local, [], types.1, types.2, [], [], [], false⟩
    let t₂ := t₁.counted.withClass head
    have entered : Registers (· = name) t₁.counted t₂ := Moment.registers_withClass _ rfl
    have housed₂ : Housed t₂ symbol.path := entered.housed (housed.mono t₁.le_counted)
    have absent₂ : ∀ scopes, ∀ inner ∈ ClassBody.typesOf members,
        Absent (t₂.withScopes scopes) (name ++ "." ++ inner.name.text) := by
      intro scopes inner _
      refine entered.absent (fun key within => absent key ((Within.member _ _).trans within)) ?_
      exact fun key within => within.ne_outer
    obtain ⟨t₃, c, bodyRun, body⟩ := describe_run (w := w) (t := t₂) head (b := .unnamed members) span
      (s := s) housed₂ inside rfl (fun i named => by cases named) .nil
      (registerMembers members fineMembers distinct (ready₁.counted.toNumbered.of_eq rfl rfl)
        (housed₂.mono (t₂.le_withScopes _)) inside (absent₂ _))
    let u := t₃.withClass c
    have named : c.qualifiedName = name := body.named
    have closed : Registers (· = name) t₃ u := Moment.registers_withClass _ named
    have wide : ∀ key, InMembers name members key → Within name key := by
      rintro key ⟨_, _, within⟩
      exact (Within.member _ _).trans within
    have registers : Registers (Within name) t₁.counted u :=
      ((entered.widen fun key same => .inl same).trans (body.registers.widen wide)).trans
        (closed.widen fun key same => .inl same)
    have trees : ∀ inner ∈ ClassBody.typesOf members,
        Known w u (name ++ "." ++ inner.name.text) inner ∧
          Grown u (name ++ "." ++ inner.name.text) inner := by
      intro inner hinner
      obtain ⟨tree, grown⟩ := body.trees inner hinner
      exact ⟨tree.frame closed fun _ within => within.ne_outer,
        grown.frame closed fun _ within => within.ne_outer⟩
    have only : ∀ key, Within name key → ¬ InMembers name members key →
        (key ≠ name → u.locals[key]? = none) ∧ u.progress.typeParams[key]? = none := by
      intro key within outside
      constructor
      · intro other
        rw [closed.locals key other, body.registers.locals key outside, entered.locals key other]
        exact (absent key within).1
      · exact (body.registers.typeParams key outside).trans (absent key within).2
    have here : u.locals[name]? = some c := by
      rw [← named]
      exact Moment.withClass_self _ c
    have keys : ∀ key c', Within name key → u.locals[key]? = some c' → c'.qualifiedName = key := by
      intro key c' within known
      by_cases same : key = name
      · rw [same, here] at known
        rw [← Option.some.inj known, same, named]
      · by_cases member : InMembers name members key
        · obtain ⟨inner, hinner, within'⟩ := member
          obtain ⟨noClass, -⟩ | ⟨c'', -, known', -, named', -⟩ := (trees inner hinner).2 key within'
          · rw [noClass] at known
            contradiction
          · cases Option.some.inj (known.symm.trans known')
            exact named'
        · rw [(only key within member).1 same] at known
          contradiction
    have ready' : Ready (w.expecting (Carries u name)) s u := by
      refine ready₁.counted.registered registers (body.numbered.of_eq rfl rfl)
        (fun key within => ClassName.madeBefore_succ sort within) keys fun sc hsc => ?_
      change sc ∈ t₃.progress.scopes at hsc
      rw [body.scopes] at hsc
      exact ((ready₁.counted.expecting _).scopes sc hsc).mono registers.keeps
    have run : Resolve.unnamedClass parent type members span s t.progress = (some c, u.progress) := by
      have fresh : Resolve.freshClassName "anon" s t₁.progress = (name, t₁.counted.progress) := rfl
      have rest := run_bind bodyRun fun c => (do
        Resolve.addClass c
        return some c : Resolve (Option ClassInfo))
      exact (run_bind first _).trans ((run_bind fresh _).trans rest)
    refine ⟨some c, u, run, (le₁.trans t₁.le_counted).trans (registers.le absent),
      (around₁.trans t₁.around_counted).trans registers.toAround,
      registers.entries.trans covers₁.entries_eq, .inr ⟨t₁.progress.classCount, c, rfl, named, ?_, ?_,
        body.described.mono (.of_eq rfl), ?_, ?_, ?_⟩⟩
    · rw [named]
      exact ready'
    · rw [named]
      exact here
    · rw [body.owner]
      exact closed.housed (body.registers.housed housed₂)
    · rw [named]
      exact trees
    · rw [named]
      exact only

/-! Declarations of classes in bodies, from first sight to the end. -/

/-- A class is defined as described, with the types declared in it. -/
structure ClassDone (w : World) (c : ClassInfo) (vars : List (String × Symbol)) (b : ClassSyntax)
    (t : Moment) : Prop where
  planned : CarriedOut t (Plan.ofClass c vars b)
  nested : ∀ inner ∈ ClassBody.typesOf b.body.members,
    Settled w t (c.qualifiedName ++ "." ++ inner.name.text) inner

theorem ClassDone.settled {d : TypeDecl} {name : String} (done : ClassDone w c vars (.declared d) t)
    (found : Found w t name c vars) (named : c.qualifiedName = name) : Settled w t name d :=
  .intro found done.planned (named ▸ done.nested)

theorem ClassDone.mono (done : ClassDone w c vars b t) (le : t ≤ u) : ClassDone w c vars b u where
  planned := done.planned.mono le.toKeeps
  nested inner hinner := (done.nested inner hinner).mono le

theorem ClassDone.meet {expected : SymbolId → Prop} (done : ClassDone w c vars b t) :
    ClassDone (w.withExpected expected) c vars b t :=
  ⟨done.planned, fun inner hinner => (done.nested inner hinner).meet⟩

/-- What is defined as described is accounted for. -/
theorem Backed.accounted (backed : Backed w since c vars b) (fine : Fine w (.ofPart (.ofClass b)))
    (plain : ∀ m ∈ ClassBody.callablesOf b.body.members, Plain m.name.text) (le : since ≤ t)
    (done : ClassDone w c vars b t) : Accounted w t b :=
  ⟨fine.1, plain, c, vars, backed.listed.mono le.locals, backed.matched.mono le.toKeeps, done.planned⟩

theorem Found.unique {name : String} {c' : ClassInfo} {vars' : List (String × Symbol)}
    (marked : '<' ∈ name.toList) (found : Found w t name c vars) (found' : Found w t name c' vars') :
    c = c' ∧ vars = vars' := by
  cases found with
  | project unmarked => exact absurd marked unmarked
  | inBody known params =>
    cases found' with
    | project unmarked => exact absurd marked unmarked
    | inBody known' params' =>
      exact ⟨Option.some.inj (known.symm.trans known'), Option.some.inj (params.symm.trans params')⟩

/-- Enough is known of a class without a name to resolve its declaration, whatever is expected. -/
theorem UnnamedSeen.backed {s : Setting} {number : Nat} {members : List Member} {expected : SymbolId → Prop}
    (seen : UnnamedSeen w s t number members c) (ready : Ready (w.withExpected expected) s t) :
    Backed (w.withExpected expected) t c [] (.unnamed members) where
  listed := .inBody seen.known
  matched := .inr seen.described
  housed := seen.housed
  members := (ready.known _ c seen.known).1
  named := by simp [not_writable (ready.named _ c seen.known).2]
  vars := by simp
  nested inner hinner := (seen.trees inner hinner).1.meet

/-- What has been expected of a class without a name and of those in it has come about. -/
theorem UnnamedSeen.met {s : Setting} {number : Nat} {members : List Member}
    (seen : UnnamedSeen w s t number members c)
    (fine : ∀ n ∈ Nodes.unnamedBody (some members), Fine w n) (le : t ≤ u)
    (done : ClassDone w c [] (.unnamed members) u) {id : SymbolId}
    (carried : Carries t c.qualifiedName id) : Met w u id := by
  have fineMembers : ∀ n ∈ Nodes.members members, Fine w n :=
    fun n hn => fine (n.within (.unnamed members)) (List.mem_append_right _ (List.mem_map_of_mem hn))
  have written : w.classes (.unnamed members) :=
    (fine (.ofPart (.ofClass (.unnamed members)))
      (List.mem_append_left _ (List.mem_singleton_self _))).1
  obtain ⟨x, rfl, key, within, known⟩ := carried
  by_cases member : InMembers c.qualifiedName members key
  · obtain ⟨inner, hinner, within'⟩ := member
    have marked : '<' ∈ (c.qualifiedName ++ "." ++ inner.name.text).toList := by
      rw [seen.named]
      simp [ClassName.madeUp, String.toList_append]
    exact carried_met marked (Nodes.types_fine fineMembers inner hinner) le (seen.trees inner hinner).2
      (done.nested inner hinner) ⟨x, rfl, key, within', known⟩
  · obtain ⟨noClass, noVars⟩ := seen.only key within member
    obtain ⟨c', hc', offered⟩ | ⟨vars, hvars, -⟩ := known
    · by_cases same : key = c.qualifiedName
      · rw [same] at hc' offered
        cases Option.some.inj (hc'.symm.trans seen.known)
        obtain offered | ⟨mentionable, -⟩ := offered
        · exact (seen.described.mono le.toKeeps).members_met written (Nodes.callables_plain fineMembers)
            done.planned offered
        · exact absurd seen.named (mentionable number)
      · rw [noClass same] at hc'
        contradiction
    · rw [noVars] at hvars
      contradiction

namespace Walks

/-- A declaration of a class among statements. -/
theorem localType {d : TypeDecl}
    (h : ∀ more t c vars, since ≤ t → Backed (w.expecting more) t c vars (.declared d) →
      Walks (w.expecting more) t (Nodes.typeDecl d)
        (Resolve.typeDecl (Pure.pure (some (c, vars))) d)
        fun _ u => ClassDone (w.expecting more) c vars (.declared d) u) :
    Walks w since (Nodes.typeDecl d) (Resolve.typeDecl (Resolve.localClass d) d) fun _ _ => True := by
  intro fine s t ready le
  obtain ⟨r, t₁, run, le₁, around₁, entries₁, missing | ⟨name, c, vars, rfl, seen⟩⟩ :=
    localClass_run ready fine
  · obtain ⟨rfl, ready₁, unclean⟩ := missing
    have whole : Resolve.typeDecl (Resolve.localClass d) d s t.progress = ((), t₁.progress) := by
      cases d
      exact (run_bind run _).trans rfl
    rw [whole]
    exact ⟨t₁, rfl, le₁, around₁, ready₁, .passed unclean entries₁, trivial⟩
  · have whole : Resolve.typeDecl (Resolve.localClass d) d s t.progress =
        Resolve.typeDecl (Pure.pure (some (c, vars))) d s t₁.progress := by
      cases d
      exact (run_bind run _).trans rfl
    have known : Known (w.expecting (Carries t₁ name)) t₁ name d := seen.known.meet
    obtain ⟨c', vars', found, named, backed⟩ := known.backed seen.ready
    obtain ⟨rfl, rfl⟩ := seen.found.unique seen.marked found.meet
    obtain ⟨u, hu, le₂, around₂, ready₂, covers, done⟩ :=
      h _ t₁ c vars (le.trans le₁) backed fine s t₁ seen.ready (le_refl t₁)
    rw [whole]
    refine ⟨u, hu, le₁.trans le₂, around₁.trans around₂, ready₂.discharge fun x carried => ?_, ?_, trivial⟩
    · have settled : Settled ((w.expecting (Carries t₁ name)).withExpected w.expected) u name d :=
        (done.settled (found.mono le₂) named).meet
      exact (carried_met seen.marked fine le₂ seen.grown settled carried).sound
    · have silent : Covers w [] t t₁ := .nil entries₁
      exact silent.append covers.discharge le₂

/-- The body of a class without a name. -/
theorem createdBody (grounded : w.Grounded) {created : NamedType} {span : Span} {members : List Member}
    (h : ∀ more t c, since ≤ t → Backed (w.expecting more) t c [] (.unnamed members) →
      Feasible (w.expecting more) t (Plan.ofClass c [] (.unnamed members)) →
      Walks (w.expecting more) t (Nodes.members members) (Resolve.members (.start c) members)
        fun _ u => ClassDone (w.expecting more) c [] (.unnamed members) u) :
    Walks w since (Nodes.unnamedBody (some members)) (Resolve.createdBody created span (some members))
      fun _ _ => True := by
  intro fine s t ready le
  obtain ⟨r, t₁, run, le₁, around₁, entries₁, missing | ⟨number, c, rfl, seen⟩⟩ :=
    unnamedClass_run ready fine
  · obtain ⟨rfl, ready₁, unclean⟩ := missing
    have whole : Resolve.createdBody created span (some members) s t.progress = (.unknown, t₁.progress) :=
      (run_bind run _).trans rfl
    rw [whole]
    exact ⟨t₁, rfl, le₁, around₁, ready₁, .passed unclean entries₁, trivial⟩
  · let more := Carries t₁ c.qualifiedName
    have backed : Backed (w.expecting more) t₁ c [] (.unnamed members) := seen.backed seen.ready
    have fineMembers : ∀ n ∈ Nodes.members members, Fine (w.expecting more) n := fun n hn =>
      fine (n.within (.unnamed members)) (List.mem_append_right _ (List.mem_map_of_mem hn))
    have fineHere : Fine (w.expecting more) (.ofPart (.ofClass (.unnamed members))) :=
      fine (.ofPart (.ofClass _)) (List.mem_append_left _ (List.mem_singleton_self _))
    have feasible := backed.feasible (grounded.expecting more) fineHere (Nodes.callables_plain fineMembers)
    have body := (enclosedBy (fun _ _ _ (done : ClassDone _ _ _ _ _) le => done.mono le) backed.housed (inClass
      (scopeless_of_mono fun _ _ _ done le => done.mono le)
      backed.members backed.named backed.vars (h more t₁ c (le.trans le₁) backed feasible))).inside
        fun _ _ le done => backed.accounted fineHere (Nodes.callables_plain fineMembers) le done
    have silent : ∀ n ∈ Nodes.classNode (.unnamed members), n.declared? = none ∧ n.around = [] := by
      simp [Nodes.classNode, Node.ofPart, Node.declared?]
    let resolved : Resolve JavaType := do
      Resolve.enclosedBy (some c.symbol) (Resolve.inClass c [] (Resolve.members (.start c) members))
      return c.selfType
    have answered : Walks (w.expecting more) t₁ (Nodes.unnamedBody (some members)) resolved
        fun _ u => ClassDone (w.expecting more) c [] (.unnamed members) u :=
      (body.beforehand silent).bind_pure fun _ _ _ done u le => done.mono le
    obtain ⟨u, hu, le₂, around₂, ready₂, covers, done⟩ := answered fine s t₁ seen.ready (le_refl t₁)
    have whole : Resolve.createdBody created span (some members) s t.progress =
        resolved s t₁.progress := (run_bind run _).trans rfl
    rw [whole]
    refine ⟨u, hu, le₁.trans le₂, around₁.trans around₂, ready₂.discharge fun x carried => ?_, ?_, trivial⟩
    · have done : ClassDone ((w.expecting more).withExpected w.expected) c [] (.unnamed members) u :=
        done.meet
      exact (seen.met fine le₂ done carried).sound
    · have silent : Covers w [] t t₁ := .nil entries₁
      exact silent.append covers.discharge le₂

end Walks
end JavaIndex
