import JavaIndex.Proofs.Resolve.Uses

/-! The steps that define: they draw numbers, make symbols of them, note definitions, and open bodies. A
definition is backed by what is known of the class around or by the number that has just been drawn. -/
namespace JavaIndex

variable {w : World} {since t u : Moment} {ns ms : List Node} {α : Type}

/-! Notes of definitions. -/

namespace Emission

/-- The symbols of which something is noted. -/
def noted (e : Emission) : List SymbolId := e.infos.map fun i => i.symbol.id

theorem noted_note (e : Emission) (info : SymbolInfo) :
    (e.note info).noted = if info.symbol.id ∈ e.noted then e.noted else info.symbol.id :: e.noted := by
  have same : (e.infos.any fun i => i.symbol == info.symbol) = true ↔ info.symbol.id ∈ e.noted := by
    simp only [noted, List.any_eq_true, List.mem_map]
    constructor
    · rintro ⟨i, hi, h⟩
      exact ⟨i, hi, eq_of_beq (α := SymbolId) h⟩
    · rintro ⟨i, hi, h⟩
      exact ⟨i, hi, beq_iff_eq (α := SymbolId).mpr h⟩
  unfold note
  split
  · rename_i h
    rw [if_pos (same.mp h)]
  · rename_i h
    rw [if_neg fun h' => h (same.mpr h')]
    rfl

theorem occurrences_note (e : Emission) (info : SymbolInfo) :
    (e.note info).occurrences = e.occurrences := by
  unfold note
  split <;> rfl

end Emission

namespace Moment

/-- The same moment after a definition. -/
def withEntry (t : Moment) (emission : Emission) (e : Entry) : Moment :=
  ⟨{ t.progress with emission }, { t.ledger with entries := t.ledger.entries ++ [e] }⟩

theorem le_withEntry (t : Moment) (emission : Emission) (e : Entry) : t ≤ t.withEntry emission e where
  grants _ h := h
  entries _ h := List.mem_append_left _ h
  locals _ _ h := h
  typeParams _ _ h := h
  classCount := le_refl _
  depth := le_refl _
  epoch _ := rfl
  clean := id

/-- The same moment after numbers have been drawn. -/
def withIds (t : Moment) (ids : LocalIds) (more : List Grant) : Moment :=
  ⟨{ t.progress with ids }, { t.ledger with grants := t.ledger.grants ++ more }⟩

theorem le_withIds (t : Moment) {ids : LocalIds} (more : List Grant)
    (depth : ids.depth = t.progress.ids.depth) : t ≤ t.withIds ids more where
  grants _ h := List.mem_append_left _ h
  entries _ h := h
  locals _ _ h := h
  typeParams _ _ h := h
  classCount := le_refl _
  depth := depth.ge
  epoch _ := rfl
  clean := id

end Moment

theorem Ready.withEntry {s : Setting} (ready : Ready w s t) {o : Occurrence} {info : SymbolInfo}
    {e : Entry} (role : o.isDefinition = true) (region : o.region = w.lines.region e.name.range)
    (symbol : o.symbol.id = e.symbol) (noted : info.symbol.id = e.symbol)
    (given : w.distinct → Given w t e.symbol e.name.range) :
    Ready w s (t.withEntry ((t.progress.emission.emit o).note info) e) := by
  have le := t.le_withEntry ((t.progress.emission.emit o).note info) e
  have keep := Moment.keeps_of_le le
  exact {
    lines := ready.lines
    imports := ready.imports
    project := ready.project
    external := ready.external
    policy := ready.policy
    named := ready.named
    known := fun name c hc =>
      ⟨(ready.known name c hc).1.mono keep, fun safe => ((ready.known name c hc).2 safe).mono keep⟩
    typeParams := fun name vars hvars =>
      ⟨(ready.typeParams name vars hvars).1,
        fun v hv => ((ready.typeParams name vars hvars).2 v hv).mono keep⟩
    scopes := fun sc hsc => (ready.scopes sc hsc).mono keep
    definitions := by
      simp only [Moment.withEntry, Emission.occurrences_note, Emission.emit, List.map_append,
        List.reverse_append, List.filter_cons, role, if_true, List.map_cons, ready.definitions,
        List.map_nil, List.reverse_singleton, List.singleton_append, region, symbol]
    references := by
      intro o' ho used
      simp only [Moment.withEntry, Emission.occurrences_note] at ho
      obtain rfl | ho := List.mem_cons.mp ho
      · rw [role] at used
        contradiction
      · exact (ready.references o' ho used).mono keep
    infos := by
      change ((t.progress.emission.emit o).note info).noted.Nodup ∧
        ∀ id, id ∈ ((t.progress.emission.emit o).note info).noted ↔ _
      have before : t.progress.emission.noted.Nodup ∧ ∀ id, id ∈ t.progress.emission.noted ↔
        ∃ e ∈ t.ledger.entries, e.symbol = id := ready.infos
      have same : (t.progress.emission.emit o).noted = t.progress.emission.noted := rfl
      rw [Emission.noted_note, same]
      split
      · rename_i seen
        refine ⟨before.1, fun id => (before.2 id).trans ?_⟩
        obtain ⟨e', he', h⟩ := (before.2 _).mp seen
        simp only [Moment.withEntry, List.mem_append, List.mem_singleton]
        constructor
        · rintro ⟨d, hd, rfl⟩
          exact ⟨d, .inl hd, rfl⟩
        · rintro ⟨d, hd | rfl, rfl⟩
          · exact ⟨d, hd, rfl⟩
          · exact ⟨e', he', h.trans noted⟩
      · rename_i unseen
        refine ⟨List.nodup_cons.mpr ⟨unseen, before.1⟩, fun id => ?_⟩
        simp only [Moment.withEntry, List.mem_append, List.mem_cons, List.not_mem_nil, or_false]
        constructor
        · rintro (rfl | h)
          · exact ⟨e, .inr rfl, noted.symm⟩
          · obtain ⟨d, hd, rfl⟩ := (before.2 id).mp h
            exact ⟨d, .inl hd, rfl⟩
        · rintro ⟨d, hd | rfl, rfl⟩
          · exact .inr ((before.2 _).mpr ⟨d, hd, rfl⟩)
          · exact .inl noted.symm
    epochs := ready.epochs
    numbers := ready.numbers
    homes := fun g hg => (ready.homes g hg).mono keep
    given := by
      intro distinct d hd
      obtain hd | hd := List.mem_append.mp hd
      · exact (ready.given distinct d hd).mono keep
      · rw [List.mem_singleton.mp hd]
        exact (given distinct).mono keep
    enclosing := fun o ho => (ready.enclosing o ho).mono le
    oneEpoch := ready.oneEpoch }

/-- A number drawn for something, unless what it is drawn for has no name. -/
theorem Numbered.withIds (numbered : Numbered t) {more : List Grant} (one : more.length ≤ 1)
    (fresh : ∀ g ∈ more, g.number = t.progress.ids.next ∧ g.epoch = t.ledger.epoch ∧
      Housed t g.owner) :
    Numbered (t.withIds t.progress.ids.fresh.2 more) where
  epochs := by
    intro g hg
    change g.epoch ≤ t.ledger.epoch ∧ (g.epoch = t.ledger.epoch → g.number < t.progress.ids.next + 1)
    obtain hg | hg := List.mem_append.mp hg
    · exact ⟨(numbered.epochs g hg).1, fun h => Nat.lt_succ_of_lt ((numbered.epochs g hg).2 h)⟩
    · obtain ⟨number, epoch, -⟩ := fresh g hg
      exact ⟨epoch.le, fun _ => by omega⟩
  numbers := by
    have new : ∀ g ∈ t.ledger.grants, ∀ h ∈ more, g.epoch = h.epoch → g.number = h.number → False := by
      intro g hg h hh epoch number
      obtain ⟨number', epoch', -⟩ := fresh h hh
      have := (numbered.epochs g hg).2 (epoch.trans epoch')
      omega
    intro g hg h hh epoch number
    obtain hg | hg := List.mem_append.mp hg <;> obtain hh | hh := List.mem_append.mp hh
    · exact numbered.numbers g hg h hh epoch number
    · exact (new g hg h hh epoch number).elim
    · exact (new h hh g hg epoch.symm number.symm).elim
    · match more, one, hg, hh with
      | [m], _, hg, hh => rw [List.mem_singleton.mp hg, List.mem_singleton.mp hh]
  homes := by
    have le : t ≤ t.withIds t.progress.ids.fresh.2 more := t.le_withIds more rfl
    have keep := Moment.keeps_of_le le
    intro g hg
    obtain hg | hg := List.mem_append.mp hg
    · exact (numbered.homes g hg).mono keep
    · obtain ⟨-, epoch, housed⟩ := fresh g hg
      rw [epoch]
      exact housed.at_epoch.mono keep

theorem Ready.withIds {s : Setting} (ready : Ready w s t) {more : List Grant} (one : more.length ≤ 1)
    (fresh : ∀ g ∈ more, g.number = t.progress.ids.next ∧ g.epoch = t.ledger.epoch ∧
      Housed t g.owner) :
    Ready w s (t.withIds t.progress.ids.fresh.2 more) := by
  have le : t ≤ t.withIds t.progress.ids.fresh.2 more := t.le_withIds more rfl
  have keep := Moment.keeps_of_le le
  exact ready.carry keep (ready.toNumbered.withIds one fresh) rfl rfl (le_refl _) rfl rfl rfl
    (fun sc hsc => (ready.scopes sc hsc).mono keep) ⟨rfl, rfl⟩
    (fun o ho => (ready.enclosing o ho).mono le) ready.oneEpoch

/-! Symbols of local declarations. -/

/-- What is known of a symbol that was asked for: it was made for the place, or there is a problem. -/
structure Drawn (owner : Symbol → Prop) (kind : SymbolKind) (span : Span) (symbol : Option Symbol)
    (t : Moment) : Prop where
  made : ∀ s, symbol = some s → s.kind = kind ∧ Housed t s.path ∧ ∃ o, owner o ∧ t.Granted o s span
  missing : symbol = none → ¬ t.Clean

theorem ofDeclaration_local {number : Nat} {kind : SymbolKind} {owner : Option Symbol} {s : Symbol}
    (h : Symbol.ofDeclaration (.local number kind) owner = .ok s) :
    ∃ o, owner = some o ∧ s = ⟨⟨.local, o.path ++ [.local number]⟩, kind⟩ := by
  cases owner with
  | none => simp [Symbol.ofDeclaration, Symbol.named] at h
  | some o =>
    refine ⟨o, rfl, ?_⟩
    simp only [Symbol.ofDeclaration, Symbol.named] at h
    split at h
    · rename_i s' named
      cases Except.ok.inj h
      split at named
      · simp at named
      · exact (Except.ok.inj named).symm
    · simp at h

namespace Walks

/-- After a declaration has been passed over there is a problem. -/
theorem reportMalformed (span : Span) (e : NamingError) :
    Walks w since [] (Resolve.report span (.malformed e)) fun _ t => ¬ t.Clean := by
  intro _ s t ready le
  have more : ∀ d ∈ t.progress.problems,
      d ∈ (⟨s.file, s.lines.region span, .malformed e⟩ : Diagnostic) :: t.progress.problems :=
    fun d hd => List.mem_cons_of_mem _ hd
  exact ⟨t.withNotes t.progress.emission _, rfl, t.le_withNotes _ more, ⟨rfl, rfl⟩,
    ready.withNotes more rfl rfl ready.references, .nil rfl,
    fun clean => clean _ List.mem_cons_self rfl⟩

/-- What is made of a symbol for a local declaration, or of the want of one. -/
def givenSymbol (span : Span) : Except NamingError Symbol → Resolve (Option Symbol)
  | .ok symbol => return some symbol
  | .error e => do
    Resolve.report span (.malformed e)
    return none

theorem localSymbolIn_run {owner : Option Symbol} (kind : SymbolKind) (span : Span) {s : Setting}
    (ready : Ready w s t) (housed : ∀ o, owner = some o → Housed t o.path) :
    ∃ u, (Resolve.localSymbolIn owner kind span s t.progress).2 = u.progress ∧ t ≤ u ∧
      t.Around u ∧ Ready w s u ∧ u.ledger.entries = t.ledger.entries ∧
      Drawn (fun o => owner = some o) kind span (Resolve.localSymbolIn owner kind span s t.progress).1 u := by
  have run : Resolve.localSymbolIn owner kind span s t.progress =
      givenSymbol span (Symbol.ofDeclaration (.local t.progress.ids.next kind) owner) s
        { t.progress with ids := t.progress.ids.fresh.2 } := rfl
  rw [run]
  cases h : Symbol.ofDeclaration (.local t.progress.ids.next kind) owner with
  | ok symbol =>
    obtain ⟨o, rfl, rfl⟩ := ofDeclaration_local h
    let g : Grant := ⟨o.path, t.progress.ids.next, t.ledger.epoch, span⟩
    refine ⟨t.withIds t.progress.ids.fresh.2 [g], rfl, t.le_withIds _ rfl, ⟨rfl, rfl⟩,
      ready.withIds (by simp) ?_, rfl, ?_, fun none => by cases none⟩
    · intro g' hg
      rw [List.mem_singleton.mp hg]
      exact ⟨rfl, rfl, housed o rfl⟩
    · intro s' hs
      cases Option.some.inj hs
      exact ⟨rfl, ((housed o rfl).append_local _).mono (t.le_withIds _ rfl), o, rfl, g,
        List.mem_append_right _ (List.mem_singleton_self g), rfl, rfl, rfl⟩
  | error e =>
    have drawn : Ready w s (t.withIds t.progress.ids.fresh.2 []) := ready.withIds (by simp) (by simp)
    have before : t ≤ t.withIds t.progress.ids.fresh.2 [] := t.le_withIds [] rfl
    obtain ⟨u, hu, le, around, ready', covers, unclean⟩ :=
      reportMalformed span e (by simp) s _ drawn (le_refl _)
    refine ⟨u, hu, before.trans le, ⟨around.depth, around.enclosing⟩, ready', covers.entries_eq, ?_, fun _ => unclean⟩
    intro symbol none
    cases none

theorem localSymbol (kind : SymbolKind) (span : Span) :
    Walks w since [] (Resolve.localSymbol kind span) (Drawn (fun _ => True) kind span) := by
  intro _ s t ready le
  obtain ⟨u, hu, le₁, around, ready₁, entries, drawn⟩ :=
    localSymbolIn_run kind span ready fun o ho => ready.enclosing o (List.mem_of_head? ho)
  refine ⟨u, hu, le₁, around, ready₁, .nil entries, ?_, drawn.missing⟩
  intro symbol made
  obtain ⟨hkind, housed, o, -, granted⟩ := drawn.made symbol made
  exact ⟨hkind, housed, o, trivial, granted⟩

/-! Definitions. -/

theorem covers_declaration {name : Ident} {e : Entry}
    (grown : u.ledger.entries = t.ledger.entries ++ [e]) (same : e.name = name) :
    Covers w (Nodes.declaration name) t u := by
  refine ⟨Nodes.declaration name, [e], List.Sublist.refl _, fun _ => rfl, grown, ?_, ?_⟩
  · simp [same, Nodes.declared, Nodes.declaration, Node.ofPart, Node.declared?]
  · simp [Nodes.declaration, Node.ofPart]

/-- A definition, in the epoch of the body that begins with it. -/
def DefinedNow (name : Ident) (symbol : Symbol) (t : Moment) : Prop :=
  ∃ e ∈ t.ledger.entries, e.name = name ∧ e.symbol = symbol.id ∧ e.epoch = t.bodyEpoch

theorem DefinedNow.defines {name : Ident} {symbol : Symbol} (h : DefinedNow name symbol t) :
    t.Defines name symbol := by
  obtain ⟨e, he, hname, hsymbol, -⟩ := h
  exact ⟨e, he, hname, hsymbol⟩

/-- A definition is noted, and nothing else happens. -/
theorem define_run (name : Ident) {symbol : Symbol} (signature : String) (doc : Option Comment)
    (overrides : List Symbol) {s : Setting} (ready : Ready w s t)
    (given : w.distinct → Given w t symbol.id name.range) :
    ∃ emission, (Resolve.define name symbol signature doc overrides s t.progress).2 =
        (t.withEntry emission ⟨name, symbol.id, t.bodyEpoch⟩).progress ∧
      Ready w s (t.withEntry emission ⟨name, symbol.id, t.bodyEpoch⟩) := by
  let documentation : Option Documentation :=
    if s.config.documentation then some ⟨signature, Signature.comment? doc⟩ else none
  let o : Occurrence := ⟨s.lines.region name.range, symbol, .definition, t.progress.enclosing.head?, documentation⟩
  let info : SymbolInfo := ⟨symbol, name.text, some signature, overrides⟩
  refine ⟨(t.progress.emission.emit o).note info, rfl, ready.withEntry rfl ?_ rfl rfl given⟩
  simp only [o, ready.lines]

theorem define (name : Ident) {symbol : Symbol} (signature : String) (doc : Option Comment)
    (overrides : List Symbol) (given : w.distinct → Given w since symbol.id name.range) :
    Walks w since (Nodes.declaration name) (Resolve.define name symbol signature doc overrides)
      fun _ t => DefinedNow name symbol t := by
  intro _ s t ready le
  obtain ⟨emission, run, ready₁⟩ := define_run name signature doc overrides ready
    fun distinct => (given distinct).mono le.toKeeps
  let e : Entry := ⟨name, symbol.id, t.bodyEpoch⟩
  exact ⟨t.withEntry emission e, run, t.le_withEntry _ e, ⟨rfl, rfl⟩, ready₁, covers_declaration rfl rfl,
    e, List.mem_append_right _ (List.mem_singleton_self e), rfl, rfl, rfl⟩

theorem bindValue (name : String) {b : ValueBinding} (sound : Sound w since b.symbol) :
    Walks w since [] (Resolve.bindValue name b) fun _ _ => True := by
  intro _ s t ready le
  refine ⟨t.withScopes (t.progress.scopes.bindValue name b), rfl, t.le_withScopes _, ⟨rfl, rfl⟩,
    ready.withScopes ?_, .nil rfl, trivial⟩
  intro sc hsc
  cases scopes : t.progress.scopes with
  | nil => simp [scopes, Scopes.bindValue] at hsc
  | cons first rest =>
    rw [scopes] at hsc
    obtain rfl | hsc := List.mem_cons.mp hsc
    · have old := ready.scopes first (by simp [scopes])
      refine ⟨fun b' hb => ?_, old.types, old.members, old.ofClass⟩
      obtain rfl | hb := List.mem_cons.mp hb
      · exact sound.mono le.toKeeps
      · exact old.values b' hb
    · exact ready.scopes sc (by simp [scopes, hsc])

theorem bindType_sound {scopes : Scopes} {name : String} {b : TypeBinding}
    (old : ∀ sc ∈ scopes, ScopeSound w t sc) (sound : BindingSound w t b) :
    ∀ sc ∈ scopes.bindType name b, ScopeSound w t sc := by
  intro sc hsc
  cases scopes with
  | nil => simp [Scopes.bindType] at hsc
  | cons first rest =>
    obtain rfl | hsc := List.mem_cons.mp hsc
    · have first := old first List.mem_cons_self
      refine ⟨first.values, fun b' hb => ?_, first.members, first.ofClass⟩
      obtain rfl | hb := List.mem_cons.mp hb
      · exact sound
      · exact first.types b' hb
    · exact old sc (List.mem_cons_of_mem _ hsc)

theorem bindType (name : String) {b : TypeBinding} (sound : BindingSound w since b) :
    Walks w since [] (Resolve.bindType name b) fun _ _ => True := by
  intro _ s t ready le
  exact ⟨t.withScopes (t.progress.scopes.bindType name b), rfl, t.le_withScopes _, ⟨rfl, rfl⟩,
    ready.withScopes (bindType_sound ready.scopes (sound.mono le.toKeeps)), .nil rfl, trivial⟩

/-- What is passed over for want of a name leaves a problem. -/
theorem passedOver {x : Resolve α} {post : α → Moment → Prop} (unclean : ¬ since.Clean)
    (h : Walks w since [] x post) : Walks w since ns x post := by
  intro _ s t ready le
  obtain ⟨u, hu, le₁, around, ready₁, covers, hpost⟩ := h (by simp) s t ready le
  exact ⟨u, hu, le₁, around, ready₁, .passed (fun clean => unclean ((le.trans le₁).clean clean))
    covers.entries_eq, hpost⟩

theorem given_of_granted {owner s : Symbol} {span : Span} (h : t.Granted owner s span) :
    Given w t s.id span := by
  obtain ⟨g, hg, same, -, rfl⟩ := h
  rw [same]
  exact .granted hg

theorem declareLocal (name : Ident) (kind : SymbolKind) (type : JavaType) (signature : String) :
    Walks w since (Nodes.declaration name) (Resolve.declareLocal name kind type signature)
      fun _ _ => True := by
  refine (localSymbol kind name.range).bind_nil fun symbol t _ drawn => ?_
  split
  · rename_i s
    obtain ⟨-, -, o, -, granted⟩ := drawn.made s rfl
    exact (define name signature none [] fun _ => given_of_granted granted).bind_last
      fun _ u _ defined => bindValue name.text (.defined defined.defines)
  · exact passedOver (drawn.missing rfl) (Walks.pure fun _ _ => trivial)

theorem declareVariable (name : Ident) (type : Option JavaType) (signature : String)
    {init : Resolve JavaType} (value : Walks w since ns init fun _ _ => True) :
    Walks w since (Nodes.declaration name ++ ns) (Resolve.declareVariable name type signature init)
      fun _ _ => True := by
  refine (localSymbol .localVariable name.range).bind_nil fun symbol t le drawn => ?_
  split
  · have passed : Walks w t (Nodes.declaration name) (Pure.pure ()) fun _ _ => True :=
      passedOver (drawn.missing rfl) (Walks.pure fun _ _ => trivial)
    simpa using passed.seq fun u le' => (value.from_later (le.trans le')).discard
  · rename_i s
    obtain ⟨-, -, o, -, granted⟩ := drawn.made s rfl
    refine (define name signature none [] fun _ => given_of_granted granted).bind
      fun _ u le' defined => ?_
    have sound : Sound w u s := .defined defined.defines
    split
    · exact (bindValue name.text sound).seq_nil fun v le'' =>
        (value.from_later ((le.trans le').trans le'')).discard
    · exact (value.from_later (le.trans le')).bind_last fun a v le'' _ =>
        bindValue name.text (sound.mono le''.toKeeps)

/-- A symbol that is there, or a problem. -/
theorem nameOrReport (name : Ident) (symbol : Except NamingError Symbol) :
    Walks w since [] (Resolve.nameOrReport name symbol) fun s? t =>
      (∀ s, s? = some s → symbol = .ok s) ∧ (s? = none → ¬ t.Clean ∧ ∀ s, symbol ≠ .ok s) := by
  unfold Resolve.nameOrReport
  split
  · exact Walks.pure fun _ _ => ⟨fun s hs => by simp_all, fun none => by cases none⟩
  · rename_i e
    refine (reportMalformed name.range e).bind_pure fun _ t _ unclean u le => ?_
    exact ⟨fun s hs => (by cases hs), fun _ => ⟨fun clean => unclean (le.clean clean), by simp⟩⟩

end Walks
end JavaIndex
