import JavaIndex.Proofs.Environment.Homes
import JavaIndex.Proofs.Environment.Layouts
import JavaIndex.Proofs.Tree.Idents
import JavaIndex.Resolve.Unit

/-! Two runs through one tree. The tree is laid out in two texts, and the classes known in both runs differ
at most in where they are declared. Then both runs take the same way: a log says, in terms of the tree, what
both note, and over every word of the tree at most one mention is noted. -/
namespace JavaIndex

/-- The two texts of a tree, and what is known in both runs. -/
structure Twins where
  first : Layout
  second : Layout
  homes : Homes
  file : FileId
  file' : FileId
  lines : LineIndex
  lines' : LineIndex
  source : String
  source' : String
  /-- The two texts are one. -/
  alike : Prop
  verbatim : alike → first = second ∧ source = source'

/-- A mention, in terms of the tree. What readers are shown of it depends on the text. -/
structure Note where
  name : Ident
  symbol : Symbol
  role : Role
  enclosing : Option Symbol
  documentation : Option Documentation
  documentation' : Option Documentation

/-- What is known of a symbol, of which the signature depends on the text. -/
structure Fact where
  symbol : Symbol
  displayName : String
  signature : Option String
  signature' : Option String
  overrides : List Symbol

/-- What both runs have noted, the latest first. -/
structure Log where
  notes : List Note
  facts : List Fact
  problems : List (Span × Problem)

namespace Twins

section

variable (w : Twins)

def occurrence (n : Note) : Occurrence :=
  ⟨w.lines.region (w.first.mark n.name.range), n.symbol, n.role, n.enclosing, n.documentation⟩

def occurrence' (n : Note) : Occurrence :=
  ⟨w.lines'.region (w.second.mark n.name.range), n.symbol, n.role, n.enclosing, n.documentation'⟩

def info (f : Fact) : SymbolInfo := ⟨f.symbol, f.displayName, f.signature, f.overrides⟩

def info' (f : Fact) : SymbolInfo := ⟨f.symbol, f.displayName, f.signature', f.overrides⟩

def diagnostic (p : Span × Problem) : Diagnostic := ⟨w.file, w.lines.region (w.first.mark p.1), p.2⟩

def diagnostic' (p : Span × Problem) : Diagnostic := ⟨w.file', w.lines'.region (w.second.mark p.1), p.2⟩

/-- The settings of both runs. -/
structure Set (s s' : Setting) : Prop where
  file : s.file = w.file
  file' : s'.file = w.file'
  lines : s.lines = w.lines
  lines' : s'.lines = w.lines'
  source : s.source = w.source
  source' : s'.source = w.source'
  config : s'.config = s.config
  imports : s'.imports = s.imports

/-- Both runs have come equally far, and the log says what they have noted. -/
structure Meet (log : Log) (p p' : Progress) : Prop where
  scopes : p'.scopes = w.homes.scopes p.scopes
  enclosing : p'.enclosing = p.enclosing
  moves : w.homes.Moves p.environment p'.environment
  typeParams : p'.typeParams = p.typeParams
  classCount : p'.classCount = p.classCount
  ids : p'.ids = p.ids
  notes : p.emission.occurrences = log.notes.map w.occurrence
  notes' : p'.emission.occurrences = log.notes.map w.occurrence'
  facts : p.emission.infos = log.facts.map info
  facts' : p'.emission.infos = log.facts.map info'
  problems : p.problems = log.problems.map w.diagnostic
  problems' : p'.problems = log.problems.map w.diagnostic'
  documented : w.alike → ∀ n ∈ log.notes, n.documentation = n.documentation'
  signed : w.alike → ∀ f ∈ log.facts, f.signature = f.signature'
  told : ∀ f ∈ log.facts, f.signature.isSome = true ∧ f.signature'.isSome = true
  found : ∀ p ∈ log.problems, p.2.code ≠ .overlappingOccurrence

end

/-- A later log, with mentions over some of these words and over each at most once. -/
def Longer (words : List Ident) (log log' : Log) : Prop :=
  ∃ more : List Note, log'.notes = more ++ log.notes ∧ FewerWords (more.map Note.name) words

/-- Two steps that go the same way, over these words, with related answers. -/
def Steps {α β : Type} (w : Twins) (words : List Ident) (x : Resolve α) (y : Resolve β)
    (R : α → β → Prop) : Prop :=
  ∀ s s' p p' log, w.Set s s' → w.Meet log p p' →
    R (x s p).1 (y s' p').1 ∧ ∃ log', Longer words log log' ∧ w.Meet log' (x s p).2 (y s' p').2

/-- The same of steps whose answers do not matter. -/
abbrev Goes {α β : Type} (w : Twins) (words : List Ident) (x : Resolve α) (y : Resolve β) : Prop :=
  Steps w words x y fun _ _ => True

end Twins

namespace Twins.Longer

variable {log log' log'' : Log} {ws vs : List Ident}

theorem refl (ws : List Ident) (log : Log) : Longer ws log log := by
  refine ⟨[], rfl, fun i => ?_⟩
  simp

theorem trans (first : Longer ws log log') (second : Longer vs log' log'') :
    Longer (ws ++ vs) log log'' := by
  obtain ⟨more, grown, fewer⟩ := first
  obtain ⟨more', grown', fewer'⟩ := second
  refine ⟨more' ++ more, by rw [grown', grown, List.append_assoc], fun i => ?_⟩
  have := fewer i
  have := fewer' i
  rw [List.map_append, List.count_append, List.count_append]
  omega

theorem wider (h : Longer ws log log') (more : FewerWords ws vs) : Longer vs log log' := by
  obtain ⟨notes, grown, fewer⟩ := h
  exact ⟨notes, grown, fewer.trans more⟩

end Twins.Longer

namespace Twins.Steps

variable {w : Twins} {ws vs : List Ident} {α β γ δ : Type} {x : Resolve α} {y : Resolve β}
  {R : α → β → Prop} {f : α → Resolve γ} {g : β → Resolve δ} {Q : γ → δ → Prop}

/-! Putting steps together. -/

theorem pure {a : α} {b : β} (related : R a b) : Steps w ws (Pure.pure a) (Pure.pure b) R :=
  fun _ _ _ _ log _ meet => ⟨related, log, .refl ws log, meet⟩

theorem bind (first : Steps w ws x y R) (second : ∀ a b, R a b → Steps w vs (f a) (g b) Q) :
    Steps w (ws ++ vs) (x >>= f) (y >>= g) Q := by
  intro s s' p p' log set meet
  obtain ⟨related, log₁, longer₁, meet₁⟩ := first s s' p p' log set meet
  obtain ⟨related₂, log₂, longer₂, meet₂⟩ := second _ _ related s s' _ _ log₁ set meet₁
  exact ⟨related₂, log₂, longer₁.trans longer₂, meet₂⟩

theorem imp {R' : α → β → Prop} (h : Steps w ws x y R) (weaker : ∀ a b, R a b → R' a b) :
    Steps w ws x y R' := by
  intro s s' p p' log set meet
  obtain ⟨related, rest⟩ := h s s' p p' log set meet
  exact ⟨weaker _ _ related, rest⟩

theorem goes (h : Steps w ws x y R) : Goes w ws x y := h.imp fun _ _ _ => trivial

theorem wider (h : Steps w ws x y R) (more : FewerWords ws vs) : Steps w vs x y R := by
  intro s s' p p' log set meet
  obtain ⟨related, log', longer, meet'⟩ := h s s' p p' log set meet
  exact ⟨related, log', longer.wider more, meet'⟩

/-- The same words in another order, or put together otherwise. -/
theorem regroup (h : Steps w ws x y R) (same : ∀ i, ws.count i = vs.count i) : Steps w vs x y R :=
  h.wider fun i => Nat.le_of_eq (same i)

theorem bindNone (first : Steps w [] x y R) (second : ∀ a b, R a b → Steps w vs (f a) (g b) Q) :
    Steps w vs (x >>= f) (y >>= g) Q :=
  first.bind second

theorem bindLast (first : Steps w ws x y R) (second : ∀ a b, R a b → Steps w [] (f a) (g b) Q) :
    Steps w ws (x >>= f) (y >>= g) Q := by
  have both := first.bind second
  rwa [List.append_nil] at both

theorem bindPure {f : α → γ} {g : β → δ} (h : Steps w ws x y R) (related : ∀ a b, R a b → Q (f a) (g b)) :
    Steps w ws (x >>= fun a => Pure.pure (f a)) (y >>= fun b => Pure.pure (g b)) Q :=
  h.bindLast fun a b r => Steps.pure (related a b r)

theorem seq {x' : Resolve γ} {y' : Resolve δ} (first : Steps w ws x y R) (second : Steps w vs x' y' Q) :
    Steps w (ws ++ vs) (x >>= fun _ => x') (y >>= fun _ => y') Q :=
  first.bind fun _ _ _ => second

theorem discard (h : Steps w ws x y R) : Goes w ws (Functor.discard x) (Functor.discard y) :=
  h.bindPure fun _ _ _ => trivial

theorem either {c c' : Prop} [Decidable c] [Decidable c'] {x' : Resolve α} {y' : Resolve β} (same : c ↔ c')
    (yes : Steps w ws x y R) (no : Steps w ws x' y' R) :
    Steps w ws (if c then x else x') (if c' then y else y') R := by
  by_cases h : c
  · rwa [if_pos h, if_pos (same.mp h)]
  · rwa [if_neg h, if_neg fun h' => h (same.mpr h')]

/-- A step that notes nothing. -/
theorem quiet (h : ∀ s s' p p' log, w.Set s s' → w.Meet log p p' →
    R (x s p).1 (y s' p').1 ∧ w.Meet log (x s p).2 (y s' p').2) : Steps w [] x y R := by
  intro s s' p p' log set meet
  obtain ⟨related, meet'⟩ := h s s' p p' log set meet
  exact ⟨related, log, .refl [] log, meet'⟩

/-! What the setting and the state say. -/

theorem setting : Steps w [] (read : Resolve Setting) (read : Resolve Setting) w.Set :=
  quiet fun _ _ _ _ _ set meet => ⟨set, meet⟩

theorem progress : Steps w [] (get : Resolve Progress) (get : Resolve Progress) fun p p' =>
    ∃ log, w.Meet log p p' :=
  quiet fun _ _ _ _ log _ meet => ⟨⟨log, meet⟩, meet⟩

theorem environment : Steps w [] Resolve.environment Resolve.environment w.homes.Moves :=
  quiet fun _ _ _ _ _ _ meet => ⟨meet.moves, meet⟩

theorem place : Steps w [] Resolve.place Resolve.place fun a b => b = w.homes.place a := by
  apply quiet
  intro s s' p p' log set meet
  refine ⟨?_, meet⟩
  change (⟨p'.scopes, s'.imports⟩ : Place) = w.homes.place ⟨p.scopes, s.imports⟩
  rw [meet.scopes, set.imports]
  rfl

/-! Scopes and owners. -/

theorem withScopes {change change' : Scopes → Scopes} (h : Steps w ws x y R)
    (alike : ∀ ss, change' (w.homes.scopes ss) = w.homes.scopes (change ss)) :
    Steps w ws (Resolve.withScopes change x) (Resolve.withScopes change' y) R := by
  intro s s' p p' log set meet
  have inner : w.Meet log { p with scopes := change p.scopes } { p' with scopes := change' p'.scopes } := by
    refine { meet with scopes := ?_ }
    change change' p'.scopes = w.homes.scopes (change p.scopes)
    rw [meet.scopes, alike]
  obtain ⟨related, log', longer, meet'⟩ := h s s' _ _ log set inner
  refine ⟨related, log', longer, { meet' with scopes := ?_ }⟩
  exact (congrArg List.tail meet'.scopes).trans List.map_tail.symm

theorem inScope (kind : ScopeKind) (h : Steps w ws x y R) :
    Steps w ws (Resolve.inScope kind x) (Resolve.inScope kind y) R :=
  h.withScopes fun _ => rfl

theorem inClass (c : ClassInfo) (vars : List (String × Symbol)) (h : Steps w ws x y R) :
    Steps w ws (Resolve.inClass c vars x) (Resolve.inClass (w.homes.classInfo c) vars y) R :=
  h.withScopes fun ss => (w.homes.scopes_pushClass ss c vars).symm

theorem enclosedBy (owner : Option Symbol) (h : Steps w ws x y R) :
    Steps w ws (Resolve.enclosedBy owner x) (Resolve.enclosedBy owner y) R := by
  cases owner with
  | none => exact h
  | some o =>
    intro s s' p p' log set meet
    have inner : w.Meet log { p with enclosing := o :: p.enclosing }
        { p' with enclosing := o :: p'.enclosing } :=
      { meet with enclosing := congrArg (o :: ·) meet.enclosing }
    obtain ⟨related, log', longer, meet'⟩ := h s s' _ _ log set inner
    exact ⟨related, log', longer, { meet' with enclosing := congrArg List.tail meet'.enclosing }⟩

theorem inBody (owner : Option Symbol) (h : Steps w ws x y R) :
    Steps w ws (Resolve.inBody owner x) (Resolve.inBody owner y) R := by
  apply enclosedBy
  intro s s' p p' log set meet
  have entered : w.Meet log { p with ids := p.ids.enter } { p' with ids := p'.ids.enter } :=
    { meet with ids := by rw [meet.ids] }
  have body : Steps w ws (Resolve.withScopes (·.push .methodBody owner) x)
      (Resolve.withScopes (·.push .methodBody owner) y) R := h.withScopes fun _ => rfl
  obtain ⟨related, log', longer, meet'⟩ := body s s' _ _ log set entered
  exact ⟨related, log', longer, { meet' with ids := congrArg LocalIds.leave meet'.ids }⟩

theorem bindValue (name : String) (b : ValueBinding) :
    Goes w [] (Resolve.bindValue name b) (Resolve.bindValue name b) := by
  apply quiet
  intro s s' p p' log set meet
  refine ⟨trivial, { meet with scopes := ?_ }⟩
  change p'.scopes.bindValue name b = w.homes.scopes (p.scopes.bindValue name b)
  rw [meet.scopes, w.homes.scopes_bindValue]

theorem bindType (name : String) (b : TypeBinding) :
    Goes w [] (Resolve.bindType name b) (Resolve.bindType name (w.homes.typeBinding b)) := by
  apply quiet
  intro s s' p p' log set meet
  refine ⟨trivial, { meet with scopes := ?_ }⟩
  change p'.scopes.bindType name _ = w.homes.scopes (p.scopes.bindType name b)
  rw [meet.scopes, w.homes.scopes_bindType]

/-! Mentions and problems. -/

/-- Overlaps are found at the end only. -/
theorem report (span : Span) {problem : Problem} (found : problem.code ≠ .overlappingOccurrence) :
    Goes w [] (Resolve.report (w.first.mark span) problem) (Resolve.report (w.second.mark span) problem) := by
  intro s s' p p' log set meet
  refine ⟨trivial, { log with problems := (span, problem) :: log.problems }, .refl [] log,
    { meet with problems := ?_, problems' := ?_, found := ?_ }⟩
  · change (⟨s.file, s.lines.region (w.first.mark span), problem⟩ : Diagnostic) :: p.problems = _
    rw [set.file, set.lines, meet.problems]
    rfl
  · change (⟨s'.file, s'.lines.region (w.second.mark span), problem⟩ : Diagnostic) :: p'.problems = _
    rw [set.file', set.lines', meet.problems']
    rfl
  · intro p hp
    rcases List.mem_cons.mp hp with rfl | hp
    · exact found
    · exact meet.found p hp

theorem noted (n : Note) {log : Log} {p p' : Progress} (meet : w.Meet log p p')
    (documented : w.alike → n.documentation = n.documentation') :
    w.Meet { log with notes := n :: log.notes } { p with emission := p.emission.emit (w.occurrence n) }
      { p' with emission := p'.emission.emit (w.occurrence' n) } := by
  refine { meet with notes := ?_, notes' := ?_, documented := ?_ }
  · change w.occurrence n :: p.emission.occurrences = _
    rw [meet.notes, List.map_cons]
  · change w.occurrence' n :: p'.emission.occurrences = _
    rw [meet.notes', List.map_cons]
  · intro alike m hm
    rcases List.mem_cons.mp hm with rfl | hm
    · exact documented alike
    · exact meet.documented alike m hm

theorem reference (name : Ident) (symbol : Symbol) :
    Goes w [name] (Resolve.reference (w.first.ident name).range symbol)
      (Resolve.reference (w.second.ident name).range symbol) := by
  intro s s' p p' log set meet
  let n : Note := ⟨name, symbol, .reference, p.enclosing.head?, none, none⟩
  refine ⟨trivial, { log with notes := n :: log.notes }, ⟨[n], rfl, .refl _⟩, ?_⟩
  have kept := noted n meet fun _ => rfl
  rw [occurrence, occurrence', ← set.lines, ← set.lines'] at kept
  have around : p'.enclosing.head? = p.enclosing.head? := congrArg List.head? meet.enclosing
  change w.Meet _ { p with emission := p.emission.emit _ } { p' with emission := p'.emission.emit _ }
  rw [around]
  exact kept

theorem mention (name : Ident) (symbol : Option Symbol) :
    Goes w [name] (Resolve.mention (w.first.ident name) symbol)
      (Resolve.mention (w.second.ident name) symbol) := by
  cases symbol with
  | none => exact .pure trivial
  | some s => exact reference name s

/-- The mentions over names that have been paired with symbols. -/
theorem mentionAll (names : List Ident) (symbols : List (Option Symbol)) :
    Goes w (names.take symbols.length) (Resolve.mentionAll ((names.map w.first.ident).zip symbols))
      (Resolve.mentionAll ((names.map w.second.ident).zip symbols)) := by
  induction names generalizing symbols with
  | nil => exact .pure trivial
  | cons name names ih =>
    cases symbols with
    | nil => exact .pure trivial
    | cons symbol symbols => exact (mention name symbol).seq (ih symbols)

theorem known (f : Fact) {log : Log} {p p' : Progress} (meet : w.Meet log p p')
    (signed : w.alike → f.signature = f.signature')
    (told : f.signature.isSome = true ∧ f.signature'.isSome = true) :
    ∃ log', log'.notes = log.notes ∧ w.Meet log' { p with emission := p.emission.note (info f) }
      { p' with emission := p'.emission.note (info' f) } := by
  have seen : (p.emission.infos.any fun i => i.symbol == (info f).symbol) =
      log.facts.any fun g => g.symbol == f.symbol := by
    rw [meet.facts, List.any_map]
    rfl
  have seen' : (p'.emission.infos.any fun i => i.symbol == (info' f).symbol) =
      log.facts.any fun g => g.symbol == f.symbol := by
    rw [meet.facts', List.any_map]
    rfl
  cases again : log.facts.any fun g => g.symbol == f.symbol with
  | true =>
    refine ⟨log, rfl, ?_⟩
    rw [Emission.note, Emission.note, seen, seen', again]
    exact meet
  | false =>
    refine ⟨{ log with facts := f :: log.facts }, rfl, ?_⟩
    rw [Emission.note, Emission.note, seen, seen', again]
    refine { meet with facts := ?_, facts' := ?_, signed := ?_, told := ?_ }
    · change info f :: p.emission.infos = _
      rw [meet.facts, List.map_cons]
    · change info' f :: p'.emission.infos = _
      rw [meet.facts', List.map_cons]
    · intro alike g hg
      rcases List.mem_cons.mp hg with rfl | hg
      · exact signed alike
      · exact meet.signed alike g hg
    · intro g hg
      rcases List.mem_cons.mp hg with rfl | hg
      · exact told
      · exact meet.told g hg

/-- A definition. Signature and comment agree if the two texts are one. -/
theorem define (name : Ident) (symbol : Symbol) {signature signature' : String} {doc : Option Comment}
    (overrides : List Symbol) (signed : w.alike → signature = signature') :
    Goes w [name] (Resolve.define (w.first.ident name) symbol signature (w.first.doc doc) overrides)
      (Resolve.define (w.second.ident name) symbol signature' (w.second.doc doc) overrides) := by
  intro s s' p p' log set meet
  let shown (signature : String) (doc : Option Comment) : Option Documentation :=
    if s.config.documentation then some ⟨signature, Signature.comment? doc⟩ else none
  let n : Note := ⟨name, symbol, .definition, p.enclosing.head?, shown signature (w.first.doc doc),
    shown signature' (w.second.doc doc)⟩
  have documented : w.alike → n.documentation = n.documentation' := by
    intro alike
    change shown signature (w.first.doc doc) = shown signature' (w.second.doc doc)
    rw [signed alike, (w.verbatim alike).1]
  have kept := noted n meet documented
  rw [occurrence, occurrence', ← set.lines, ← set.lines'] at kept
  obtain ⟨log', same, met⟩ := known ⟨symbol, name.text, some signature, some signature', overrides⟩ kept
    (fun alike => congrArg some (signed alike)) ⟨rfl, rfl⟩
  refine ⟨trivial, log', ⟨[n], same, .refl _⟩, ?_⟩
  have first : (Resolve.define (w.first.ident name) symbol signature (w.first.doc doc) overrides s p).2 =
      { p with emission := (p.emission.emit ⟨s.lines.region (w.first.ident name).range, symbol, .definition,
        p.enclosing.head?, shown signature (w.first.doc doc)⟩).note ⟨symbol, name.text, some signature,
          overrides⟩ } := rfl
  have second : (Resolve.define (w.second.ident name) symbol signature' (w.second.doc doc) overrides s' p').2 =
      { p' with emission := (p'.emission.emit ⟨s'.lines.region (w.second.ident name).range, symbol,
        .definition, p'.enclosing.head?, if s'.config.documentation then
          some ⟨signature', Signature.comment? (w.second.doc doc)⟩ else none⟩).note ⟨symbol, name.text,
            some signature', overrides⟩ } := rfl
  have around : p'.enclosing.head? = p.enclosing.head? := congrArg List.head? meet.enclosing
  rw [first, second, around, set.config]
  exact met

theorem defineUndocumented (name : Ident) (symbol : Symbol) {signature signature' : String}
    (signed : w.alike → signature = signature') :
    Goes w [name] (Resolve.define (w.first.ident name) symbol signature none [])
      (Resolve.define (w.second.ident name) symbol signature' none []) := by
  have defined : Goes w [name]
      (Resolve.define (w.first.ident name) symbol signature (w.first.doc none) [])
      (Resolve.define (w.second.ident name) symbol signature' (w.second.doc none) []) :=
    define name symbol [] signed
  rwa [w.first.undocumented, w.second.undocumented] at defined

theorem unresolved (names : List Ident) (isValue : Bool) :
    Goes w names (Resolve.unresolved (names.map w.first.ident) isValue)
      (Resolve.unresolved (names.map w.second.ident) isValue) := by
  cases names with
  | nil => exact .pure trivial
  | cons first rest =>
    let marks : List (Option Symbol) :=
      (Symbol.placeholderChain ((first :: rest).map Ident.text) isValue).map some
    have steps (l : Layout) : Resolve.unresolved ((first :: rest).map l.ident) isValue = (do
        Resolve.report (l.mark first.range) (.unresolved (Ident.dotted (first :: rest)))
        if (← read).config.emitUnresolved then
          Resolve.mentionAll (((first :: rest).map l.ident).zip marks)) := by
      rw [← l.dotted (first :: rest), show marks = (Symbol.placeholderChain
        (((first :: rest).map l.ident).map Ident.text) isValue).map some by rw [l.texts]]
      rfl
    rw [steps, steps]
    refine (report first.range (by simp [Problem.code])).seq (setting.bindNone fun s s' set => ?_)
    rw [set.config]
    split
    · apply (mentionAll (first :: rest) marks).wider
      intro i
      exact (List.take_sublist _ _).count_le i
    · exact .pure trivial

theorem malformed (name : Ident) (error : NamingError) :
    Goes w [] (Resolve.malformed (w.first.ident name) error) (Resolve.malformed (w.second.ident name) error) :=
  report name.range (by simp [Problem.code])

end Twins.Steps
end JavaIndex
