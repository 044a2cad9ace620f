import JavaIndex.Proofs.Index.Final
import JavaIndex.Proofs.Parser.Source
import JavaIndex.Proofs.Resolve.Units

/-! A class is described before its members are resolved, and both times its members are numbered. The
two agree: what the index defines over a member is the symbol of the entry that describes it. -/
namespace JavaIndex

/-- The index of a file defines an identifier with a symbol. -/
def UnitIndex.Defines (index : UnitIndex) (lines : LineIndex) (i : Ident) (s : SymbolId) : Prop :=
  ∃ o ∈ index.occurrences, o.isDefinition = true ∧ o.region = lines.region i.range ∧ o.symbol.id = s

/-- The index of a file defines an identifier with this symbol and no other. -/
def UnitIndex.DefinesAs (index : UnitIndex) (lines : LineIndex) (i : Ident) (s : Symbol) : Prop :=
  ∀ x, index.Defines lines i x ↔ x = s.id

theorem Nodes.class_mem (d : TypeDecl) : .ofPart (.ofClass (.declared d)) ∈ typeDecl d := by
  cases d
  exact List.mem_cons_self

theorem Nodes.declared_sublist (ns : List Node) : (Nodes.declared ns).Sublist (Nodes.idents ns) := by
  induction ns with
  | nil => exact .slnil
  | cons n ns ih =>
    obtain ⟨part, reached, around⟩ := n
    cases part with
    | mention name => exact ih.cons name
    | declaration name => exact ih.cons_cons name
    | ofClass written => exact ih

/-! What a resolved file shows. -/

/-- What is shown as a definition at a place has been entered as one there, and the other way round. -/
theorem Ready.shown_iff {w : World} {s : Setting} {t : Moment} {index : UnitIndex} (ready : Ready w s t)
    (shown : index.occurrences = t.progress.emission.finalOccurrences) {region : Region} {x : SymbolId} :
    (∃ o ∈ index.occurrences, o.isDefinition = true ∧ o.region = region ∧ o.symbol.id = x) ↔
      ∃ e ∈ t.ledger.entries, w.lines.region e.name.range = region ∧ e.symbol = x := by
  have noted : (region, x) ∈ (t.progress.emission.occurrences.filter
      Occurrence.isDefinition).map (fun o => (o.region, o.symbol.id)) ↔
      ∃ e ∈ t.ledger.entries, w.lines.region e.name.range = region ∧ e.symbol = x := by
    rw [ready.definitions, List.mem_reverse, List.mem_map]
    simp only [Prod.mk.injEq]
  rw [← noted, shown]
  constructor
  · rintro ⟨o, shown, definition, region, rfl⟩
    obtain ⟨p, hp, shows, -⟩ := Emission.noted_of_final shown
    rw [List.mem_map]
    refine ⟨p, List.mem_filter.mpr ⟨hp, ?_⟩, ?_⟩
    · rw [← shows.isDefinition]
      exact definition
    · rw [← region, ← shows.region, ← shows.symbol]
  · intro entered
    obtain ⟨p, hp, same⟩ := List.mem_map.mp entered
    obtain ⟨hp, definition⟩ := List.mem_filter.mp hp
    obtain ⟨o, shown, shows⟩ := Emission.final_of_noted hp
    refine ⟨o, shown, ?_, ?_, ?_⟩
    · rw [shows.isDefinition]
      exact definition
    · rw [shows.region]
      exact congrArg Prod.fst same
    · rw [shows.symbol]
      exact congrArg Prod.snd same

/-- A file that has been resolved, from a text that is a program. -/
structure Resolved (w : World) (u : SourceUnit) (source : String) (config : Config) (start t : Moment)
    (index : UnitIndex) : Prop where
  ready : Ready w (.ofUnit u source config) t
  covers : Covers w (Nodes.unit u.tree) start t
  fresh : start.ledger.entries = []
  lines : w.lines = .ofText source
  words : SourceWords source (Nodes.idents (Nodes.unit u.tree))
  shown : index.occurrences = t.progress.emission.finalOccurrences

namespace Resolved

variable {w : World} {u : SourceUnit} {source : String} {config : Config} {start t : Moment}
  {index : UnitIndex} (resolved : Resolved w u source config start t index)

include resolved

/-- What is shown as a definition has been entered as one, and the other way round. -/
theorem defines_iff {i : Ident} {x : SymbolId} :
    index.Defines w.lines i x ↔
      ∃ e ∈ t.ledger.entries, w.lines.region e.name.range = w.lines.region i.range ∧ e.symbol = x :=
  resolved.ready.shown_iff resolved.shown

/-- What has been entered is a word of the file, and no word twice. -/
theorem entered : ∃ visited, visited.Sublist (Nodes.unit u.tree) ∧
    t.ledger.entries.map Entry.name = Nodes.declared visited ∧
    (t.ledger.entries.map Entry.name).Nodup ∧ ∀ n ∈ visited, ∀ b ∈ n.around, Accounted w t b := by
  obtain ⟨visited, added, sub, -, grown, names, classes⟩ := resolved.covers
  rw [resolved.fresh, List.nil_append] at grown
  have sub : visited.Sublist (Nodes.unit u.tree) := sub.trans List.filter_sublist
  refine ⟨visited, sub, ?_, ?_, classes⟩
  · rw [grown, names]
  · rw [grown, names]
    exact (resolved.words.nodup.sublist (sub.filterMap _)).sublist (Nodes.declared_sublist visited)

/-- Nothing has been entered but what resolution should come to, and all of it if nothing was passed over. -/
theorem reached : (t.ledger.entries.map Entry.name).Sublist (Nodes.declared (Nodes.reached (Nodes.unit u.tree))) ∧
    (t.Clean → t.ledger.entries.map Entry.name = Nodes.declared (Nodes.reached (Nodes.unit u.tree))) := by
  obtain ⟨visited, added, sub, all, grown, names, -⟩ := resolved.covers
  rw [grown, resolved.fresh, List.nil_append, names]
  exact ⟨sub.filterMap _, fun clean => by rw [all clean]⟩

/-- The place of an entry tells which one it is. -/
theorem entry_eq {e e' : Entry} (he : e ∈ t.ledger.entries) (he' : e' ∈ t.ledger.entries)
    (same : w.lines.region e.name.range = w.lines.region e'.name.range) : e = e' := by
  obtain ⟨visited, sub, names, nodup, -⟩ := resolved.entered
  have written {e : Entry} (he : e ∈ t.ledger.entries) : e.name ∈ Nodes.idents (Nodes.unit u.tree) := by
    have name : e.name ∈ Nodes.declared visited := names ▸ List.mem_map_of_mem he
    exact (sub.filterMap _).mem ((Nodes.declared_sublist visited).mem name)
  rw [resolved.lines] at same
  have range := LineIndex.region_injective (resolved.words.written _ (written he))
    (resolved.words.written _ (written he')) same
  exact eq_of_nodup_map nodup he he' (resolved.words.eq_of_range (written he) (written he') range)

/-- An identifier that has been entered is defined with its symbol. -/
theorem definesAs {i : Ident} {s : Symbol} (defined : t.Defines i s) : index.DefinesAs w.lines i s := by
  obtain ⟨e, he, rfl, same⟩ := defined
  intro x
  rw [resolved.defines_iff]
  constructor
  · rintro ⟨e', he', region, rfl⟩
    rw [resolved.entry_eq he' he region, same]
  · rintro rfl
    exact ⟨e, he, rfl, same⟩

/-- What is planned for a class of the project is shown once the class is settled. -/
theorem planned_definesAs {name : String} {d : TypeDecl} {c : ClassInfo} (settled : Settled w t name d)
    (unmarked : '<' ∉ name.toList) (known : w.project.class? name = some c) {i : Ident} {s : Symbol}
    (plan : Plan.ofClass c c.typeParamSymbols (.declared d) i s) : index.DefinesAs w.lines i s := by
  cases settled with
  | intro found defined _ =>
    cases found with
    | inBody inBody _ => exact absurd (resolved.ready.named _ _ inBody).2.marked unmarked
    | project _ inProject =>
      cases Option.some.inj (inProject.symm.trans known)
      exact resolved.definesAs (defined i s plan)

/-- A class in which anything is defined is accounted for. -/
theorem accounted {n : Node} {i : Ident} {x : SymbolId} (hn : n ∈ Nodes.unit u.tree)
    (declares : n.part = .declaration i) (defined : index.Defines w.lines i x) :
    ∀ b ∈ n.around, Accounted w t b := by
  obtain ⟨e, he, region, -⟩ := resolved.defines_iff.mp defined
  obtain ⟨visited, sub, names, -, accounted⟩ := resolved.entered
  have name : e.name ∈ Nodes.declared visited := names ▸ List.mem_map_of_mem he
  obtain ⟨v, hv, named⟩ := List.mem_filterMap.mp name
  have ident : v.ident? = some e.name := by
    obtain ⟨part, reached, around⟩ := v
    cases part with
    | declaration name => exact named
    | mention name => cases named
    | ofClass written => cases named
  have declares : n.ident? = some i := by rw [Node.ident?, declares]
  have wordV : e.name ∈ Nodes.idents (Nodes.unit u.tree) :=
    List.mem_filterMap.mpr ⟨v, sub.mem hv, ident⟩
  have wordN : i ∈ Nodes.idents (Nodes.unit u.tree) := List.mem_filterMap.mpr ⟨n, hn, declares⟩
  rw [resolved.lines] at region
  have range := LineIndex.region_injective (resolved.words.written _ wordV)
    (resolved.words.written _ wordN) region
  have same := resolved.words.eq_of_range wordV wordN range
  have here : v = n := eq_of_nodup_filterMap resolved.words.nodup (sub.mem hv) hn ident
    (by rw [declares, same])
  rw [← here]
  exact accounted v hv

end Resolved

/-! Fields and methods of a class. -/

section

variable {index : UnitIndex} {lines : LineIndex} {c : ClassInfo} {vars : List (String × Symbol)}
  {b : ClassSyntax}

end

/-! Type variables of methods. -/

/-- One more type variable in the innermost scope, if it has a symbol. -/
def Scopes.bindParam (ss : Scopes) (p : TypeParam) : Option Symbol → Scopes
  | some s => ss.bindType p.name.text (.typeParam p.name.text s)
  | none => ss

namespace ClassInfo.Declares

variable {index : UnitIndex} {lines : LineIndex} {c : ClassInfo} {env : Environment} {place : Place}
  {d : TypeDecl} (h : c.Declares env place d)

include h

end ClassInfo.Declares

/-! Whole files. -/

mutual

/-- Where a type is settled, so are those nested in it. -/
theorem Settled.nested {w : World} {t : Moment} {unit : SourceUnit} : ∀ (d : TypeDecl)
    {outer : List String} {name : String}, Settled w t name d → ∀ s ∈ Site.nested unit outer name d,
    Settled w t s.name s.decl
  | ⟨kind, mods, ident, params, extending, implementing, permitting, components, constants, body, doc,
      range⟩, outer, name, settled, s, hs => by
    rcases List.mem_cons.mp hs with rfl | hs
    · exact settled
    · cases settled with
      | intro _ _ inner => exact Settled.ofMembers body inner s hs

theorem Settled.ofMembers {w : World} {t : Moment} {unit : SourceUnit} : ∀ (ms : List Member)
    {outer : List String} {name : String},
    (∀ inner ∈ ClassBody.typesOf ms, Settled w t (name ++ "." ++ inner.name.text) inner) →
    ∀ s ∈ Site.ofMembers unit outer name ms, Settled w t s.name s.decl
  | [], _, _, _, _, hs => nomatch hs
  | .type d :: rest, _, _, settled, s, hs => by
    rcases List.mem_append.mp hs with hs | hs
    · exact Settled.nested d (settled d List.mem_cons_self) s hs
    · exact Settled.ofMembers rest (fun inner hinner => settled inner (List.mem_cons_of_mem _ hinner)) s hs
  | .field _ _ _ :: rest, _, _, settled, s, hs => Settled.ofMembers rest settled s hs
  | .method _ :: rest, _, _, settled, s, hs => Settled.ofMembers rest settled s hs
  | .initializer _ _ :: rest, _, _, settled, s, hs => Settled.ofMembers rest settled s hs

end

/-- No class of a file repeats the name of a field or of a member type. -/
def Part.Unrepeated : Part → Prop
  | .ofClass b => (b.body.fieldNames.map Ident.text).Nodup ∧
      ((ClassBody.typesOf b.body.members).map fun d => d.name.text).Nodup
  | .mention _ | .declaration _ => True

def CompilationUnit.Unrepeated (u : CompilationUnit) : Prop :=
  ∀ n ∈ Nodes.unit u, n.part.Unrepeated

theorem CompilationUnit.Unrepeated.ofClass {u : CompilationUnit} (unrepeated : u.Unrepeated) {n : Node}
    {b : ClassSyntax} (hn : n ∈ Nodes.unit u) (part : n.part = .ofClass b) :
    (b.body.fieldNames.map Ident.text).Nodup ∧
      ((ClassBody.typesOf b.body.members).map fun d => d.name.text).Nodup := by
  have fine := unrepeated n hn
  rw [part] at fine
  exact fine

instance : DecidablePred Part.Unrepeated
  | .ofClass _ => inferInstanceAs (Decidable (_ ∧ _))
  | .mention _ | .declaration _ => inferInstanceAs (Decidable True)

instance : DecidablePred CompilationUnit.Unrepeated := fun u =>
  inferInstanceAs (Decidable (∀ n ∈ Nodes.unit u, n.part.Unrepeated))

/-- The classes known when a file of a project has been resolved. -/
def SourceUnit.finalClasses (u : SourceUnit) (source : String) (project : ProjectClasses)
    (external : ExternalTable) (config : Config) : Environment :=
  (Resolve.unit u.tree (.ofUnit u source config) (.start project external config)).2.environment

section

variable {units : List SourceUnit} {u : SourceUnit} {source : String} (external : ExternalTable)
  (config : Config)

/-- A file of plain words is fine if its classes are. -/
theorem CompilationUnit.Worded.fine {w : World} {tree : CompilationUnit} (worded : tree.Worded)
    (classes : ∀ n ∈ Nodes.unit tree, ∀ b, n.part = .ofClass b → Fine w (.ofPart (.ofClass b))) :
    ∀ n ∈ Nodes.unit tree, Fine w n := by
  intro n hn
  have plain := worded.nodes n hn
  obtain ⟨part, reached, around⟩ := n
  cases part with
  | mention name => exact plain name rfl
  | declaration name => exact plain name rfl
  | ofClass b => exact classes _ hn b rfl

/-- A file of a project is resolved from its text. The classes outside all bodies are known by their declarations,
and the index shows all that is planned for them. -/
theorem SourceUnit.resolves (distinct lax : Prop) (hu : u ∈ units)
    (programs : ∀ v ∈ units, ∃ text, parse text = .ok v.tree) (parsed : parse source = .ok u.tree)
    (separate : SourceUnit.Separate units) (libraries : lax ∨ external.Lawful)
    (single : ∀ n ∈ Nodes.unit u.tree, ∀ b, n.part = .ofClass b →
      ((ClassBody.typesOf b.body.members).map fun d => d.name.text).Nodup ∧
        (distinct → (b.body.fieldNames.map Ident.text).Nodup ∧ (b.typeParams.map fun p => p.name.text).Nodup)) :
    let project := ProjectClasses.build units external config
    let w := World.ofUnit u source project external config distinct lax
    let index := u.index source project external config
    let env : Environment := .start (ProjectClasses.headed units external config) external
    ∃ t, Resolved w u source config (.start project external config) t index ∧
      index = .ofEmission u.file t.progress.emission t.progress.problems.reverse ∧
      u.finalClasses source project external config = t.progress.environment ∧
      ∀ site ∈ Site.ofUnit u, ∃ c, project.class? site.name = some c ∧
        c.Declares env (site.place env config) site.decl ∧
        ∀ i s, Plan.ofClass c c.typeParamSymbols (.declared site.decl) i s → index.DefinesAs (.ofText source) i s := by
  intro project w index env
  have worded : ∀ v ∈ units, v.tree.Worded := by
    intro v hv
    obtain ⟨text, parsed⟩ := programs v hv
    exact parse_worded parsed
  have lawful : w.Lawful := World.ofUnit_lawful hu separate worded libraries
  have fine : ∀ n ∈ Nodes.unit u.tree, Fine w n :=
    (worded u hu).fine fun n hn b part => ⟨⟨n, hn, part⟩, single n hn b part⟩
  obtain ⟨t, run, ready, covers, settled⟩ := SourceUnit.resolved (w := w) rfl lawful fine
  have built : index = .ofEmission u.file t.progress.emission t.progress.problems.reverse := by
    rw [← run]
    rfl
  have shown : index.occurrences = t.progress.emission.finalOccurrences := by
    rw [built]
    rfl
  have resolved : Resolved w u source config (.start project external config) t index :=
    ⟨ready, covers, rfl, rfl, parse_idents parsed, shown⟩
  refine ⟨t, resolved, built, by rw [SourceUnit.finalClasses, run], fun site hs => ?_⟩
  have known := (ProjectClasses.build_known external config separate worded).known site (SourceUnit.mem_sites hu hs)
  obtain ⟨d, hd, nested⟩ := List.mem_flatMap.mp hs
  have done : Settled w t site.name site.decl := Settled.nested d (settled d hd) site nested
  have unmarked := (Site.ofUnit_spelled (worded u hu).nodes (worded u hu).package hs).1.unmarked
  exact ⟨_, known, ProjectClasses.describe_declares units external config (Site.plain (worded u hu) hs),
    fun _ _ plan => resolved.planned_definesAs done unmarked known plan⟩

end

end JavaIndex
