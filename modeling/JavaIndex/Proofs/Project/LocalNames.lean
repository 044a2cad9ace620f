import JavaIndex.Proofs.Project.Numbering
import JavaIndex.Proofs.Resolve.LocalNumbersTraversal

/-! A local symbol shows only its number. In the index of a file the numbers tell local definitions apart: all of
the file, or those of one body where every method has numbers of its own. -/
namespace JavaIndex

/-- No class of a file declares two fields, two member types or two type variables of one name. -/
def Part.Univocal : Part → Prop
  | .ofClass b => (Part.ofClass b).Unrepeated ∧ (b.typeParams.map fun p => p.name.text).Nodup
  | .mention _ | .declaration _ => True

def CompilationUnit.Univocal (u : CompilationUnit) : Prop := ∀ n ∈ Nodes.unit u, n.part.Univocal

instance : DecidablePred Part.Univocal
  | .ofClass _ => inferInstanceAs (Decidable (_ ∧ _))
  | .mention _ | .declaration _ => inferInstanceAs (Decidable True)

instance : DecidablePred CompilationUnit.Univocal := fun u =>
  inferInstanceAs (Decidable (∀ n ∈ Nodes.unit u, n.part.Univocal))

/-- Among the definitions at some places, local symbols of one text are defined at one place. -/
def UnitIndex.TellsApart (index : UnitIndex) (places : Region → Prop) : Prop :=
  ∀ o ∈ index.occurrences, ∀ p ∈ index.occurrences, o.isDefinition = true → p.isDefinition = true →
    o.symbol.scheme = .local → p.symbol.scheme = .local → places o.region → places p.region →
    o.symbol.text = p.symbol.text → o.region = p.region

/-- What is told apart on the way is told apart by the index. -/
theorem Apart.shown {w : World} {s : Setting} {t : Moment} {index : UnitIndex} {names : List Ident}
    {places : Region → Prop} (apart : Apart t.ledger.entries names) (ready : Ready w s t)
    (shown : index.occurrences = t.progress.emission.finalOccurrences)
    (within : ∀ e ∈ t.ledger.entries, places (w.lines.region e.name.range) → e.name ∈ names) :
    index.TellsApart places := by
  intro o ho p hp definition definition' inBody inBody' here here' text
  obtain ⟨e, he, region, symbol⟩ := (ready.shown_iff shown).mp ⟨o, ho, definition, rfl, rfl⟩
  obtain ⟨e', he', region', symbol'⟩ := (ready.shown_iff shown).mp ⟨p, hp, definition', rfl, rfl⟩
  rw [← region] at here
  rw [← region'] at here'
  have range : e.name.range = e'.name.range :=
    apart e he e' he' (within e he here) (within e' he' here') (symbol ▸ inBody) (symbol' ▸ inBody')
      (by rw [symbol, symbol']; exact text)
  rw [← region, ← region', range]

/-- The local names in the index of a file do not clash. Where every method has numbers of its own, this holds in each
body: of a method or an initializer, of the initial value of a field or of a constant, with all that is in it. -/
structure UnitIndex.LocalNamesApart (index : UnitIndex) (tree : CompilationUnit) (lines : LineIndex)
    (policy : LocalNumbering) : Prop where
  numbered : ∀ o ∈ index.occurrences, o.isDefinition = true → o.symbol.scheme = .local →
    ∃ n, o.symbol.text = Descriptor.localText n
  inFile : policy = .perUnit → index.TellsApart fun _ => True
  inBody : ∀ body ∈ Nodes.bodies (Nodes.unit tree), index.TellsApart fun region =>
    ∃ i ∈ Nodes.declared body, region = lines.region i.range

/-- Local definitions of a file have different texts at different places, whatever else is in the project. -/
theorem SourceUnit.local_names_apart {units : List SourceUnit} {u : SourceUnit} {source : String}
    (external : ExternalTable) (config : Config) (hu : u ∈ units)
    (programs : ∀ v ∈ units, ∃ text, parse text = .ok v.tree) (parsed : parse source = .ok u.tree)
    (univocal : u.tree.Univocal) :
    (u.index source (.build units external config) external config).LocalNamesApart u.tree (.ofText source)
      config.localNumbering := by
  let index := u.index source (.build units external config) external config
  let w := World.ofUnit u source (.build units external config) external config False True
  have worded : ∀ v ∈ units, v.tree.Worded := fun v hv => (programs v hv).elim fun _ read => parse_worded read
  have loose : w.Loose := ⟨trivial, id, World.ofUnit_grounded hu worded (.inl trivial)⟩
  have words := parse_idents parsed
  have sorted : Nodes.Sorted w (Nodes.unit u.tree) := by
    refine ⟨fun n hn => ?_, words.nodup.sublist (Nodes.declared_sublist _)⟩
    have plain := (worded u hu).nodes n hn
    have once := univocal n hn
    obtain ⟨part, reached, around⟩ := n
    cases part with
    | mention name => exact plain name rfl
    | declaration name => exact plain name rfl
    | ofClass b => exact ⟨⟨_, hn, rfl⟩, once.1.2, fun _ => ⟨once.1.1, once.2⟩⟩
  obtain ⟨t, added, run, -, -, ready, adds⟩ := SourceUnit.tallied loose sorted
  obtain rfl : t.ledger.entries = added := adds.grown
  have shown : index.occurrences = t.progress.emission.finalOccurrences := by
    rw [← run]
    rfl
  refine ⟨fun o ho definition inBody => ?_, fun policy => ?_, fun body hbody => ?_⟩
  · obtain ⟨e, he, -, symbol⟩ := (ready.shown_iff shown).mp ⟨o, ho, definition, rfl, rfl⟩
    obtain ⟨n, text⟩ := adds.numbers e he (symbol ▸ inBody)
    rw [symbol] at text
    exact ⟨n, text⟩
  · have apart := Apart.of_given loose.grounded ready.toNumbered (ready.oneEpoch policy)
      (adds.given (.inl policy)) (Nodes.declared (Nodes.unit u.tree))
    exact apart.shown ready shown fun e he _ => adds.names e he
  · -- a place of the body is that of an identifier of the file, which is known by its place
    refine (adds.apart body hbody).shown ready shown fun e he ⟨i, hi, region⟩ => ?_
    have word {j : Ident} (hj : j ∈ Nodes.declared (Nodes.unit u.tree)) : j ∈ Nodes.idents (Nodes.unit u.tree) :=
      (Nodes.declared_sublist _).mem hj
    have wordE := word (adds.names e he)
    have wordI := word (adds.hold body hbody hi)
    have range := LineIndex.region_injective (words.written _ wordE) (words.written _ wordI) region
    rw [words.eq_of_range wordE wordI range]
    exact hi

/-- A class in a method of a class without a name, where every method has numbers of its own. -/
theorem SourceUnit.local_names_apart_nested :
    let source := "class A { A m(int p) { return new A() { <T> void g(T t) { class L {} } }; } void n(int p) {} }"
    let config : Config := { Config.standard with localNumbering := .perMethod }
    ∃ tree, parse source = .ok tree ∧ tree.Univocal ∧
      (SourceUnit.index ⟨0, tree⟩ source (.build [⟨0, tree⟩] .empty config) .empty config).LocalNamesApart tree
        (.ofText source) .perMethod := by
  intro source config
  obtain ⟨tree, parsed, univocal⟩ : ∃ tree, parse source = .ok tree ∧ tree.Univocal :=
    exists_parse (by decide +kernel)
  refine ⟨tree, parsed, univocal, ?_⟩
  apply SourceUnit.local_names_apart .empty config List.mem_cons_self _ parsed univocal
  intro v hv
  rw [List.mem_singleton.mp hv]
  exact ⟨source, parsed⟩

end JavaIndex
