import JavaIndex.Proofs.Index.Sorted
import JavaIndex.Proofs.Project.Libraries
import JavaIndex.Proofs.Project.LocalNames

/-! What the index of a file says of declarations. Every identifier that declares is defined once, if resolution
comes to it and has a name for it, and one record is kept for each symbol that is defined. What a file uses is
defined somewhere: what is local in the file itself, and what belongs to the project in one of its files. No symbol
is defined at two places, but for what initializers declare where every method has numbers of its own. -/
namespace JavaIndex

/-! Every declaration is defined once. -/

namespace Emission

variable {e : Emission}

/-- Where all definitions stand at different places, each of them is shown once. -/
theorem final_definitions
    (different : ((e.occurrences.filter Occurrence.isDefinition).map Occurrence.region).Nodup) :
    ((e.finalOccurrences.filter Occurrence.isDefinition).map Occurrence.region).Perm
      ((e.occurrences.filter Occurrence.isDefinition).map Occurrence.region) := by
  let places (os : List Occurrence) : List Region := (os.filter Occurrence.isDefinition).map Occurrence.region
  let view (o : Occurrence) : Bool × Region := (o.isDefinition, o.region)
  have places_eq (os : List Occurrence) : places os = ((os.map view).filter Prod.fst).map Prod.snd := by
    rw [List.filter_map, List.map_map]
    rfl
  have fewer : (places e.finalOccurrences).Sublist (places (sorted e.occurrences.reverse)) := by
    rw [places_eq, finalOccurrences, documentOnce_map [] _ fun _ => rfl, ← places_eq]
    exact ((distinct_sublist _).filter _).map _
  have same : (places (sorted e.occurrences.reverse)).Perm (places e.occurrences) :=
    (((sorted_perm _).trans (List.reverse_perm _)).filter _).map _
  have once : (places e.finalOccurrences).Nodup := (same.nodup_iff.mpr different).sublist fewer
  refine (List.perm_ext_iff_of_nodup once different).mpr fun region => ⟨fun shown => ?_, fun noted => ?_⟩
  · exact same.subset (fewer.subset shown)
  · obtain ⟨o, ho, rfl⟩ := List.mem_map.mp noted
    obtain ⟨noted, definition⟩ := List.mem_filter.mp ho
    obtain ⟨p, hp, shows⟩ := final_of_noted noted
    exact List.mem_map.mpr ⟨p, List.mem_filter.mpr ⟨hp, shows.isDefinition.trans definition⟩, shows.region⟩

theorem finalInfos_perm (e : Emission) : e.finalInfos.Perm e.infos := by
  have kept := (List.mergeSort_perm (e.infos.reverse.map fun i => (i, i.symbol.text))
    fun a b => (compare a.2 b.2).isLE).map Prod.fst
  rw [List.map_map, show (Prod.fst ∘ fun i : SymbolInfo => (i, i.symbol.text)) = id from rfl, List.map_id] at kept
  exact kept.trans (List.reverse_perm _)

end Emission

/-- The definitions of the index stand over these identifiers, one over each, and one record is kept for each symbol
that is defined. -/
structure UnitIndex.Declares (index : UnitIndex) (lines : LineIndex) (names : List Ident) : Prop where
  definitions : (index.definitions.map Occurrence.region).Perm (names.map fun i => lines.region i.range)
  records : (index.symbols.map fun i => i.symbol.id).Nodup
  recorded : ∀ s, s ∈ index.symbols.map (fun i => i.symbol.id) ↔ s ∈ index.definitions.map fun o => o.symbol.id

/-- What has been entered is what the index declares. -/
theorem Resolved.declares {w : World} {u : SourceUnit} {source : String} {config : Config} {start t : Moment}
    {index : UnitIndex} (resolved : Resolved w u source config start t index)
    (built : index = .ofEmission u.file t.progress.emission t.progress.problems.reverse) :
    index.Declares w.lines (t.ledger.entries.map Entry.name) := by
  obtain ⟨visited, -, -, names, -⟩ := resolved.entered
  have noted : (t.progress.emission.occurrences.filter Occurrence.isDefinition).map Occurrence.region =
      (t.ledger.entries.map fun e => w.lines.region e.name.range).reverse := by
    have both := congrArg (List.map Prod.fst) resolved.ready.definitions
    rw [List.map_map, List.map_reverse, List.map_map] at both
    exact both
  have infos := (Emission.finalInfos_perm t.progress.emission).map fun i => i.symbol.id
  obtain ⟨once, known⟩ := resolved.ready.infos
  subst built
  refine ⟨?_, infos.nodup_iff.mpr once, fun s => ?_⟩
  · have different : (t.ledger.entries.map fun e => w.lines.region e.name.range).Nodup :=
      (List.Nodup.of_map _ names).map_on fun e he e' he' same => resolved.entry_eq he he' same
    refine (Emission.final_definitions ?_).trans ?_
    · rw [noted]
      exact List.nodup_reverse.mpr different
    · rw [noted, List.map_map]
      exact List.reverse_perm _
  · refine infos.mem_iff.trans ((known s).trans ⟨fun ⟨e, he, symbol⟩ => ?_, fun shown => ?_⟩)
    · obtain ⟨o, ho, definition, -, same⟩ :=
        (resolved.ready.shown_iff resolved.shown).mpr ⟨e, he, rfl, symbol⟩
      exact List.mem_map.mpr ⟨o, List.mem_filter.mpr ⟨ho, definition⟩, same⟩
    · obtain ⟨o, ho, symbol⟩ := List.mem_map.mp shown
      obtain ⟨shown, definition⟩ := List.mem_filter.mp ho
      obtain ⟨e, he, -, same⟩ := (resolved.ready.shown_iff resolved.shown).mp ⟨o, shown, definition, rfl, symbol⟩
      exact ⟨e, he, same⟩

/-- The file has no class in which two member types have one name. -/
def CompilationUnit.TypesApart (u : CompilationUnit) : Prop :=
  ∀ n ∈ Nodes.unit u, ∀ b, n.part = .ofClass b →
    ((ClassBody.typesOf b.body.members).map fun d => d.name.text).Nodup

section

variable {units : List SourceUnit} {u : SourceUnit} {source : String} (external : ExternalTable) (config : Config)

/-- In the index of a file of a project every identifier is defined that declares and that resolution comes to,
unless a declaration is reported to have no name. -/
theorem SourceUnit.declares (hu : u ∈ units)
    (programs : ∀ v ∈ units, ∃ text, parse text = .ok v.tree) (parsed : parse source = .ok u.tree)
    (separate : SourceUnit.Separate units) (apart : u.tree.TypesApart) :
    let index := u.index source (.build units external config) external config
    let declared := Nodes.declared (Nodes.reached (Nodes.unit u.tree))
    ∃ names, names.Sublist declared ∧ index.Declares (.ofText source) names ∧
      ((∀ d ∈ index.diagnostics, d.problem.code ≠ .malformedContext) → names = declared) := by
  intro index declared
  obtain ⟨t, resolved, built, -, -⟩ := u.resolves external config False True hu programs parsed separate
    (.inl trivial) fun n hn b part => ⟨apart n hn b part, fun h => h.elim⟩
  obtain ⟨fewer, all⟩ := resolved.reached
  refine ⟨_, fewer, resolved.declares built, fun clean => all fun d hd => clean d ?_⟩
  have built : index = .ofEmission u.file t.progress.emission t.progress.problems.reverse := built
  rw [built]
  exact List.mem_mergeSort.mpr (List.mem_append_left _ (List.mem_reverse.mpr hd))

end

/-! What is used is defined. -/

/-- The index of a file of a project whose files have these texts. -/
def SourceUnit.indexIn (units : List SourceUnit) (text : SourceUnit → String) (external : ExternalTable)
    (config : Config) (u : SourceUnit) : UnitIndex :=
  u.index (text u) (.build units external config) external config

/-- The symbol of a method that an enum or a record in a body has without declaring it: a number inside the class. -/
def UnitIndex.Synthesizes (index : UnitIndex) (lines : LineIndex) (tree : CompilationUnit) (x : SymbolId) : Prop :=
  ∃ d : TypeDecl, (∃ n ∈ Nodes.unit tree, n.part = .ofClass (.declared d)) ∧
    (d.kind = .enumType ∨ d.components ≠ []) ∧
    ∃ owner number, owner.scheme = .local ∧ index.Defines lines d.name owner ∧
      x = ⟨.local, owner.path ++ [.local number]⟩

/-- The symbol of a method that a type of the project has without declaring it. -/
def ProjectClasses.Synthesizes (p : ProjectClasses) (sites : List Site) (s : Symbol) : Prop :=
  ∃ site ∈ sites, ∃ c, p.class? site.name = some c ∧
    ∃ m ∈ c.methods.drop (methodCount site.decl.members), Implied (.ofDecl site.decl) m ∧ m.symbol = s

/-- The file has no class in which two type variables have one name. -/
def CompilationUnit.VariablesApart (u : CompilationUnit) : Prop :=
  ∀ n ∈ Nodes.unit u, ∀ b, n.part = .ofClass b → (b.typeParams.map fun p => p.name.text).Nodup

/-- A symbol in a body that nothing defines is that of a method that its class has without declaring it, if no class
repeats a type variable. -/
theorem Undefined.synthesizes {u : SourceUnit} {source : String} {project : ProjectClasses}
    {external : ExternalTable} {config : Config} {distinct lax : Prop} {start t : Moment} {index : UnitIndex}
    {x : SymbolId} (h : Undefined (.ofUnit u source project external config distinct lax) t x)
    (resolved : Resolved (.ofUnit u source project external config distinct lax) u source config start t index)
    (params : u.tree.VariablesApart) : index.Synthesizes (.ofText source) u.tree x := by
  cases h with
  | @implied c vars b m written described named member =>
    obtain ⟨env, place, ⟨implied, free, own, split, methods⟩, -⟩ := described.callables
    rw [split, List.drop_left' methods.length_eq.symm] at member
    obtain ⟨sort, number, symbol⟩ := free m member
    cases b with
    | unnamed members =>
      obtain ⟨isEnum, -⟩ | ⟨p, hp, -⟩ := sort
      · cases isEnum
      · cases hp
    | declared d =>
      obtain ⟨o, granted⟩ := described.symbol d.name rfl
      refine ⟨d, written, sort.imp And.left fun ⟨p, hp, _⟩ => List.ne_nil_of_mem hp, c.symbol.id, number, ?_,
        (resolved.definesAs (named d.name rfl) _).mpr rfl, symbol⟩
      exact eq_of_beq (LocalBody.granted_local granted).1
  | @repeated c vars b i j v v' written described less first second same =>
    obtain ⟨n, hn, part⟩ := written
    have names : List.Forall₂ (· = ·) (b.typeParams.map fun p => p.name.text) (vars.map Prod.fst) :=
      List.forall₂_map_left_iff.mpr (List.forall₂_map_right_iff.mpr
        (described.typeParams.imp fun _ _ bound => bound.1.symm))
    rw [List.forall₂_eq_eq_eq] at names
    have inside : i < (vars.map Prod.fst).length := by
      rw [List.length_map]
      exact (List.getElem?_eq_some_iff.mp first).1
    refine absurd ((List.getElem?_inj inside (names ▸ params n hn b part)).mp ?_) (Nat.ne_of_lt less)
    rw [List.getElem?_map, List.getElem?_map, first, second, Option.map_some, Option.map_some, same]

section

variable {units : List SourceUnit} {u : SourceUnit} (text : SourceUnit → String) (external : ExternalTable)
  (config : Config)

/-- The symbols of the project belong to it. -/
theorem ProjectClasses.Declares.scheme {s : Symbol} (worded : ∀ v ∈ units, v.tree.Worded)
    (declared : (ProjectClasses.build units external config).Declares s) : s.scheme = .project := by
  have described {name : String} {c : ClassInfo} (found : (build units external config).class? name = some c) :
      c.symbol.IsType ∧ c.symbol.scheme = .project ∧ c.Whole := by
    obtain ⟨v, hv, site, hs, -, rfl⟩ := build_class? external config worded found
    have plain := Site.plain (worded v hv) hs
    have symbol := (describe_header units external config plain).2
    have components := ((worded v hv).nodes.of_part (Site.ofUnit_part hs)).components
    have numbered := describe_numbered units external config plain components
    exact ⟨symbol ▸ site.symbol_isType, by rw [symbol]; rfl, numbered.whole⟩
  cases declared with
  | ofClass found => exact (described found).2.1
  | member found offers =>
    obtain ⟨-, scheme, whole⟩ := described found
    exact (whole.offers offers).trans scheme
  | typeParam found hv =>
    obtain ⟨type, scheme, -⟩ := described found
    rw [ClassInfo.typeParamSymbols_eq type] at hv
    obtain ⟨name, -, rfl⟩ := List.mem_map.mp hv
    exact scheme

/-- What the project declares is defined in one of its files, or it is a method that its class has without declaring
it. -/
theorem ProjectClasses.Declares.defined (programs : ∀ v ∈ units, parse (text v) = .ok v.tree)
    (separate : SourceUnit.Separate units) (apart : ∀ v ∈ units, v.tree.TypesApart) {s : Symbol}
    (declared : (ProjectClasses.build units external config).Declares s) :
    (∃ v ∈ units, ∃ i, (v.indexIn units text external config).Defines (.ofText (text v)) i s.id) ∨
      (ProjectClasses.build units external config).Synthesizes (SourceUnit.sites units) s := by
  have programs' : ∀ v ∈ units, ∃ text, parse text = .ok v.tree := fun v hv => ⟨_, programs v hv⟩
  have worded : ∀ v ∈ units, v.tree.Worded := fun v hv => parse_worded (programs v hv)
  -- a class that is known is that of a type, and what is planned for the type is shown by the index of its file
  have planned {name : String} {c : ClassInfo} (found : (build units external config).class? name = some c) :
      ∃ v ∈ units, ∃ site ∈ Site.ofUnit v, (build units external config).class? site.name = some c ∧
        (∃ env place, c.Declares env place site.decl) ∧
        ∀ i s, Plan.ofClass c c.typeParamSymbols (.declared site.decl) i s →
          (v.indexIn units text external config).Defines (.ofText (text v)) i s.id := by
    obtain ⟨v, hv, site, hs, rfl, -⟩ := build_class? external config worded found
    obtain ⟨t, -, -, -, sites⟩ := v.resolves external config False True hv programs' (programs v hv) separate
      (.inl trivial) fun n hn b part => ⟨apart v hv n hn b part, fun h => h.elim⟩
    obtain ⟨c', known, declares, shown⟩ := sites site hs
    cases Option.some.inj (found.symm.trans known)
    exact ⟨v, hv, site, hs, known, ⟨_, _, declares⟩, fun i s plan => (shown i s plan s.id).mpr rfl⟩
  cases declared with
  | ofClass found =>
    obtain ⟨v, hv, site, -, -, -, shown⟩ := planned found
    exact .inl ⟨v, hv, site.decl.name, shown _ _ (.name rfl)⟩
  | member found offers =>
    obtain ⟨v, hv, site, hs, known, ⟨env, place, declares⟩, shown⟩ := planned found
    obtain ⟨i, plan⟩ | ⟨m, member, implied, symbol⟩ := declares.offered offers
    · exact .inl ⟨v, hv, i, shown _ _ plan⟩
    · exact .inr ⟨site, SourceUnit.mem_sites hv hs, _, known, m, member, implied, symbol⟩
  | typeParam found hv =>
    obtain ⟨v, hu, site, -, -, ⟨env, place, declares⟩, shown⟩ := planned found
    obtain ⟨i, plan⟩ := declares.typeParam_planned hv
    exact .inl ⟨v, hu, i, shown _ _ plan⟩

/-- Where a file of a project uses a symbol, the symbol is defined: a local one in the same file, one of the project
in some file of it. Only methods that classes have without declaring them are not. -/
structure SourceUnit.UsesDefined (units : List SourceUnit) (text : SourceUnit → String) (external : ExternalTable)
    (config : Config) (u : SourceUnit) : Prop where
  inFile : ∀ o ∈ (u.indexIn units text external config).references, o.symbol.scheme = .local →
    (∃ i, (u.indexIn units text external config).Defines (.ofText (text u)) i o.symbol.id) ∨
      (u.indexIn units text external config).Synthesizes (.ofText (text u)) u.tree o.symbol.id
  inProject : ∀ o ∈ (u.indexIn units text external config).references, o.symbol.scheme = .project →
    o.symbol.kind ≠ .package →
      (∃ v ∈ units, ∃ i, (v.indexIn units text external config).Defines (.ofText (text v)) i o.symbol.id) ∨
        (ProjectClasses.build units external config).Synthesizes (SourceUnit.sites units) o.symbol

/-- What a file uses is defined, whatever is loaded for the libraries (see `ExternalTable.Outside.lawful`), where no
class of the project has two member types of one name and none of the file two type variables of one name. -/
theorem SourceUnit.uses_defined (hu : u ∈ units) (programs : ∀ v ∈ units, parse (text v) = .ok v.tree)
    (separate : SourceUnit.Separate units) (apart : ∀ v ∈ units, v.tree.TypesApart)
    (params : u.tree.VariablesApart) (libraries : external.Lawful) :
    SourceUnit.UsesDefined units text external config u := by
  have programs' : ∀ v ∈ units, ∃ text, parse text = .ok v.tree := fun v hv => ⟨_, programs v hv⟩
  have worded : ∀ v ∈ units, v.tree.Worded := fun v hv => parse_worded (programs v hv)
  obtain ⟨t, resolved, -, -, -⟩ := u.resolves external config False False hu programs' (programs u hu) separate
    (.inr libraries) fun n hn b part => ⟨apart u hu n hn b part, fun h => h.elim⟩
  have sound {o : Occurrence} (ho : o ∈ (u.indexIn units text external config).references) :
      Sound (.ofUnit u (text u) (.build units external config) external config False False) t o.symbol := by
    obtain ⟨shown, use⟩ := List.mem_filter.mp ho
    have shown : o ∈ (u.index (text u) (.build units external config) external config).occurrences := shown
    rw [resolved.shown] at shown
    obtain ⟨p, hp, undocumented⟩ := Emission.undocumented_of_final shown
    rw [undocumented.symbol]
    refine resolved.ready.references p hp ?_
    rw [← undocumented.shows.1.isDefinition]
    simpa using use
  constructor
  · intro o ho inBody
    cases sound ho with
    | unasked lax => exact lax.elim
    | external scheme => exact absurd (scheme.symm.trans inBody) Scheme.noConfusion
    | package _ outside => exact absurd inBody outside
    | project declared =>
      exact absurd ((declared.scheme external config worded).symm.trans inBody) Scheme.noConfusion
    | defined defined => exact .inl ⟨_, (resolved.definesAs defined _).mpr rfl⟩
    | expected h => exact h.elim
    | undefined h => exact .inr (h.synthesizes resolved params)
  · intro o ho inProject notPackage
    cases sound ho with
    | unasked lax => exact lax.elim
    | external scheme => exact absurd (scheme.symm.trans inProject) Scheme.noConfusion
    | package kind => exact absurd kind notPackage
    | project declared => exact declared.defined text external config programs separate apart
    | defined defined => exact .inl ⟨u, hu, _, (resolved.definesAs defined _).mpr rfl⟩
    | expected h => exact h.elim
    | undefined h =>
      obtain ⟨d, -, -, owner, number, -, -, same⟩ := h.synthesizes resolved params
      exact absurd ((congrArg SymbolId.scheme same).symm.trans inProject) Scheme.noConfusion

end

/-! No symbol is defined at two places. -/

section

variable {d : TypeDecl} {i j : Ident} {steps steps' : List Descriptor}

/-- The words that no class in the file repeats: of its fields, of its type variables, and of those of each
of its methods. -/
structure TypeDecl.Distinct (d : TypeDecl) : Prop where
  fields : ((ClassBody.ofDecl d).fieldNames.map Ident.text).Nodup
  typeParams : (d.typeParams.map fun p => p.name.text).Nodup
  methodTypeParams : ∀ m ∈ ClassBody.callablesOf d.members,
    (m.typeParams.map fun p => p.name.text).Nodup

/-- Before the later of two methods of one name there stand more of that name. -/
theorem overload_lt {before before' after after' : List Member} {m m' : MethodDecl}
    (split : before ++ .method m :: after = before' ++ .method m' :: after')
    (less : before.length < before'.length) (same : MemberNames.counted m = MemberNames.counted m') :
    overload before m < overload before' m' := by
  obtain ⟨more, rfl, here⟩ | ⟨more, rfl, -⟩ := List.append_eq_append_iff.mp split
  · cases more with
    | nil => simp at less
    | cons x more =>
      cases (List.cons.inj here).1
      simp only [overload, ClassBody.callablesOf_append, ClassBody.callablesOf, List.map_append,
        List.map_cons, List.count_append, same, List.count_cons_self]
      omega
  · rw [List.length_append] at less
    omega

/-- A method is known by its name and its number. -/
theorem split_unique {before before' after after' : List Member} {m m' : MethodDecl}
    (split : d.members = before ++ .method m :: after) (split' : d.members = before' ++ .method m' :: after')
    (name : MemberNames.counted m = MemberNames.counted m') (number : overload before m = overload before' m') :
    before = before' ∧ m = m' := by
  have both := split.symm.trans split'
  obtain less | same | more := Nat.lt_trichotomy before.length before'.length
  · have := overload_lt both less name
    omega
  · obtain ⟨rfl, rest⟩ := List.append_inj both same
    exact ⟨rfl, Member.method.inj (List.cons.inj rest).1⟩
  · have := overload_lt both.symm more name.symm
    omega

/-- Where an identifier stands tells which one it is, in a class that repeats no name. -/
theorem Stands.unique {j : Ident} {steps steps' : List Descriptor} (distinct : d.Distinct)
    (first : Stands d i steps) (second : Stands d j steps') (same : steps = steps') : i = j := by
  cases first <;> cases second <;>
    simp only [List.cons.injEq, Descriptor.typeParameter.injEq, Descriptor.term.injEq,
      Descriptor.method.injEq, reduceCtorEq, and_true, and_false, List.nil_eq, List.cons_ne_nil] at same
  case name.name => rfl
  case typeParam.typeParam p hp q hq =>
    exact congrArg TypeParam.name (eq_of_nodup_map distinct.typeParams hp hq same)
  case field.field hi hj => exact eq_of_nodup_map distinct.fields hi hj same
  case method.method split _ _ _ split' =>
    exact congrArg MethodDecl.name (split_unique split split' same.1 same.2).2
  case methodTypeParam.methodTypeParam _ m _ p split hp _ m' _ q split' hq =>
    obtain ⟨-, rfl⟩ := split_unique split split' same.1.1 same.1.2
    have declared : m ∈ ClassBody.callablesOf d.members := by
      rw [split, ClassBody.callablesOf_append]
      exact List.mem_append_right _ List.mem_cons_self
    exact congrArg TypeParam.name (eq_of_nodup_map (distinct.methodTypeParams m declared) hp hq same.2)

theorem Stands.notType (h : Stands d i steps) : ∀ name, .type name ∉ steps := by
  cases h <;> simp

/-- Where types lead to is told by the types and by the steps after them, if those are none to types. -/
theorem append_types_inj {ws ws' : List String} (free : ∀ name, .type name ∉ steps)
    (free' : ∀ name, .type name ∉ steps')
    (same : ws.map Descriptor.type ++ steps = ws'.map Descriptor.type ++ steps') : ws = ws' ∧ steps = steps' := by
  induction ws generalizing ws' with
  | nil =>
    cases ws' with
    | nil => exact ⟨rfl, same⟩
    | cons w ws' =>
      have same : steps = .type w :: (ws'.map .type ++ steps') := same
      exact absurd (same ▸ List.mem_cons_self) (free w)
  | cons w ws ih =>
    cases ws' with
    | nil =>
      have same : .type w :: (ws.map .type ++ steps) = steps' := same
      exact absurd (same ▸ List.mem_cons_self) (free' w)
    | cons w' ws' =>
      obtain ⟨first, rest⟩ := List.cons.inj same
      obtain ⟨rfl, rfl⟩ := ih rest
      exact ⟨by rw [Descriptor.type.inj first], rfl⟩

end

/-- No class of the file repeats the name of a field, of a member type or of a type variable, and no method that of a
type variable. -/
def CompilationUnit.Distinct (u : CompilationUnit) : Prop :=
  u.Univocal ∧ ∀ n ∈ Nodes.unit u, ∀ b, n.part = .ofClass b →
    ∀ m ∈ ClassBody.callablesOf b.body.members, (m.typeParams.map fun p => p.name.text).Nodup

/-- Where an identifier of a file stands tells which one it is. -/
theorem Site.stands_unique {u : SourceUnit} {units : List SourceUnit} (worded : u.tree.Worded)
    (hu : u ∈ units) (separate : SourceUnit.Separate units) (distinct : u.tree.Distinct) {site site' : Site}
    (hs : site ∈ Site.ofUnit u) (hs' : site' ∈ Site.ofUnit u) {i j : Ident} {steps steps' : List Descriptor}
    (first : Stands site.decl i steps) (second : Stands site'.decl j steps')
    (same : site.path ++ steps = site'.path ++ steps') : i = j := by
  obtain ⟨spelled, unit⟩ := Site.ofUnit_spelled worded.nodes worded.package hs
  obtain ⟨spelled', unit'⟩ := Site.ofUnit_spelled worded.nodes worded.package hs'
  have package : site.package = site'.package := by rw [Site.package, Site.package, unit, unit']
  rw [Site.path_eq, Site.path_eq, package, List.append_assoc, List.append_assoc] at same
  obtain ⟨words, rfl⟩ := append_types_inj first.notType second.notType (List.append_cancel_left same)
  have name : site.name = site'.name := by rw [spelled.spelled, spelled'.spelled, words]
  obtain rfl : site = site' := List.inj_on_of_nodup_map separate (SourceUnit.mem_sites hu hs)
    (SourceUnit.mem_sites hu hs') name
  obtain ⟨n, hn, part⟩ := Site.ofUnit_part hs _ (Nodes.class_mem site.decl)
  have univocal := distinct.1 n hn
  rw [part] at univocal
  exact Stands.unique ⟨univocal.1.1, univocal.2, distinct.2 n hn _ part⟩ first second rfl

/-- In the index no symbol is defined at two places. Where every method has numbers of its own, this is not said of what
stands in a type but in no method and no field of it. -/
def UnitIndex.DefinesApart (index : UnitIndex) (policy : LocalNumbering) : Prop :=
  ∀ o ∈ index.definitions, ∀ p ∈ index.definitions, o.symbol.id = p.symbol.id →
    o.region = p.region ∨ (policy = .perMethod ∧ o.symbol.scheme = .local ∧ InType o.symbol.path)

section

variable {units : List SourceUnit} {u : SourceUnit} {source : String} {external : ExternalTable} {config : Config}
  {distinct lax : Prop} {t : Moment}

/-- What is not local is at the place that its symbol tells. -/
theorem Given.unique_outside (hu : u ∈ units) (worded : ∀ v ∈ units, v.tree.Worded)
    (separate : SourceUnit.Separate units) (single : u.tree.Distinct) {x : SymbolId} {span span' : Span}
    (outside : x.scheme ≠ .local)
    (first : Given (.ofUnit u source (.build units external config) external config distinct lax) t x span)
    (second : Given (.ofUnit u source (.build units external config) external config distinct lax) t x span') :
    span = span' := by
  have placed {site : Site} {c : ClassInfo} {i : Ident} {s : Symbol} (hs : site ∈ Site.ofUnit u)
      (known : (ProjectClasses.build units external config).class? site.name = some c)
      (plan : Plan.ofClass c c.typeParamSymbols (.declared site.decl) i s) :
      ∃ steps, Stands site.decl i steps ∧ s.id = ⟨.project, site.path ++ steps⟩ := by
    have covered := ProjectClasses.build_known external config separate worded
    cases Option.some.inj (known.symm.trans (covered.known site (SourceUnit.mem_sites hu hs)))
    have plain := Site.plain (worded u hu) hs
    obtain ⟨steps, stands, symbol⟩ := (ProjectClasses.describe_declares units external config plain).planned plan
    rw [(ProjectClasses.describe_header units external config plain).2] at symbol
    exact ⟨steps, stands, symbol⟩
  cases first with
  | granted => exact absurd rfl outside
  | planned hs known plan =>
    obtain ⟨steps, stands, symbol⟩ := placed hs known plan
    generalize same : Symbol.id _ = x at second outside
    cases second with
    | granted => exact absurd rfl outside
    | planned hs' known' plan' =>
      obtain ⟨steps', stands', symbol'⟩ := placed hs' known' plan'
      have path := congrArg SymbolId.path (symbol.symm.trans (same.trans symbol'))
      rw [Site.stands_unique (worded u hu) hu separate single hs hs' stands stands' path]

/-- A number of a body is given out once, and so is every number where the epoch is the first. What numbers belong to
in between is told by the entry with which the body begins. -/
theorem Ready.grant_unique {w : World} {s : Setting} {t : Moment} (ready : Ready w s t)
    (entries : ∀ e ∈ t.ledger.entries, ∀ e' ∈ t.ledger.entries, e.symbol = e'.symbol →
      e.symbol.scheme ≠ .local → e = e')
    {g g' : Grant} (hg : g ∈ t.ledger.grants) (hg' : g' ∈ t.ledger.grants) (same : g.symbol = g'.symbol) :
    g = g' ∨ (w.policy = .perMethod ∧ InType g.symbol.path) := by
  have path : g.owner ++ [.local g.number] = g'.owner ++ [.local g'.number] := congrArg SymbolId.path same
  obtain ⟨owner, number⟩ := List.append_inj' path rfl
  have number : g.number = g'.number := by simpa using number
  cases policy : w.policy with
  | perUnit =>
    have first := ready.oneEpoch policy
    have epoch := (ready.epochs g hg).1
    have epoch' := (ready.epochs g' hg').1
    exact .inl (ready.numbers g hg g' hg' (by omega) number)
  | perMethod =>
    obtain inType | ⟨e, he, symbol, epoch⟩ := ready.homes g hg
    · exact .inr ⟨rfl, by rw [InType, Grant.symbol, house_append_local]; exact inType⟩
    obtain inType | ⟨e', he', symbol', epoch'⟩ := ready.homes g' hg'
    · exact .inr ⟨rfl, by rw [InType, Grant.symbol, house_append_local, owner]; exact inType⟩
    have begins : e = e' :=
      entries e he e' he' (by rw [symbol, symbol', owner]) (by rw [symbol]; exact Scheme.noConfusion)
    exact .inl (ready.numbers g hg g' hg' (by rw [← epoch, ← epoch', begins]) number)

/-- In the index of a file that repeats no name no symbol is defined at two places, unless methods have numbers of their
own and the symbol belongs to an initializer. -/
theorem SourceUnit.definitions_apart (hu : u ∈ units)
    (programs : ∀ v ∈ units, ∃ text, parse text = .ok v.tree) (parsed : parse source = .ok u.tree)
    (separate : SourceUnit.Separate units) (single : u.tree.Distinct) :
    (u.index source (.build units external config) external config).DefinesApart config.localNumbering := by
  have worded : ∀ v ∈ units, v.tree.Worded := fun v hv => (programs v hv).elim fun _ read => parse_worded read
  let w := World.ofUnit u source (.build units external config) external config True True
  obtain ⟨t, resolved, -, -, -⟩ := u.resolves external config True True hu programs parsed separate (.inl trivial)
    fun n hn b part => by
      have univocal := single.1 n hn
      rw [part] at univocal
      exact ⟨univocal.1.2, fun _ => ⟨univocal.1.1, univocal.2⟩⟩
  have given (e : Entry) (he : e ∈ t.ledger.entries) : Given w t e.symbol e.name.range :=
    resolved.ready.given trivial e he
  have entries (e : Entry) (he : e ∈ t.ledger.entries) (e' : Entry) (he' : e' ∈ t.ledger.entries)
      (same : e.symbol = e'.symbol) (outside : e.symbol.scheme ≠ .local) : e = e' := by
    have range := Given.unique_outside hu worded separate single outside (given e he) (same ▸ given e' he')
    exact resolved.entry_eq he he' (by rw [range])
  intro o ho p hp same
  obtain ⟨shown, definition⟩ := List.mem_filter.mp ho
  obtain ⟨shown', definition'⟩ := List.mem_filter.mp hp
  obtain ⟨e, he, region, symbol⟩ := (resolved.ready.shown_iff resolved.shown).mp ⟨o, shown, definition, rfl, rfl⟩
  obtain ⟨e', he', region', symbol'⟩ := (resolved.ready.shown_iff resolved.shown).mp ⟨p, shown', definition', rfl, rfl⟩
  have both : e.symbol = e'.symbol := symbol.trans (same.trans symbol'.symm)
  rw [← region, ← region']
  by_cases inBody : e.symbol.scheme = .local
  · have grounded : (w.strict).Grounded := World.ofUnit_grounded hu worded (.inl trivial)
    obtain ⟨g, hg, made, span⟩ := (given e he).granted_of_local (w := w) grounded inBody
    obtain ⟨g', hg', made', span'⟩ := (given e' he').granted_of_local (w := w) grounded (both ▸ inBody)
    obtain rfl | ⟨policy, inType⟩ := resolved.ready.grant_unique entries hg hg' (by rw [made, made', both])
    · exact .inl (by rw [← span, ← span'])
    · refine .inr ⟨policy, ?_, ?_⟩
      · rw [Symbol.scheme, ← symbol]
        exact inBody
      · rw [Symbol.path, ← symbol, ← made]
        exact inType
  · rw [entries e he e' he' both inBody]
    exact .inl rfl

end

end JavaIndex
