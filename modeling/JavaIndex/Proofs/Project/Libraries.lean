import JavaIndex.Proofs.Classpath.BinaryNames
import JavaIndex.Proofs.Classpath.Overloads
import JavaIndex.Proofs.Parser.Source

/-! Classes of a project as a library lists them. A library lists a class under its binary name, with the
names of its members in their order; it is then known under the same qualified name, and each symbol
has the same text as in the project. -/
namespace JavaIndex

/-- A library lists the class under this binary name, with the names of its members in their order. -/
structure Manifest.Class.Lists (m : Manifest.Class) (binaryName : String) (c : ClassInfo) : Prop where
  name : m.name = binaryName
  kind : SymbolKind.ofDecl m.kind = c.kind
  fields : m.fields.map Field.name = c.fields.map FieldInfo.name
  constructors : m.constructors.length = c.constructors.length
  methods : m.methods.map Method.name = c.methods.map MethodInfo.name

/-- A symbol of a library and a symbol of the project have one text and differ in nothing but their universe. -/
structure Symbol.Counterpart (s s' : Symbol) : Prop where
  text : s.text = s'.text
  path : s.path = s'.path
  external : s.scheme = .external
  project : s'.scheme = .project

/-- A class of a library and a class of the project have the same names, one by one. -/
structure ClassInfo.Counterpart (c c' : ClassInfo) : Prop where
  qualifiedName : c.qualifiedName = c'.qualifiedName
  symbol : c.symbol.Counterpart c'.symbol
  fields : List.Forall₂ (fun f f' => f.symbol.Counterpart f'.symbol) c.fields c'.fields
  constructors : List.Forall₂ (fun k k' => k.symbol.Counterpart k'.symbol) c.constructors c'.constructors
  methods : List.Forall₂ (fun m m' => m.symbol.Counterpart m'.symbol) c.methods c'.methods

theorem Symbol.Counterpart.of_id {s s' : Symbol} {path : List Descriptor} (first : s.id = ⟨.external, path⟩)
    (second : s'.id = ⟨.project, path⟩) : s.Counterpart s' where
  text := by rw [Symbol.text, Symbol.text, first, second]; rfl
  path := by rw [Symbol.path, Symbol.path, first, second]
  external := by rw [Symbol.scheme, first]
  project := by rw [Symbol.scheme, second]

/-- What is reached by the same steps has the same symbols, one by one. -/
theorem Symbol.Counterpart.of_steps {α : Type} {symbol : α → Symbol} {owner owner' : Symbol}
    {path : List Descriptor} (first : owner.id = ⟨.external, path⟩) (second : owner'.id = ⟨.project, path⟩)
    {xs ys : List α} {steps : List Descriptor} (h : xs.map (fun x => (symbol x).id) = steps.map owner.id.step)
    (h' : ys.map (fun y => (symbol y).id) = steps.map owner'.id.step) :
    List.Forall₂ (fun x y => (symbol x).Counterpart (symbol y)) xs ys := by
  have ids : List.Forall₂ (fun i i' : SymbolId => ∃ path, i = ⟨.external, path⟩ ∧ i' = ⟨.project, path⟩)
      (xs.map fun x => (symbol x).id) (ys.map fun y => (symbol y).id) := by
    rw [h, h', first, second, List.forall₂_map_left_iff, List.forall₂_map_right_iff, List.forall₂_same]
    exact fun step _ => ⟨path ++ [step], rfl, rfl⟩
  rw [List.forall₂_map_left_iff, List.forall₂_map_right_iff] at ids
  exact ids.imp fun _ _ ⟨_, same, same'⟩ => .of_id same same'

namespace ClassInfo.Numbered

variable {c : ClassInfo} (h : c.Numbered)

include h

theorem field_steps : c.fields.map (fun f => f.symbol.id) =
    ((c.fields.map FieldInfo.name).map Descriptor.term).map c.symbol.id.step := by
  rw [List.map_map, List.map_map]
  exact List.map_congr_left h.fields

theorem constructor_names : c.constructors.map MethodInfo.name =
    List.replicate c.constructors.length Symbol.constructorName := by
  rw [List.eq_replicate_iff, List.length_map]
  refine ⟨rfl, fun name hname => ?_⟩
  obtain ⟨k, hk, rfl⟩ := List.mem_map.mp hname
  exact h.constructing k hk

end ClassInfo.Numbered

/-- Two classes on one path have the same symbols, if their members have the same names in the same order. -/
theorem ClassInfo.Numbered.counterpart {c c' : ClassInfo} (h : c.Numbered) (h' : c'.Numbered)
    {path : List Descriptor} (first : c.symbol.id = ⟨.external, path⟩) (second : c'.symbol.id = ⟨.project, path⟩)
    (qualifiedName : c.qualifiedName = c'.qualifiedName)
    (fields : c.fields.map FieldInfo.name = c'.fields.map FieldInfo.name)
    (constructors : c.constructors.length = c'.constructors.length)
    (methods : c.methods.map MethodInfo.name = c'.methods.map MethodInfo.name) : c.Counterpart c' where
  qualifiedName := qualifiedName
  symbol := .of_id first second
  fields := Symbol.Counterpart.of_steps first second h.field_steps (fields ▸ h'.field_steps)
  constructors := by
    have names : c.constructors.map MethodInfo.name = c'.constructors.map MethodInfo.name := by
      rw [h.constructor_names, h'.constructor_names, constructors]
    exact Symbol.Counterpart.of_steps first second h.constructors (names ▸ h'.constructors)
  methods := Symbol.Counterpart.of_steps first second h.methods (methods ▸ h'.methods)

/-! The class of the library. -/

namespace Manifest.Class

/-- What is said of a listed class before its members are described. -/
def header (m : Manifest.Class) (package : String) (words : List String) : ClassInfo where
  qualifiedName := Dotted.within package (".".intercalate words)
  package := package
  symbol := ⟨⟨.external, (Dotted.steps package).map .package ++ words.map .type⟩, .ofDecl m.kind⟩
  origin := .external
  typeParams := m.typeParams
  superclass := m.superType
  interfaces := m.interfaces.map (JavaType.read m.typeParams)
  fields := []
  methods := []
  constructors := []
  syntheticMembers := false

theorem header_isType (m : Manifest.Class) (package : String) (words : List String) :
    (m.header package words).symbol.IsType :=
  ⟨rfl, by cases h : m.kind <;> simp [header, h, SymbolKind.ofDecl, SymbolKind.isType]⟩

variable {m : Manifest.Class} {package : String} {words : List String} (some : words ≠ [])
  (separable : ∀ word ∈ words, Separable word) (plain : '$' ∉ package.toList)
  (name : m.name = binaryName package words)

include some separable plain name

/-- A class is known by its binary name before its members are described. -/
theorem build_eq : m.build =
    match m.buildMembers.run (.ofHeader (m.header package words)) with
    | (.ok _, b) => .ok b.info
    | (.error e, _) => .error e := by
  obtain ⟨owner, found, holds, id⟩ := ownerSymbol_ok package words
  have outside : owner.isLocal = false := by rw [Symbol.isLocal, Symbol.scheme, id]; rfl
  have last := Dotted.last_within package some fun word hword => (separable word hword).1
  have symbol : owner.child (.type (words.getLast some)) (.ofDecl m.kind) = (m.header package words).symbol := by
    rw [Symbol.child, Symbol.scheme, Symbol.path, id, Manifest.Class.header, List.append_assoc,
      ← List.map_singleton, ← List.map_append, List.dropLast_concat_getLast]
  have named := Symbol.ofDeclaration_type outside holds (m.header_isType package words).type (words.getLast some)
  rw [show (m.header package words).symbol.kind = .ofDecl m.kind from rfl, symbol] at named
  have header : ClassBuilder.ofName owner package (Dotted.within package (".".intercalate words)) (.ofDecl m.kind)
      .external = .ok ⟨{ m.header package words with typeParams := [], superclass := none, interfaces := [] },
        .empty⟩ := by
    rw [ClassBuilder.ofName, last, named]
    rfl
  unfold build
  rw [name, splitBinaryName_binaryName some separable, ofBinary_binaryName separable plain]
  simp only [found, header, Bind.bind, Except.bind]
  rfl

theorem build_listed (may : m.constructors ≠ [] → Symbol.mayConstruct (.ofDecl m.kind) = true)
    (calling : ∀ x ∈ m.methods, x.name ≠ Symbol.constructorName) :
    ∃ b : ClassBuilder, m.build = .ok b.info ∧ Build.Listed (m.header package words) (m.fields.map Field.name)
      m.constructors.length (m.methods.map Method.name) b := by
  obtain ⟨b, run, listed⟩ := m.buildMembers_listed (m.header_isType package words) may calling
  refine ⟨b, ?_, listed⟩
  rw [build_eq some separable plain name, ExceptT.run, run]

end Manifest.Class

namespace Manifest.Class.Lists

variable {m : Manifest.Class} {binaryName : String} {c : ClassInfo} (lists : m.Lists binaryName c)
  (numbered : c.Numbered)

include lists numbered

theorem constructs (some : m.constructors ≠ []) : Symbol.mayConstruct (.ofDecl m.kind) = true := by
  by_contra never
  rw [lists.kind] at never
  have length := lists.constructors
  rw [numbered.constructed (eq_false_of_ne_true never)] at length
  exact some (List.length_eq_zero_iff.mp length)

theorem calling : ∀ x ∈ m.methods, x.name ≠ Symbol.constructorName := by
  intro x hx
  have listed : x.name ∈ m.methods.map Method.name := List.mem_map_of_mem hx
  rw [lists.methods] at listed
  obtain ⟨info, hinfo, same⟩ := List.mem_map.mp listed
  exact same ▸ numbered.calling info hinfo

end Manifest.Class.Lists

/-- A class whose names are made of the words of its binary name is built as it is named. -/
theorem Manifest.Class.build_counterpart {m : Manifest.Class} {package : String} {words : List String}
    {c : ClassInfo} (some : words ≠ []) (separable : ∀ word ∈ words, Separable word)
    (plain : '$' ∉ package.toList) (lists : m.Lists (binaryName package words) c) (numbered : c.Numbered)
    (symbol : c.symbol.id = ⟨.project, (Dotted.steps package).map .package ++ words.map .type⟩)
    (qualified : c.qualifiedName = Dotted.within package (".".intercalate words)) :
    ∃ info, m.build = .ok info ∧ info.Counterpart c := by
  obtain ⟨b, built, listed⟩ :=
    build_listed some separable plain lists.name (lists.constructs numbered) (lists.calling numbered)
  obtain ⟨fs, ms, cs, seen, rfl⟩ := listed.describing
  refine ⟨_, built, listed.numbered.toNumbered.counterpart numbered rfl symbol qualified.symm ?_ ?_ ?_⟩
  · exact listed.fields.trans lists.fields
  · exact listed.constructors.trans lists.constructors
  · exact listed.methods.trans lists.methods

namespace ExternalTable

theorem classes_addResourcePackages (t : ExternalTable) (packages : List String) :
    (packages.foldl addResourcePackage t).classes = t.classes := by
  induction packages generalizing t with
  | nil => rfl
  | cons package packages ih => exact ih _

theorem load_class {m : Manifest.Class} {info : ClassInfo} (built : m.build = .ok info) (t : ExternalTable)
    (packages : List String) : ∃ t', t.load ⟨[m], packages⟩ = (.ok 1, t') ∧
      t'.class? info.qualifiedName = some info := by
  refine ⟨packages.foldl addResourcePackage (t.insert info), ?_, ?_⟩
  · simp only [load, addClasses, built]
    rfl
  · rw [class?, classes_addResourcePackages]
    simp [insert]

end ExternalTable

/-! The class of the project. -/

namespace Site

/-- The name by which a library lists a declared type. -/
def binaryName (s : Site) : String := Manifest.binaryName s.package (words (s.name :: s.outer))

theorem path_eq (s : Site) :
    s.path = (Dotted.steps s.package).map .package ++ (words (s.name :: s.outer)).map .type := by
  rw [path, words, List.map_map]
  rfl

theorem words_ne_nil (s : Site) : words (s.name :: s.outer) ≠ [] := by simp [words]

variable {u : SourceUnit} {s s' : Site}

/-- Types of one package and one name are declared in types of the same words. -/
theorem words_unique (spelled : Spelled s.package s.outer s.name) (spelled' : Spelled s'.package s'.outer s'.name)
    (free : ∀ word ∈ words (s.name :: s.outer), '.' ∉ word.toList)
    (free' : ∀ word ∈ words (s'.name :: s'.outer), '.' ∉ word.toList) (package : s.package = s'.package)
    (name : s.name = s'.name) : words (s.name :: s.outer) = words (s'.name :: s'.outer) := by
  have same : Dotted.within s.package (".".intercalate (words (s.name :: s.outer))) =
      Dotted.within s.package (".".intercalate (words (s'.name :: s'.outer))) := by
    rw [← spelled.spelled, name, package, ← spelled'.spelled]
  have inner : ".".intercalate (words (s.name :: s.outer)) = ".".intercalate (words (s'.name :: s'.outer)) := by
    unfold Dotted.within at same
    split at same
    · exact same
    · exact String.append_right_inj _ |>.mp same
  rw [← Dotted.segments_intercalate s.words_ne_nil free, inner, Dotted.segments_intercalate s'.words_ne_nil free']

variable (worded : u.tree.Worded) (undollared : ∀ i ∈ Grammar.unitWords u.tree, '$' ∉ i.text.toList)

include undollared

theorem package_undollared : '$' ∉ u.tree.packageName.toList := by
  cases named : u.tree.package with
  | none => simp [CompilationUnit.packageName, named]
  | some p =>
    have free : ∀ i ∈ p.name, '$' ∉ i.text.toList := fun i hi => undollared i (by
      rw [Grammar.unitWords, named]
      exact List.mem_append_left _ hi)
    simpa [CompilationUnit.packageName, named] using Ident.dotted_free (by decide) free

include worded

/-- Without dollar signs in a file, binary names tell the words of its types apart. -/
theorem words_separable (hs : s ∈ ofUnit u) : ∀ word ∈ words (s.name :: s.outer), Manifest.Separable word := by
  let good (word : String) : Prop := Plain word ∧ '$' ∉ word.toList
  let inv (outer : List String) (name : String) : Prop := ∀ word ∈ words (name :: outer), Manifest.Separable word
  have idents : ∀ n ∈ Nodes.unit u.tree, ∀ i, n.ident? = some i → good i.text := fun n hn i named =>
    ⟨worded.nodes n hn i named,
      undollared i (List.mem_append_right _ (List.mem_filterMap.mpr ⟨n, hn, named⟩))⟩
  have top : ∀ word, good word → inv [] (Dotted.within u.tree.packageName word) := by
    intro word ⟨plain, free⟩ other hother
    rw [words_top _ plain, List.mem_singleton] at hother
    exact hother ▸ ⟨plain.1, free⟩
  have step : ∀ outer name word, good word → inv outer name → inv (name :: outer) (name ++ "." ++ word) := by
    intro outer name word ⟨plain, free⟩ before other hother
    rw [words_inside name outer plain] at hother
    obtain hother | hother := List.mem_append.mp hother
    · exact before other hother
    · rw [List.mem_singleton.mp hother]
      exact ⟨plain.1, free⟩
  exact (ofUnit_names idents top step hs).1

end Site

theorem Nodes.mem_recordComponents {ps : List Param} {p : Param} (hp : p ∈ ps) :
    .ofPart (.declaration p.name) ∈ recordComponents ps := by
  induction ps with
  | nil => cases hp
  | cons first ps ih =>
    cases first
    obtain rfl | later := List.mem_cons.mp hp
    · exact List.mem_append_right _ (List.mem_append_left _ (List.mem_singleton_self _))
    · exact List.mem_append_right _ (List.mem_append_right _ (List.mem_append_right _ (ih later)))

theorem Nodes.Worded.components {d : TypeDecl} (worded : Worded (typeDecl d)) :
    ∀ p ∈ d.components, Plain p.name.text := by
  intro p hp
  have node := mem_typeDecl_end (List.mem_append_left _ (mem_recordComponents hp))
  exact worded _ node p.name rfl

namespace ProjectClasses

/-- The members of a class of the project are numbered. -/
theorem describe_numbered (units : List SourceUnit) (external : ExternalTable) (config : Config) {s : Site}
    (plain : ∀ m ∈ ClassBody.callablesOf s.decl.members, Plain m.name.text)
    (plainComponents : ∀ p ∈ s.decl.components, Plain p.name.text) :
    (describe units external config s).Numbered := by
  let env : Environment := .start (headed units external config) external
  have run : Build.Leads (Build.members env (s.place env config) (.ofDecl s.decl))
      (.ofHeader (headerOf units external config s)) (Build.Numbering (headerOf units external config s)) :=
    Build.members_numbering env (s.place env config) s.symbol_isType plain plainComponents
  obtain ⟨b, run, _, _, _, listed⟩ := run
  have final : describe units external config s = b.info := congrArg (fun r => ClassBuilder.info r.2) run
  rw [final]
  exact listed.numbered.toNumbered

/-- A library that lists a class of a project names it and its members as the project does. -/
theorem load_counterpart {units : List SourceUnit} (parsed : ∀ u ∈ units, ∃ source, parse source = .ok u.tree)
    (undollared : ∀ u ∈ units, ∀ i ∈ Grammar.unitWords u.tree, '$' ∉ i.text.toList)
    (external : ExternalTable) (config : Config) {name : String} {c : ClassInfo}
    (known : (build units external config).class? name = some c) :
    (∃ s ∈ SourceUnit.sites units, s.name = name ∧ s.package = c.package) ∧
      ∀ s ∈ SourceUnit.sites units, s.name = name → s.package = c.package →
        ∀ m : Manifest.Class, m.Lists s.binaryName c → ∀ (t : ExternalTable) (packages : List String),
          ∃ t' info, t.load ⟨[m], packages⟩ = (.ok 1, t') ∧ t'.class? name = some info ∧ info.Counterpart c := by
  have worded : ∀ u ∈ units, u.tree.Worded := fun u hu => (parsed u hu).elim fun _ read => parse_worded read
  have plain : ∀ s ∈ SourceUnit.sites units, ∀ m ∈ ClassBody.callablesOf s.decl.members, Plain m.name.text := by
    intro s hs
    obtain ⟨u, hu, hs⟩ := List.mem_flatMap.mp hs
    exact Site.plain (worded u hu) hs
  have components : ∀ s ∈ SourceUnit.sites units, ∀ p ∈ s.decl.components, Plain p.name.text := by
    intro s hs
    obtain ⟨u, hu, hs⟩ := List.mem_flatMap.mp hs
    exact ((worded u hu).nodes.of_part (Site.ofUnit_part hs)).components
  have spelled : ∀ s ∈ SourceUnit.sites units, Site.Spelled s.package s.outer s.name ∧ '$' ∉ s.package.toList ∧
      ∀ word ∈ Site.words (s.name :: s.outer), Manifest.Separable word := by
    intro s hs
    obtain ⟨u, hu, hs⟩ := List.mem_flatMap.mp hs
    obtain ⟨spelled, unit⟩ := Site.ofUnit_spelled (worded u hu).nodes (worded u hu).package hs
    rw [Site.package, unit]
    exact ⟨spelled, Site.package_undollared (undollared u hu), Site.words_separable (worded u hu) (undollared u hu) hs⟩
  -- The class is that of the last type of its name.
  obtain ⟨s₁, found, rfl⟩ := Option.map_eq_some_iff.mp ((build_latest external config plain name).symm.trans known)
  obtain ⟨hs₁, rfl⟩ := Site.latest?_some found
  obtain ⟨qualified, symbol⟩ := describe_header units external config (plain s₁ hs₁)
  have home := describe_package units external config (plain s₁ hs₁)
  refine ⟨⟨s₁, hs₁, rfl, home.symm⟩, fun s hs name package m lists t packages => ?_⟩
  obtain ⟨spelling, undollared, separable⟩ := spelled s hs
  obtain ⟨spelling₁, -, separable₁⟩ := spelled s₁ hs₁
  -- Another type of this name in this package has the same words, so that the binary name is the same.
  have words := Site.words_unique spelling spelling₁ (fun word h => (separable word h).1)
    (fun word h => (separable₁ word h).1) (package.trans home) name
  have path : (describe units external config s₁).symbol.id =
      ⟨.project, (Dotted.steps s.package).map .package ++ (Site.words (s.name :: s.outer)).map .type⟩ := by
    rw [symbol, words, package, home, ← s₁.path_eq]
    rfl
  have numbered := describe_numbered units external config (plain s₁ hs₁) (components s₁ hs₁)
  have qualified := qualified.trans (name.symm.trans spelling.spelled)
  obtain ⟨info, built, counterpart⟩ := Manifest.Class.build_counterpart s.words_ne_nil separable undollared lists
    numbered path qualified
  obtain ⟨t', run, registered⟩ := t.load_class built packages
  have registered : t'.class? s₁.name = some info := by
    rw [← registered, counterpart.qualifiedName, qualified, ← spelling.spelled, name]
  exact ⟨t', info, run, registered, counterpart⟩

/-- A record in a class, with two methods of one name. The method that reads its component is listed after them. -/
theorem load_counterpart_record :
    let source := "package p; class A { record B(int a) { B() { } int f() { } int f(int n) { } } }"
    let method (params : List String) (name : String) : Manifest.Method := ⟨name, params, "int", false, false, []⟩
    let m : Manifest.Class := ⟨"p.A$B", .recordType, none, [], [], [⟨"a", "int", false, false⟩],
      [method [] "f", method ["int"] "f", method [] "a"], [⟨[], false⟩]⟩
    ∃ tree c t' info, parse source = .ok tree ∧
      (build [⟨0, tree⟩] .empty .standard).class? "p.A.B" = some c ∧
        ExternalTable.empty.load ⟨[m], []⟩ = (.ok 1, t') ∧ t'.class? "p.A.B" = some info ∧ info.Counterpart c := by
  intro source method m
  have read : parse source = .ok _ := parse_eq_ok (by decide +kernel)
  let units : List SourceUnit := [⟨0, (parse source).toOption.get (by decide +kernel)⟩]
  have parsed : ∀ u ∈ units, ∃ source, parse source = .ok u.tree := by
    intro u hu
    rw [List.mem_singleton.mp hu]
    exact ⟨source, read⟩
  obtain ⟨undollared, binary, described⟩ : (∀ u ∈ units, ∀ i ∈ Grammar.unitWords u.tree, '$' ∉ i.text.toList) ∧
      (∀ s ∈ SourceUnit.sites units, s.name = "p.A.B" → s.binaryName = m.name) ∧
      ((build units .empty .standard).class? "p.A.B").any (fun c =>
        SymbolKind.ofDecl m.kind = c.kind ∧ m.fields.map Manifest.Field.name = c.fields.map FieldInfo.name ∧
          m.constructors.length = c.constructors.length ∧
            m.methods.map Manifest.Method.name = c.methods.map MethodInfo.name) = true := by
    decide +kernel
  obtain ⟨c, known, members⟩ := (Option.any_eq_true ..).mp described
  obtain ⟨kind, fields, constructors, methods⟩ := of_decide_eq_true members
  obtain ⟨⟨s, hs, name, package⟩, load⟩ := load_counterpart parsed undollared .empty .standard known
  obtain ⟨t', info, run, registered, counterpart⟩ := load s hs name package m
    ⟨(binary s hs name).symm, kind, fields, constructors, methods⟩ .empty []
  exact ⟨_, c, t', info, read, known, run, registered, counterpart⟩

end ProjectClasses
end JavaIndex
