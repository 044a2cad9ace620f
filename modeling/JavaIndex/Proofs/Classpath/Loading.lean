import JavaIndex.Classpath.Platform
import JavaIndex.Proofs.Classpath.Packages
import JavaIndex.Proofs.Classpath.Resources
import JavaIndex.Proofs.Project.Libraries

/-! What a description of a library adds to a table. A listed class is described unless it has a constructor where
its kind has none, and nothing else ends the loading: up to there the classes are put in one by one, and where all of
them can be described the packages with resources follow. What is in a table goes by its name and belongs to
libraries. -/
namespace JavaIndex

namespace ExternalTable

/-- The second table has, more than the first, these classes, the last of them that goes by a name in place of any
other, and these packages with resources. -/
structure Gains (t u : ExternalTable) (cs : List ClassInfo) (resources : List String) : Prop where
  classes : ∀ name, u.classes[name]? = (cs.findRev? (·.qualifiedName == name)).or t.classes[name]?
  packages : ∀ p, u.hasPackage p = true ↔
    t.hasPackage p = true ∨ (∃ c ∈ cs, p ∈ packageNames c.package) ∨ ∃ r ∈ resources, p ∈ packageNames r
  resourcePackages : ∀ p, u.isResourcePackage p = true ↔ t.isResourcePackage p = true ∨ p ∈ resources

namespace Gains

variable {t u : ExternalTable} {cs : List ClassInfo} {resources : List String}

theorem nothing (t : ExternalTable) : t.Gains t [] [] where
  classes _ := rfl
  packages _ := by simp
  resourcePackages _ := by simp

section

variable (h : t.Gains u cs resources)

include h

theorem insert (c : ClassInfo) : t.Gains (u.insert c) (cs ++ [c]) resources where
  classes name := by
    have put : (u.insert c).classes[name]? = if c.qualifiedName = name then some c else u.classes[name]? := by
      simp [ExternalTable.insert, addPackage, Std.TreeMap.getElem?_insert]
    rw [put, h.classes]
    split <;> simp [*]
  packages p := by
    rw [hasPackage_insert, hasPackage_addPackage, h.packages]
    simp only [List.mem_append, List.mem_singleton, or_and_right, exists_or, exists_eq_left]
    rw [or_assoc, or_right_comm]
  resourcePackages := h.resourcePackages

theorem addResourcePackage (r : String) : t.Gains (u.addResourcePackage r) cs (resources ++ [r]) where
  classes := h.classes
  packages p := by
    rw [hasPackage_addResourcePackage, hasPackage_addPackage, h.packages]
    simp only [List.mem_append, List.mem_singleton, or_and_right, exists_or, exists_eq_left, or_assoc]
  resourcePackages p := by
    have put : (u.addResourcePackage r).isResourcePackage p = true ↔ r = p ∨ u.isResourcePackage p = true := by
      simp [isResourcePackage, ExternalTable.addResourcePackage, addPackage, Std.TreeSet.contains_insert]
    rw [put, h.resourcePackages, List.mem_append, List.mem_singleton]
    tauto

theorem insertAll (more : List ClassInfo) :
    t.Gains (more.foldl ExternalTable.insert u) (cs ++ more) resources := by
  induction more generalizing u cs with
  | nil => rwa [List.append_nil]
  | cons c more ih => rw [← List.singleton_append, ← List.append_assoc]; exact ih (h.insert c)

theorem addResourcePackages (more : List String) :
    t.Gains (more.foldl ExternalTable.addResourcePackage u) cs (resources ++ more) := by
  induction more generalizing u resources with
  | nil => rwa [List.append_nil]
  | cons r more ih => rw [← List.singleton_append, ← List.append_assoc]; exact ih (h.addResourcePackage r)

end

end Gains

/-- Two tables have the same classes, the same packages and the same packages with resources. -/
structure Agrees (t u : ExternalTable) : Prop where
  classes : ∀ name : String, t.classes[name]? = u.classes[name]?
  packages : ∀ p, t.hasPackage p = u.hasPackage p
  resourcePackages : ∀ p, t.isResourcePackage p = u.isResourcePackage p

theorem Agrees.refl (t : ExternalTable) : t.Agrees t where
  classes _ := rfl
  packages _ := rfl
  resourcePackages _ := rfl

/-- Tables that agree and gain the same agree afterwards. -/
theorem Gains.agrees {t t' u u' : ExternalTable} {cs : List ClassInfo} {resources : List String}
    (h : t.Gains u cs resources) (h' : t'.Gains u' cs resources) (same : t.Agrees t') : u.Agrees u' where
  classes name := by rw [h.classes, h'.classes, same.classes]
  packages p := by rw [Bool.eq_iff_iff, h.packages, h'.packages, same.packages]
  resourcePackages p := by rw [Bool.eq_iff_iff, h.resourcePackages, h'.resourcePackages, same.resourcePackages]

end ExternalTable

/-! The description of one class. -/

namespace Build

/-- The members described so far have these names, and are in the universe of their class. -/
structure Met (c : ClassInfo) (fields : List String) (constructors : Nat) (methods : List String)
    (b : ClassBuilder) : Prop where
  describing : ∃ fs ms cs seen, b = describing c fs ms cs seen
  fields : b.info.fields.map FieldInfo.name = fields
  constructors : b.info.constructors.length = constructors
  methods : b.info.methods.map MethodInfo.name = methods
  whole : b.info.Whole

variable {c : ClassInfo} (type : c.symbol.IsType)

include type

/-- Constructors that have no place in a class end its description. -/
theorem constructor_failed (never : Symbol.mayConstruct c.symbol.kind = false) {b : ClassBuilder}
    (describing : ∃ fs ms cs seen, b = describing c fs ms cs seen) (params : List JavaType) (varargs : Bool) :
    ∃ b', constructor params varargs b = (.error ⟨"constructor", .constructorOutsideClass⟩, b') := by
  obtain ⟨fs, ms, cs, seen, rfl⟩ := describing
  let counted := Build.describing c fs ms cs (seen.add Symbol.constructorName)
  have fault : Symbol.ofDeclaration (.constructor (seen.peek Symbol.constructorName)) (some counted.info.symbol) =
      .error ⟨"constructor", .constructorOutsideClass⟩ := by
    change Symbol.ofDeclaration _ (some c.symbol) = _
    simp [Symbol.ofDeclaration, Symbol.named, type.outside, never, Declaration.describe]
  have named := name_run (.constructor (seen.peek Symbol.constructorName)) counted
  rw [fault] at named
  exact ⟨counted, run_failed named _⟩

namespace Met

variable {fields methods : List String} {constructors : Nat} {b : ClassBuilder}
  (h : Met c fields constructors methods b)

include h

theorem field (name : String) (fieldType : JavaType) (isStatic : Bool) {kind : SymbolKind}
    (term : kind.isTerm = true) :
    Gives (Build.field name fieldType isStatic kind) b (Met c (fields ++ [name]) constructors methods) := by
  obtain ⟨⟨fs, ms, cs, seen, rfl⟩, rfl, rfl, rfl, whole⟩ := h
  exact ⟨_, _, field_run type name fieldType isStatic term, ⟨_, _, _, _, rfl⟩, by simp [Build.describing], rfl, rfl,
    { whole with fields := List.forall_mem_append.mpr ⟨whole.fields, List.forall_mem_singleton.mpr rfl⟩ }⟩

theorem constructor (may : Symbol.mayConstruct c.symbol.kind = true) (params : List JavaType) (varargs : Bool) :
    Gives (Build.constructor params varargs) b (Met c fields (constructors + 1) methods) := by
  obtain ⟨⟨fs, ms, cs, seen, rfl⟩, rfl, rfl, rfl, whole⟩ := h
  exact ⟨_, _, constructor_run type may params varargs, ⟨_, _, _, _, rfl⟩, rfl, by simp [Build.describing], rfl,
    { whole with constructors := List.forall_mem_append.mpr ⟨whole.constructors, List.forall_mem_singleton.mpr rfl⟩ }⟩

theorem method (name : String) (params : List JavaType) (varargs : Bool) (returns : JavaType) (isStatic : Bool) :
    Gives (Build.method name params varargs returns isStatic) b (Met c fields constructors (methods ++ [name])) := by
  obtain ⟨⟨fs, ms, cs, seen, rfl⟩, rfl, rfl, rfl, whole⟩ := h
  exact ⟨_, _, method_run type name params varargs returns isStatic, ⟨_, _, _, _, rfl⟩, rfl, rfl,
    by simp [Build.describing],
    { whole with methods := List.forall_mem_append.mpr ⟨whole.methods, List.forall_mem_singleton.mpr rfl⟩ }⟩

end Met

end Build

namespace Manifest.Class

/-- The class has constructors, of a kind that has none. -/
def Misplaced (m : Manifest.Class) : Prop :=
  (m.kind = .interfaceType ∨ m.kind = .annotationType) ∧ m.constructors ≠ []

instance : DecidablePred Misplaced := fun m =>
  inferInstanceAs (Decidable ((m.kind = .interfaceType ∨ m.kind = .annotationType) ∧ m.constructors ≠ []))

/-- What is said of a listed class before its members are described. -/
def outline (m : Manifest.Class) : ClassInfo where
  qualifiedName := Dotted.ofBinary m.name
  package := (splitBinaryName m.name).1
  symbol := ⟨⟨.external, (Dotted.steps (splitBinaryName m.name).1).map .package ++
    (splitBinaryName m.name).2.dropLast.map .type ++ [.type (Dotted.last (Dotted.ofBinary m.name))]⟩, .ofDecl m.kind⟩
  origin := .external
  typeParams := m.typeParams
  superclass := m.superType
  interfaces := m.interfaces.map (JavaType.read m.typeParams)
  fields := []
  methods := []
  constructors := []
  syntheticMembers := false

/-- A class is what a listed class says: it has the members that are listed, in their order. -/
structure Describes (m : Manifest.Class) (c : ClassInfo) : Prop where
  built : m.build = .ok c
  outline : c = { m.outline with fields := c.fields, methods := c.methods, constructors := c.constructors }
  fields : c.fields.map FieldInfo.name = m.fields.map Field.name
  constructors : c.constructors.length = m.constructors.length
  methods : c.methods.map MethodInfo.name = m.methods.map Method.name

variable (m : Manifest.Class)

theorem outline_isType : m.outline.symbol.IsType :=
  ⟨rfl, by cases kind : m.kind <;> simp [outline, kind, SymbolKind.ofDecl, SymbolKind.isType]⟩

/-- No package and no class around a class ever keeps it from having a symbol. -/
theorem header_outline : ∃ owner, ownerSymbol (splitBinaryName m.name).1 (splitBinaryName m.name).2 = .ok owner ∧
    ClassBuilder.ofName owner (splitBinaryName m.name).1 (Dotted.ofBinary m.name) (.ofDecl m.kind) .external =
      .ok ⟨{ m.outline with typeParams := [], superclass := none, interfaces := [] }, .empty⟩ := by
  obtain ⟨owner, found, holds, id⟩ := ownerSymbol_ok (splitBinaryName m.name).1 (splitBinaryName m.name).2
  have outside : owner.isLocal = false := by rw [Symbol.isLocal, Symbol.scheme, id]; rfl
  have named := Symbol.ofDeclaration_type outside holds m.outline_isType.type (Dotted.last (Dotted.ofBinary m.name))
  have symbol : owner.child (.type (Dotted.last (Dotted.ofBinary m.name))) m.outline.symbol.kind =
      m.outline.symbol := by
    rw [Symbol.child, Symbol.scheme, Symbol.path, id]
    rfl
  rw [symbol] at named
  refine ⟨owner, found, ?_⟩
  rw [ClassBuilder.ofName, show SymbolKind.ofDecl m.kind = m.outline.symbol.kind from rfl, named]
  rfl

theorem build_outline : m.build =
    match m.buildMembers.run (.ofHeader m.outline) with
    | (.ok _, b) => .ok b.info
    | (.error e, _) => .error e := by
  obtain ⟨owner, found, header⟩ := m.header_outline
  unfold build
  simp only [found, header, Bind.bind, Except.bind]
  rfl

variable {m}

theorem mayConstruct_outline : Symbol.mayConstruct m.outline.symbol.kind = true ↔
    ¬(m.kind = .interfaceType ∨ m.kind = .annotationType) := by
  cases kind : m.kind <;> simp [outline, kind, SymbolKind.ofDecl, Symbol.mayConstruct]

/-- A field can always be described. -/
theorem fields_met (m : Manifest.Class) : Build.Leads (m.fields.forM m.buildField) (.ofHeader m.outline)
    (Build.Met m.outline (m.fields.map Field.name) 0 []) := by
  have start : Build.Met m.outline [] 0 [] (.ofHeader m.outline) :=
    ⟨⟨[], [], [], .empty, rfl⟩, rfl, rfl, rfl, nofun, nofun, nofun⟩
  refine .forM (fun done => Build.Met m.outline (done.map Field.name) 0 []) start fun done f rest b split h => ?_
  rw [List.map_append]
  exact (h.field m.outline_isType f.name _ _ (by cases f.constant <;> rfl)).discard

/-- Where constructors have a place, fields, constructors and methods are described one after the other. -/
theorem buildMembers_met (placed : ¬m.Misplaced) :
    Build.Leads m.buildMembers (.ofHeader m.outline) (Build.Met m.outline (m.fields.map Field.name)
      m.constructors.length (m.methods.map Method.name)) := by
  have type := m.outline_isType
  let fields := m.fields.map Field.name
  refine m.fields_met.seq fun _ h => Build.Leads.seq
    (.forM (fun done => Build.Met m.outline fields done.length []) h fun done k rest b split h => ?_)
    fun _ h => .forM (fun done => Build.Met m.outline fields m.constructors.length (done.map Method.name)) h
      fun done x rest b split h => ?_
  · have may : Symbol.mayConstruct m.outline.symbol.kind = true :=
      mayConstruct_outline.mpr fun kind => placed ⟨kind, by simp [split]⟩
    rw [List.length_append]
    exact (h.constructor type may _ _).discard
  · rw [List.map_append]
    exact (h.method type x.name _ _ _ _).discard

theorem describes_of_placed (placed : ¬m.Misplaced) : ∃ c, m.Describes c := by
  obtain ⟨b, run, ⟨fs, ms, cs, seen, rfl⟩, fields, constructors, methods, -⟩ := buildMembers_met placed
  refine ⟨_, ?_, rfl, fields, constructors, methods⟩
  rw [build_outline, ExceptT.run, run]

/-- The first constructor ends the description of a class that can have none. -/
theorem build_misplaced (misplaced : m.Misplaced) : m.build = .error ⟨"constructor", .constructorOutsideClass⟩ := by
  obtain ⟨kind, some⟩ := misplaced
  obtain ⟨k, ks, listed⟩ := List.exists_cons_of_ne_nil some
  have never : Symbol.mayConstruct m.outline.symbol.kind = false :=
    Bool.eq_false_iff.mpr fun may => mayConstruct_outline.mp may kind
  obtain ⟨b, fields, met⟩ := m.fields_met
  obtain ⟨b', failed⟩ := Build.constructor_failed m.outline_isType never met.describing
    (k.params.map (JavaType.read m.typeParams)) k.varargs
  have first : m.buildConstructor k b = (.error ⟨"constructor", .constructorOutsideClass⟩, b') :=
    Build.run_failed failed fun _ => Pure.pure ()
  have constructors : m.constructors.forM m.buildConstructor b =
      (.error ⟨"constructor", .constructorOutsideClass⟩, b') := by
    rw [listed]
    exact Build.run_failed first fun _ => ks.forM m.buildConstructor
  have members : m.buildMembers (.ofHeader m.outline) = (.error ⟨"constructor", .constructorOutsideClass⟩, b') :=
    (Build.run_bind fields _).trans (Build.run_failed constructors _)
  rw [build_outline, ExceptT.run, members]

/-- A listed class and its members belong to a library. -/
theorem Describes.outside {c : ClassInfo} (described : m.Describes c) : c.symbol.scheme = .external ∧ c.Whole := by
  refine ⟨by rw [described.outline]; rfl, ?_⟩
  by_cases misplaced : m.Misplaced
  · exact nomatch (build_misplaced misplaced).symm.trans described.built
  · obtain ⟨b, run, met⟩ := buildMembers_met misplaced
    have built := described.built
    rw [build_outline, ExceptT.run, run] at built
    cases built
    exact met.whole

end Manifest.Class

/-! Whole descriptions. -/

namespace ExternalTable

variable {t u : ExternalTable} {before : List Manifest.Class} {cs : List ClassInfo}

/-- Classes that can be described are put in one by one. -/
theorem addClasses_append (described : List.Forall₂ Manifest.Class.Describes before cs)
    (after : List Manifest.Class) : t.addClasses (before ++ after) = (cs.foldl insert t).addClasses after := by
  induction described generalizing t with
  | nil => rfl
  | cons first _ ih => rw [List.cons_append, addClasses, first.built]; exact ih

theorem forall₂_describes (placed : ∀ m ∈ before, ¬m.Misplaced) :
    ∃ cs, List.Forall₂ Manifest.Class.Describes before cs := by
  induction before with
  | nil => exact ⟨[], .nil⟩
  | cons m before ih =>
    obtain ⟨first, later⟩ := List.forall_mem_cons.mp placed
    obtain ⟨c, described⟩ := Manifest.Class.describes_of_placed first
    obtain ⟨cs, rest⟩ := ih later
    exact ⟨c :: cs, .cons described rest⟩

/-- What is listed before a class that cannot be described is put in, and nothing else. -/
theorem load_until {m : Manifest} {c : Manifest.Class} {after : List Manifest.Class}
    (listed : m.classes = before ++ c :: after) (misplaced : c.Misplaced)
    (described : List.Forall₂ Manifest.Class.Describes before cs) :
    t.load m = (.error ⟨"constructor", .constructorOutsideClass⟩, cs.foldl insert t) := by
  have stopped : t.addClasses m.classes =
      (some ⟨"constructor", .constructorOutsideClass⟩, cs.foldl insert t) := by
    rw [listed, addClasses_append described, addClasses, Manifest.Class.build_misplaced misplaced]
  rw [load, stopped]

theorem load_whole {m : Manifest} (described : List.Forall₂ Manifest.Class.Describes m.classes cs) :
    t.load m = (.ok m.classes.length, m.resourcePackages.foldl addResourcePackage (cs.foldl insert t)) := by
  have added : t.addClasses m.classes = (none, cs.foldl insert t) := by
    have whole := addClasses_append (t := t) described []
    rwa [List.append_nil] at whole
  rw [load, added]

/-- Among the listed classes there is a first one that cannot be described, unless all can be. -/
theorem placed_or_split (ms : List Manifest.Class) : (∀ m ∈ ms, ¬m.Misplaced) ∨
    ∃ before c after, ms = before ++ c :: after ∧ c.Misplaced ∧ ∀ m ∈ before, ¬m.Misplaced := by
  cases found : ms.find? (fun m => decide m.Misplaced) with
  | none => exact .inl (by simpa using found)
  | some c =>
    obtain ⟨misplaced, before, after, split, placed⟩ := List.find?_eq_some_iff_append.mp found
    exact .inr ⟨before, c, after, split, of_decide_eq_true misplaced, by simpa using placed⟩

/-- What a description adds to a table does not depend on the table. -/
theorem load_gains (m : Manifest) : ∃ cs resources, ∀ t : ExternalTable, t.Gains (t.load m).2 cs resources := by
  obtain placed | ⟨before, c, after, split, misplaced, placed⟩ := placed_or_split m.classes
  · obtain ⟨cs, described⟩ := forall₂_describes placed
    refine ⟨cs, m.resourcePackages, fun t => ?_⟩
    rw [load_whole described]
    exact ((Gains.nothing t).insertAll cs).addResourcePackages m.resourcePackages
  · obtain ⟨cs, described⟩ := forall₂_describes placed
    refine ⟨cs, [], fun t => ?_⟩
    rw [load_until split misplaced described]
    exact (Gains.nothing t).insertAll cs

/-- The classes that were put in go by their names, and they and their members belong to libraries. -/
def Outside (t : ExternalTable) : Prop :=
  ∀ (name : String) c, t.classes[name]? = some c → c.qualifiedName = name ∧ c.symbol.scheme = .external ∧ c.Whole

theorem empty_outside : empty.Outside := by
  intro name c found
  have nothing : empty.classes[name]? = none := Std.TreeMap.getElem?_emptyc
  cases nothing.symm.trans found

theorem Gains.outside {resources : List String} (gains : t.Gains u cs resources) (outside : t.Outside)
    (given : ∀ c ∈ cs, c.symbol.scheme = .external ∧ c.Whole) : u.Outside := by
  intro name c found
  rw [gains.classes, Option.or_eq_some_iff, List.findRev?_eq_find?_reverse] at found
  obtain found | ⟨-, found⟩ := found
  · have listed : c ∈ cs := List.mem_reverse.mp (List.mem_of_find?_eq_some found)
    have named := List.find?_some found
    exact ⟨eq_of_beq named, given c listed⟩
  · exact outside name c found

theorem Outside.load (outside : t.Outside) (m : Manifest) : (t.load m).2.Outside := by
  have given {before : List Manifest.Class} {cs : List ClassInfo}
      (described : List.Forall₂ Manifest.Class.Describes before cs) :
      ∀ c ∈ cs, c.symbol.scheme = .external ∧ c.Whole := by
    induction described with
    | nil => nofun
    | cons first _ rest => exact List.forall_mem_cons.mpr ⟨first.outside, rest⟩
  obtain placed | ⟨before, c, after, split, misplaced, placed⟩ := placed_or_split m.classes
  · obtain ⟨cs, described⟩ := forall₂_describes placed
    rw [load_whole described]
    exact (((Gains.nothing t).insertAll cs).addResourcePackages m.resourcePackages).outside outside (given described)
  · obtain ⟨cs, described⟩ := forall₂_describes placed
    rw [load_until split misplaced described]
    exact ((Gains.nothing t).insertAll cs).outside outside (given described)

theorem platform_outside : platform.Outside := empty_outside.load Platform.manifest

/-- What is generated from resources belongs to libraries as well. -/
theorem Outside.lawful (outside : t.Outside) : t.Lawful where
  classes name c found := by
    obtain found | ⟨-, found⟩ := Option.or_eq_some_iff.mp found
    · obtain ⟨rfl, scheme, whole⟩ := outside name c found
      exact ⟨id, scheme, fun s offers => (whole.offers offers).trans scheme⟩
    · obtain ⟨entry, made, isClass⟩ := Option.bind_eq_some_iff.mp found
      cases entry with
      | constant field => cases isClass
      | ofClass info =>
        cases isClass
        obtain ⟨rfl, generated⟩ := t.resource?_class made
        have whole : c.Whole :=
          ⟨by simp [generated.fields], by simp [generated.constructors], by simp [generated.methods]⟩
        exact ⟨id, generated.scheme, fun s offers => (whole.offers offers).trans generated.scheme⟩
  constants c name f found := (t.constant?_generated found).2

/-- A description fails to load just if it lists constructors of an interface or an annotation type. Then the table
gains the classes listed before that one, as from a description of those alone, and no package with resources;
otherwise it gains every listed class and every such package. -/
theorem load_outcome (t : ExternalTable) (m : Manifest) :
    ((∃ e, (t.load m).1 = .error e) ↔ ∃ c ∈ m.classes, c.Misplaced) ∧
      (∀ e, (t.load m).1 = .error e → ∃ before c after cs, m.classes = before ++ c :: after ∧ c.Misplaced ∧
        (∀ b ∈ before, ¬b.Misplaced) ∧ List.Forall₂ Manifest.Class.Describes before cs ∧
          t.Gains (t.load m).2 cs [] ∧ t.load ⟨before, []⟩ = (.ok before.length, (t.load m).2)) ∧
      ∀ n, (t.load m).1 = .ok n → n = m.classes.length ∧ ∃ cs, List.Forall₂ Manifest.Class.Describes m.classes cs ∧
        t.Gains (t.load m).2 cs m.resourcePackages := by
  obtain placed | ⟨before, c, after, split, misplaced, placed⟩ := placed_or_split m.classes
  · obtain ⟨cs, described⟩ := forall₂_describes placed
    rw [load_whole described]
    refine ⟨⟨nofun, fun ⟨c, listed, misplaced⟩ => absurd misplaced (placed c listed)⟩, nofun, fun n loaded => ?_⟩
    have gains := ((Gains.nothing t).insertAll cs).addResourcePackages m.resourcePackages
    exact ⟨(Except.ok.inj loaded).symm, cs, described, gains⟩
  · obtain ⟨cs, described⟩ := forall₂_describes placed
    rw [load_until split misplaced described]
    refine ⟨⟨fun _ => ⟨c, by simp [split], misplaced⟩, fun _ => ⟨_, rfl⟩⟩, fun e _ => ?_, fun _ h => nomatch h⟩
    have alone : t.load ⟨before, []⟩ = (.ok before.length, cs.foldl insert t) :=
      load_whole (m := ⟨before, []⟩) described
    exact ⟨before, c, after, cs, split, misplaced, placed, described, (Gains.nothing t).insertAll cs, alone⟩

/-- A class before an interface with a constructor stays; without the interface all is well. -/
theorem load_outcome_interface :
    let listed (name : String) (kind : DeclKind) : Manifest.Class := ⟨name, kind, none, [], [], [], [], [⟨[], false⟩]⟩
    let m : Manifest :=
      ⟨[listed "a.Point" .classType, listed "a.Shape" .interfaceType, listed "a.Line" .classType], ["a"]⟩
    let m' : Manifest := ⟨[listed "a.Point" .classType, listed "a.Line" .classType], ["a"]⟩
    (∃ before c after cs, m.classes = before ++ c :: after ∧ c.Misplaced ∧ (∀ b ∈ before, ¬b.Misplaced) ∧
        List.Forall₂ Manifest.Class.Describes before cs ∧ empty.Gains (empty.load m).2 cs [] ∧
          empty.load ⟨before, []⟩ = (.ok before.length, (empty.load m).2)) ∧
      (empty.load m').1 = .ok 2 ∧
        ∃ cs, List.Forall₂ Manifest.Class.Describes m'.classes cs ∧ empty.Gains (empty.load m').2 cs ["a"] := by
  intro listed m m'
  obtain ⟨fails, failed, -⟩ := load_outcome empty m
  obtain ⟨fails', -, loaded⟩ := load_outcome empty m'
  obtain ⟨e, error⟩ := fails.mpr ⟨listed "a.Shape" .interfaceType, by simp [m], by decide⟩
  refine ⟨failed e error, ?_⟩
  cases result : (empty.load m').1 with
  | error e =>
    obtain ⟨c, inside, misplaced⟩ := fails'.mp ⟨e, result⟩
    have placed : ∀ c ∈ m'.classes, ¬c.Misplaced := by decide
    exact absurd misplaced (placed c inside)
  | ok n =>
    obtain ⟨count, described⟩ := loaded n result
    exact ⟨congrArg Except.ok count, described⟩

end ExternalTable

end JavaIndex
