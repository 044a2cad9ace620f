import JavaIndex.Classpath.Manifest
import JavaIndex.Proofs.Index.Final
import JavaIndex.Proofs.Project.Runs
import JavaIndex.Proofs.Resolve.KnownTraversal

/-! Unknown names and real declarations. A placeholder is external, so that it is none of the classes and
packages of the project. It can have the path of something in a library only if that path is short: a package
of one segment, a type of the package without a name, or a type in a package of one segment. All uses of
anything else are uses of what is known. The index of a file can be read on its own: what a mention is inside of is
declared in the same file, unless it is a class without a name. -/
namespace JavaIndex

variable {given : Symbol → Prop}

/-! Classes of a project. -/

namespace Build

/-- The description is known after the step if it is known before, and it is of the same class. -/
def KeepsKnown {α : Type} (given : Symbol → Prop) (x : Build α) : Prop :=
  ∀ b : ClassBuilder, b.info.Known given →
    (x b).2.info.Known given ∧ (x b).2.info.symbol = b.info.symbol

namespace KeepsKnown

variable {α β : Type} {x : Build α}

theorem pure (a : α) : KeepsKnown given (Pure.pure a : Build α) := fun _ known => ⟨known, rfl⟩

theorem bind {f : α → Build β} (first : KeepsKnown given x) (second : ∀ a, KeepsKnown given (f a)) :
    KeepsKnown given (x >>= f) := by
  intro b known
  obtain ⟨later, same⟩ := first b known
  cases run : x b with
  | mk r b' =>
    rw [run] at later same
    cases r with
    | ok a =>
      obtain ⟨last, same'⟩ := second a b' later
      rw [run_bind run]
      exact ⟨last, same'.trans same⟩
    | error e =>
      rw [run_failed run]
      exact ⟨later, same⟩

theorem attempt {x : Build Symbol} (h : KeepsKnown given x) : KeepsKnown given (Build.attempt x) := h

theorem forM {f : α → Build Unit} (h : ∀ a, KeepsKnown given (f a)) (xs : List α) :
    KeepsKnown given (xs.forM f) := by
  induction xs with
  | nil => exact pure ()
  | cons a rest ih => exact (h a).bind fun _ => ih

/-- A class with more members that are known. -/
theorem more {c : ClassInfo} (known : c.Known given) (fields : List FieldInfo)
    (methods constructors : List MethodInfo) (fieldsKnown : ∀ f ∈ fields, f.symbol.Known given)
    (methodsKnown : ∀ m ∈ methods, m.symbol.Known given)
    (constructorsKnown : ∀ m ∈ constructors, m.symbol.Known given) :
    ClassInfo.Known given { c with
      fields := c.fields ++ fields, methods := c.methods ++ methods
      constructors := c.constructors ++ constructors } := by
  refine ⟨known.symbol, fun s offered => ?_⟩
  cases offered with
  | field found =>
    simp only [ClassInfo.field?, List.find?_append, Option.or_eq_some_iff] at found
    rcases found with old | ⟨-, new⟩
    · exact known.members _ (.field old)
    · exact fieldsKnown _ (List.mem_of_find?_eq_some new)
  | method hm =>
    rcases List.mem_append.mp hm with old | new
    · exact known.members _ (.method old)
    · exact methodsKnown _ new
  | constructor hm =>
    rcases List.mem_append.mp hm with old | new
    · exact known.members _ (.constructor old)
    · exact constructorsKnown _ new

theorem change {f : ClassBuilder → ClassBuilder}
    (h : ∀ b : ClassBuilder, b.info.Known given → (f b).info.Known given ∧ (f b).info.symbol = b.info.symbol) :
    KeepsKnown given (modify f : Build Unit) := fun b known => h b known

/-- What is named inside the class is known. -/
theorem naming (decl : Declaration) (outside : ∀ number, decl ≠ .local number .unknown)
    {f : Symbol → Build Symbol} (h : ∀ s : Symbol, s.Known given → KeepsKnown given (f s)) :
    KeepsKnown given (Build.name decl >>= f) := by
  intro b known
  have named := name_run decl b
  cases made : Symbol.ofDeclaration decl (some b.info.symbol) with
  | error e =>
    rw [made] at named
    rw [run_failed named]
    exact ⟨known, rfl⟩
  | ok s =>
    rw [made] at named
    rw [run_bind named]
    exact h s (.ofDeclaration made outside) b known

theorem field (name : String) (type : JavaType) (isStatic : Bool) (kind : SymbolKind) :
    KeepsKnown given (Build.field name type isStatic kind) := by
  refine naming (.member name kind) (fun _ h => nomatch h) fun s one => bind (change ?_) fun _ => pure s
  intro b known
  have grown := more known [⟨name, type, isStatic, s⟩] [] [] (by simpa using one) (by simp) (by simp)
  rw [List.append_nil, List.append_nil] at grown
  exact ⟨grown, rfl⟩

theorem method (name : String) (params : List JavaType) (varargs : Bool) (returns : JavaType) (isStatic : Bool) :
    KeepsKnown given (Build.method name params varargs returns isStatic) := by
  intro b known
  -- the method is counted before it is named
  refine naming (.method name (b.seen.peek name)) nofun (fun s one => ?_)
    { b with seen := b.seen.add name } known
  refine bind (change ?_) fun _ => pure s
  intro b known
  have grown := more known [] [⟨name, params, varargs, returns, isStatic, s⟩] [] (by simp) (by simpa using one)
    (by simp)
  rw [List.append_nil, List.append_nil] at grown
  exact ⟨grown, rfl⟩

theorem constructor (params : List JavaType) (varargs : Bool) :
    KeepsKnown given (Build.constructor params varargs) := by
  intro b known
  refine naming (.constructor (b.seen.peek Symbol.constructorName)) nofun (fun s one => ?_)
    { b with seen := b.seen.add Symbol.constructorName } known
  refine bind (change ?_) fun _ => pure s
  intro b known
  have grown := more known [] [] [⟨Symbol.constructorName, params, varargs, b.info.selfType, false, s⟩] (by simp)
    (by simp) (by simpa using one)
  rw [List.append_nil, List.append_nil] at grown
  exact ⟨grown, rfl⟩

theorem implied (m : ImpliedMethod) : KeepsKnown given (Build.implied m) := (method _ _ _ _ _).attempt

theorem member (env : Environment) (place : Place) (body : ClassBody) (components : List (Ident × JavaType))
    (m : Member) : KeepsKnown given (Build.member env place body components m) := by
  cases m with
  | field d doc range => exact forM (fun _ => (field _ _ _ _).attempt) _
  | method m =>
    have read : KeepsKnown given (get : Build ClassBuilder) := fun _ known => ⟨known, rfl⟩
    refine read.bind fun b => ?_
    dsimp only
    split
    · exact (constructor _ _).attempt
    · exact (method _ _ _ _ _).attempt
  | initializer isStatic block => exact pure ()
  | type d => exact pure ()

theorem members (env : Environment) (place : Place) (body : ClassBody) :
    KeepsKnown given (Build.members env place body) := by
  have read : KeepsKnown given (get : Build ClassBuilder) := fun _ known => ⟨known, rfl⟩
  have accessor (component : Ident × JavaType) : KeepsKnown given (Build.accessor component) := by
    refine read.bind fun b => ?_
    split
    · exact pure ()
    · exact implied _
  have heads (components : List (Ident × JavaType)) (self : JavaType) :
      KeepsKnown given (Build.heads body components self) :=
    (forM (fun _ => (field _ _ _ _).attempt) _).bind fun _ => forM (fun _ => (field _ _ _ _).attempt) _
  refine read.bind fun b => (heads _ _).bind fun _ => (forM (member _ _ _ _) _).bind fun _ =>
    (forM accessor _).bind fun _ => ?_
  split
  · exact forM implied _
  · exact pure ()

end KeepsKnown
end Build

namespace ProjectClasses

/-- All classes are known, and they are of the project. -/
def Known (given : Symbol → Prop) (p : ProjectClasses) : Prop :=
  ∀ name c, p.class? name = some c → c.Known given ∧ c.symbol.scheme = .project

namespace Known

variable {p : ProjectClasses}

theorem insert (known : p.Known given) {c : ClassInfo} (ofClass : c.Known given)
    (scheme : c.symbol.scheme = .project) : (p.insert c).Known given := by
  intro name c' found
  rw [class?, ProjectClasses.insert, Std.TreeMap.getElem?_insert] at found
  split at found
  · cases found
    exact ⟨ofClass, scheme⟩
  · exact known name c' found

theorem named (sites : List Site) (packages : List String) : (ProjectClasses.named sites packages).Known given := by
  have step (p : ProjectClasses) (s : Site) (known : p.Known given) : (p.addNamed s).Known given := by
    unfold addNamed
    split
    · exact known
    · rename_i owner around
      have project : owner.scheme = .project := by
        unfold ownerOf? at around
        split at around
        · cases around
          rfl
        · obtain ⟨c, found, rfl⟩ := Option.map_eq_some_iff.mp around
          exact (known _ c found).2
      split
      · rename_i b built
        unfold ClassBuilder.ofName at built
        split at built <;> cases built
        rename_i symbol made
        have params (names : List String) (b : ClassBuilder) :
            (names.foldl ClassBuilder.addTypeParam b).info.symbol = b.info.symbol ∧
            (names.foldl ClassBuilder.addTypeParam b).info.fields = b.info.fields ∧
            (names.foldl ClassBuilder.addTypeParam b).info.methods = b.info.methods ∧
            (names.foldl ClassBuilder.addTypeParam b).info.constructors = b.info.constructors := by
          induction names generalizing b with
          | nil => exact ⟨rfl, rfl, rfl, rfl⟩
          | cons n rest ih => exact ih _
        obtain ⟨same, fields, methods, constructors⟩ := params (s.decl.typeParams.map fun t => t.name.text)
          ⟨⟨s.name, s.package, symbol, .project s.unit.file, [], none, [], [], [], [], false⟩, .empty⟩
        refine known.insert (Upholds.bareKnown ?_ fields methods constructors) ?_
        · rw [same]
          exact .ofDeclaration made nofun
        · rw [same]
          exact (Symbol.ofDeclaration_scheme made fun _ _ h => nomatch h).trans project
      · exact known
  unfold ProjectClasses.named
  have start : ProjectClasses.Known given ⟨∅, Std.TreeSet.ofList packages⟩ := by
    intro name c found
    simp [class?] at found
  generalize (⟨∅, Std.TreeSet.ofList packages⟩ : ProjectClasses) = p at start
  induction sites generalizing p with
  | nil => exact start
  | cons s rest ih => exact ih _ (step p s start)

theorem refine {sites : List Site} {say : Site → ClassInfo → ClassInfo} (known : p.Known given)
    (said : ∀ s c, c.Known given → (say s c).Known given ∧ (say s c).symbol = c.symbol) :
    (p.refine sites say).Known given := by
  unfold ProjectClasses.refine
  have start : ProjectClasses.Known given ⟨∅, p.packages⟩ := by
    intro name c found
    simp [class?] at found
  generalize (⟨∅, p.packages⟩ : ProjectClasses) = next at start
  induction sites generalizing next with
  | nil => exact start
  | cons s rest ih =>
    refine ih _ ?_
    dsimp only
    split
    · rename_i c found
      obtain ⟨ofClass, project⟩ := known _ c found
      obtain ⟨more, same⟩ := said s c ofClass
      exact start.insert more (by rw [same]; exact project)
    · exact start

/-- Whatever the files declare is known, and it is of the project. -/
theorem build (units : List SourceUnit) (external : ExternalTable) (config : Config) :
    (ProjectClasses.build units external config).Known given := by
  unfold ProjectClasses.build
  refine ((named _ _).refine fun s c known => ?_).refine fun s c known => ?_
  · exact ⟨known.same rfl rfl rfl rfl, rfl⟩
  · exact Build.KeepsKnown.members _ _ _ (.ofHeader c)
      (Upholds.bareKnown (c := (ClassBuilder.ofHeader c).info) known.symbol rfl rfl rfl)

end Known

/-- The project has a class or a package of this symbol. -/
inductive Contains (p : ProjectClasses) : Symbol → Prop
  | ofClass {name c} : p.class? name = some c → Contains p c.symbol
  | package {name} : p.hasPackage name = true → Contains p (Symbol.package name .project)

end ProjectClasses

namespace ExternalTable

/-- The library has a class or a package of this symbol. -/
inductive Contains (t : ExternalTable) : Symbol → Prop
  | ofClass {name c} : t.class? name = some c → Contains t c.symbol
  | package {name} : t.hasPackage name = true → Contains t (Symbol.package name .external)

/-- The library has a class, or a member of a class, of this symbol. -/
inductive Lists (t : ExternalTable) : Symbol → Prop
  | ofClass {name c} : t.class? name = some c → Lists t c.symbol
  | member {name c s} : t.class? name = some c → Offers c s → Lists t s

theorem constant_kind {t : ExternalTable} {c : ClassInfo} {name : String} {f : FieldInfo}
    (found : t.constant? c name = some f) : f.symbol.kind = .syntheticMember := by
  unfold constant? at found
  split at found
  · obtain ⟨entry, made, constant⟩ := Option.bind_eq_some_iff.mp found
    obtain ⟨parts, -, made⟩ := Option.bind_eq_some_iff.mp made
    cases entry with
    | ofClass c => cases constant
    | constant g =>
      cases constant
      unfold Resources.generate? at made
      dsimp only at made
      repeat' split at made
      all_goals cases made
      rfl
  · cases found

end ExternalTable

/-! Uses. -/

/-- Before anything is resolved, all is known but what the library itself lists without a kind. -/
theorem Progress.Known.start {project : ProjectClasses} (external : ExternalTable) (config : Config)
    (known : project.Known external.Lists) :
    (Progress.start project external config).Known external.Lists := by
  have classes (name : String) (c : ClassInfo) (found : (Environment.start project external).class? name = some c) :
      c.Known external.Lists := by
    simp only [Environment.class?, Environment.start, Std.TreeMap.getElem?_emptyc, Option.none_or,
      Option.or_eq_some_iff] at found
    rcases found with declared | ⟨-, listed⟩
    · exact (known name c declared).1
    · exact ⟨fun _ => .ofClass listed, fun s offered _ => .member listed offered⟩
  have constants (c : ClassInfo) (name : String) (f : FieldInfo) (found : external.constant? c name = some f) :
      f.symbol.Known external.Lists := .ofKind (by simp [ExternalTable.constant_kind found])
  exact ⟨⟨classes, constants⟩, by simp [Progress.start, Scopes.Known], by simp [Progress.start]⟩

theorem UnitIndex.mem_occurrencesOf {u : UnitIndex} {s : Symbol} {o : Occurrence} :
    o ∈ u.occurrencesOf s ↔ o ∈ u.occurrences ∧ o.symbol.id = s.id :=
  List.mem_filter.trans (and_congr_right fun _ => beq_iff_eq (a := o.symbol.id))

namespace SourceUnit

/-- What is noted of a file, before it is put in order. -/
def noted (u : SourceUnit) (source : String) (project : ProjectClasses) (external : ExternalTable)
    (config : Config) : Emission :=
  (((Resolve.unit u.tree).run (.ofUnit u source config)).run (.start project external config)).2.emission

variable (u : SourceUnit) (source : String) {project : ProjectClasses} (external : ExternalTable) (config : Config)

/-- The problems found in a file, the latest first. -/
def problems (u : SourceUnit) (source : String) (project : ProjectClasses) (external : ExternalTable)
    (config : Config) : List Diagnostic :=
  (((Resolve.unit u.tree).run (.ofUnit u source config)).run (.start project external config)).2.problems

/-- All that is noted of a file is nested, and it is known or stands for an unknown name that is reported. -/
theorem noted_nested_reported (known : project.Known external.Lists) :
    Nested (Symbol.Mentioned external.Lists) none (u.noted source project external config).occurrences ∧
      ∃ names, Reported (Symbol.Known external.Lists) u.file (.ofText source) config.emitUnresolved names
        (u.noted source project external config).occurrences (u.problems source project external config) := by
  obtain ⟨-, ⟨-, names, os, ps, grown, found, nested, reported⟩, -⟩ :=
    KnownTraversal.unit u.tree (.ofUnit u source config) _ (.start external config known)
  have noted : (u.noted source project external config).occurrences = os := grown.trans (List.append_nil os)
  have problems : u.problems source project external config = ps := found.trans (List.append_nil ps)
  rw [noted, problems]
  exact ⟨nested, names, reported⟩

theorem noted_nested (known : project.Known external.Lists) :
    Nested (Symbol.Mentioned external.Lists) none (u.noted source project external config).occurrences :=
  (u.noted_nested_reported source external config known).1

theorem index_known (known : project.Known external.Lists) :
    ∀ o ∈ (u.index source project external config).occurrences, o.symbol.Mentioned external.Lists := by
  intro o shown
  obtain ⟨p, hp, undocumented⟩ := Emission.undocumented_of_final shown
  rw [undocumented.symbol]
  exact (u.noted_nested source external config known).mentions hp

/-- Whatever is noted is found by what it is a mention of, with a symbol that is noted. -/
theorem occurrencesOf_noted {o : Occurrence} (ho : o ∈ (u.noted source project external config).occurrences)
    {s : Symbol} (same : o.symbol.id = s.id) :
    ∃ p ∈ (u.index source project external config).occurrencesOf s, p.role = o.role ∧
      ∃ q ∈ (u.noted source project external config).occurrences, p.symbol = q.symbol := by
  obtain ⟨p, hp, shows⟩ := Emission.final_of_noted ho
  obtain ⟨q, hq, undocumented⟩ := Emission.undocumented_of_final hp
  exact ⟨p, UnitIndex.mem_occurrencesOf.mpr ⟨hp, shows.symbol.trans same⟩, shows.role, q, hq,
    undocumented.symbol⟩

end SourceUnit

namespace SourceRoot

/-- The index of a file of a run is its index among the classes of all files. -/
theorem indexed_iff (r : SourceRoot) (external : ExternalTable) (config : Config) (u : UnitIndex) :
    u ∈ (r.index external config).indexed ↔
      ∃ f ∈ r.parsed, ∃ tree, f.tree = .ok tree ∧
        SourceUnit.index ⟨f.file, tree⟩ f.source.text (.build r.units external config) external config = u := by
  have results : (r.index external config).units =
      r.parsed.map fun f => f.result (.build r.units external config) external config := rfl
  rw [ProjectRun.indexed, results, List.filterMap_map, List.mem_filterMap]
  refine exists_congr fun f => and_congr_right fun _ => ?_
  rw [Function.comp_apply, ParsedFile.result]
  cases f.tree with
  | ok tree => simp [Except.toOption]
  | error e => simp [Except.toOption]

/-- What is used as a class or a package of the project, or as one of a library whose path is not short, is
no unknown name. -/
theorem occurrencesOf_known (r : SourceRoot) (external : ExternalTable) (config : Config) {u : UnitIndex}
    (indexed : u ∈ (r.index external config).indexed) {s : Symbol}
    (contained : (ProjectClasses.build r.units external config).Contains s ∨
      (external.Contains s ∧ ¬ Symbol.Spelled s.id)) :
    ∀ o ∈ u.occurrencesOf s, o.symbol.Known external.Lists := by
  have project : (ProjectClasses.build r.units external config).Known external.Lists := .build _ _ _
  have apart : ¬ Symbol.Spelled s.id := by
    rcases contained with declared | ⟨-, long⟩
    · have scheme : s.id.scheme = .project := by
        cases declared with
        | ofClass found => exact (project _ _ found).2
        | package _ => rfl
      intro spelled
      rw [spelled.scheme] at scheme
      cases scheme
    · exact long
  intro o ho
  obtain ⟨shown, same⟩ := UnitIndex.mem_occurrencesOf.mp ho
  obtain ⟨f, -, tree, -, rfl⟩ := (indexed_iff r external config u).mp indexed
  rcases SourceUnit.index_known _ _ external config project o shown with known | unknown
  · exact known
  · exact absurd (same ▸ unknown.spelled) apart

/-- One file that is a program. -/
theorem indexed_one (path : String) {source : String} {tree : CompilationUnit} (read : parse source = .ok tree)
    (external : ExternalTable) (config : Config) :
    SourceUnit.index ⟨0, tree⟩ source (.build (ofList [(path, source)]).units external config) external config ∈
      ((ofList [(path, source)]).index external config).indexed := by
  have one : (ofList [(path, source)]).parsed = [.ofSource 0 ⟨path, source⟩] := rfl
  refine (indexed_iff _ external config _).mpr ⟨.ofSource 0 ⟨path, source⟩, ?_, tree, ?_, rfl⟩
  · rw [one]
    exact List.mem_cons_self
  · rw [ParsedFile.ofSource, read]

/-- A class in a package of two segments is used, next to an unknown one. -/
theorem occurrencesOf_known_inner :
    let t := (ExternalTable.empty.load ⟨[⟨"h.k.T", .classType, none, [], [], [], [], []⟩], []⟩).2
    let r := ofList [("A.java", "package p; class A { Nope n; h.k.T t; }")]
    ∃ u ∈ (r.index t .standard).indexed, ∃ c, t.class? "h.k.T" = some c ∧ u.occurrencesOf c.symbol ≠ [] ∧
      ∀ o ∈ u.occurrencesOf c.symbol, o.symbol.Known t.Lists := by
  intro t r
  let source := "package p; class A { Nope n; h.k.T t; }"
  have listed : (t.class? "h.k.T").any (fun c =>
      c.symbol.id = ⟨.external, ["h", "k"].map .package ++ ["T"].map .type⟩) = true := by decide +kernel
  obtain ⟨tree, read, used⟩ : ∃ tree, parse source = .ok tree ∧
      (SourceUnit.noted ⟨0, tree⟩ source (.build r.units t .standard) t .standard).occurrences.any (fun o =>
        o.symbol.id = ⟨.external, ["h", "k"].map .package ++ ["T"].map .type⟩) = true :=
    exists_parse (by decide +kernel)
  obtain ⟨c, known, named⟩ := (Option.any_eq_true ..).mp listed
  have id := of_decide_eq_true named
  have long : ¬ Symbol.Spelled c.symbol.id := by
    rw [id, Symbol.spelled_type_iff]
    decide
  obtain ⟨o, ho, same⟩ := List.any_eq_true.mp used
  obtain ⟨p, hp, -⟩ :=
    SourceUnit.occurrencesOf_noted ⟨0, tree⟩ source t .standard ho ((of_decide_eq_true same).trans id.symm)
  have indexed := indexed_one "A.java" read t .standard
  exact ⟨_, indexed, c, known, List.ne_nil_of_mem hp,
    occurrencesOf_known r t .standard indexed (.inr ⟨.ofClass known, long⟩)⟩

/-- Classes of the package without a name and of a package of one segment, and that package: each is found
among the uses of an unknown name. -/
theorem occurrencesOf_short_unknown :
    let described (name : String) : Manifest.Class := ⟨name, .classType, none, [], [], [], [], []⟩
    let t := (ExternalTable.empty.load ⟨["Nope", "h.T", "h.T$U"].map described, []⟩).2
    let r := ofList [("A.java", "package p; class A { Nope n; Object o = n.h.T.U; }")]
    ∃ u ∈ (r.index t .standard).indexed,
      ∀ path ∈ [[.type "Nope"], [.package "h"], [.package "h", .type "T"], [.package "h", .type "T", .type "U"]],
        ∃ s, t.Contains s ∧ s.path = path ∧
          ∃ o ∈ u.occurrencesOf s, o.role = .reference ∧ o.symbol.StandsIn := by
  intro described t r
  let source := "package p; class A { Nope n; Object o = n.h.T.U; }"
  let paths : List (List Descriptor) :=
    [[.type "Nope"], [.package "h"], [.package "h", .type "T"], [.package "h", .type "T", .type "U"]]
  have contained : ∀ path ∈ paths, ∃ s, t.Contains s ∧ s.id = ⟨.external, path⟩ := by
    have listed (name : String) (path : List Descriptor)
        (found : (t.class? name).any (fun c => c.symbol.id = ⟨.external, path⟩) = true) :
        ∃ s, t.Contains s ∧ s.id = ⟨.external, path⟩ := by
      obtain ⟨c, known, id⟩ := (Option.any_eq_true ..).mp found
      exact ⟨c.symbol, .ofClass known, of_decide_eq_true id⟩
    have package : t.Contains (Symbol.package "h" .external) := .package (by decide +kernel)
    simp only [paths, List.forall_mem_cons]
    exact ⟨listed "Nope" _ (by decide +kernel), ⟨_, package, by decide +kernel⟩,
      listed "h.T" _ (by decide +kernel), listed "h.T.U" _ (by decide +kernel), by simp⟩
  have spelled : ∀ path ∈ paths, Symbol.Spelled ⟨.external, path⟩ := by
    intro path hpath
    simp only [paths, List.mem_cons, List.not_mem_nil, or_false] at hpath
    rcases hpath with rfl | rfl | rfl | rfl
    · exact .type "Nope"
    · exact .path "h" []
    · exact .path "h" ["T"]
    · exact .path "h" ["T", "U"]
  obtain ⟨tree, read, used⟩ : ∃ tree, parse source = .ok tree ∧ ∀ path ∈ paths,
      let e := SourceUnit.noted ⟨0, tree⟩ source (.build r.units t .standard) t .standard
      e.occurrences.any (fun o => o.symbol.id = ⟨.external, path⟩ ∧ o.role = .reference) = true ∧
        e.occurrences.all (fun q => q.symbol.id = ⟨.external, path⟩ → q.symbol.isPlaceholder) = true :=
    exists_parse (by decide +kernel)
  refine ⟨_, indexed_one "A.java" read t .standard, fun path hpath => ?_⟩
  obtain ⟨s, hs, id⟩ := contained path hpath
  obtain ⟨some, unknown⟩ := used path hpath
  obtain ⟨o, ho, same⟩ := List.any_eq_true.mp some
  obtain ⟨same, role⟩ := of_decide_eq_true same
  obtain ⟨p, hp, shown, q, hq, symbol⟩ :=
    SourceUnit.occurrencesOf_noted ⟨0, tree⟩ source t .standard ho (same.trans id.symm)
  have found : p.symbol.id = ⟨.external, path⟩ := (UnitIndex.mem_occurrencesOf.mp hp).2.trans id
  refine ⟨s, hs, congrArg SymbolId.path id, p, hp, shown.trans role, Symbol.standsIn_iff.mpr ⟨?_, ?_⟩⟩
  · rw [symbol] at found ⊢
    exact of_decide_eq_true (List.all_eq_true.mp unknown q hq) found
  · rw [found]
    exact spelled path hpath

end SourceRoot

/-! Declarations around mentions. Classes in bodies count, and so do their members. -/

theorem SourceUnit.index_enclosing (u : SourceUnit) (source : String) {project : ProjectClasses}
    (external : ExternalTable) (config : Config) (known : project.Known external.Lists) {o : Occurrence} {e : Symbol}
    (shown : o ∈ (u.index source project external config).occurrences) (inside : o.enclosing = some e) :
    e.DeclaredAmong (u.index source project external config).occurrences := by
  obtain ⟨p, hp, -, same⟩ := Emission.noted_of_final shown
  have within : p.enclosing = some e := same.symm.trans inside
  rcases (u.noted_nested source external config known).enclosing hp with outside | ⟨e', around, declared⟩
  · rw [within] at outside
    cases outside
  · cases within.symm.trans around
    -- what declares it is shown as well
    refine declared.imp_left fun ⟨d, hd, declares, symbol⟩ => ?_
    obtain ⟨q, hq, shows⟩ := Emission.final_of_noted hd
    exact ⟨q, hq, shows.role.trans declares, shows.symbol.trans symbol⟩

namespace SourceRoot

/-- What a mention of a run is inside of is declared in its file, unless it is a class without a name. -/
theorem enclosing_declared (r : SourceRoot) (external : ExternalTable) (config : Config) {u : UnitIndex}
    (indexed : u ∈ (r.index external config).indexed) {o : Occurrence} (shown : o ∈ u.occurrences) {e : Symbol}
    (inside : o.enclosing = some e) : e.DeclaredAmong u.occurrences := by
  obtain ⟨f, -, tree, -, rfl⟩ := (indexed_iff r external config u).mp indexed
  exact SourceUnit.index_enclosing _ _ external config (.build _ _ _) shown inside

/-- A field of a class in a body is inside that class, which is local. -/
example : ∃ tree, parse "class O { void m(){ class L { int f; } } }" = .ok tree ∧
    (SourceUnit.noted ⟨0, tree⟩ "class O { void m(){ class L { int f; } } }" (.build [⟨0, tree⟩] .empty .standard)
      .empty .standard).occurrences.any (fun o => o.enclosing.any Symbol.isLocal) = true :=
  exists_parse (by decide +kernel)

end SourceRoot
end JavaIndex
