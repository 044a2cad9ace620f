import JavaIndex.Proofs.Environment.Layouts
import JavaIndex.Proofs.Project.Runs

/-! What the files of a project know of one another. The classes of a project are made of the facades of its
files, so that nobody outside a file sees an edit of its bodies. -/
namespace JavaIndex

/-- A file of which nothing is left but its facade. -/
def SourceUnit.facade (u : SourceUnit) : SourceUnit := ⟨u.file, Facade.unit u.tree⟩

namespace Site

/-- A declaration of which nothing is left but its facade. -/
def facade (s : Site) : Site := ⟨s.unit.facade, s.outer, s.name, Facade.typeDecl s.decl⟩

mutual

theorem nested_facade (u : SourceUnit) : ∀ (d : TypeDecl) (outer : List String) (name : String),
    nested u.facade outer name (Facade.typeDecl d) = (nested u outer name d).map facade
  | ⟨_, _, _, _, _, _, _, _, _, body, _, _⟩, outer, name => by
    rw [Facade.typeDecl, nested, nested, List.map_cons, ofMembers_facade u body]
    rfl

theorem ofMembers_facade (u : SourceUnit) : ∀ (ms : List Member) (outer : List String) (name : String),
    ofMembers u.facade outer name (Facade.members ms) = (ofMembers u outer name ms).map facade
  | [], _, _ => rfl
  | .type d :: rest, outer, name => by
    have word : (Facade.typeDecl d).name.text = d.name.text := by rw [Facade.typeDecl_name, Facade.ident_text]
    rw [Facade.members, ofMembers, ofMembers, List.map_append, ofMembers_facade u rest, word, nested_facade u d]
  | .field _ _ _ :: rest, outer, name => by
    rw [Facade.members, ofMembers, ofMembers, ofMembers_facade u rest]
  | .method _ :: rest, outer, name => by
    rw [Facade.members, ofMembers, ofMembers, ofMembers_facade u rest]
  | .initializer _ _ :: rest, outer, name => by
    rw [Facade.members, ofMembers, ofMembers_facade u rest]

end

theorem ofUnit_facade (u : SourceUnit) : ofUnit u.facade = (ofUnit u).map facade := by
  have types : u.facade.tree.types = u.tree.types.map Facade.typeDecl := rfl
  rw [ofUnit, ofUnit, types, List.flatMap_map, List.map_flatMap]
  apply List.flatMap_congr
  intro d _
  have word : (Facade.typeDecl d).name.text = d.name.text := by rw [Facade.typeDecl_name, Facade.ident_text]
  rw [show u.facade.tree.packageName = u.tree.packageName from Facade.packageName_unit u.tree, word]
  exact nested_facade u d [] _

theorem package_facade (s : Site) : s.facade.package = s.package := Facade.packageName_unit s.unit.tree

theorem place_facade (s : Site) (env : Environment) (config : Config) :
    s.facade.place env config = s.place env config := by
  have scopes : s.facade.scopes env = s.scopes env := by
    unfold scopes
    rw [package_facade]
    rfl
  have imports : s.facade.imports config = s.imports config := Facade.imports_unit s.unit.tree _
  rw [place, place, scopes, imports]

end Site

namespace Facade

/-- The parts of a body that others can see. -/
def classBody (b : ClassBody) : ClassBody :=
  ⟨b.kind, b.constants.map enumConstant, b.components.map component, members b.members⟩

theorem classBody_ofDecl (d : TypeDecl) : ClassBody.ofDecl (typeDecl d) = classBody (.ofDecl d) := by
  cases d
  rfl

end Facade

namespace Build

open Facade (classBody componentTypes)

theorem forM_map {α β : Type} (rename : α → β) (f : β → Build Unit) (xs : List α) :
    (xs.map rename).forM f = xs.forM fun x => f (rename x) := by
  induction xs with
  | nil => rfl
  | cons x xs ih => exact congrArg (fun rest => f (rename x) >>= fun _ => rest) ih

theorem methodScopes_facade (b : ClassBuilder) (ss : Scopes) (m : MethodDecl) :
    methodScopes b ss (Facade.methodDecl m) = methodScopes b ss m := by
  let owner? := (b.nextCallable (if m.isConstructor then Symbol.constructorName else m.name.text)).toOption
  unfold methodScopes
  rw [Facade.methodDecl_isConstructor]
  exact Facade.pushTypeParams_typeParams ss m.typeParams fun name =>
    owner?.bind fun owner => (Symbol.ofDeclaration (.typeParameter name) (some owner)).toOption

section

variable (env : Environment) (place : Place) (body : ClassBody) (components : List (Ident × JavaType))

theorem field_facade (d : VarDecl) (doc : Option Comment) (range : Span) :
    member env place (classBody body) (componentTypes components) (.field (Facade.varDecl d) none .zero) =
      member env place body components (.field d doc range) := by
  have type : env.convert place (Facade.varDecl d).type = env.convert place d.type :=
    Facade.convert_typeRef env place d.type
  simp only [member, type]
  exact forM_map Facade.declarator _ d.declarators

theorem method_facade (m : MethodDecl) :
    member env place (classBody body) (componentTypes components) (.method (Facade.methodDecl m)) =
      member env place body components (.method m) := by
  have name : (Facade.methodDecl m).name.text = m.name.text := rfl
  simp only [member, methodScopes_facade, Facade.callableTypes_methodDecl, Facade.methodDecl_isConstructor, name]

theorem member_initializer (isStatic : Bool) (block : Block) :
    member env place body components (.initializer isStatic block) = Pure.pure () := rfl

theorem member_type (d : TypeDecl) : member env place body components (.type d) = Pure.pure () := rfl

/-- A block that initializes does nothing for the class around it. -/
theorem declared_facade (ms : List Member) :
    (Facade.members ms).forM (member env place (classBody body) (componentTypes components)) =
      ms.forM (member env place body components) := by
  induction ms with
  | nil => rw [Facade.members, List.forM, List.forM]
  | cons m rest ih =>
    cases m with
    | field d doc range =>
      rw [Facade.members, List.forM, List.forM, ih, field_facade env place body components d doc range]
    | method m => rw [Facade.members, List.forM, List.forM, ih, method_facade]
    | initializer isStatic block => rw [Facade.members, List.forM, ih, member_initializer, pure_bind]
    | type d => rw [Facade.members, List.forM, List.forM, ih, member_type, member_type]

theorem heads_facade (self : JavaType) :
    heads (classBody body) (componentTypes components) self = heads body components self := by
  unfold heads
  rw [classBody, componentTypes, forM_map, forM_map]
  rfl

theorem accessors_facade : (componentTypes components).forM accessor = components.forM accessor :=
  forM_map _ _ components

theorem members_facade : members env place (classBody body) = members env place body := by
  have components : env.componentTypes place (classBody body).components =
      componentTypes (env.componentTypes place body.components) :=
    Facade.componentTypes_components env place body.components
  have own : (classBody body).members = Facade.members body.members := rfl
  have kind : (classBody body).kind = body.kind := rfl
  unfold members
  simp only [components, own, kind, heads_facade, declared_facade, accessors_facade]

end

end Build

namespace ProjectClasses

theorem addNamed_facade (p : ProjectClasses) (s : Site) : p.addNamed s.facade = p.addNamed s := by
  have params : s.facade.decl.typeParams.map (fun t => t.name.text) =
      s.decl.typeParams.map fun t => t.name.text := by
    rw [Site.facade, Facade.typeDecl_typeParams, List.map_map]
    rfl
  have kind : s.facade.decl.kind = s.decl.kind := Facade.typeDecl_kind s.decl
  unfold addNamed ownerOf?
  rw [s.package_facade, params, kind]
  rfl

theorem named_facade (sites : List Site) (packages : List String) :
    named (sites.map Site.facade) packages = named sites packages := by
  unfold named
  rw [List.foldl_map]
  apply List.foldl_ext
  intro p s _
  exact addNamed_facade p s

section

variable (env : Environment) (config : Config) (s : Site) (c : ClassInfo)

theorem withSupertypes_facade : withSupertypes env config s.facade c = withSupertypes env config s c := by
  unfold withSupertypes
  rw [s.place_facade, show s.facade.decl = Facade.typeDecl s.decl from rfl, Facade.supertypesOf_typeDecl]

theorem withMembers_facade : withMembers env config s.facade c = withMembers env config s c := by
  unfold withMembers
  rw [s.place_facade, show s.facade.decl = Facade.typeDecl s.decl from rfl, Facade.classBody_ofDecl,
    Build.members_facade]

end

theorem refine_facade (p : ProjectClasses) (sites : List Site) {say : Site → ClassInfo → ClassInfo}
    (same : ∀ s c, say s.facade c = say s c) : p.refine (sites.map Site.facade) say = p.refine sites say := by
  unfold refine
  rw [List.foldl_map]
  apply List.foldl_ext
  intro q s _
  simp only [same, show s.facade.name = s.name from rfl]

/-- Nothing of a project is made of what the facades of its files leave out. -/
theorem build_facade (units : List SourceUnit) (external : ExternalTable) (config : Config) :
    build (units.map SourceUnit.facade) external config = build units external config := by
  have sites : (units.map SourceUnit.facade).flatMap Site.ofUnit =
      (units.flatMap Site.ofUnit).map Site.facade := by
    rw [List.flatMap_map, List.map_flatMap]
    exact List.flatMap_congr fun u _ => Site.ofUnit_facade u
  have packages : ((units.map SourceUnit.facade).flatMap fun u => packageNames u.tree) =
      units.flatMap fun u => packageNames u.tree := by
    rw [List.flatMap_map]
    refine List.flatMap_congr fun u _ => ?_
    exact congrArg (fun name => Environment.beginnings (Dotted.steps name)) (Facade.packageName_unit u.tree)
  unfold build
  simp only [sites, packages, named_facade]
  rw [refine_facade _ _ fun s c => withSupertypes_facade _ config s c]
  exact refine_facade _ _ fun s c => withMembers_facade _ config s c

theorem build_laid (l : Layout) (u : SourceUnit) (external : ExternalTable) (config : Config) :
    build [⟨u.file, l.unit u.tree⟩] external config = build [u] external config := by
  have same : [⟨u.file, l.unit u.tree⟩].map SourceUnit.facade = [u].map SourceUnit.facade :=
    congrArg (fun tree => [SourceUnit.mk u.file tree]) (l.facade_unit u.tree)
  rw [← build_facade, same, build_facade]

end ProjectClasses

/-- The facade of a file, if it is a program. -/
def SourceFile.facade? (f : SourceFile) : Option CompilationUnit := (parse f.text).toOption.map Facade.unit

namespace SourceRoot

theorem units_facade (r : SourceRoot) : r.units.map SourceUnit.facade =
    (r.files.map SourceFile.facade?).zipIdx.filterMap fun f => f.1.map fun tree => ⟨f.2, tree⟩ := by
  rw [units, parsed, toList, List.map_map, List.filterMap_map, List.map_filterMap, List.zipIdx_map,
    List.filterMap_map]
  refine List.filterMap_congr fun f _ => ?_
  obtain ⟨⟨path, text⟩, id⟩ := f
  simp only [Function.comp_apply, Prod.map, id_eq, ParsedFile.unit?, ParsedFile.ofSource, SourceFile.facade?]
  cases parse text <;> rfl

theorem index_units (r : SourceRoot) (external : ExternalTable) (config : Config) (id : FileId) :
    (r.index external config).units[id]? = (r.get? id).map fun f =>
      (ParsedFile.ofSource id f).result (.build r.units external config) external config := by
  have all : (r.index external config).units =
      r.parsed.map fun f => f.result (.build r.units external config) external config := rfl
  rw [all, parsed, toList, List.map_map, List.map_map, List.getElem?_map, List.getElem?_zipIdx, Option.map_map,
    Nat.zero_add]
  rfl

/-- Files with the same facades make the same project, in which a file has the same index whatever the other
files have behind their facades. -/
theorem bodies_unseen (external : ExternalTable) (config : Config) :
    (∀ units units' : List SourceUnit, units.map SourceUnit.facade = units'.map SourceUnit.facade →
      ProjectClasses.build units external config = .build units' external config) ∧
    ∀ r r' : SourceRoot, r.files.map SourceFile.facade? = r'.files.map SourceFile.facade? →
      ∀ id, r.get? id = r'.get? id →
        (r.index external config).units[id]? = (r'.index external config).units[id]? := by
  have builds : ∀ units units' : List SourceUnit,
      units.map SourceUnit.facade = units'.map SourceUnit.facade →
        ProjectClasses.build units external config = .build units' external config := by
    intro units units' same
    rw [← ProjectClasses.build_facade units, same, ProjectClasses.build_facade]
  refine ⟨builds, fun r r' same id file => ?_⟩
  -- Files that are no programs count, too: they give no units, but the others keep their numbers.
  have project := builds r.units r'.units (by rw [units_facade, units_facade, same])
  rw [index_units, index_units, file, project]

/-- The facade of a file with one class, which has one method without parameters that returns a number. -/
def oneMethod (type method : String) : CompilationUnit :=
  ⟨none, [], [⟨.classType, ⟨[], []⟩, ⟨type, .zero⟩, [], [], [], [], [], [], [.method ⟨⟨[], []⟩, [],
    some (.primitive "int" .zero), ⟨method, .zero⟩, [], [], none, none, false, none, .zero⟩], none, .zero⟩]⟩

def isOneMethod (type method : String) : CompilationUnit → Bool
  | ⟨none, [], [⟨.classType, ⟨[], []⟩, name, [], [], [], [], [], [], [.method ⟨⟨[], []⟩, [],
      some (.primitive keyword place), callee, [], [], none, none, false, none, range⟩], none, whole⟩]⟩ =>
    name == ⟨type, .zero⟩ && keyword == "int" && place == .zero && callee == ⟨method, .zero⟩ && range == .zero &&
      whole == .zero
  | _ => false

theorem eq_oneMethod {type method : String} {u : CompilationUnit} (h : isOneMethod type method u = true) :
    u = oneMethod type method := by
  unfold isOneMethod at h
  split at h
  · simp only [Bool.and_eq_true, beq_iff_eq] at h
    obtain ⟨⟨⟨⟨⟨rfl, rfl⟩, rfl⟩, rfl⟩, rfl⟩, rfl⟩ := h
    rfl
  · cases h

/-- A method with another body and an initializer more are not seen by the class that extends theirs. -/
theorem bodies_unseen_edited :
    let b := ("B.java", "class B extends A { int g() { return f(); } }")
    let r := ofList [("A.java", "class A { int f() { return 0; } }"), b]
    let r' := ofList [("A.java", "class A { { f(); } int f() { int n = 1; return n; } }"), b]
    r.files.map SourceFile.facade? = r'.files.map SourceFile.facade? ∧ r.get? 1 = r'.get? 1 ∧
      ProjectClasses.build r.units .empty .standard = .build r'.units .empty .standard ∧
      (r.index .empty .standard).units[1]? = (r'.index .empty .standard).units[1]? := by
  intro b r r'
  have read (f : SourceFile) (shape : f.facade?.any (isOneMethod "A" "f") = true) :
      f.facade? = some (oneMethod "A" "f") := by
    obtain ⟨u, facade, one⟩ := (Option.any_eq_true ..).mp shape
    rw [facade, eq_oneMethod one]
  have same : r.files.map SourceFile.facade? = r'.files.map SourceFile.facade? := by
    have edited : SourceFile.facade? ⟨"A.java", "class A { int f() { return 0; } }"⟩ =
        SourceFile.facade? ⟨"A.java", "class A { { f(); } int f() { int n = 1; return n; } }"⟩ := by
      rw [read _ (by decide +kernel), read _ (by decide +kernel)]
    exact congrArg (fun a => [a, SourceFile.facade? ⟨b.1, b.2⟩]) edited
  have file : r.get? 1 = r'.get? 1 := rfl
  have units : r.units.map SourceUnit.facade = r'.units.map SourceUnit.facade := by
    rw [units_facade, units_facade, same]
  exact ⟨same, file, (bodies_unseen .empty .standard).1 _ _ units,
    (bodies_unseen .empty .standard).2 r r' same 1 file⟩

end SourceRoot
end JavaIndex
