import JavaIndex.Project.Build
import JavaIndex.Proofs.Classpath.Memory
import JavaIndex.Proofs.Classpath.Resources
import JavaIndex.Proofs.Resolve.Origins

/-! Classes stand under their own names, however an environment is made: every table is filled class by class, each
under its name, and what is generated from resources is generated from its name. -/
namespace JavaIndex

namespace Environment

variable {env : Environment}

/-- Classes are found under the names they have. -/
def Named (env : Environment) : Prop := ∀ name c, env.class? name = some c → c.qualifiedName = name

/-- The class is found under its own name. -/
def Knows (env : Environment) (c : ClassInfo) : Prop := env.class? c.qualifiedName = some c

theorem Named.knows (named : env.Named) {name : String} {c : ClassInfo} (found : env.class? name = some c) :
    env.Knows c := by
  rw [Knows, named name c found, found]

/-- A class is declared in a body, in the project or in a library, or it is generated. -/
theorem class?_source {name : String} {c : ClassInfo} (found : env.class? name = some c) :
    env.locals[name]? = some c ∨ env.project.classes[name]? = some c ∨ env.external.classes[name]? = some c ∨
      env.external.resource? name = some (.ofClass c) := by
  unfold Environment.class? ExternalTable.class? at found
  obtain found | ⟨-, found⟩ := Option.or_eq_some_iff.mp found
  · obtain found | ⟨-, found⟩ := Option.or_eq_some_iff.mp found
    · exact .inl found
    · exact .inr (.inl found)
  · obtain found | ⟨-, found⟩ := Option.or_eq_some_iff.mp found
    · exact .inr (.inr (.inl found))
    · obtain ⟨entry, made, isClass⟩ := Option.bind_eq_some_iff.mp found
      cases entry with
      | ofClass info => cases isClass; exact .inr (.inr (.inr made))
      | constant field => cases isClass

end Environment

/-- Every class stands under its own name. -/
def ClassInfo.Keyed (classes : Std.TreeMap String ClassInfo) : Prop :=
  ∀ (name : String) (c : ClassInfo), classes[name]? = some c → c.qualifiedName = name

namespace ClassInfo.Keyed

variable {classes more : Std.TreeMap String ClassInfo}

theorem empty : Keyed ∅ := by
  intro name c found
  simp at found

theorem insert (keyed : Keyed classes) (c : ClassInfo) : Keyed (classes.insert c.qualifiedName c) := by
  intro name d found
  simp only [Std.TreeMap.getElem?_insert, Std.LawfulEqCmp.compare_eq_iff_eq] at found
  split at found
  · cases found
    assumption
  · exact keyed name d found

theorem insertMany (keyed : Keyed classes) (others : Keyed more) : Keyed (classes.insertMany more.toList) := by
  intro name c found
  rw [Std.TreeMap.getElem?_insertMany_list, Option.or_eq_some_iff, List.findSomeRev?_eq_findSome?_reverse] at found
  obtain found | ⟨-, found⟩ := found
  · obtain ⟨⟨key, d⟩, listed, same⟩ := List.exists_of_findSome?_eq_some found
    rw [List.mem_reverse, Std.TreeMap.mem_toList_iff_getElem?_eq_some] at listed
    simp only [Std.LawfulEqCmp.compare_eq_iff_eq, Option.ite_none_right_eq_some, Option.some.injEq] at same
    obtain ⟨rfl, rfl⟩ := same
    exact others _ _ listed
  · exact keyed name c found

end ClassInfo.Keyed

/-! Classes of libraries. -/

namespace ExternalTable

variable {t : ExternalTable}

/-- What one request preserves, unless it merges a table that is in disorder. -/
theorem serve_keyed (faithful : t.Faithful) (keyed : ClassInfo.Keyed t.classes) {r : Request}
    (merged : ∀ other, r = .merge other → ClassInfo.Keyed other.classes) :
    ClassInfo.Keyed (t.serve r).2.classes := by
  have kept {u : ExternalTable} (h : u.forgetful = t.forgetful) : ClassInfo.Keyed u.classes := by
    have same : u.forgetful.classes = t.forgetful.classes := by rw [h]
    exact same ▸ keyed
  cases r with
  | insert c => exact keyed.insert c
  | addResourcePackage package => exact keyed
  | merge other => exact keyed.insertMany (merged other rfl)
  | findClass name => exact kept (recallClass_recalls faithful name).kept
  | findConstant c name => exact kept (recallConstant_recalls faithful c name).kept
  | findName name kind => exact kept (recallName_recalls faithful name kind).kept

theorem serveAll_keyed (faithful : t.Faithful) (keyed : ClassInfo.Keyed t.classes) {requests : List Request}
    (merged : ∀ other, .merge other ∈ requests → ClassInfo.Keyed other.classes) :
    ClassInfo.Keyed (t.serveAll requests).classes := by
  induction requests generalizing t with
  | nil => exact keyed
  | cons r rest ih =>
    refine ih (serve_faithful faithful r).1 ?_ fun other later => merged other (List.mem_cons_of_mem _ later)
    exact serve_keyed faithful keyed fun other same => merged other (same ▸ List.mem_cons_self)

theorem foldl_insert_resources (cs : List ClassInfo) (t : ExternalTable) :
    (cs.foldl insert t).resourcePackages = t.resourcePackages := by
  induction cs generalizing t with
  | nil => rfl
  | cons c cs ih => exact ih _

theorem mem_foldl_insert {cs : List ClassInfo} {name : String} {c : ClassInfo}
    (found : (cs.foldl insert t).classes[name]? = some c) : c ∈ cs ∨ t.classes[name]? = some c := by
  induction cs generalizing t with
  | nil => exact .inr found
  | cons d cs ih =>
    obtain later | before := ih found
    · exact .inl (List.mem_cons_of_mem _ later)
    · simp only [insert, Std.TreeMap.getElem?_insert] at before
      split at before
      · cases before
        exact .inl List.mem_cons_self
      · exact .inr before

theorem foldl_insert_keyed (cs : List ClassInfo) (keyed : ClassInfo.Keyed t.classes) :
    ClassInfo.Keyed (cs.foldl insert t).classes := by
  induction cs generalizing t with
  | nil => exact keyed
  | cons c cs ih => exact ih (keyed.insert c)

end ExternalTable

/-! Classes of a project. -/

namespace ProjectClasses

/-- Every file of a project can only put in classes under their names. -/
theorem foldl_keyed {step : ProjectClasses → Site → ProjectClasses}
    (keeps : ∀ p s, ClassInfo.Keyed p.classes → ClassInfo.Keyed (step p s).classes) (sites : List Site)
    {p : ProjectClasses} (keyed : ClassInfo.Keyed p.classes) : ClassInfo.Keyed (sites.foldl step p).classes := by
  induction sites generalizing p with
  | nil => exact keyed
  | cons s sites ih => exact ih (keeps p s keyed)

theorem refine_keyed (p : ProjectClasses) (sites : List Site) (say : Site → ClassInfo → ClassInfo) :
    ClassInfo.Keyed (p.refine sites say).classes := by
  refine foldl_keyed (fun next s keyed => ?_) sites .empty
  split
  · exact keyed.insert _
  · exact keyed

end ProjectClasses

/-- A class of a library with some type variables, supertypes and fields. -/
def ClassInfo.ofLibrary (package simple : String) (typeParams : List String) (superclass : Option JavaType)
    (interfaces : List JavaType) (fields : List FieldInfo) : ClassInfo :=
  let symbol := (Symbol.package package .external).child (.type simple) .classType
  { Resources.bareClass package (Dotted.within package simple) symbol with
    typeParams, superclass, interfaces, fields }

namespace Environment

variable {env : Environment}

/-- All classes stand under their own names. -/
structure Keyed (env : Environment) : Prop where
  locals : ClassInfo.Keyed env.locals
  project : ClassInfo.Keyed env.project.classes
  external : ClassInfo.Keyed env.external.classes

theorem Keyed.named (keyed : env.Keyed) : env.Named := by
  intro name c found
  obtain found | found | found | made := class?_source found
  · exact keyed.locals name c found
  · exact keyed.project name c found
  · exact keyed.external name c found
  · exact (env.external.resource?_class made).1

theorem start_keyed (units : List SourceUnit) (config : Config) {external : ExternalTable}
    (keyed : ClassInfo.Keyed external.classes) :
    (start (ProjectClasses.build units external config) external).Keyed :=
  ⟨.empty, ProjectClasses.refine_keyed _ _ _, keyed⟩

/-- A class declared in a body stands under its name as well. -/
theorem Keyed.addLocal (keyed : env.Keyed) (c : ClassInfo) : (env.addLocal c).Keyed :=
  ⟨keyed.locals.insert c, keyed.project, keyed.external⟩

/-- Nothing but some classes of a library. -/
def ofLibrary (cs : List ClassInfo) : Environment := start .empty (cs.foldl ExternalTable.insert .empty)

theorem ofLibrary_keyed (cs : List ClassInfo) : (ofLibrary cs).Keyed :=
  ⟨.empty, .empty, ExternalTable.foldl_insert_keyed cs .empty⟩

theorem mem_of_ofLibrary {cs : List ClassInfo} {name : String} {c : ClassInfo}
    (found : (ofLibrary cs).class? name = some c) : c ∈ cs := by
  obtain bound | declared | listed | made := class?_source found
  · simp [ofLibrary, start] at bound
  · simp [ofLibrary, start, ProjectClasses.empty] at declared
  · exact (ExternalTable.mem_foldl_insert listed).resolve_right (by simp [ExternalTable.empty])
  · obtain ⟨parts, -, generated⟩ := Option.bind_eq_some_iff.mp made
    have none : (ofLibrary cs).external.isResourcePackage parts.package = false := by
      rw [ExternalTable.isResourcePackage, ofLibrary, start, ExternalTable.foldl_insert_resources]
      simp [ExternalTable.empty]
    simp [none] at generated

end Environment
end JavaIndex
