import JavaIndex.Proofs.Resolve.Traversal
import JavaIndex.Proofs.Text.Segments

/-! The way through a whole file. At its end everything in the file has been resolved, nothing is expected
any more, and every type that stands outside all bodies is defined as the project describes it. -/
namespace JavaIndex

open ClassName (Mentionable)

variable {w : World} {since t u : Moment}

/-- The file of a project, as it is resolved with the project and the libraries. -/
def World.ofUnit (u : SourceUnit) (source : String) (project : ProjectClasses) (external : ExternalTable)
    (config : Config) (distinct lax : Prop) : World where
  lines := .ofText source
  policy := config.localNumbering
  sites := Site.ofUnit u
  project := project
  external := external
  classes b := ∃ n ∈ Nodes.unit u.tree, n.part = .ofClass b
  distinct := distinct
  lax := lax
  expected _ := False

/-- The moment before anything is resolved. -/
def Moment.start (project : ProjectClasses) (external : ExternalTable) (config : Config) : Moment :=
  ⟨.start project external config, ⟨[], [], 0⟩⟩

theorem Ident.dotted_free {names : List Ident} {c : Char} (other : c ≠ '.')
    (free : ∀ n ∈ names, c ∉ n.text.toList) : c ∉ (Ident.dotted names).toList :=
  notMem_intercalate (by simpa using other) (by simpa using free)

theorem Ident.dotted_unmarked {names : List Ident} (plain : ∀ n ∈ names, Plain n.text) :
    '<' ∉ (Ident.dotted names).toList :=
  dotted_free (by decide) fun n hn => (plain n hn).2

theorem Imports.single_mentionable {u : CompilationUnit} {implicit : List String} {simple name : String}
    (plain : ∀ i ∈ u.imports, ∀ n ∈ i.path, Plain n.text)
    (found : (Imports.ofUnit u implicit).single? simple = some name) : Mentionable name := by
  obtain ⟨⟨n, x⟩, hx, rfl⟩ := Option.map_eq_some_iff.mp found
  obtain ⟨i, hi, made⟩ := List.mem_filterMap.mp (List.mem_of_find?_eq_some hx)
  unfold singleOf? at made
  split at made
  · cases made
  · obtain ⟨last, -, same⟩ := Option.map_eq_some_iff.mp made
    cases same
    exact ClassName.mentionable_of_unmarked (Ident.dotted_unmarked (plain i hi))

namespace Nodes

theorem mem_importDecls {is : List ImportDecl} {i : ImportDecl} {name : Ident} (hi : i ∈ is)
    (hname : name ∈ i.path) : .ofPart (.mention name) ∈ importDecls is := by
  induction is with
  | nil => cases hi
  | cons first rest ih =>
    obtain rfl | hi := List.mem_cons.mp hi
    · exact List.mem_append_left _ (List.mem_map_of_mem hname)
    · exact List.mem_append_right _ (ih hi)

end Nodes

theorem Ready.start {u : SourceUnit} {source : String} {project : ProjectClasses}
    {external : ExternalTable} {config : Config} {distinct lax : Prop}
    (plain : ∀ i ∈ u.tree.imports, ∀ n ∈ i.path, Plain n.text) :
    Ready (.ofUnit u source project external config distinct lax) (.ofUnit u source config)
      (.start project external config) where
  epochs g hg := by cases hg
  numbers g hg := by cases hg
  homes g hg := by cases hg
  lines := rfl
  imports simple name found := Imports.single_mentionable plain found
  project := rfl
  external := rfl
  policy := rfl
  named name c known := by simp [Moment.start, Moment.locals, Progress.start, Environment.start] at known
  known name c known := by simp [Moment.start, Moment.locals, Progress.start, Environment.start] at known
  typeParams name vars known := by simp [Moment.start, Progress.start] at known
  scopes sc hsc := by cases hsc
  definitions := rfl
  references o ho := by cases ho
  infos := ⟨List.nodup_nil, fun id => by simp [Moment.start, Progress.start, Emission.empty]⟩
  given _ e he := by cases he
  enclosing o ho := by cases ho
  oneEpoch _ := rfl

/-! Types outside all bodies. -/

mutual

/-- What the project declares is known, with all that is nested in it. -/
theorem Known.ofSite {w : World} (grounded : w.Grounded) (t : Moment) : ∀ (d : TypeDecl) {name : String},
    (∃ site ∈ w.sites, site.name = name ∧ site.decl = d) → Known w t name d
  | ⟨kind, mods, name, params, extending, implementing, permitting, components, constants, body, doc,
      range⟩, _, ⟨site, hsite, rfl, written⟩ => by
    obtain ⟨c, inProject, inType, -⟩ := grounded.sites site hsite
    obtain ⟨named, unmarked⟩ := grounded.named site.name c inProject
    refine .intro (.project unmarked inProject) named (.inl ⟨site, hsite, ?_, inProject, rfl⟩)
      (.inl inType) (Known.ofMembers grounded t body fun inner hinner => ?_)
    · rw [written]
    · exact grounded.nested site hsite inner (by rw [written]; exact hinner)

theorem Known.ofMembers {w : World} (grounded : w.Grounded) (t : Moment) : ∀ (ms : List Member) {name : String},
    (∀ inner ∈ ClassBody.typesOf ms,
      ∃ site ∈ w.sites, site.name = name ++ "." ++ inner.name.text ∧ site.decl = inner) →
    ∀ inner ∈ ClassBody.typesOf ms, Known w t (name ++ "." ++ inner.name.text) inner
  | [], _, _, _, hinner => nomatch hinner
  | .type d :: rest, _, sites, inner, hinner => by
    obtain same | hinner := List.mem_cons.mp hinner
    · rw [same]
      exact Known.ofSite grounded t d (sites d List.mem_cons_self)
    · exact Known.ofMembers grounded t rest (fun d hd => sites d (List.mem_cons_of_mem _ hd)) inner hinner
  | .field _ _ _ :: rest, _, sites, inner, hinner => Known.ofMembers grounded t rest sites inner hinner
  | .method _ :: rest, _, sites, inner, hinner => Known.ofMembers grounded t rest sites inner hinner
  | .initializer _ _ :: rest, _, sites, inner, hinner => Known.ofMembers grounded t rest sites inner hinner

end

theorem Site.mem_ofUnit {u : SourceUnit} {d : TypeDecl} (hd : d ∈ u.tree.types) :
    ∃ site ∈ Site.ofUnit u,
      site.name = Dotted.within u.tree.packageName d.name.text ∧ site.decl = d := by
  refine ⟨⟨u, [], _, d⟩, List.mem_flatMap.mpr ⟨d, hd, ?_⟩, rfl, rfl⟩
  cases d
  exact List.mem_cons_self

namespace Walks

theorem topTypes (lawful : w.Lawful) (package : String) {ds : List TypeDecl}
    (sites : ∀ d ∈ ds, ∃ site ∈ w.sites, site.name = Dotted.within package d.name.text ∧ site.decl = d) :
    Walks w since (Nodes.topTypes ds) (Resolve.topTypes package ds) fun _ t =>
      ∀ d ∈ ds, Settled w t (Dotted.within package d.name.text) d := by
  induction ds generalizing since with
  | nil => exact Walks.pure fun _ _ => by simp
  | cons d ds ih =>
    have walk : Walks w since (Nodes.typeDecl d)
        (Resolve.typeDecl (Resolve.knownClass d (Dotted.within package d.name.text)) d)
        fun _ t => Settled w t (Dotted.within package d.name.text) d := by
      rw [Resolve.typeDecl_found]
      refine (knownClass (.ofSite lawful since d (sites d List.mem_cons_self))).bind_nil fun r t _ h => ?_
      obtain ⟨c, vars, rfl, found, named, backed⟩ := h
      exact (Traversal.typeDecl lawful d backed).weaken fun _ u le done =>
        done.settled (found.mono le) named
    refine walk.bind fun _ t _ first => ?_
    refine (ih fun d' hd => sites d' (List.mem_cons_of_mem _ hd)).weaken fun _ u le rest d' hd => ?_
    obtain rfl | hd := List.mem_cons.mp hd
    · exact first.mono le
    · exact rest d' hd

theorem importDecls {since : Moment} (lawful : w.Lawful) : ∀ is : List ImportDecl,
    Resolves w since (Nodes.importDecls is) (Resolve.importDecls is)
  | [] => Walks.pure fun _ _ => trivial
  | i :: rest => (importDecl lawful i).seq fun _ _ => importDecls lawful rest

theorem unit (since : Moment) (lawful : w.Lawful) (u : CompilationUnit)
    (sites : ∀ d ∈ u.types, ∃ site ∈ w.sites,
      site.name = Dotted.within u.packageName d.name.text ∧ site.decl = d) :
    Walks w since (Nodes.unit u) (Resolve.unit u) fun _ t =>
      ∀ d ∈ u.types, Settled w t (Dotted.within u.packageName d.name.text) d := by
  refine (environment lawful).bind_nil fun env t _ _ => ?_
  refine withScopes (scopeless_of_mono fun _ _ _ settled le d hd => (settled d hd).mono le)
    (fun _ _ ready _ => pushed_sound ready .package _) ?_
  have inner : ∀ t, Walks w t (Nodes.importDecls u.imports ++ Nodes.topTypes u.types)
      (Resolve.importDecls u.imports >>= fun _ => Resolve.topTypes u.packageName u.types)
      fun _ t => ∀ d ∈ u.types, Settled w t (Dotted.within u.packageName d.name.text) d :=
    fun _ => (importDecls lawful u.imports).seq fun _ _ => topTypes lawful _ sites
  cases package : u.package with
  | none =>
    simp only [Nodes.unit, package]
    exact inner t
  | some p =>
    simp only [Nodes.unit, package]
    exact (Traversal.annotations lawful p.annotations).seq fun _ _ => inner _

end Walks

/-- Everything in a file is resolved. -/
theorem SourceUnit.resolved {u : SourceUnit} {source : String} {project : ProjectClasses}
    {external : ExternalTable} {config : Config} {distinct lax : Prop} {w : World}
    (same : w = .ofUnit u source project external config distinct lax) (lawful : w.Lawful)
    (fine : ∀ n ∈ Nodes.unit u.tree, Fine w n) :
    ∃ t, (Resolve.unit u.tree (.ofUnit u source config) (.start project external config)).2 = t.progress ∧
      Ready w (.ofUnit u source config) t ∧
      Covers w (Nodes.unit u.tree) (.start project external config) t ∧
      ∀ d ∈ u.tree.types, Settled w t (Dotted.within u.tree.packageName d.name.text) d := by
  subst same
  have plain : ∀ i ∈ u.tree.imports, ∀ n ∈ i.path, Plain n.text := fun i hi n hn =>
    fine (.ofPart (.mention n)) (List.mem_append_right _ (List.mem_append_left _
      (Nodes.mem_importDecls hi hn)))
  obtain ⟨t, run, -, -, ready, covers, settled⟩ := Walks.unit (.start project external config) lawful
    u.tree (fun d hd => Site.mem_ofUnit hd) fine _ _ (.start plain) (le_refl _)
  exact ⟨t, run, ready, covers, settled⟩

end JavaIndex
