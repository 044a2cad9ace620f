import JavaIndex.Proofs.Project.Members

/-! The types of a project that stand outside all bodies. Every type comes after the one around it, so
that each is named; what is said of a class afterwards does not touch its name. -/
namespace JavaIndex

namespace Site

/-- The steps that lead to a declared type. -/
def path (s : Site) : List Descriptor :=
  (Dotted.steps s.package).map .package ++
    (s.name :: s.outer).reverse.map fun name => .type (Dotted.last name)

/-- The symbol of a declared type. -/
def symbol (s : Site) : Symbol := ⟨⟨.project, s.path⟩, .ofDecl s.decl.kind⟩

/-- The class of a declared type, of which nothing but its name is known. -/
def header (s : Site) : ClassInfo :=
  ⟨s.name, s.package, s.symbol, .project s.unit.file, s.decl.typeParams.map fun p => p.name.text,
    none, [], [], [], [], false⟩

theorem symbol_isType (s : Site) : s.symbol.IsType :=
  ⟨rfl, by cases h : s.decl.kind <;> simp [symbol, h, SymbolKind.ofDecl, SymbolKind.isType]⟩

/-- The last of some types that has the name. -/
def latest? (sites : List Site) (name : String) : Option Site := sites.reverse.find? fun s => s.name == name

section

variable {sites more : List Site} {s : Site} {name : String}

theorem latest?_concat : latest? (sites ++ [s]) name = if s.name = name then some s else latest? sites name := by
  unfold latest?
  rw [List.reverse_concat, List.find?_cons]
  by_cases same : s.name = name
  · rw [if_pos same, beq_iff_eq.mpr same]
  · rw [if_neg same, beq_eq_false_iff_ne.mpr same]

theorem latest?_append (other : ∀ s ∈ more, s.name ≠ name) : latest? (sites ++ more) name = latest? sites name := by
  have none : more.reverse.find? (fun s => s.name == name) = none := by
    simpa using other
  rw [latest?, List.reverse_append, List.find?_append, none, Option.none_or, latest?]

theorem latest?_some (found : latest? sites name = some s) : s ∈ sites ∧ s.name = name :=
  ⟨List.mem_reverse.mp (List.mem_of_find?_eq_some found), eq_of_beq (List.find?_some found :)⟩

theorem latest?_isSome (hs : s ∈ sites) : (latest? sites s.name).isSome :=
  List.find?_isSome.mpr ⟨s, List.mem_reverse.mpr hs, beq_self_eq_true _⟩

/-- Where no two have one name, each is the last of its own. -/
theorem latest?_of_nodup (distinct : (sites.map Site.name).Nodup) (hs : s ∈ sites) :
    latest? sites s.name = some s := by
  obtain ⟨s', found⟩ := Option.isSome_iff_exists.mp (latest?_isSome hs)
  obtain ⟨hs', name⟩ := latest?_some found
  rw [found, List.inj_on_of_nodup_map distinct hs' hs name]

end

mutual

theorem nested_longer {unit : SourceUnit} : ∀ (d : TypeDecl) {outer : List String} {name : String},
    ∀ s ∈ nested unit outer name d, name.length ≤ s.name.length
  | ⟨_, _, _, _, _, _, _, _, _, body, _, _⟩, _, _, s, hs => by
    obtain rfl | hs := List.mem_cons.mp hs
    · exact Nat.le_refl _
    · exact Nat.le_of_lt (ofMembers_longer body s hs)

theorem ofMembers_longer {unit : SourceUnit} : ∀ (ms : List Member) {outer : List String} {name : String},
    ∀ s ∈ ofMembers unit outer name ms, name.length < s.name.length
  | [], _, _, _, hs => by cases hs
  | .type d :: rest, _, _, s, hs => by
    obtain hs | hs := List.mem_append.mp hs
    · have longer := nested_longer d s hs
      simp only [String.length_append] at longer
      have dot : ".".length = 1 := rfl
      omega
    · exact ofMembers_longer rest s hs
  | .field _ _ _ :: rest, _, _, s, hs => ofMembers_longer rest s hs
  | .method _ :: rest, _, _, s, hs => ofMembers_longer rest s hs
  | .initializer _ _ :: rest, _, _, s, hs => ofMembers_longer rest s hs

end

/-- The type around a site is the last of its name among some others. -/
def OuterIn (base : List Site) (s : Site) : Prop :=
  ∀ o os, s.outer = o :: os → ∃ s', latest? base o = some s' ∧ s'.outer = os ∧ s'.unit = s.unit

/-- Of some types, each comes after the one around it. -/
def OuterFirst (base sites : List Site) : Prop :=
  ∀ before s after, sites = before ++ s :: after → OuterIn (base ++ before) s

namespace OuterFirst

variable {base sites : List Site}

theorem nil : OuterFirst base [] := by
  intro before s after split
  simp at split

theorem cons {s : Site} (head : OuterIn base s) (tail : OuterFirst (base ++ [s]) sites) :
    OuterFirst base (s :: sites) := by
  intro before s' after split
  cases before with
  | nil =>
    cases split
    simpa using head
  | cons x before =>
    cases split
    simpa using tail before s' after rfl

theorem append {more : List Site} (first : OuterFirst base sites)
    (second : OuterFirst (base ++ sites) more) : OuterFirst base (sites ++ more) := by
  induction sites generalizing base with
  | nil => simpa using second
  | cons s sites ih =>
    refine .cons (by simpa using first [] s sites rfl) (ih ?_ (by simpa using second))
    intro before s' after split
    have := first (s :: before) s' after (by simp [split])
    simpa using this

end OuterFirst

mutual

theorem nested_outerFirst {unit : SourceUnit} : ∀ (d : TypeDecl) {outer : List String} {name : String}
    {base : List Site}, OuterIn base ⟨unit, outer, name, d⟩ →
    OuterFirst base (nested unit outer name d)
  | ⟨_, _, _, _, _, _, _, _, _, body, _, _⟩, _, _, _, found =>
    .cons found (ofMembers_outerFirst body ⟨_, by rw [latest?_concat, if_pos rfl], rfl, rfl⟩)

theorem ofMembers_outerFirst {unit : SourceUnit} : ∀ (ms : List Member) {outer : List String}
    {name : String} {base : List Site},
    (∃ s, latest? base name = some s ∧ s.outer = outer ∧ s.unit = unit) →
    OuterFirst base (ofMembers unit (name :: outer) name ms)
  | [], _, _, _, _ => .nil
  | .type d :: rest, outer, name, base, around => by
    -- What is nested in a type has a longer name, so that the type stays the last of its own.
    have apart : ∀ s ∈ nested unit (name :: outer) (name ++ "." ++ d.name.text) d, s.name ≠ name := by
      intro s hs same
      have longer := nested_longer d s hs
      simp only [same, String.length_append] at longer
      have dot : ".".length = 1 := rfl
      omega
    refine .append (nested_outerFirst d fun _ _ same => by cases same; exact around)
      (ofMembers_outerFirst rest ?_)
    rwa [latest?_append apart]
  | .field _ _ _ :: rest, _, _, _, found => ofMembers_outerFirst rest found
  | .method _ :: rest, _, _, _, found => ofMembers_outerFirst rest found
  | .initializer _ _ :: rest, _, _, _, found => ofMembers_outerFirst rest found

end

theorem ofUnit_outerFirst (unit : SourceUnit) {base : List Site} : OuterFirst base (ofUnit unit) := by
  have all : ∀ (ds : List TypeDecl) (base : List Site), OuterFirst base (ds.flatMap fun d =>
      nested unit [] (Dotted.within unit.tree.packageName d.name.text) d) := by
    intro ds
    induction ds with
    | nil => exact fun _ => .nil
    | cons d ds ih => exact fun _ => .append (nested_outerFirst d nofun) (ih _)
  exact all unit.tree.types base

theorem ofUnits_outerFirst (units : List SourceUnit) : OuterFirst [] (units.flatMap ofUnit) := by
  have all : ∀ base, OuterFirst base (units.flatMap ofUnit) := by
    induction units with
    | nil => exact fun _ => .nil
    | cons u units ih => exact fun _ => .append (ofUnit_outerFirst u) (ih _)
  exact all []

end Site

namespace ProjectClasses

theorem class?_insert (p : ProjectClasses) (c : ClassInfo) (name : String) :
    (p.insert c).class? name = if c.qualifiedName = name then some c else p.class? name := by
  simp only [class?, insert, Std.TreeMap.getElem?_insert, Std.LawfulEqCmp.compare_eq_iff_eq]

theorem addTypeParams (b : ClassBuilder) (names : List String) :
    names.foldl ClassBuilder.addTypeParam b =
      { b with info.typeParams := b.info.typeParams ++ names } := by
  induction names generalizing b with
  | nil => simp
  | cons name names ih => simp [ih, ClassBuilder.addTypeParam]

/-- A class whose owner is named is named, too. -/
theorem addNamed_of_owner {p : ProjectClasses} {s : Site} (owner : Symbol) (found : p.ownerOf? s = some owner)
    (outside : owner.isLocal = false) (holds : owner.kind = .package ∨ owner.kind.isType = true)
    (path : owner.child (.type (Dotted.last s.name)) (.ofDecl s.decl.kind) = s.symbol) :
    p.addNamed s = p.insert s.header := by
  have named := Symbol.ofDeclaration_type outside holds s.symbol_isType.type (Dotted.last s.name)
  rw [show s.symbol.kind = .ofDecl s.decl.kind from rfl, path] at named
  simp [addNamed, found, ClassBuilder.ofName, named, addTypeParams, Site.header]

/-- Each name has the class of the last of some types that have it. -/
def Latest (p : ProjectClasses) (sites : List Site) (described : Site → ClassInfo) : Prop :=
  ∀ name, p.class? name = (Site.latest? sites name).map described

/-- Every class is named, when the one around it has been. -/
theorem addNamed_of_outer {p : ProjectClasses} {s : Site} {sites : List Site} (outer : s.OuterIn sites)
    (named : Latest p sites Site.header) : p.addNamed s = p.insert s.header := by
  cases around : s.outer with
  | nil =>
    refine addNamed_of_owner (.package s.package .project) (by simp [ownerOf?, around]) rfl (.inl rfl) ?_
    simp [Symbol.child, Symbol.package, Symbol.path, Symbol.scheme, Site.symbol, Site.path, around]
  | cons o os =>
    obtain ⟨s', found, rfl, unit⟩ := outer o os around
    obtain ⟨-, rfl⟩ := Site.latest?_some found
    refine addNamed_of_owner s'.symbol ?_ rfl (.inr s'.symbol_isType.type) ?_
    · simp [ownerOf?, around, named s'.name, found, Site.header]
    · simp [Symbol.child, Symbol.path, Symbol.scheme, Site.symbol, Site.path, around, Site.package, unit]

theorem Latest.insert {p : ProjectClasses} {sites : List Site} {described : Site → ClassInfo}
    (latest : Latest p sites described) (s : Site) (named : (described s).qualifiedName = s.name) :
    Latest (p.insert (described s)) (sites ++ [s]) described := by
  intro name
  rw [class?_insert, Site.latest?_concat, named, latest name]
  split <;> rfl

/-- One type after the other is put in. -/
theorem latest_foldl {start : ProjectClasses} {described : Site → ClassInfo}
    {step : ProjectClasses → Site → ProjectClasses} (sites : List Site)
    (empty : ∀ name, start.class? name = none)
    (named : ∀ s ∈ sites, (described s).qualifiedName = s.name)
    (put : ∀ before s after p, sites = before ++ s :: after → Latest p before described →
      step p s = p.insert (described s)) : Latest (sites.foldl step start) sites described := by
  have from_here : ∀ rest before p, sites = before ++ rest → Latest p before described →
      Latest (rest.foldl step p) sites described := by
    -- On what is still to be put in; the table has the last of each name among what has been.
    intro rest
    induction rest with
    | nil =>
      intro before p split h
      rw [split, List.append_nil]
      exact h
    | cons s rest ih =>
      intro before p split h
      rw [List.foldl_cons, put before s rest p split h]
      exact ih (before ++ [s]) _ (by simp [split]) (h.insert s (named s (by simp [split])))
  exact from_here sites [] start rfl empty

theorem named_latest {sites : List Site} (packages : List String) (order : Site.OuterFirst [] sites) :
    Latest (named sites packages) sites Site.header := by
  refine latest_foldl sites (fun name => by simp [class?]) (fun _ _ => rfl)
    fun before s after p split h => addNamed_of_outer ?_ h
  simpa using order before s after split

theorem refine_latest {p : ProjectClasses} {sites : List Site} {described : Site → ClassInfo}
    {say : Site → ClassInfo → ClassInfo} (latest : Latest p sites described)
    (named : ∀ s ∈ sites, ∀ s' ∈ sites, (say s (described s')).qualifiedName = s'.name) :
    Latest (p.refine sites say) sites fun s => say s (described s) := by
  -- Until the last of a name is met, it is said of an earlier one what is known of the last.
  let known (s : Site) : ClassInfo := ((Site.latest? sites s.name).map described).getD (described s)
  have met : ∀ s ∈ sites, ∃ s' ∈ sites, s'.name = s.name ∧ p.class? s.name = some (described s') ∧
      known s = described s' := by
    intro s hs
    obtain ⟨s', found⟩ := Option.isSome_iff_exists.mp (Site.latest?_isSome hs)
    obtain ⟨hs', name⟩ := Site.latest?_some found
    exact ⟨s', hs', name, by rw [latest, found, Option.map_some], by simp [known, found]⟩
  have all : Latest (p.refine sites say) sites fun s => say s (known s) := by
    refine latest_foldl sites (fun name => by simp [class?]) (fun s hs => ?_) fun before s after q split _ => ?_
    · obtain ⟨s', hs', name, -, same⟩ := met s hs
      rw [same, named s hs s' hs', name]
    · obtain ⟨s', -, -, found, same⟩ := met s (by simp [split])
      rw [found, same]
  intro name
  rw [all name]
  cases found : Site.latest? sites name with
  | none => rfl
  | some s =>
    obtain ⟨-, rfl⟩ := Site.latest?_some found
    simp [known, found]

/-- Each of some types has a class under its name, and no other name has one. -/
structure Covered (p : ProjectClasses) (sites : List Site) (described : Site → ClassInfo) : Prop where
  known : ∀ s ∈ sites, p.class? s.name = some (described s)
  only : ∀ name, name ∉ sites.map Site.name → p.class? name = none

theorem Latest.covered {p : ProjectClasses} {sites : List Site} {described : Site → ClassInfo}
    (latest : Latest p sites described) (distinct : (sites.map Site.name).Nodup) : Covered p sites described where
  known s hs := by rw [latest s.name, Site.latest?_of_nodup distinct hs, Option.map_some]
  only name other := by
    have none : Site.latest? sites name = none := by
      by_contra some
      obtain ⟨s, found⟩ := Option.ne_none_iff_exists'.mp some
      obtain ⟨hs, rfl⟩ := Site.latest?_some found
      exact other (List.mem_map_of_mem hs)
    rw [latest name, none, Option.map_none]

/-- What is known of the classes of a project before their members are described. -/
def headed (units : List SourceUnit) (external : ExternalTable) (config : Config) : ProjectClasses :=
  let sites := units.flatMap Site.ofUnit
  let named := named sites (units.flatMap fun u => packageNames u.tree)
  named.refine sites (withSupertypes (.start named external) config)

/-- A class with what it extends and implements. -/
def headerOf (units : List SourceUnit) (external : ExternalTable) (config : Config) (s : Site) : ClassInfo :=
  let named := named (units.flatMap Site.ofUnit) (units.flatMap fun u => packageNames u.tree)
  withSupertypes (.start named external) config s s.header

theorem headerOf_of_members (units : List SourceUnit) (external : ExternalTable) (config : Config) {s : Site}
    (plain : ∀ m ∈ ClassBody.callablesOf s.decl.members, Plain m.name.text) (env : Environment) :
    (withMembers env config s (headerOf units external config s)).MembersOf
      (headerOf units external config s) env (s.place env config) (.ofDecl s.decl) :=
  withMembers_of s.symbol_isType (by simp [headerOf, withSupertypes, Site.header]) plain

/-- A class of the project. -/
def describe (units : List SourceUnit) (external : ExternalTable) (config : Config) (s : Site) : ClassInfo :=
  withMembers (.start (headed units external config) external) config s (headerOf units external config s)

theorem headed_latest (units : List SourceUnit) (external : ExternalTable) (config : Config) :
    Latest (headed units external config) (units.flatMap Site.ofUnit) (headerOf units external config) :=
  refine_latest (named_latest _ (Site.ofUnits_outerFirst units)) fun _ _ _ _ => rfl

/-- The project knows the last class of a name by its declaration. -/
theorem build_latest {units : List SourceUnit} (external : ExternalTable) (config : Config)
    (plain : ∀ s ∈ units.flatMap Site.ofUnit, ∀ m ∈ ClassBody.callablesOf s.decl.members,
      Plain m.name.text) :
    Latest (build units external config) (units.flatMap Site.ofUnit) (describe units external config) := by
  refine refine_latest (headed_latest units external config) fun s hs s' _ => ?_
  rw [(withMembers_of s'.symbol_isType (by simp [headerOf, withSupertypes, Site.header]) (plain s hs)).header]
  rfl

end ProjectClasses

end JavaIndex
