import JavaIndex.Proofs.Project.Plans
import JavaIndex.Proofs.Project.Rebuilt

/-! The classes of the same files in another order and under other numbers. The classes are put into a table
one after the other, but each is found under its own name, so the order does not matter as long as no two
have one name; and each step sees nothing but such tables. -/
namespace JavaIndex

namespace Site

/-- The same declaration, in a file without a number. -/
def unnumbered (s : Site) : Site := { s with unit.file := 0 }

mutual

theorem nested_unnumbered (u : SourceUnit) : ∀ (d : TypeDecl) (outer : List String) (name : String),
    nested ⟨0, u.tree⟩ outer name d = (nested u outer name d).map unnumbered
  | ⟨_, _, _, _, _, _, _, _, _, body, _, _⟩, outer, name => by
    rw [nested, nested, List.map_cons, ofMembers_unnumbered u body]
    rfl

theorem ofMembers_unnumbered (u : SourceUnit) : ∀ (ms : List Member) (outer : List String) (name : String),
    ofMembers ⟨0, u.tree⟩ outer name ms = (ofMembers u outer name ms).map unnumbered
  | [], _, _ => rfl
  | .type d :: rest, outer, name => by
    rw [ofMembers, ofMembers, List.map_append, ofMembers_unnumbered u rest, nested_unnumbered u d]
  | .field _ _ _ :: rest, outer, name => by rw [ofMembers, ofMembers, ofMembers_unnumbered u rest]
  | .method _ :: rest, outer, name => by rw [ofMembers, ofMembers, ofMembers_unnumbered u rest]
  | .initializer _ _ :: rest, outer, name => by rw [ofMembers, ofMembers, ofMembers_unnumbered u rest]

end

theorem ofUnit_unnumbered (u : SourceUnit) : ofUnit ⟨0, u.tree⟩ = (ofUnit u).map unnumbered := by
  rw [ofUnit, ofUnit, List.map_flatMap]
  exact List.flatMap_congr fun d _ => nested_unnumbered u d [] _

end Site

namespace ProjectClasses

variable {p q : ProjectClasses} {sites sites' : List Site} {described described' : Site → ClassInfo}

theorem Covered.mem_iff (covered : Covered p sites described) (name : String) :
    name ∈ p.classes ↔ name ∈ sites.map Site.name := by
  rw [Std.TreeMap.mem_iff_isSome_getElem?]
  constructor
  · intro known
    by_contra other
    have none : p.classes[name]? = none := covered.only name other
    rw [none] at known
    cases known
  · intro declared
    obtain ⟨s, hs, rfl⟩ := List.mem_map.mp declared
    have some : p.classes[s.name]? = some (described s) := covered.known s hs
    rw [some]
    rfl

theorem Covered.size (covered : Covered p sites described) (distinct : (sites.map Site.name).Nodup) :
    p.size = sites.length := by
  have names : p.classes.keys.Nodup :=
    Std.TreeMap.distinct_keys.imp fun different same => different (Std.LawfulEqCmp.compare_eq_iff_eq.mpr same)
  have same : p.classes.keys.Perm (sites.map Site.name) :=
    (List.perm_ext_iff_of_nodup names distinct).mpr fun name =>
      Std.TreeMap.mem_keys.trans (covered.mem_iff name)
  rw [ProjectClasses.size, ← Std.TreeMap.length_keys, same.length_eq, List.length_map]

/-- Two lists of declarations differ in their order and in the numbers of files. -/
def SameSites (sites sites' : List Site) : Prop :=
  (sites.map Site.unnumbered).Perm (sites'.map Site.unnumbered)

namespace SameSites

variable (same : SameSites sites sites')

include same

theorem names : (sites.map Site.name).Perm (sites'.map Site.name) := by
  have name : Site.name ∘ Site.unnumbered = Site.name := rfl
  have both := same.map Site.name
  rwa [List.map_map, List.map_map, name] at both

theorem partner {s : Site} (hs : s ∈ sites) : ∃ s' ∈ sites', s'.unnumbered = s.unnumbered :=
  List.mem_map.mp (same.subset (List.mem_map_of_mem hs))

end SameSites

/-- Of the same declarations, described the same way, come projects that are alike. -/
theorem Covered.alike (covered : Covered p sites described) (covered' : Covered q sites' described')
    (distinct : (sites.map Site.name).Nodup) (same : SameSites sites sites')
    (agree : ∀ s s' : Site, s'.unnumbered = s.unnumbered →
      Homes.blurred.classInfo (described s) = Homes.blurred.classInfo (described' s'))
    (packages : ∀ package, p.hasPackage package = q.hasPackage package) : p.Alike q where
  classes name := by
    by_cases declared : name ∈ sites.map Site.name
    · obtain ⟨s, hs, rfl⟩ := List.mem_map.mp declared
      obtain ⟨s', hs', one⟩ := same.partner hs
      have name : s'.unnumbered.name = s.unnumbered.name := congrArg Site.name one
      rw [covered.known s hs, show s.name = s'.name from name.symm, covered'.known s' hs', Option.map_some,
        Option.map_some, agree s s' one]
    · rw [covered.only name declared, covered'.only name fun there => declared (same.names.mem_iff.mpr there)]
  size := by
    rw [covered.size distinct, covered'.size (same.names.nodup_iff.mp distinct)]
    simpa using same.length_eq
  packages := packages

/-! The packages stay as they were at the start. -/

theorem packages_foldl {step : ProjectClasses → Site → ProjectClasses}
    (keeps : ∀ p s, (step p s).packages = p.packages) (sites : List Site) (start : ProjectClasses) :
    (sites.foldl step start).packages = start.packages := by
  induction sites generalizing start with
  | nil => rfl
  | cons s sites ih => rw [List.foldl_cons, ih, keeps]

theorem packages_named (sites : List Site) (packages : List String) :
    (named sites packages).packages = Std.TreeSet.ofList packages := by
  refine packages_foldl (fun p s => ?_) sites _
  unfold addNamed
  split
  · rfl
  · split <;> rfl

theorem packages_refine (p : ProjectClasses) (sites : List Site) (say : Site → ClassInfo → ClassInfo) :
    (p.refine sites say).packages = p.packages := by
  refine packages_foldl (fun q s => ?_) sites _
  split <;> rfl

theorem packages_headed (units : List SourceUnit) (external : ExternalTable) (config : Config) :
    (headed units external config).packages =
      Std.TreeSet.ofList (units.flatMap fun u => packageNames u.tree) :=
  (packages_refine _ _ _).trans (packages_named _ _)

theorem packages_build (units : List SourceUnit) (external : ExternalTable) (config : Config) :
    (build units external config).packages =
      Std.TreeSet.ofList (units.flatMap fun u => packageNames u.tree) :=
  (packages_refine _ _ _).trans (packages_headed units external config)

theorem headed_covered {units : List SourceUnit} (external : ExternalTable) (config : Config)
    (separate : SourceUnit.Separate units) :
    Covered (headed units external config) (SourceUnit.sites units) (headerOf units external config) :=
  (headed_latest units external config).covered separate

/-! Two ways to say more of a class do the same, if they see the same. -/

section

variable (alike : p.Alike q) (external : ExternalTable) (config : Config) {s s' : Site} {c c' : ClassInfo}
  (one : s'.unnumbered = s.unnumbered)
  (same : Homes.blurred.classInfo c = Homes.blurred.classInfo c')

include alike one same

theorem withSupertypes_alike :
    Homes.blurred.classInfo (withSupertypes (.start p external) config s c) =
      Homes.blurred.classInfo (withSupertypes (.start q external) config s' c') := by
  rw [← withSupertypes_moved (alike.moves external) config s c,
    ← withSupertypes_moved ((Alike.refl q).moves external) config s' c', same]
  change withSupertypes _ config s.unnumbered _ = withSupertypes _ config s'.unnumbered _
  rw [one]

theorem withMembers_alike :
    Homes.blurred.classInfo (withMembers (.start p external) config s c) =
      Homes.blurred.classInfo (withMembers (.start q external) config s' c') := by
  rw [← withMembers_moved (alike.moves external) config s c,
    ← withMembers_moved ((Alike.refl q).moves external) config s' c', same]
  change withMembers _ config s.unnumbered _ = withMembers _ config s'.unnumbered _
  rw [one]

end

/-! From file to file. -/

section

variable {units units' : List SourceUnit} (same : (units.map SourceUnit.tree).Perm (units'.map SourceUnit.tree))

theorem header_unnumbered (s : Site) :
    Homes.blurred.classInfo s.unnumbered.header = Homes.blurred.classInfo s.header := rfl

theorem unnumbered_sites (units : List SourceUnit) : (SourceUnit.sites units).map Site.unnumbered =
    (units.map SourceUnit.tree).flatMap fun tree => Site.ofUnit ⟨0, tree⟩ := by
  rw [SourceUnit.sites, List.map_flatMap, List.flatMap_map]
  exact List.flatMap_congr fun u _ => (Site.ofUnit_unnumbered u).symm

include same

theorem sameSites : SameSites (SourceUnit.sites units) (SourceUnit.sites units') := by
  rw [SameSites, unnumbered_sites, unnumbered_sites]
  exact same.flatMap_right _

theorem samePackages (package : String) :
    (Std.TreeSet.ofList (units.flatMap fun u => packageNames u.tree)).contains package =
      (Std.TreeSet.ofList (units'.flatMap fun u => packageNames u.tree)).contains package := by
  have trees (us : List SourceUnit) :
      (us.flatMap fun u => packageNames u.tree) = (us.map SourceUnit.tree).flatMap packageNames :=
    (List.flatMap_map ..).symm
  rw [Std.TreeSet.contains_ofList, Std.TreeSet.contains_ofList, trees, trees]
  exact (same.flatMap_right packageNames).contains_eq

variable (separate : SourceUnit.Separate units) (external : ExternalTable) (config : Config)

include separate

theorem separate_of_same : SourceUnit.Separate units' := (sameSites same).names.nodup_iff.mp separate

theorem named_alike :
    (named (SourceUnit.sites units) (units.flatMap fun u => packageNames u.tree)).Alike
      (named (SourceUnit.sites units') (units'.flatMap fun u => packageNames u.tree)) := by
  have known {us : List SourceUnit} (separate : SourceUnit.Separate us) :=
    (named_latest (us.flatMap fun u => packageNames u.tree) (Site.ofUnits_outerFirst us)).covered separate
  refine (known separate).alike (known (separate_of_same same separate)) separate (sameSites same) ?_ ?_
  · intro s s' one
    rw [← header_unnumbered s, ← header_unnumbered s', one]
  · intro package
    rw [hasPackage, hasPackage, packages_named, packages_named, samePackages same]

theorem headerOf_alike (s s' : Site) (one : s'.unnumbered = s.unnumbered) :
    Homes.blurred.classInfo (headerOf units external config s) =
      Homes.blurred.classInfo (headerOf units' external config s') :=
  withSupertypes_alike (named_alike same separate) external config one (by
    rw [← header_unnumbered s, ← header_unnumbered s', one])

theorem headed_alike : (headed units external config).Alike (headed units' external config) := by
  refine (headed_covered external config separate).alike
    (headed_covered external config (separate_of_same same separate)) separate (sameSites same)
    (headerOf_alike same separate external config) fun package => ?_
  rw [hasPackage, hasPackage, packages_headed, packages_headed, samePackages same]

theorem build_alike (worded : ∀ u ∈ units, u.tree.Worded) :
    (build units external config).Alike (build units' external config) := by
  have worded' : ∀ u ∈ units', u.tree.Worded := by
    intro u' hu'
    obtain ⟨u, hu, tree⟩ := List.mem_map.mp (same.symm.subset (List.mem_map_of_mem hu'))
    exact tree ▸ worded u hu
  refine (build_known external config separate worded).alike
    (build_known external config (separate_of_same same separate) worded') separate (sameSites same) ?_ ?_
  · intro s s' one
    exact withMembers_alike (headed_alike same separate external config) external config one
      (headerOf_alike same separate external config s s' one)
  · intro package
    rw [hasPackage, hasPackage, packages_build, packages_build, samePackages same]

end

end ProjectClasses
end JavaIndex
