import JavaIndex.Proofs.Index.Sorted
import JavaIndex.Proofs.Project.Mentions
import JavaIndex.Proofs.Project.Placeholders

/-! Problems with unknown names. If unknown names are marked, then the marks in the index of a program and the
problems found with unknown names match: there is one problem for each unknown name, over its first mark. -/
namespace JavaIndex

theorem UnknownName.first_mark (lines : LineIndex) (n : UnknownName) :
    ∃ m ∈ n.marks lines, m.region = lines.region n.first.range := by
  have first : n.symbols ≠ [] := by simp [symbols, Symbol.placeholderChain, idents]
  obtain ⟨s, ss, symbols⟩ := List.exists_cons_of_ne_nil first
  refine ⟨_, List.mem_map_of_mem (a := (n.first, s)) ?_, rfl⟩
  rw [symbols, idents, List.zip_cons_cons]
  exact List.mem_cons_self

/-- Mentions that stand apart are told by where they stand. -/
theorem Occurrence.eq_of_region {os : List Occurrence} (apart : os.Pairwise fun a b => a.region.Apart b.region)
    (nonempty : ∀ o ∈ os, o.region.Nonempty) {a b : Occurrence} (ha : a ∈ os) (hb : b ∈ os)
    (same : a.region = b.region) : a = b := by
  by_contra different
  have symmetric : Std.Symm fun a b : Occurrence => a.region.Apart b.region := ⟨fun _ _ => Region.Apart.symm⟩
  exact (apart.forall ha hb different).ne (nonempty a ha) same

/-- Nothing is left out of a mention without documentation. -/
theorem Emission.Undocumented.eq {shown noted : Occurrence} (h : Undocumented shown noted)
    (plain : noted.documentation = none) : shown = noted := by
  rcases h with rfl | rfl
  · rfl
  · obtain ⟨region, symbol, role, enclosing, documentation⟩ := noted
    cases plain
    rfl

namespace SourceUnit

/-- The mentions noted of a program stand apart, each over some text. -/
theorem noted_apart {source : String} {tree : CompilationUnit} (parsed : parse source = .ok tree) (file : FileId)
    (project : ProjectClasses) (external : ExternalTable) (config : Config) :
    let os := (noted ⟨file, tree⟩ source project external config).occurrences
    (os.Pairwise fun a b => a.region.Apart b.region) ∧ ∀ o ∈ os, o.region.Nonempty := by
  intro os
  let w := Twins.once file source
  have set : w.Set (.ofUnit ⟨file, w.first.unit tree⟩ source config) (.ofUnit ⟨file, w.second.unit tree⟩ source config) :=
    .ofUnit rfl rfl tree config
  obtain ⟨-, log, ⟨more, grown, fewer⟩, meet⟩ := TwinTraversal.unit (w := w) tree _ _ _ _ _ set
    (.start (Homes.Moves.same (.start project external)) config)
  have notes : os = log.notes.map w.occurrence := by
    rw [← meet.notes, show w.first = .same from rfl, Layout.unit_same]
    rfl
  have words : SourceWords source (log.notes.map Note.name) := by
    refine (parse_idents parsed).fewer ?_
    rw [grown, Twins.nothing, List.append_nil]
    exact fewer
  rw [notes]
  exact Twins.once_apart words file

end SourceUnit

namespace UnitIndex

/-- The index reports these unknown names, and all other mentions are of what is known. -/
structure Reports (index : UnitIndex) (given : Symbol → Prop) (lines : LineIndex) (names : List UnknownName) :
    Prop where
  problems : (index.diagnostics.filter (·.problem.code == .unresolvedReference)).Perm
    (names.map (·.diagnostic index.file lines))
  marks : ∀ n ∈ names, n.marks lines ⊆ index.occurrences
  /-- No place is marked twice, for one name or for two. -/
  apart : (names.flatMap (·.marks lines)).Pairwise fun a b => a.region.Apart b.region
  others : ∀ o ∈ index.occurrences, o.symbol.Known given ∨ ∃ n ∈ names, o ∈ n.marks lines
  /-- Over a problem stands nothing but a mark. -/
  places : ∀ d ∈ index.diagnostics, d.problem.code = .unresolvedReference → ∀ o ∈ index.occurrences,
    o.region = d.region → ∃ n ∈ names, o ∈ n.marks lines

end UnitIndex

/-- In the index of a program the marks of unknown names and the problems with them match. -/
theorem SourceUnit.index_reports {source : String} {tree : CompilationUnit} (parsed : parse source = .ok tree)
    (file : FileId) (units : List SourceUnit) (external : ExternalTable) {config : Config}
    (marked : config.emitUnresolved = true) :
    ∃ names, (SourceUnit.index ⟨file, tree⟩ source (.build units external config) external config).Reports
      external.Lists (.ofText source) names := by
  obtain ⟨-, names, ⟨others, same, known⟩, problems⟩ :=
    noted_nested_reported ⟨file, tree⟩ source external config (.build units external config)
  rw [marked, if_pos rfl] at same
  obtain ⟨apart, nonempty⟩ := noted_apart parsed file (.build units external config) external config
  set e := noted ⟨file, tree⟩ source (.build units external config) external config with noted
  have whole : SourceUnit.index ⟨file, tree⟩ source (.build units external config) external config =
      .ofEmission file e (SourceUnit.problems ⟨file, tree⟩ source (.build units external config) external
        config).reverse := rfl
  have overlaps : e.overlaps = [] := Emission.crossings_spaced (Emission.final_spaced apart nonempty)
  have marks {n : UnknownName} (hn : n ∈ names) {m : Occurrence} (hm : m ∈ n.marks (.ofText source)) :
      m ∈ e.occurrences :=
    same.mem_iff.mpr (List.mem_append_right _ (List.mem_flatMap_of_mem hn hm))
  have shown {n : UnknownName} (hn : n ∈ names) {m o : Occurrence} (hm : m ∈ n.marks (.ofText source))
      (ho : o ∈ e.finalOccurrences) (place : o.region = m.region) : o = m := by
    obtain ⟨q, hq, undocumented⟩ := Emission.undocumented_of_final ho
    have one : q = m := Occurrence.eq_of_region apart nonempty hq (marks hn hm)
      (undocumented.shows.1.region.symm.trans place)
    subst one
    obtain ⟨i, -, rfl⟩ := List.mem_map.mp hm
    exact undocumented.eq rfl
  have found : ((SourceUnit.index ⟨file, tree⟩ source (.build units external config) external
      config).diagnostics.filter (·.problem.code == .unresolvedReference)).Perm
        (names.map (·.diagnostic file (.ofText source))) := by
    rw [whole, UnitIndex.ofEmission, overlaps, List.map_nil, List.append_nil, ← problems]
    refine ((List.mergeSort_perm _ _).filter _).trans ?_
    rw [List.filter_reverse]
    exact List.reverse_perm _
  refine ⟨names, found, ?_, ?_, ?_, ?_⟩
  · intro n hn m hm
    obtain ⟨p, hp, shows⟩ := Emission.final_of_noted (marks hn hm)
    rw [← shown hn hm hp shows.region]
    exact hp
  · have all := (same.pairwise_iff fun {a b} => Region.Apart.symm).mp apart
    exact (List.pairwise_append.mp all).2.1
  · intro o ho
    obtain ⟨q, hq, undocumented⟩ := Emission.undocumented_of_final ho
    rcases List.mem_append.mp (same.mem_iff.mp hq) with other | mark
    · exact .inl (undocumented.symbol ▸ known q other)
    · obtain ⟨n, hn, hm⟩ := List.mem_flatMap.mp mark
      rw [shown hn hm ho undocumented.shows.1.region]
      exact .inr ⟨n, hn, hm⟩
  · intro d hd unresolved o ho place
    have reported := found.mem_iff.mp (List.mem_filter.mpr ⟨hd, by simp [unresolved]⟩)
    obtain ⟨n, hn, rfl⟩ := List.mem_map.mp reported
    obtain ⟨m, hm, first⟩ := n.first_mark (.ofText source)
    rw [shown hn hm ho (place.trans first.symm)]
    exact ⟨n, hn, hm⟩

end JavaIndex
