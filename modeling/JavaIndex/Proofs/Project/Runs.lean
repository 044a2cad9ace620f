import JavaIndex.Proofs.Parser.Source
import JavaIndex.Proofs.Project.Mentions
import JavaIndex.Proofs.Project.Reordered

/-! Runs over the same files put in in another order, and among other files that cannot be parsed. What is
found in a file depends on the classes of all files, but neither on the numbers of the files nor on those
that are no programs. -/
namespace JavaIndex

def Diagnostic.inFile (file : FileId) (d : Diagnostic) : Diagnostic := { d with file }

/-- The same index, for a file of this number. -/
def UnitIndex.inFile (file : FileId) (index : UnitIndex) : UnitIndex :=
  { index with file, diagnostics := index.diagnostics.map (Diagnostic.inFile file) }

namespace UnitIndex

/-- The number of a file is only written down. -/
theorem ofEmission_inFile (file file' : FileId) (e : Emission) (problems : List Diagnostic) :
    ofEmission file e (problems.map (Diagnostic.inFile file)) = (ofEmission file' e problems).inFile file := by
  have sorted (ds : List Diagnostic) :
      Diagnostic.sorted (ds.map (Diagnostic.inFile file)) = (Diagnostic.sorted ds).map (Diagnostic.inFile file) :=
    (List.map_mergeSort (f := Diagnostic.inFile file) fun _ _ _ _ => rfl).symm
  simp only [ofEmission, inFile, mk.injEq, true_and]
  rw [← sorted, List.map_append, List.map_map]
  rfl

end UnitIndex

/-- A file has the same index wherever the classes known outside it are declared, and whatever its number. -/
theorem SourceUnit.index_moves {h : Homes} {project project' : ProjectClasses}
    {external external' : ExternalTable} (moves : h.Moves (.start project external) (.start project' external'))
    (file file' : FileId) (tree : CompilationUnit) (source : String) (config : Config) :
    SourceUnit.index ⟨file, tree⟩ source project external config =
      (SourceUnit.index ⟨file', tree⟩ source project' external' config).inFile file := by
  let w : Twins := ⟨.same, .same, h, file, file', .ofText source, .ofText source, source, source, True,
    fun _ => ⟨rfl, rfl⟩⟩
  obtain ⟨log, told⟩ := Twins.index (w := w) rfl rfl moves tree config
  rw [show w.first = .same from rfl, show w.second = .same from rfl, Layout.unit_same] at told
  have notes : log.notes.map w.occurrence' = log.notes.map w.occurrence := by
    apply List.map_congr_left
    intro n hn
    rw [Twins.occurrence, told.documented trivial n hn]
    rfl
  have facts : log.facts.map Twins.info' = log.facts.map Twins.info := by
    apply List.map_congr_left
    intro f hf
    rw [Twins.info, told.signed trivial f hf]
    rfl
  have problems : (log.problems.map w.diagnostic).reverse =
      (log.problems.map w.diagnostic').reverse.map (Diagnostic.inFile file) := by
    rw [List.map_reverse, List.map_map]
    rfl
  rw [told.index, told.index', notes, facts, problems]
  exact UnitIndex.ofEmission_inFile file file' _ _

namespace SourceRoot

/-- No path leads to two of the files. -/
def PathsApart (files : List (String × String)) : Prop :=
  files.Pairwise fun a b => Path.same a.1 b.1 = false

instance (files : List (String × String)) : Decidable (PathsApart files) :=
  inferInstanceAs (Decidable (files.Pairwise _))

/-- The files on their way through a run. -/
def parsed (r : SourceRoot) : List ParsedFile := r.toList.map fun (file, source) => .ofSource file source

/-- The files that are programs. -/
def units (r : SourceRoot) : List SourceUnit := r.parsed.filterMap ParsedFile.unit?

/-- Files under paths of their own are put in one after the other. -/
theorem files_ofList {files : List (String × String)} (apart : PathsApart files) :
    (ofList files).files = files.map fun f => ⟨f.1, f.2⟩ := by
  have from_here : ∀ (rest before : List (String × String)) (r : SourceRoot), PathsApart (before ++ rest) →
      r.files = before.map (fun f => ⟨f.1, f.2⟩) →
      (rest.foldl (fun r f => (r.insert f.1 f.2).2) r).files =
        (before ++ rest).map fun f => ⟨f.1, f.2⟩ := by
    intro rest
    induction rest with
    | nil =>
      intro before r _ put
      rw [List.append_nil]
      exact put
    | cons f rest ih =>
      intro before r apart put
      have new : r.fileId? f.1 = none := by
        rw [fileId?, put, List.findIdx?_map, List.findIdx?_eq_none_iff]
        intro g hg
        exact (List.pairwise_append.mp apart).2.2 g hg f List.mem_cons_self
      have inserted : (r.insert f.1 f.2).2.files = (before ++ [f]).map fun f => ⟨f.1, f.2⟩ := by
        rw [insert, new, List.map_append, ← put]
        rfl
      have whole : before ++ f :: rest = before ++ [f] ++ rest := by rw [List.append_assoc]; rfl
      rw [whole] at apart ⊢
      exact ih (before ++ [f]) _ apart inserted
  exact from_here files [] empty apart rfl

theorem toList_ofList {files : List (String × String)} (apart : PathsApart files) :
    (ofList files).toList = files.zipIdx.map fun (f, id) => (id, ⟨f.1, f.2⟩) := by
  rw [toList, files_ofList apart, List.zipIdx_map, List.map_map]
  rfl

/-- The text can be parsed. -/
def isProgram (file : String × String) : Bool := (parse file.2).isOk

theorem units_trees {files : List (String × String)} (apart : PathsApart files) :
    (ofList files).units.map SourceUnit.tree =
      (files.filter isProgram).filterMap fun f => (parse f.2).toOption := by
  have one (f : (String × String) × FileId) :
      ((ParsedFile.ofSource f.2 ⟨f.1.1, f.1.2⟩).unit?).map SourceUnit.tree = (parse f.1.2).toOption := by
    rw [ParsedFile.unit?, ParsedFile.ofSource, Option.map_map]
    cases parse f.1.2 <;> rfl
  have programs (f : String × String) :
      (if isProgram f then (parse f.2).toOption else none) = (parse f.2).toOption := by
    rw [isProgram]
    cases parse f.2 <;> rfl
  rw [units, parsed, toList_ofList apart, List.map_map, List.filterMap_map, List.map_filterMap,
    List.filterMap_filter]
  simp only [programs]
  have numbered := List.zipIdx_map_fst 0 files
  conv_rhs => rw [← numbered, List.filterMap_map]
  exact List.filterMap_congr fun f _ => one f

theorem units_worded (r : SourceRoot) {u : SourceUnit} (hu : u ∈ r.units) : u.tree.Worded := by
  obtain ⟨f, hf, unit⟩ := List.mem_filterMap.mp hu
  obtain ⟨⟨file, source⟩, -, rfl⟩ := List.mem_map.mp hf
  obtain ⟨tree, read, rfl⟩ := Option.map_eq_some_iff.mp unit
  simp only [ParsedFile.ofSource] at read
  cases result : parse source.text with
  | ok t =>
    rw [result] at read
    cases read
    exact parse_worded result
  | error e =>
    rw [result] at read
    cases read

end SourceRoot

/-- The run in which each file that is a program has this index, up to its number, and each other file has
the error of its own. -/
def ProjectRun.ofEach (index : String × String → UnitIndex) (files : List (String × String)) : ProjectRun where
  units := files.zipIdx.map fun (f, id) =>
    { file := id
      path := f.1
      result :=
        match parse f.2 with
        | .ok _ => .ok ((index f).inFile id)
        | .error e => .error (.ofSyntaxError f.1 e) }
  loadErrors := []

namespace SourceRoot

/-- Two runs over the same programs: the order of the files does not matter, nor which other files there
are. -/
theorem index_sameEach {files files' : List (String × String)} (apart : PathsApart files)
    (apart' : PathsApart files') (same : (files.filter isProgram).Perm (files'.filter isProgram))
    (separate : SourceUnit.Separate (ofList files).units) (external : ExternalTable) (config : Config) :
    ∃ index, (ofList files).index external config = .ofEach index files ∧
      (ofList files').index external config = .ofEach index files' := by
  have trees : ((ofList files).units.map SourceUnit.tree).Perm ((ofList files').units.map SourceUnit.tree) := by
    rw [units_trees apart, units_trees apart']
    exact same.filterMap _
  let project := ProjectClasses.build (ofList files).units external config
  let project' := ProjectClasses.build (ofList files').units external config
  have alike : project'.Alike project :=
    (ProjectClasses.build_alike trees separate external config fun _ => units_worded _).symm
  let index (f : String × String) : UnitIndex :=
    match parse f.2 with
    | .ok tree => SourceUnit.index ⟨0, tree⟩ f.2 project.blurred external.blurred config
    | .error _ => default
  have run {fs : List (String × String)} (apart : PathsApart fs)
      (alike : (ProjectClasses.build (ofList fs).units external config).Alike project) :
      (ofList fs).index external config = .ofEach index fs := by
    have results : (ofList fs).index external config =
        ⟨(ofList fs).parsed.map fun f => f.result (.build (ofList fs).units external config) external config,
          []⟩ := rfl
    rw [results, ProjectRun.ofEach, parsed, toList_ofList apart, List.map_map, List.map_map]
    congr 1
    apply List.map_congr_left
    rintro ⟨⟨path, text⟩, id⟩ -
    cases result : parse text with
    | ok tree =>
      have found := SourceUnit.index_moves (alike.moves external) id 0 tree text config
      simp only [Function.comp_apply, ParsedFile.ofSource, ParsedFile.result, result, index, found]
    | error e => simp only [Function.comp_apply, ParsedFile.ofSource, ParsedFile.result, result]
  exact ⟨index, run apart (.refl project), run apart' alike⟩

/-- Two classes, one of which extends the other, in both orders, and once with a file that is no program. -/
theorem reordered_sameEach :
    let a := ("A.java", "class A extends B { int f() { return g; } }")
    let b := ("B.java", "class B { int g; }")
    let c := ("C.java", "class")
    PathsApart [a, c, b] ∧ ([a, c, b].filter isProgram).Perm ([b, a].filter isProgram) ∧
      SourceUnit.Separate (ofList [a, c, b]).units ∧
      ∃ index, (ofList [a, c, b]).index .empty .standard = .ofEach index [a, c, b] ∧
        (ofList [b, a]).index .empty .standard = .ofEach index [b, a] := by
  intro a b c
  have apart : PathsApart [a, c, b] := by decide +kernel
  have same : ([a, c, b].filter isProgram).Perm ([b, a].filter isProgram) := by
    rw [show [a, c, b].filter isProgram = [a, b] by decide +kernel,
      show [b, a].filter isProgram = [b, a] by decide +kernel]
    exact .swap b a []
  have separate : SourceUnit.Separate (ofList [a, c, b]).units := by decide +kernel
  exact ⟨apart, same, separate,
    index_sameEach apart (by decide +kernel) same separate .empty .standard⟩

end SourceRoot
end JavaIndex
