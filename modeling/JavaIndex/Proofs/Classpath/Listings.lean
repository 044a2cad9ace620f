import JavaIndex.Classpath.Archive
import JavaIndex.Proofs.Classpath.BinaryNames
import JavaIndex.Proofs.Classpath.Loading
import JavaIndex.Proofs.JavaType.Spelling
import JavaIndex.Proofs.Symbol.Text
import JavaIndex.Proofs.Token.Words

/-! The files of an archive. Their paths are made of the words of packages and of classes in other classes, and the
binary names read from them are cut into the same words again. What a file says of a class is what a description says
that gives nothing but its binary name, so loading the files is loading a description. The order of the files is seen
in one place only: where two binary names are read as one name, the later class is found under it. -/
namespace JavaIndex

namespace Identifier

theorem notMem_of_isIdentifier {word : String} (spelled : isIdentifier word = true) {c : Char}
    (never : mayOccur c = false) : c ∉ word.toList := by
  intro here
  rw [mayOccur_of_isIdentifier spelled c here] at never
  cases never

theorem not_digit_of_isIdentifier {word : String} (spelled : isIdentifier word = true) :
    (word.toList.head?.map isDigit).getD false = false := by
  unfold isIdentifier at spelled
  cases letters : word.toList with
  | nil => rfl
  | cons first rest =>
    rw [letters, isSpelledBy, Bool.and_eq_true] at spelled
    have opens : Lexer.opensType first = true := by simp [Lexer.opensType, Lexer.opens_of_mayStart spelled.1]
    exact Lexer.not_digit_of_opensType opens

end Identifier

theorem Lists.dropFront?_of_notMem {c : Char} {front whole : List Char} (inside : c ∈ front) (free : c ∉ whole) :
    dropFront? front whole = none := by
  induction front generalizing whole with
  | nil => cases inside
  | cons x xs ih =>
    cases whole with
    | nil => rfl
    | cons y ys =>
      rw [List.mem_cons, not_or] at free
      by_cases same : x = y
      · have later : c ∈ xs := (List.mem_cons.mp inside).resolve_left fun here => free.1 (here.trans same)
        simp [dropFront?, same, ih later free.2]
      · simp [dropFront?, same]

namespace Archive

theorem unversioned?_of_free {path : List Char} (free : '-' ∉ path) : unversioned? path = some path := by
  rw [unversioned?, Lists.dropFront?_of_notMem (by decide) free]

theorem unversioned?_release {release : List Char} (free : '/' ∉ release) (path : List Char) :
    unversioned? ("META-INF/versions/".toList ++ (release ++ '/' :: path)) = some path := by
  have inside : ∀ c ∈ release, decide (c ≠ '/') = true := by
    intro c hc
    exact decide_eq_true fun here => free (here ▸ hc)
  have skipped : (release ++ '/' :: path).dropWhile (· ≠ '/') = '/' :: path := by
    rw [List.dropWhile_append_of_pos inside, List.dropWhile_cons_of_neg (by simp)]
  rw [unversioned?, Lists.dropFront?_append]
  simp only [skipped]

/-- The path of the file of a class, from the words of its package and those of the classes around it and of itself. -/
def file (package chain : List String) : String := "/".intercalate (package ++ ["$".intercalate chain]) ++ ".class"

/-- The path of a file that is only there for one release of the platform. -/
def releaseFile (release path : String) : String := "META-INF/versions/" ++ release ++ "/" ++ path

theorem toList_releaseFile (release path : String) : (releaseFile release path).toList =
    "META-INF/versions/".toList ++ (release.toList ++ '/' :: path.toList) := by
  have parts (front : String) :
      (front ++ release ++ "/" ++ path).toList = front.toList ++ (release.toList ++ '/' :: path.toList) := by simp
  exact parts "META-INF/versions/"

/-- A path is one of the file of a class, for all releases of the platform or for one. -/
inductive IsFile (package chain : List String) : String → Prop where
  | always : IsFile package chain (file package chain)
  | release (release : String) : '/' ∉ release.toList → IsFile package chain (releaseFile release (file package chain))

/-- The words can stand in the path of a file: they are identifiers, and no dollar sign is in those of the classes. -/
structure Writable (package chain : List String) : Prop where
  nonempty : chain ≠ []
  spelled : ∀ word ∈ package ++ chain, Identifier.isIdentifier word = true
  plain : ∀ word ∈ chain, '$' ∉ word.toList

namespace Writable

variable {package chain : List String} (h : Writable package chain)

include h

/-- The sign is in no word and, unless it is the dollar sign, not in the name of the class. -/
theorem notMem {c : Char} (never : Identifier.mayOccur c = false) (other : c ≠ '$') :
    ∀ word ∈ package ++ ["$".intercalate chain], c ∉ word.toList := by
  have free : ∀ word ∈ package ++ chain, c ∉ word.toList := fun word hword =>
    Identifier.notMem_of_isIdentifier (h.spelled word hword) never
  simp only [List.mem_append] at free
  simp only [List.mem_append, List.mem_singleton]
  rintro word (hword | rfl)
  · exact free word (.inl hword)
  · exact notMem_intercalate (by simpa using other) fun word hword => free word (.inr hword)

theorem isUnnamed : isUnnamed ("$".intercalate chain).toList = false := by
  have cut := Lists.split_words h.nonempty h.plain
  unfold Archive.isUnnamed
  rw [List.any_eq_false]
  intro part hpart
  have word : String.ofList part ∈ chain := by
    rw [← cut]
    exact List.mem_map_of_mem (List.mem_of_mem_drop hpart)
  have digit := Identifier.not_digit_of_isIdentifier (h.spelled _ (List.mem_append_right _ word))
  rw [String.toList_ofList] at digit
  simp [digit]

/-- A path outside the directories for releases is left as it is, and it is what is found in one of them. -/
theorem path_of_isFile {entry : String} (isFile : IsFile package chain entry) : ∃ path,
    Lists.dropBack? ".class".toList entry.toList = some path ∧
      unversioned? path = some ("/".intercalate (package ++ ["$".intercalate chain])).toList := by
  cases isFile with
  | always =>
    have free : '-' ∉ ("/".intercalate (package ++ ["$".intercalate chain])).toList :=
      notMem_intercalate (by decide) (h.notMem (by decide) (by decide))
    exact ⟨_, by rw [file, String.toList_append, Lists.dropBack?_append], unversioned?_of_free free⟩
  | release release free =>
    refine ⟨"META-INF/versions/".toList ++ (release.toList ++ '/' :: _), ?_, unversioned?_release free _⟩
    rw [toList_releaseFile, file, String.toList_append, ← List.cons_append, ← List.append_assoc release.toList,
      ← List.append_assoc, Lists.dropBack?_append]

theorem separable : ∀ word ∈ chain, Manifest.Separable word := fun word hword =>
  ⟨Identifier.notMem_of_isIdentifier (h.spelled word (List.mem_append_right _ hword)) (by decide), h.plain word hword⟩

/-- The file is that of a class which can be named. -/
theorem className?_of_isFile {entry : String} (isFile : IsFile package chain entry) :
    className? entry = some (Dotted.join (package ++ ["$".intercalate chain])) := by
  obtain ⟨path, dropped, inner⟩ := h.path_of_isFile isFile
  have slashless := h.notMem (c := '/') (by decide) (by decide)
  have last : (Lists.split '/' ("/".intercalate (package ++ ["$".intercalate chain])).toList).getLast?.getD [] =
      ("$".intercalate chain).toList := by
    have words := congrArg List.getLast? (Lists.split_words (by simp) slashless)
    rw [List.getLast?_map, List.getLast?_concat, Option.map_eq_some_iff] at words
    obtain ⟨simple, last, name⟩ := words
    have whole : simple = ("$".intercalate chain).toList := by rw [← name, String.toList_ofList]
    subst whole
    exact congrArg (Option.getD · []) last
  have free : '-' ∉ ("$".intercalate chain).toList := h.notMem (by decide) (by decide) _ List.mem_concat_self
  have other : "$".intercalate chain ≠ "module-info" ∧ "$".intercalate chain ≠ "package-info" := by
    constructor <;> intro same <;> rw [same] at free <;> exact free (by decide)
  have rejected : (decide (("$".intercalate chain).toList = "module-info".toList) ||
      decide (("$".intercalate chain).toList = "package-info".toList) ||
      Archive.isUnnamed ("$".intercalate chain).toList) = false := by
    rw [h.isUnnamed, Bool.or_false, Bool.or_eq_false_iff, decide_eq_false_iff_not, decide_eq_false_iff_not,
      String.toList_inj, String.toList_inj]
    exact other
  unfold className?
  simp only [dropped, inner, last, Bind.bind, Option.bind]
  rw [if_neg (by rw [rejected]; exact Bool.false_ne_true)]
  exact congrArg some (replace_intercalate slashless)

/-- The binary name of the class in a file is cut into the words that the path of the file is made of. -/
theorem splitBinaryName_of_isFile {entry : String} (isFile : IsFile package chain entry) :
    ∃ name, className? entry = some name ∧ Manifest.splitBinaryName name = (Dotted.join package, chain) := by
  refine ⟨_, h.className?_of_isFile isFile, ?_⟩
  by_cases none : package = []
  · subst none
    rw [List.nil_append, Dotted.join, String.intercalate_singleton,
      Manifest.splitBinaryName_alone h.nonempty h.separable]
    rfl
  · rw [Dotted.join, String.intercalate_append_of_ne_nil none (List.cons_ne_nil _ _), String.intercalate_singleton,
      Manifest.splitBinaryName_inside h.nonempty h.separable]
    rfl

end Writable

end Archive

/-! Listings. -/

/-- If no two members pass the test, the last one that does is the same in any order. -/
theorem Lists.findRev?_perm {α : Type} {p : α → Bool} {xs ys : List α} (perm : xs.Perm ys)
    (only : ∀ x ∈ xs, ∀ y ∈ xs, p x = true → p y = true → x = y) : xs.findRev? p = ys.findRev? p := by
  simp only [List.findRev?_eq_find?_reverse]
  cases found : xs.reverse.find? p with
  | none =>
    have fails : ∀ x ∈ xs, ¬p x = true := by simpa using found
    refine (List.find?_eq_none.mpr fun y hy => fails y ?_).symm
    exact perm.mem_iff.mpr (List.mem_reverse.mp hy)
  | some x =>
    have inside : x ∈ xs := List.mem_reverse.mp (List.mem_of_find?_eq_some found)
    have passes : p x = true := List.find?_some found
    have some : (ys.reverse.find? p).isSome = true :=
      List.find?_isSome.mpr ⟨x, List.mem_reverse.mpr (perm.mem_iff.mp inside), passes⟩
    obtain ⟨y, found'⟩ := Option.isSome_iff_exists.mp some
    have inside' : y ∈ xs := perm.mem_iff.mpr (List.mem_reverse.mp (List.mem_of_find?_eq_some found'))
    rw [found', only x inside y inside' passes (List.find?_some found')]

namespace Manifest.Class

/-- A class of which nothing but the binary name is listed. -/
def bare (name : String) : Class := ⟨name, .classType, none, [], [], [], [], []⟩

theorem bare_describes (name : String) : (bare name).Describes (bare name).outline where
  built := by rw [build_outline]; rfl
  outline := rfl
  fields := rfl
  constructors := rfl
  methods := rfl

/-- Classes that are described alike have one binary name. -/
theorem name_of_outline {m m' : Class} (same : m.outline = m'.outline) : m.name = m'.name := by
  have packages : (splitBinaryName m.name).1 = (splitBinaryName m'.name).1 := congrArg ClassInfo.package same
  have names : Dotted.ofBinary m.name = Dotted.ofBinary m'.name := congrArg ClassInfo.qualifiedName same
  have segments := congrArg Dotted.segments names
  have depth : (splitBinaryName m.name).2.length - 1 = (splitBinaryName m'.name).2.length - 1 := by
    have paths := congrArg (fun c => c.symbol.path.length) same
    simp only [outline, Symbol.path, packages, List.length_append, List.length_map, List.length_dropLast,
      List.length_singleton] at paths
    omega
  -- in a package without a name there is one segment more than in none, and no class more
  have apart {front words words' : List String} (filled : front ≠ []) (some : words' ≠ [])
      (split : words = front ++ words') : words.length - 1 ≠ words'.length - 1 := by
    have before := List.length_pos_iff.mpr filled
    have after := List.length_pos_iff.mpr some
    rw [split, List.length_append]
    omega
  obtain ⟨words, some, separable, name | ⟨package, name⟩⟩ := exists_words m.name <;>
    obtain ⟨words', some', separable', name' | ⟨package', name'⟩⟩ := exists_words m'.name <;>
    rw [name, name'] at packages segments depth ⊢
  · rw [segments_alone some separable, segments_alone some' separable'] at segments
    rw [segments]
  · rw [segments_alone some separable, segments_inside some' separable'] at segments
    rw [splitBinaryName_alone some separable, splitBinaryName_inside some' separable'] at depth
    exact absurd depth (apart (Dotted.segments_ne_nil _) some' segments)
  · rw [segments_inside some separable, segments_alone some' separable'] at segments
    rw [splitBinaryName_inside some separable, splitBinaryName_alone some' separable'] at depth
    exact absurd depth.symm (apart (Dotted.segments_ne_nil _) some segments.symm)
  · rw [splitBinaryName_inside some separable, splitBinaryName_inside some' separable'] at packages
    obtain rfl : package = package' := packages
    rw [segments_inside some separable, segments_inside some' separable'] at segments
    rw [List.append_cancel_left segments]

end Manifest.Class

namespace Archive

/-! The description. -/

/-- The class is the one generated for the resources of its package, or lies in that one. -/
def IsGenerated (name : String) : Prop := (Manifest.splitBinaryName name).2.head? = some "R"

instance : DecidablePred IsGenerated := fun name =>
  inferInstanceAs (Decidable ((Manifest.splitBinaryName name).2.head? = some "R"))

/-- The binary names of the classes that the files put in. -/
def declared (entries : List String) : List String := (entries.filterMap className?).filter (¬IsGenerated ·)

/-- The packages of the generated classes among the files. -/
def generated (entries : List String) : List String :=
  ((entries.filterMap className?).filter (IsGenerated ·)).map fun name => (Manifest.splitBinaryName name).1

/-- What the files say as a description. -/
def listing (entries : List String) : Manifest := ⟨(declared entries).map .bare, generated entries⟩

theorem declared_append (entries more : List String) :
    declared (entries ++ more) = declared entries ++ declared more := by
  simp [declared]

theorem generated_append (entries more : List String) :
    generated (entries ++ more) = generated entries ++ generated more := by
  simp [generated]

theorem mem_declared {entries : List String} {name : String} :
    name ∈ declared entries ↔ ∃ entry ∈ entries, className? entry = some name ∧ ¬IsGenerated name := by
  simp [declared, List.mem_filter, List.mem_filterMap, ← and_assoc]

theorem declared_perm {entries entries' : List String} (perm : entries.Perm entries') :
    (declared entries).Perm (declared entries') := (perm.filterMap _).filter _

theorem generated_perm {entries entries' : List String} (perm : entries.Perm entries') :
    (generated entries).Perm (generated entries') := ((perm.filterMap _).filter _).map _

/-- A file declares its class as a description does. -/
theorem declare_bare (name : String) :
    declare (Manifest.splitBinaryName name).1 (Manifest.splitBinaryName name).2 name =
      .ok (Manifest.Class.bare name).outline := by
  obtain ⟨owner, found, header⟩ :
      ∃ owner, Manifest.ownerSymbol (Manifest.splitBinaryName name).1 (Manifest.splitBinaryName name).2 = .ok owner ∧
        ClassBuilder.ofName owner (Manifest.splitBinaryName name).1 (Dotted.ofBinary name) .classType .external =
          .ok ⟨{ (Manifest.Class.bare name).outline with typeParams := [], superclass := none, interfaces := [] },
            .empty⟩ := (Manifest.Class.bare name).header_outline
  have above : (Manifest.Class.bare name).outline.superclass =
      if Dotted.ofBinary name ≠ "java.lang.Object" then some .object else none := rfl
  unfold declare
  simp only [found, header, Bind.bind, Except.bind, Pure.pure, Except.pure]
  refine congrArg Except.ok ?_
  split <;> rename_i highest
  · rw [if_pos highest] at above
    simp only [ClassBuilder.setSuperclass, ← above]
    rfl
  · rw [if_neg highest] at above
    simp only [← above]
    rfl

/-- A file adds a class, a package with resources or nothing at all. -/
theorem addEntry_eq (n : Nat) (t : ExternalTable) (entry : String) : addEntry (n, t) entry =
    match className? entry with
    | none => (n, t)
    | some name =>
      if IsGenerated name then (n, t.addResourcePackage (Manifest.splitBinaryName name).1)
      else (n + 1, t.insert (Manifest.Class.bare name).outline) := by
  unfold addEntry
  cases className? entry with
  | none => rfl
  | some name =>
    simp only [declare_bare]
    rfl

/-- What some files have done to a table, and how many classes they put in. -/
structure Loaded (t : ExternalTable) (entries : List String) (state : Nat × ExternalTable) : Prop where
  count : state.1 = (declared entries).length
  gains : t.Gains state.2 ((declared entries).map fun name => (Manifest.Class.bare name).outline) (generated entries)

namespace Loaded

variable {t : ExternalTable} {entries : List String} {state : Nat × ExternalTable} (h : Loaded t entries state)

include h

theorem addEntry (entry : String) : Loaded t (entries ++ [entry]) (addEntry state entry) := by
  obtain ⟨n, u⟩ := state
  obtain ⟨count, gains⟩ := h
  rw [addEntry_eq]
  cases read : className? entry with
  | none =>
    have classes : declared [entry] = [] := by simp [declared, read]
    have packages : generated [entry] = [] := by simp [generated, read]
    constructor <;> rw [declared_append, classes, List.append_nil]
    · exact count
    · rwa [generated_append, packages, List.append_nil]
  | some name =>
    by_cases own : IsGenerated name
    · have classes : declared [entry] = [] := by simp [declared, read, own]
      have packages : generated [entry] = [(Manifest.splitBinaryName name).1] := by simp [generated, read, own]
      simp only [if_pos own]
      constructor <;> rw [declared_append, classes, List.append_nil]
      · exact count
      · rw [generated_append, packages]
        exact gains.addResourcePackage _
    · have classes : declared [entry] = [name] := by simp [declared, read, own]
      have packages : generated [entry] = [] := by simp [generated, read, own]
      simp only [if_neg own]
      constructor <;> rw [declared_append, classes]
      · rw [List.length_append]
        exact congrArg (· + 1) count
      · rw [generated_append, packages, List.append_nil, List.map_append]
        exact gains.insert _

theorem addEntries (more : List String) : Loaded t (entries ++ more) (more.foldl Archive.addEntry state) := by
  induction more generalizing entries state with
  | nil => rwa [List.append_nil]
  | cons entry more ih => rw [← List.singleton_append, ← List.append_assoc]; exact ih (h.addEntry entry)

end Loaded

/-- The files put at most one class under the name. -/
def Unambiguous (entries : List String) (name : String) : Prop :=
  ∀ a ∈ declared entries, ∀ b ∈ declared entries, Dotted.ofBinary a = name → Dotted.ofBinary b = name → a = b

end Archive

namespace ExternalTable

open Archive

variable (t : ExternalTable) (entries : List String)

theorem loadArchive_loaded : Loaded t entries (t.loadArchive entries) := by
  have start : Loaded t [] (0, t) := ⟨rfl, .nothing t⟩
  exact start.addEntries entries

theorem Outside.loadArchive (outside : t.Outside) : (t.loadArchive entries).2.Outside := by
  refine (t.loadArchive_loaded entries).gains.outside outside fun c listed => ?_
  obtain ⟨name, -, rfl⟩ := List.mem_map.mp listed
  exact (Manifest.Class.bare_describes name).outside

theorem loadArchive_load : (t.load (listing entries)).1 = .ok (t.loadArchive entries).1 ∧
    (t.loadArchive entries).2.Agrees (t.load (listing entries)).2 := by
  obtain ⟨count, gains⟩ := t.loadArchive_loaded entries
  have described : List.Forall₂ Manifest.Class.Describes (listing entries).classes
      ((declared entries).map fun name => (Manifest.Class.bare name).outline) := by
    rw [listing, List.forall₂_map_left_iff, List.forall₂_map_right_iff, List.forall₂_same]
    exact fun name _ => Manifest.Class.bare_describes name
  rw [load_whole described]
  refine ⟨by rw [count, listing, List.length_map], gains.agrees ?_ (.refl t)⟩
  exact ((Gains.nothing t).insertAll _).addResourcePackages _

section

variable {entries} {entries' : List String} (perm : entries.Perm entries')

include perm

theorem loadArchive_count_perm : (t.loadArchive entries').1 = (t.loadArchive entries).1 := by
  rw [(t.loadArchive_loaded entries').count, (t.loadArchive_loaded entries).count, (declared_perm perm).length_eq]

theorem loadArchive_packages_perm (p : String) :
    (t.loadArchive entries').2.hasPackage p = (t.loadArchive entries).2.hasPackage p := by
  rw [Bool.eq_iff_iff, (t.loadArchive_loaded entries').gains.packages, (t.loadArchive_loaded entries).gains.packages]
  simp only [((declared_perm perm).map _).mem_iff, (generated_perm perm).mem_iff]

theorem loadArchive_resourcePackages_perm (p : String) :
    (t.loadArchive entries').2.isResourcePackage p = (t.loadArchive entries).2.isResourcePackage p := by
  rw [Bool.eq_iff_iff, (t.loadArchive_loaded entries').gains.resourcePackages,
    (t.loadArchive_loaded entries).gains.resourcePackages, (generated_perm perm).mem_iff]

theorem loadArchive_names_perm (name : String) :
    (t.loadArchive entries').2.classes[name]?.isSome = (t.loadArchive entries).2.classes[name]?.isSome := by
  rw [(t.loadArchive_loaded entries').gains.classes, (t.loadArchive_loaded entries).gains.classes]
  simp only [Option.isSome_or, List.findRev?_eq_find?_reverse, List.isSome_find?, List.any_reverse]
  rw [((declared_perm perm).map _).any_eq]

/-- What is found under a name does not depend on the order if no two classes are put there. -/
theorem loadArchive_class_perm {name : String} (single : Unambiguous entries name) :
    (t.loadArchive entries').2.classes[name]? = (t.loadArchive entries).2.classes[name]? := by
  rw [(t.loadArchive_loaded entries').gains.classes, (t.loadArchive_loaded entries).gains.classes]
  congr 1
  refine (Lists.findRev?_perm ((declared_perm perm).map _) ?_).symm
  simp only [List.forall_mem_map, beq_iff_eq]
  intro a ha b hb same same'
  rw [single a ha b hb same same']

end

/-- The class of the last file is found under its name. -/
theorem class_of_last {entry name : String} (read : className? entry = some name) (plain : ¬IsGenerated name) :
    (t.loadArchive (entries ++ [entry])).2.classes[Dotted.ofBinary name]? =
      some (Manifest.Class.bare name).outline := by
  have classes : declared [entry] = [name] := by simp [declared, read, plain]
  rw [(t.loadArchive_loaded _).gains.classes, declared_append, classes, List.map_append,
    List.findRev?_eq_find?_reverse]
  simp [Manifest.Class.outline, Manifest.Class.bare]

/-- Two classes under one name always show which of them was put in last, since they are not described alike. -/
theorem loadArchive_settled (name : String) :
    (∀ entries', entries.Perm entries' →
      (t.loadArchive entries').2.classes[name]? = (t.loadArchive entries).2.classes[name]?) ↔
      Unambiguous entries name := by
  refine ⟨fun settled => ?_, fun single entries' perm => t.loadArchive_class_perm perm single⟩
  -- any of the classes can be the last one
  have found : ∀ a ∈ declared entries, Dotted.ofBinary a = name →
      (t.loadArchive entries).2.classes[name]? = some (Manifest.Class.bare a).outline := by
    rintro a ha rfl
    obtain ⟨entry, inside, read, plain⟩ := mem_declared.mp ha
    have order : entries.Perm (entries.erase entry ++ [entry]) :=
      (List.perm_cons_erase inside).trans (List.perm_append_singleton _ _).symm
    rw [← settled _ order]
    exact t.class_of_last _ read plain
  intro a ha b hb same same'
  have outlines := Option.some.inj ((found a ha same).symm.trans (found b hb same'))
  exact Manifest.Class.name_of_outline outlines

/-- Loading an archive is loading the description that its files make up. The packages, the packages with resources, the
names of the classes and how many are put in are the same for all orders of the files, and the class under a name is
unless two classes are put under it. A path made of identifiers is read as the class and the package that it spells. -/
theorem loadArchive_listing :
    ((t.load (listing entries)).1 = .ok (t.loadArchive entries).1 ∧
        (t.loadArchive entries).2.Agrees (t.load (listing entries)).2) ∧
      (∀ entries', entries.Perm entries' → (t.loadArchive entries').1 = (t.loadArchive entries).1 ∧
        (∀ p, (t.loadArchive entries').2.hasPackage p = (t.loadArchive entries).2.hasPackage p) ∧
        (∀ p, (t.loadArchive entries').2.isResourcePackage p = (t.loadArchive entries).2.isResourcePackage p) ∧
        ∀ name : String,
          (t.loadArchive entries').2.classes[name]?.isSome = (t.loadArchive entries).2.classes[name]?.isSome) ∧
      (∀ name : String, (∀ entries', entries.Perm entries' →
        (t.loadArchive entries').2.classes[name]? = (t.loadArchive entries).2.classes[name]?) ↔
          Unambiguous entries name) ∧
      ∀ package chain, Writable package chain → ∀ entry, IsFile package chain entry →
        ∃ name, className? entry = some name ∧ Manifest.splitBinaryName name = (Dotted.join package, chain) := by
  refine ⟨t.loadArchive_load entries, fun entries' perm => ⟨t.loadArchive_count_perm perm, ?_, ?_, ?_⟩,
    t.loadArchive_settled entries, fun package chain written entry isFile => written.splitBinaryName_of_isFile isFile⟩
  · exact t.loadArchive_packages_perm perm
  · exact t.loadArchive_resourcePackages_perm perm
  · exact t.loadArchive_names_perm perm

/-- A class and one in it, in either order, and the file of the inner one for a single release. -/
theorem loadArchive_listing_point :
    let files := ["a/Point.class", "a/Point$Corner.class"]
    let files' := ["a/Point$Corner.class", "a/Point.class"]
    (empty.load (listing files)).1 = .ok (empty.loadArchive files).1 ∧
      (empty.loadArchive files').1 = (empty.loadArchive files).1 ∧
      (empty.loadArchive files').2.classes["a.Point.Corner"]? = (empty.loadArchive files).2.classes["a.Point.Corner"]? ∧
      ∃ name, className? (releaseFile "11" "a/Point$Corner.class") = some name ∧
        Manifest.splitBinaryName name = ("a", ["Point", "Corner"]) := by
  intro files files'
  obtain ⟨⟨loaded, -⟩, orders, settled, decoded⟩ := loadArchive_listing empty files
  have perm : files.Perm files' := List.Perm.swap _ _ _
  have single : Unambiguous files "a.Point.Corner" := by unfold Unambiguous; decide +kernel
  have written : Writable ["a"] ["Point", "Corner"] := ⟨by decide, by decide, by decide⟩
  refine ⟨loaded, (orders files' perm).1, (settled _).mpr single files' perm, ?_⟩
  exact decoded ["a"] ["Point", "Corner"] written _ (.release "11" (by decide))

/-- Which of two files is the last shows where their classes are found under one name. -/
theorem loadArchive_order :
    let files := ["a/B$C.class", "a/B/C.class"]
    let files' := ["a/B/C.class", "a/B$C.class"]
    files.Perm files' ∧ ¬(empty.loadArchive files).2.Agrees (empty.loadArchive files').2 := by
  intro files files'
  refine ⟨List.Perm.swap _ _ _, fun same => ?_⟩
  have packages := congrArg (Option.map ClassInfo.package) (same.classes "a.B.C")
  revert packages
  decide +kernel

end ExternalTable

end JavaIndex
