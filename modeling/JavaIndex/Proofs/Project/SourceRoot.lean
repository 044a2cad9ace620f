import JavaIndex.Project.SourceRoot
import JavaIndex.Proofs.Text.Segments

/-! What the source files of a run remember of how they were put in. An insertion is answered with the number of its
path, under every spelling of it, and the numbers count the paths in the order in which they came. -/
namespace JavaIndex

namespace Path

variable {a b : String}

theorem components_eq_of_same (h : same a b = true) : components a = components b := eq_of_beq h

theorem same_self (a : String) : same a a = true := beq_self_eq_true _

theorem same_symm (h : same a b = true) : same b a = true := by
  rw [same, components_eq_of_same h]
  exact beq_self_eq_true _

/-- Spellings of one path are spellings of the same paths. -/
theorem same_congr (h : same a b = true) (c : String) : same c a = same c b := by
  rw [same, same, components_eq_of_same h]

/-! Spellings that make no difference. -/

theorem pieces_inside (a b : String) : pieces (a ++ "/" ++ b) = pieces a ++ pieces b := by
  have together : (a ++ "/" ++ b).toList = a.toList ++ '/' :: b.toList := by simp [String.toList_append]
  rw [pieces, together, Lists.split_eq_splitOn, List.splitOn_append_cons_self, List.map_append, pieces, pieces,
    Lists.split_eq_splitOn, Lists.split_eq_splitOn]

theorem pieces_ne_nil (a : String) : pieces a ≠ [] := by
  simp [pieces, Lists.split_eq_splitOn]

theorem eq_of_pieces {word : String} (single : pieces a = [word]) : a = word := by
  obtain ⟨words, some, rfl, free⟩ := Lists.exists_words '/' a
  have cut : pieces ((String.singleton '/').intercalate words) = words :=
    Lists.split_words some fun w hw => (free w hw).1
  rw [← cut, single, String.intercalate_singleton]

theorem steps_inside (a b : String) : steps (a ++ "/" ++ b) = steps a ++ steps b := by
  rw [steps, pieces_inside, List.filter_append, steps, steps]

theorem root_of_pieces {x y : String} {more : List String} (first : pieces a = x :: y :: more) :
    root a = if x = "" then ["/"] else if x = "." then ["."] else [] := by
  rw [root, first]
  split <;> simp_all

/-- What a path begins with does not depend on what follows its first slash. -/
theorem root_inside (a b c : String) : root (a ++ "/" ++ b) = root (a ++ "/" ++ c) := by
  obtain ⟨x, xs, first⟩ := List.exists_cons_of_ne_nil (pieces_ne_nil a)
  have begins (b : String) : ∃ y more, pieces (a ++ "/" ++ b) = x :: y :: more := by
    obtain ⟨y, more, later⟩ := List.exists_cons_of_ne_nil (List.append_ne_nil_of_right_ne_nil xs (pieces_ne_nil b))
    exact ⟨y, more, by rw [pieces_inside, first, List.cons_append, later]⟩
  obtain ⟨_, _, left⟩ := begins b
  obtain ⟨_, _, right⟩ := begins c
  rw [root_of_pieces left, root_of_pieces right]

/-- Neither a slash nor a dot between slashes leads anywhere. -/
theorem same_of_idle {piece : String} (idle : steps piece = []) (a b : String) :
    same (a ++ "/" ++ piece ++ "/" ++ b) (a ++ "/" ++ b) = true := by
  have grouped : a ++ "/" ++ piece ++ "/" ++ b = a ++ "/" ++ (piece ++ "/" ++ b) := by simp [String.append_assoc]
  have equal : components (a ++ "/" ++ piece ++ "/" ++ b) = components (a ++ "/" ++ b) := by
    rw [components, grouped, steps_inside, steps_inside, idle, List.nil_append, root_inside a _ b, ← steps_inside,
      components]
  exact beq_iff_eq.mpr equal

/-- A slash at the end leads nowhere, except to the root. -/
theorem same_of_ended (some : a ≠ "") : same (a ++ "/") a = true := by
  have ended : a ++ "/" = a ++ "/" ++ "" := by simp
  have begins : root (a ++ "/" ++ "") = root a := by
    obtain ⟨x, xs, first⟩ := List.exists_cons_of_ne_nil (pieces_ne_nil a)
    have all : pieces (a ++ "/" ++ "") = x :: (xs ++ [""]) := by
      rw [pieces_inside, first]
      rfl
    cases xs with
    | nil =>
      have full : x ≠ "" := by
        rintro rfl
        exact some (eq_of_pieces first)
      rw [root_of_pieces all, if_neg full, root, first]
      split <;> simp_all
    | cons y more => rw [root_of_pieces all, root_of_pieces first]
  have equal : components (a ++ "/") = components a := by
    rw [ended, components, begins, steps_inside, components]
    simp [steps, pieces, Lists.split]
  exact beq_iff_eq.mpr equal

end Path

namespace SourceRoot

variable {r : SourceRoot} {path other text : String} {id : FileId}

theorem get?_of_fileId? (found : r.fileId? path = some id) :
    ∃ f, r.get? id = some f ∧ Path.same f.path path = true := by
  obtain ⟨inside, same, -⟩ := List.findIdx?_eq_some_iff_getElem.mp found
  exact ⟨_, List.getElem?_eq_getElem inside, same⟩

theorem lt_size_of_fileId? (found : r.fileId? path = some id) : id < r.size := by
  obtain ⟨f, here, -⟩ := get?_of_fileId? found
  exact (List.getElem?_eq_some_iff.mp here).1

/-- All spellings of a path have one number. -/
theorem fileId?_congr (same : Path.same path other = true) : r.fileId? path = r.fileId? other := by
  rw [fileId?, fileId?, funext fun f : SourceFile => Path.same_congr same f.path]

/-! What one insertion changes. -/

theorem insert_known (known : r.fileId? path = some id) (text : String) :
    r.insert path text = (id, ⟨r.files.modify id fun f => { f with text }⟩) := by
  rw [insert, known]

theorem insert_new (new : r.fileId? path = none) (text : String) :
    r.insert path text = (r.size, ⟨r.files ++ [⟨path, text⟩]⟩) := by
  rw [insert, new, size]

theorem size_insert (r : SourceRoot) (path text : String) :
    (r.insert path text).2.size = max r.size ((r.insert path text).1 + 1) := by
  cases known : r.fileId? path with
  | some id =>
    have inside := lt_size_of_fileId? known
    rw [insert_known known, size, List.length_modify]
    exact (Nat.max_eq_left inside).symm
  | none => simp [insert_new known, size]

/-- A file that is put in again keeps the first spelling of its path, and no other file changes. -/
theorem get?_insert (r : SourceRoot) (path text : String) (id : FileId) : (r.insert path text).2.get? id =
    if id = (r.insert path text).1 then some ⟨(r.path? id).getD path, text⟩ else r.get? id := by
  cases known : r.fileId? path with
  | some own =>
    obtain ⟨f, here, -⟩ := get?_of_fileId? known
    rw [insert_known known]
    unfold get? at here
    split
    · rename_i same
      subst same
      simp [path?, get?, here]
    · rename_i other
      simp [get?, Ne.symm other]
  | none =>
    rw [insert_new known]
    split
    · rename_i same
      subst same
      simp [path?, get?, size]
    · rename_i other
      rw [get?, get?, List.getElem?_append]
      split
      · rfl
      · rename_i past
        have past := Nat.le_of_not_lt past
        have beyond := Nat.sub_ne_zero_of_lt (Nat.lt_of_le_of_ne past (Ne.symm other))
        rw [List.getElem?_singleton, if_neg beyond, List.getElem?_eq_none past]

theorem path?_insert (r : SourceRoot) (path text : String) (id : FileId) : (r.insert path text).2.path? id =
    (r.path? id).or (if id = (r.insert path text).1 then some path else none) := by
  rw [path?, get?_insert]
  split
  · cases r.path? id <;> rfl
  · rw [Option.or_none, path?]

theorem text?_insert (r : SourceRoot) (path text : String) (id : FileId) : (r.insert path text).2.text? id =
    if id = (r.insert path text).1 then some text else r.text? id := by
  rw [text?, get?_insert]
  split
  · rfl
  · rw [text?]

theorem fileId?_paths (r : SourceRoot) (path : String) :
    r.fileId? path = (r.files.map SourceFile.path).findIdx? fun p => Path.same p path := by
  rw [fileId?, List.findIdx?_map]
  rfl

theorem paths_modify (files : List SourceFile) (id : FileId) (text : String) :
    (files.modify id fun f => { f with text }).map SourceFile.path = files.map SourceFile.path := by
  refine List.ext_getElem? fun j => ?_
  rw [List.getElem?_map, List.getElem?_map, List.getElem?_modify]
  cases files[j]? with
  | none => rfl
  | some f =>
    change some (if id = j then _ else f).path = some f.path
    split <;> rfl

/-- Every spelling of a path that was put in leads to its number, and other paths lead where they led. -/
theorem fileId?_insert (r : SourceRoot) (path text other : String) : (r.insert path text).2.fileId? other =
    if Path.same path other = true then some (r.insert path text).1 else r.fileId? other := by
  cases known : r.fileId? path with
  | some id =>
    rw [insert_known known, fileId?_paths, paths_modify, ← fileId?_paths]
    split
    · rename_i same
      exact (fileId?_congr same).symm.trans known
    · rfl
  | none =>
    have appended : (⟨r.files ++ [⟨path, text⟩]⟩ : SourceRoot).fileId? other =
        (r.fileId? other).or (if Path.same path other = true then some r.size else none) := by
      rw [fileId?, List.findIdx?_append, List.findIdx?_singleton, ← fileId?]
      split <;> simp [size]
    rw [insert_new known, appended]
    split
    · rename_i same
      rw [← fileId?_congr same, known, Option.none_or]
    · rw [Option.or_none]

/-- An insertion is answered with a number that has a path already if the path is known. -/
theorem path?_number (r : SourceRoot) (path text : String) :
    r.path? (r.insert path text).1 = (r.fileId? path).bind r.path? := by
  cases known : r.fileId? path with
  | some id => rw [insert_known known, Option.bind_some]
  | none => simp [insert_new known, path?, get?, size]

/-- Two paths have two numbers. -/
theorem ne_of_differ (differ : ¬ Path.same path other = true) (found : r.fileId? other = some id) (text : String) :
    id ≠ (r.insert path text).1 := by
  obtain ⟨f, here, same⟩ := get?_of_fileId? found
  cases known : r.fileId? path with
  | some own =>
    rw [insert_known known]
    rintro rfl
    obtain ⟨g, there, same'⟩ := get?_of_fileId? known
    obtain rfl := Option.some.inj (here.symm.trans there)
    exact differ (by rw [← Path.same_congr same, Path.same_symm same'])
  | none =>
    rw [insert_new known]
    exact Nat.ne_of_lt (lt_size_of_fileId? found)

/-- The numbers that insertions one after the other are answered with. -/
def answers (r : SourceRoot) : List (String × String) → List FileId
  | [] => []
  | (path, text) :: rest => (r.insert path text).1 :: (r.insert path text).2.answers rest

/-- What is known after insertions that were answered with these numbers. -/
structure Recalls (r : SourceRoot) (steps : List (String × String)) (ids : List FileId) : Prop where
  /-- Every insertion was answered, and a new number is the next one. -/
  answered : ids.length = steps.length
  numbered : ids.eraseDups = List.range r.size
  /-- A path has a number if it was inserted, the one that all its insertions were answered with. -/
  found : ∀ path id, r.fileId? path = some id ↔ ∃ s ∈ steps.zip ids, Path.same s.1.1 path = true ∧ s.2 = id
  /-- The last text is kept, and the first spelling. -/
  text : ∀ path, (r.fileId? path).bind r.text? = (steps.findRev? fun s => Path.same s.1 path).map Prod.snd
  spelling : ∀ path, (r.fileId? path).bind r.path? = (steps.find? fun s => Path.same s.1 path).map Prod.fst
  /-- A file is found under its own path. -/
  own : ∀ id path, r.path? id = some path → r.fileId? path = some id

namespace Recalls

variable {steps : List (String × String)} {ids : List FileId}

theorem empty : SourceRoot.empty.Recalls [] [] where
  answered := rfl
  numbered := rfl
  found path id := by simp [fileId?, SourceRoot.empty]
  text path := rfl
  spelling path := rfl
  own id path spelled := by simp [path?, get?, SourceRoot.empty] at spelled

/-- The files whose numbers have been handed out are there. -/
theorem mem_iff (h : r.Recalls steps ids) (id : FileId) : id ∈ ids ↔ id < r.size := by
  rw [← List.mem_eraseDups, h.numbered, List.mem_range]

theorem numbered_insert (h : r.Recalls steps ids) (path text : String) :
    (ids ++ [(r.insert path text).1]).eraseDups = List.range (r.insert path text).2.size := by
  rw [List.eraseDups_append, h.numbered, size_insert]
  cases known : r.fileId? path with
  | some id =>
    -- a number of the root was handed out before
    have inside := lt_size_of_fileId? known
    have again : id ∈ ids := (h.mem_iff id).mpr inside
    rw [insert_known known, Nat.max_eq_left inside]
    simp [List.removeAll, again]
  | none =>
    have new : r.size ∉ ids := fun there => Nat.lt_irrefl _ ((h.mem_iff _).mp there)
    rw [insert_new known, Nat.max_eq_right (Nat.le_succ _), List.range_succ]
    simp [List.removeAll, new, List.eraseDups_cons]

theorem found_insert (h : r.Recalls steps ids) (path text other : String) (id : FileId) :
    (r.insert path text).2.fileId? other = some id ↔
      ∃ s ∈ (steps ++ [(path, text)]).zip (ids ++ [(r.insert path text).1]),
        Path.same s.1.1 other = true ∧ s.2 = id := by
  rw [List.zip_append h.answered.symm, fileId?_insert]
  by_cases same : Path.same path other = true
  · rw [if_pos same, Option.some.injEq]
    constructor
    · intro here
      exact ⟨((path, text), _), List.mem_append_right _ (List.mem_singleton_self _), same, here⟩
    · rintro ⟨s, hs, spelled, rfl⟩
      rcases List.mem_append.mp hs with before | last
      · -- the path was known, so that it is answered with the number it had
        have known := (h.found path s.2).mpr ⟨s, before, by rw [Path.same_congr same, spelled], rfl⟩
        rw [insert_known known]
      · rw [List.mem_singleton.mp last]
  · rw [if_neg same, h.found]
    constructor
    · rintro ⟨s, hs, rest⟩
      exact ⟨s, List.mem_append_left _ hs, rest⟩
    · rintro ⟨s, hs, spelled, here⟩
      rcases List.mem_append.mp hs with before | last
      · exact ⟨s, before, spelled, here⟩
      · rw [List.mem_singleton.mp last] at spelled
        exact absurd spelled same

/-- One insertion more. -/
theorem insert (h : r.Recalls steps ids) (path text : String) :
    (r.insert path text).2.Recalls (steps ++ [(path, text)]) (ids ++ [(r.insert path text).1]) where
  answered := by simp [h.answered]
  numbered := h.numbered_insert path text
  found := h.found_insert path text
  text other := by
    rw [fileId?_insert, List.findRev?_eq_find?_reverse, List.reverse_append, List.reverse_singleton,
      List.singleton_append, List.find?_cons, ← List.findRev?_eq_find?_reverse]
    by_cases same : Path.same path other = true
    · rw [if_pos same, same, Option.bind_some, text?_insert, if_pos rfl]
      rfl
    · rw [if_neg same, Bool.eq_false_iff.mpr same, ← h.text]
      refine Option.bind_congr fun id found => ?_
      rw [text?_insert, if_neg (ne_of_differ same found text)]
  spelling other := by
    rw [fileId?_insert, List.find?_append, List.find?_singleton]
    by_cases same : Path.same path other = true
    · rw [if_pos same, if_pos same, Option.bind_some, path?_insert, if_pos rfl, path?_number, fileId?_congr same,
        h.spelling, Option.map_or]
      rfl
    · rw [if_neg same, if_neg same, Option.or_none, ← h.spelling]
      refine Option.bind_congr fun id found => ?_
      rw [path?_insert, if_neg (ne_of_differ same found text), Option.or_none]
  own id other spelled := by
    rw [path?_insert] at spelled
    rw [fileId?_insert]
    rcases Option.or_eq_some_iff.mp spelled with before | ⟨-, here⟩
    · have found := h.own id other before
      split
      · rename_i same
        rw [insert_known ((fileId?_congr same).trans found)]
      · exact found
    · split at here
      · rename_i new
        cases here
        rw [if_pos (Path.same_self path), new]
      · cases here

/-- Insertions one after the other. -/
theorem run (h : r.Recalls steps ids) (more : List (String × String)) :
    (more.foldl (fun r (path, text) => (r.insert path text).2) r).Recalls (steps ++ more) (ids ++ r.answers more) := by
  induction more generalizing r steps ids with
  | nil => simpa [answers] using h
  | cons s more ih => simpa [answers] using ih (h.insert s.1 s.2)

end Recalls

/-- The files are listed in the order of their numbers, each once. -/
theorem toList_numbers (r : SourceRoot) : r.toList.map Prod.fst = List.range r.size := by
  rw [toList, List.map_map, size, List.range_eq_range', ← List.zipIdx_map_snd]
  rfl

theorem mem_toList {file : SourceFile} : (id, file) ∈ r.toList ↔ r.get? id = some file := by
  simp [toList, get?, List.mem_zipIdx_iff_getElem?]

/-- Numbers and paths belong together, one to one, whatever was put in. -/
theorem ofList_recalls (steps : List (String × String)) :
    let r := ofList steps
    r.Recalls steps (empty.answers steps) ∧
      (∀ id id' path path', r.path? id = some path → r.path? id' = some path' → Path.same path path' = true →
        id = id') ∧
      (r.toList.map Prod.fst = List.range r.size ∧ ∀ id file, (id, file) ∈ r.toList ↔ r.get? id = some file) ∧
      (∀ a b, Path.same (a ++ "//" ++ b) (a ++ "/" ++ b) = true ∧ Path.same (a ++ "/./" ++ b) (a ++ "/" ++ b) = true) ∧
      ∀ a, a ≠ "" → Path.same (a ++ "/") a = true := by
  intro r
  have recalls : r.Recalls steps (empty.answers steps) := Recalls.empty.run steps
  refine ⟨recalls, ?_, ⟨toList_numbers r, fun id file => mem_toList⟩, ?_, fun a some => Path.same_of_ended some⟩
  · intro id id' path path' here there same
    have found := recalls.own id path here
    rw [fileId?_congr same, recalls.own id' path' there] at found
    exact (Option.some.inj found).symm
  · intro a b
    have slash : a ++ "//" ++ b = a ++ "/" ++ "" ++ "/" ++ b := by simp [← String.toList_inj, String.toList_append]
    have dot : a ++ "/./" ++ b = a ++ "/" ++ "." ++ "/" ++ b := by simp [← String.toList_inj, String.toList_append]
    rw [slash, dot]
    exact ⟨Path.same_of_idle (by decide) a b, Path.same_of_idle (by decide) a b⟩

/-- A path that begins with a dot is another one, and dots and slashes further on make no difference. -/
example : let steps := [("a/b", "1"), ("c", "2"), ("./a/b", "3"), ("a//./b/", "4")]
    empty.answers steps = [0, 1, 2, 0] ∧ (ofList steps).get? 0 = some ⟨"a/b", "4"⟩ := by
  decide +kernel

end SourceRoot
end JavaIndex
