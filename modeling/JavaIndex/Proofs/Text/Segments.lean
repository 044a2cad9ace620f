import JavaIndex.Text.Dotted
import Mathlib.Data.List.Basic

/-! Names cut into segments and joined again. -/
namespace JavaIndex

/-- What is neither in some words nor between them is not in what they make up. -/
theorem notMem_intercalate {separator : String} {words : List String} {c : Char}
    (between : c ∉ separator.toList) (free : ∀ word ∈ words, c ∉ word.toList) :
    c ∉ (separator.intercalate words).toList := by
  induction words with
  | nil => simp
  | cons word words ih =>
    have first := free word List.mem_cons_self
    have rest := ih fun w hw => free w (List.mem_cons_of_mem _ hw)
    cases words with
    | nil => rwa [String.intercalate_singleton]
    | cons second words =>
      simp only [String.intercalate_cons_cons, String.toList_append, List.mem_append, first, between, rest, or_self,
        not_false_eq_true]

/-! One character in place of another. -/

theorem replace_of_free {old new : Char} {word : String} (free : old ∉ word.toList) :
    String.ofList (word.toList.map fun c => if c = old then new else c) = word := by
  have kept : word.toList.map (fun c => if c = old then new else c) = word.toList := by
    conv_rhs => rw [← List.map_id word.toList]
    refine List.map_congr_left fun c hc => if_neg ?_
    rintro rfl
    exact free hc
  rw [kept, String.ofList_toList]

/-- In a text made of words another separator can take the place of one that is in none of the words. -/
theorem replace_intercalate {old new : Char} {words : List String} (free : ∀ word ∈ words, old ∉ word.toList) :
    String.ofList (((String.singleton old).intercalate words).toList.map fun c => if c = old then new else c) =
      (String.singleton new).intercalate words := by
  induction words with
  | nil => rfl
  | cons word words ih =>
    have first : String.ofList (word.toList.map fun c => if c = old then new else c) = word :=
      replace_of_free (free word List.mem_cons_self)
    cases words with
    | nil => rw [String.intercalate_singleton, String.intercalate_singleton, first]
    | cons second words =>
      rw [String.intercalate_cons_cons, String.intercalate_cons_cons, String.toList_append, String.toList_append,
        List.map_append, List.map_append, String.ofList_append, String.ofList_append, first,
        ih fun w hw => free w (List.mem_cons_of_mem _ hw)]
      simp

namespace Lists

theorem split_eq_splitOn (separator : Char) (cs : List Char) : split separator cs = cs.splitOn separator := by
  induction cs with
  | nil => simp [split]
  | cons c cs ih =>
    obtain ⟨piece, rest, pieces⟩ := List.exists_cons_of_ne_nil (List.splitOn_ne_nil separator cs)
    simp [split, ih, List.splitOn_cons_eq_if_modifyHead, pieces]

/-- No piece holds the separator, nor anything that the whole does not hold. -/
theorem mem_split {separator : Char} {cs : List Char} :
    ∀ piece ∈ split separator cs, separator ∉ piece ∧ piece ⊆ cs := by
  induction cs with
  | nil => simp [split]
  | cons c cs ih =>
    cases pieces : split separator cs with
    | nil => simp [split, pieces]
    | cons first rest =>
      rw [pieces, List.forall_mem_cons] at ih
      obtain ⟨⟨free, within⟩, later⟩ := ih
      have later : ∀ piece ∈ rest, separator ∉ piece ∧ piece ⊆ c :: cs := fun piece cut =>
        ⟨(later piece cut).1, List.subset_cons_of_subset c (later piece cut).2⟩
      simp only [split, pieces]
      split
      · simp only [List.forall_mem_cons]
        exact ⟨by simp, ⟨free, List.subset_cons_of_subset c within⟩, later⟩
      · rename_i other
        rw [List.forall_mem_cons]
        exact ⟨⟨by simp [free, Ne.symm other], List.cons_subset_cons c within⟩, later⟩

/-- Every text is made of words without the separator. -/
theorem exists_words (separator : Char) (text : String) : ∃ words, words ≠ [] ∧
    text = (String.singleton separator).intercalate words ∧
    ∀ word ∈ words, separator ∉ word.toList ∧ word.toList ⊆ text.toList := by
  refine ⟨(split separator text.toList).map String.ofList, ?_, ?_, ?_⟩
  · simp [split_eq_splitOn]
  · have back : String.toList ∘ String.ofList = id := funext fun _ => String.toList_ofList
    rw [← String.toList_inj, String.toList_intercalate, List.map_map, back, List.map_id, split_eq_splitOn,
      String.toList_singleton, List.intercalate_splitOn]
  · simpa using mem_split

/-- Words without the separator are what the text is cut into that they make up. -/
theorem split_words {separator : Char} {words : List String} (some : words ≠ [])
    (free : ∀ word ∈ words, separator ∉ word.toList) :
    (split separator ((String.singleton separator).intercalate words).toList).map String.ofList = words := by
  have pieces : ∀ piece ∈ words.map String.toList, separator ∉ piece := by simpa using free
  have cut := List.splitOn_intercalate separator pieces (by simpa using some)
  have back : String.ofList ∘ String.toList = id := funext fun _ => String.ofList_toList
  rw [split_eq_splitOn, String.toList_intercalate, String.toList_singleton, cut, List.map_map, back, List.map_id]

end Lists

namespace Dotted

theorem join_segments (name : String) : join (segments name) = name := by
  have back : String.toList ∘ String.ofList = id := funext fun _ => String.toList_ofList
  rw [join, segments, ← String.toList_inj, String.toList_intercalate, List.map_map, back, List.map_id,
    Lists.split_eq_splitOn]
  exact List.intercalate_splitOn '.'

theorem segments_ne_nil (name : String) : segments name ≠ [] := by
  simp [segments, Lists.split_eq_splitOn]

theorem segments_inside (outer name : String) : segments (outer ++ "." ++ name) = segments outer ++ segments name := by
  have together : (outer ++ "." ++ name).toList = outer.toList ++ '.' :: name.toList := by simp [String.toList_append]
  rw [segments, together, Lists.split_eq_splitOn, List.splitOn_append_cons_self, List.map_append, segments, segments,
    Lists.split_eq_splitOn, Lists.split_eq_splitOn]

theorem segments_of_free {word : String} (free : '.' ∉ word.toList) : segments word = [word] := by
  rw [segments, Lists.split_eq_splitOn, List.splitOn_eq_singleton free, List.map_singleton, String.ofList_toList]

theorem segments_intercalate {words : List String} (some : words ≠ [])
    (free : ∀ word ∈ words, '.' ∉ word.toList) : segments (".".intercalate words) = words :=
  Lists.split_words some free

theorem splitLast?_inside (outer : String) {word : String} (free : '.' ∉ word.toList) :
    splitLast? (outer ++ "." ++ word) = some (outer, word) := by
  unfold splitLast?
  rw [segments_inside, segments_of_free free, List.reverse_append]
  cases around : (segments outer).reverse with
  | nil => exact absurd (List.reverse_eq_nil_iff.mp around) (segments_ne_nil outer)
  | cons before rest =>
    have same : (before :: rest).reverse = segments outer := by rw [← around, List.reverse_reverse]
    simp [same, join_segments]

theorem splitLast?_of_free {word : String} (free : '.' ∉ word.toList) : splitLast? word = none := by
  rw [splitLast?, segments_of_free free]
  rfl

/-! Names in one another. -/

theorem within_inside (package outer word : String) :
    within package outer ++ "." ++ word = within package (outer ++ "." ++ word) := by
  unfold within
  split
  · rfl
  · simp [String.append_assoc]

theorem last_inside (outer : String) {word : String} (free : '.' ∉ word.toList) :
    last (outer ++ "." ++ word) = word := by
  rw [last, segments_inside, segments_of_free free, List.getLast?_concat, Option.getD_some]

theorem last_within (outer : String) {words : List String} (some : words ≠ [])
    (free : ∀ word ∈ words, '.' ∉ word.toList) :
    last (within outer (".".intercalate words)) = words.getLast some := by
  have inner := segments_intercalate some free
  rw [last, within]
  split
  · rw [inner, List.getLast?_eq_getLast_of_ne_nil some, Option.getD_some]
  · rw [segments_inside, inner, List.getLast?_append_of_ne_nil _ some,
      List.getLast?_eq_getLast_of_ne_nil some, Option.getD_some]

end Dotted
end JavaIndex
