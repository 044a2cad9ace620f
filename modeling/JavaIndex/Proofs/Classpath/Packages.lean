import JavaIndex.Classpath.Table
import JavaIndex.Proofs.Text.Lines
import JavaIndex.Proofs.Text.Segments
import Mathlib.Data.List.Infix

/-! The packages that come to exist with one of them. Where no segment of its name is empty they are the beginnings of
the name that end with a segment, each cut between two characters. The cuts are measured by the segments that are
not empty, so an empty one moves them all, and the name itself is no longer among them. -/
namespace JavaIndex

namespace Span

theorem sliceFrom_front (xs ys : List Char) (offset : Nat) :
    sliceFrom ⟨0, offset + bytesOf xs⟩ offset (xs ++ ys) = xs := by
  induction xs generalizing offset with
  | nil => cases ys <;> simp [sliceFrom, bytesOf_nil]
  | cons x xs ih =>
    have wide := x.utf8Size_pos
    have next : offset + (x.utf8Size + bytesOf xs) = offset + x.utf8Size + bytesOf xs := by omega
    rw [List.cons_append, sliceFrom, bytesOf_cons, next, ih, if_neg (by dsimp only; omega), if_neg (by simp)]

/-- What a text begins with is cut off after as many bytes as it has. -/
theorem slice_front (front rest : String) : slice ⟨0, front.utf8ByteSize⟩ (front ++ rest) = front := by
  have cut := sliceFrom_front front.toList rest.toList 0
  rw [Nat.zero_add, bytesOf_toList] at cut
  rw [slice, String.toList_append, cut, String.ofList_toList]

theorem length_sliceFrom {cs : List Char} (narrow : ∀ c ∈ cs, c.utf8Size = 1) (stop offset : Nat) :
    (sliceFrom ⟨0, stop⟩ offset cs).length ≤ stop - offset := by
  induction cs generalizing offset with
  | nil => simp [sliceFrom]
  | cons c cs ih =>
    obtain ⟨first, later⟩ := List.forall_mem_cons.mp narrow
    rw [sliceFrom, first]
    split
    · exact Nat.zero_le _
    · rename_i before
      have rest := ih later (offset + 1)
      dsimp only at before
      rw [if_neg (Nat.not_lt_zero _), List.length_cons]
      omega

theorem length_slice {text : String} (narrow : ∀ c ∈ text.toList, c.utf8Size = 1) (stop : Nat) :
    (slice ⟨0, stop⟩ text).toList.length ≤ stop := by
  rw [slice, String.toList_ofList]
  exact length_sliceFrom narrow stop 0

theorem bytesOf_narrow {cs : List Char} (narrow : ∀ c ∈ cs, c.utf8Size = 1) : bytesOf cs = cs.length := by
  induction cs with
  | nil => rfl
  | cons c cs ih =>
    obtain ⟨first, later⟩ := List.forall_mem_cons.mp narrow
    rw [bytesOf_cons, first, ih later, List.length_cons]
    omega

end Span

namespace Dotted

/-- The bytes of a word and of a dot after it. -/
def width (word : String) : Nat := word.utf8ByteSize + 1

theorem size_join_cons {words : List String} (word : String) (some : words ≠ []) :
    (join (word :: words)).utf8ByteSize = word.utf8ByteSize + 1 + (join words).utf8ByteSize := by
  obtain ⟨second, rest, rfl⟩ := List.exists_cons_of_ne_nil some
  have joined : join (word :: second :: rest) = word ++ "." ++ join (second :: rest) := String.intercalate_cons_cons
  have dot : ".".utf8ByteSize = 1 := by decide
  rw [joined, String.utf8ByteSize_append, String.utf8ByteSize_append, dot]

theorem size_join {words : List String} (some : words ≠ []) :
    (join words).utf8ByteSize + 1 = (words.map width).sum := by
  induction words with
  | nil => contradiction
  | cons word words ih =>
    by_cases alone : words = []
    · subst alone
      simp [join, width]
    · have later := ih alone
      rw [size_join_cons word alone, List.map_cons, List.sum_cons, width]
      omega

theorem width_steps (name : String) :
    ((steps name).map width).sum + (segments name).count "" = ((segments name).map width).sum := by
  unfold steps
  induction segments name with
  | nil => rfl
  | cons word words ih =>
    by_cases empty : word = ""
    · subst empty
      have alone : width "" = 1 := by decide
      rw [List.filter_cons_of_neg (by simp), List.count_cons_self, List.map_cons, List.sum_cons, ← ih, alone]
      omega
    · rw [List.filter_cons_of_pos (by simpa using empty), List.count_cons_of_ne empty, List.map_cons, List.map_cons,
        List.sum_cons, List.sum_cons, ← ih]
      omega

/-- What some of the first segments join to is what the name begins with. -/
theorem join_prefix {front words : List String} (some : front ≠ []) (within : front <+: words) :
    ∃ rest, join words = join front ++ rest := by
  obtain ⟨more, rfl⟩ := within
  induction front with
  | nil => contradiction
  | cons word front ih =>
    have step (second : String) (rest : List String) :
        join (word :: second :: rest) = word ++ ("." ++ join (second :: rest)) := by
      rw [← String.append_assoc]
      exact String.intercalate_cons_cons
    cases front with
    | nil =>
      cases more with
      | nil => exact ⟨"", by simp⟩
      | cons second rest =>
        have alone : join [word] = word := by simp [join]
        exact ⟨"." ++ join (second :: rest), by rw [alone, List.singleton_append, step]⟩
    | cons second front =>
      obtain ⟨rest, whole⟩ := ih (List.cons_ne_nil _ _)
      refine ⟨rest, ?_⟩
      rw [List.cons_append, List.cons_append, step, step, ← List.cons_append, whole]
      simp [String.append_assoc]

end Dotted

namespace ExternalTable

/-- Where words end that stand one after the other with a dot between. -/
def stops (read : Nat) : List String → List Nat
  | [] => []
  | word :: words => (read + word.utf8ByteSize) :: stops (read + word.utf8ByteSize + 1) words

theorem packageNames_stops (package : String) :
    packageNames package = (stops 0 (Dotted.steps package)).map fun stop => Span.slice ⟨0, stop⟩ package := by
  have measured (words : List String) (read : Nat) (found : List Nat) :
      (words.foldl (fun state word => (state.1 + word.utf8ByteSize + 1, (state.1 + word.utf8ByteSize) :: state.2))
          (read, found)).2.reverse = found.reverse ++ stops read words := by
    induction words generalizing read found with
    | nil => simp [stops]
    | cons word words ih => simp [stops, ih]
  exact congrArg (List.map fun stop => Span.slice ⟨0, stop⟩ package) (measured (Dotted.steps package) 0 [])

theorem mem_stops {words : List String} {read stop : Nat} :
    stop ∈ stops read words ↔
      ∃ front, front ≠ [] ∧ front <+: words ∧ stop = read + (Dotted.join front).utf8ByteSize := by
  induction words generalizing read with
  | nil =>
    constructor
    · exact nofun
    · rintro ⟨front, some, within, -⟩
      exact absurd (List.prefix_nil.mp within) some
  | cons word words ih =>
    rw [stops, List.mem_cons, ih]
    constructor
    · rintro (rfl | ⟨front, some, within, rfl⟩)
      · exact ⟨[word], List.cons_ne_nil _ _, by simp, by simp [Dotted.join]⟩
      · refine ⟨word :: front, List.cons_ne_nil _ _, by simpa using within, ?_⟩
        rw [Dotted.size_join_cons word some]
        omega
    · rintro ⟨front, some, within, rfl⟩
      obtain rfl | ⟨more, rfl, later⟩ := List.prefix_cons_iff.mp within
      · contradiction
      · by_cases alone : more = []
        · subst alone
          exact .inl (by simp [Dotted.join])
        · refine .inr ⟨more, alone, later, ?_⟩
          rw [Dotted.size_join_cons word alone]
          omega

variable {t : ExternalTable} {package name : String}

theorem steps_of_full (full : "" ∉ Dotted.segments package) : Dotted.steps package = Dotted.segments package := by
  rw [Dotted.steps, List.filter_eq_self]
  intro word inside
  simpa using fun empty : word = "" => full (empty ▸ inside)

/-- Where no segment is empty every cut is between two characters, after some of the segments. -/
theorem cut_between (full : "" ∉ Dotted.segments package) {stop : Nat}
    (cut : stop ∈ stops 0 (Dotted.steps package)) :
    ∃ front rest, front ≠ [] ∧ front <+: Dotted.segments package ∧ package = Dotted.join front ++ rest ∧
      stop = (Dotted.join front).utf8ByteSize := by
  rw [steps_of_full full, mem_stops] at cut
  obtain ⟨front, some, within, rfl⟩ := cut
  obtain ⟨rest, whole⟩ := Dotted.join_prefix some within
  rw [Dotted.join_segments] at whole
  exact ⟨front, rest, some, within, whole, Nat.zero_add _⟩

/-- Where no segment is empty the packages are what the first segments join to, for any number of them. -/
theorem mem_packageNames (full : "" ∉ Dotted.segments package) :
    name ∈ packageNames package ↔
      ∃ front, front ≠ [] ∧ front <+: Dotted.segments package ∧ name = Dotted.join front := by
  rw [packageNames_stops, List.mem_map]
  constructor
  · rintro ⟨stop, cut, rfl⟩
    obtain ⟨front, rest, some, within, whole, rfl⟩ := cut_between full cut
    refine ⟨front, some, within, ?_⟩
    rw [whole, Span.slice_front]
  · rintro ⟨front, some, within, rfl⟩
    obtain ⟨rest, whole⟩ := Dotted.join_prefix some within
    rw [Dotted.join_segments] at whole
    refine ⟨(Dotted.join front).utf8ByteSize, ?_, ?_⟩
    · rw [steps_of_full full, mem_stops]
      exact ⟨front, some, within, (Nat.zero_add _).symm⟩
    · rw [whole, Span.slice_front]

/-- A name of single bytes is among its packages just if none of its segments is empty. -/
theorem mem_packageNames_self (narrow : ∀ c ∈ package.toList, c.utf8Size = 1) :
    package ∈ packageNames package ↔ "" ∉ Dotted.segments package := by
  constructor
  · intro recorded empty
    rw [packageNames_stops, List.mem_map] at recorded
    obtain ⟨stop, cut, same⟩ := recorded
    obtain ⟨front, some, ⟨rest, whole⟩, rfl⟩ := mem_stops.mp cut
    have short := Span.length_slice narrow (0 + (Dotted.join front).utf8ByteSize)
    rw [same, ← Span.bytesOf_narrow narrow, Span.bytesOf_toList] at short
    have front_size := Dotted.size_join some
    have whole_size := Dotted.size_join (Dotted.segments_ne_nil package)
    rw [Dotted.join_segments, ← Dotted.width_steps, ← whole, List.map_append, List.sum_append] at whole_size
    have dropped := List.count_pos_iff.mpr empty
    omega
  · intro full
    rw [mem_packageNames full]
    exact ⟨_, Dotted.segments_ne_nil package, List.prefix_rfl, (Dotted.join_segments package).symm⟩

/-! The table. -/

theorem hasPackage_addPackage :
    (t.addPackage package).hasPackage name = true ↔ t.hasPackage name = true ∨ name ∈ packageNames package := by
  rw [hasPackage, addPackage, Std.TreeSet.contains_insertMany_list, Bool.or_eq_true, List.contains_iff_mem]
  rfl

/-- A package comes to exist with the packages around it, and with nothing else. -/
theorem hasPackage_of_full (full : "" ∉ Dotted.segments package) :
    (t.addPackage package).hasPackage name = true ↔ t.hasPackage name = true ∨
      ∃ front, front ≠ [] ∧ front <+: Dotted.segments package ∧ name = Dotted.join front := by
  rw [hasPackage_addPackage, mem_packageNames full]

/-- A new package of single bytes exists afterwards just if none of its segments is empty. -/
theorem hasPackage_self (narrow : ∀ c ∈ package.toList, c.utf8Size = 1) (new : t.hasPackage package = false) :
    (t.addPackage package).hasPackage package = true ↔ "" ∉ Dotted.segments package := by
  rw [hasPackage_addPackage, new, mem_packageNames_self narrow]
  exact or_iff_right Bool.false_ne_true

/-- The second cut is moved to the front by the byte of one dot. -/
example : packageNames "a..b" = ["a", "a.."] := by decide +kernel

/-! A class and a package with resources bring their packages with them in this way. -/

theorem hasPackage_insert (c : ClassInfo) :
    (t.insert c).hasPackage name = (t.addPackage c.package).hasPackage name := rfl

theorem hasPackage_addResourcePackage :
    (t.addResourcePackage package).hasPackage name = (t.addPackage package).hasPackage name := rfl

end ExternalTable
end JavaIndex
