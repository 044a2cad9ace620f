import JavaIndex.Proofs.JavaType.Spelling
import JavaIndex.Proofs.Symbol.Text
import JavaIndex.Proofs.Text.Segments
import Mathlib.Data.Bool.AllAny

/-! Types are read back from their texts. In what a type is written with, brackets, commas and the ends of array
types belong to the level that wrote them: a list of arguments is cut into the texts of the arguments. -/
namespace JavaIndex

namespace Identifier

/-- No blank stands in an identifier. -/
theorem not_blank_of_mayOccur {c : Char} (word : mayOccur c = true) : Blank.isBlank c = false := by
  by_contra blank
  have codes : c.toNat ∈ [0x9, 0xa, 0xb, 0xc, 0xd, 0x20, 0x85, 0xa0, 0x1680, 0x2000, 0x2001, 0x2002, 0x2003, 0x2004,
      0x2005, 0x2006, 0x2007, 0x2008, 0x2009, 0x200a, 0x2028, 0x2029, 0x202f, 0x205f, 0x3000] := by
    simp only [Blank.isBlank, Bool.not_eq_false, Bool.or_eq_true, Bool.and_eq_true, decide_eq_true_eq,
      beq_iff_eq] at blank
    simp only [List.mem_cons, List.not_mem_nil, or_false]
    omega
  have none : ∀ n ∈ [0x9, 0xa, 0xb, 0xc, 0xd, 0x20, 0x85, 0xa0, 0x1680, 0x2000, 0x2001, 0x2002, 0x2003, 0x2004,
      0x2005, 0x2006, 0x2007, 0x2008, 0x2009, 0x200a, 0x2028, 0x2029, 0x202f, 0x205f, 0x3000],
      mayOccur (Char.ofNat n) = false := by
    decide +kernel
  have other := none c.toNat codes
  rw [Char.ofNat_toNat, word] at other
  cases other

/-- None of the signs that types are built with stands in an identifier. -/
theorem no_sign_of_mayOccur {c : Char} (word : mayOccur c = true) : c ∉ ['<', '>', ',', '[', ']', '?', '.'] := by
  have none : ∀ sign ∈ ['<', '>', ',', '[', ']', '?', '.'], mayOccur sign = false := List.all_iff_forall_prop.mp (by decide)
  intro sign
  rw [none c sign] at word
  cases word

end Identifier

namespace JavaType

variable {vars : List String}

/-- A name as a library spells it: identifiers with dots between them, none with a dollar sign. -/
def Spelled (name : String) : Prop :=
  ∃ words, words ≠ [] ∧ (∀ w ∈ words, Identifier.isIdentifier w = true ∧ '$' ∉ w.toList) ∧ name = Dotted.join words

mutual

/-- The type is made of primitive types, classes, some type variables and arrays, and a name tells which of these
it stands for. -/
def Written (vars : List String) : JavaType → Prop
  | .primitive name => name ∈ primitiveNames
  | .named name args => Spelled name ∧ name ∉ primitiveNames ∧ name ∉ vars ∧ AllWritten vars args
  | .array element => Written vars element
  | .variable name => Identifier.isIdentifier name = true ∧ name ∈ vars ∧ name ∉ primitiveNames
  | .null | .unknown => False

def AllWritten (vars : List String) : List JavaType → Prop
  | [] => True
  | t :: ts => Written vars t ∧ AllWritten vars ts

end

theorem texts_eq_map (ts : List JavaType) : texts ts = ts.map text := by
  induction ts with
  | nil => rfl
  | cons t ts ih => rw [texts, ih, List.map_cons]

/-- The last character of a name belongs to its last word. -/
theorem last_of_words {words : List String} (nonempty : words ≠ [])
    (plain : ∀ w ∈ words, Identifier.isIdentifier w = true) :
    ∃ c, (Dotted.join words).toList.getLast? = some c ∧ c ≠ '.' := by
  induction words with
  | nil => exact absurd rfl nonempty
  | cons word words ih =>
    cases words with
    | nil =>
      have letters := Identifier.ne_nil_of_isIdentifier (plain word List.mem_cons_self)
      have inside := Identifier.mayOccur_of_isIdentifier (plain word List.mem_cons_self)
      refine ⟨word.toList.getLast letters, ?_, ?_⟩
      · rw [Dotted.join, String.intercalate_singleton, List.getLast?_eq_getLast_of_ne_nil letters]
      · intro dot
        exact Identifier.no_sign_of_mayOccur (inside _ (List.getLast_mem letters)) (by simp [dot])
    | cons second words =>
      obtain ⟨c, last, other⟩ := ih (by simp) fun w hw => plain w (List.mem_cons_of_mem _ hw)
      refine ⟨c, ?_, other⟩
      rw [Dotted.join, String.intercalate_cons_cons, String.toList_append, List.getLast?_append]
      rw [Dotted.join] at last
      rw [last]
      rfl

theorem Spelled.isName {name : String} (spelled : Spelled name) (other : name ∉ primitiveNames) : IsName name := by
  obtain ⟨words, nonempty, plain, rfl⟩ := spelled
  have last := last_of_words nonempty fun w hw => (plain w hw).1
  refine ⟨fun c hc => ?_, last, other⟩
  -- a character of the name is a dot or stands in one of the words
  have cases : c = '.' ∨ (Identifier.mayOccur c = true ∧ c ≠ '$') := by
    by_contra neither
    rw [not_or] at neither
    refine notMem_intercalate (by simpa using neither.1) (fun w hw inside => neither.2 ⟨?_, ?_⟩) hc
    · exact Identifier.mayOccur_of_isIdentifier (plain w hw).1 c inside
    · rintro rfl
      exact (plain w hw).2 inside
  rcases cases with rfl | ⟨word, dollar⟩
  · decide
  · have signs := Identifier.no_sign_of_mayOccur word
    refine ⟨Identifier.not_blank_of_mayOccur word, ?_⟩
    simp only [List.mem_cons, List.not_mem_nil, or_false, not_or] at signs ⊢
    exact ⟨signs.1, signs.2.1, signs.2.2.1, signs.2.2.2.1, signs.2.2.2.2.1, signs.2.2.2.2.2.1, dollar⟩

/-- A type variable is known before anything is made of its name. -/
theorem spells_variable {name : String} (plain : Identifier.isIdentifier name = true) (known : name ∈ vars)
    (other : name ∉ primitiveNames) : SpellsType vars name.toList (.variable name) := by
  have letters := Identifier.ne_nil_of_isIdentifier plain
  have inside := Identifier.mayOccur_of_isIdentifier plain
  have free : ∀ sign ∈ ['<', '>', ',', '[', ']', '?', '.'], sign ∉ name.toList := by
    intro sign mem here
    exact Identifier.no_sign_of_mayOccur (inside sign here) mem
  have begins := List.head?_eq_some_head letters
  have ends := List.getLast?_eq_getLast_of_ne_nil letters
  have first := List.head_mem letters
  have last := List.getLast_mem letters
  have tight : Tight name.toList :=
    ⟨⟨_, begins, Identifier.not_blank_of_mayOccur (inside _ first)⟩,
      ⟨_, ends, Identifier.not_blank_of_mayOccur (inside _ last)⟩⟩
  have passes : Passes 0 name.toList :=
    .chars (free _ (by decide)) (free _ (by decide)) (free _ (by decide))
  have notAmong {c : Char} (mem : c ∈ name.toList) (sign : Char)
      (sort : sign ∈ ['<', '>', ',', '[', ']', '?', '.']) : c ≠ sign := by
    rintro rfl
    exact free c sort mem
  have whole : splitGeneric name.toList = (name.toList, none) := by
    have none : name.toList.dropWhile (· ≠ '<') = [] :=
      List.dropWhile_eq_nil_iff.mpr fun c hc => decide_eq_true (notAmong hc _ (by decide))
    rw [splitGeneric, none]
  have bracket := notAmong last ']' (by decide)
  have dot := notAmong last '.' (by decide)
  refine .of_last ⟨tight, passes, fun n long => ?_⟩ ends bracket dot
  cases n with
  | zero => cases long
  | succ n =>
    rw [readAt_name tight begins ends (notAmong first _ (by decide)) bracket dot, whole, String.ofList_toList,
      if_neg other, if_pos known]

/-- A class with arguments. -/
theorem text_args {name : String} {args : List JavaType} (nonempty : args ≠ []) :
    (text (.named name args)).toList =
      name.toList ++ ('<' :: [',', ' '].intercalate (args.map fun t => (text t).toList) ++ ['>']) := by
  have filled : args.isEmpty = false := List.isEmpty_eq_false_iff.mpr nonempty
  simp [text, filled, texts_eq_map, String.toList_append, String.toList_intercalate, List.map_map, Function.comp_def]

mutual

theorem spells_written : ∀ t : JavaType, Written vars t → SpellsType vars (text t).toList t
  | .primitive name, written => by
    rw [Written] at written
    rw [text]
    exact spells_primitive written
  | .variable name, written => by
    rw [Written] at written
    rw [text]
    exact spells_variable written.1 written.2.1 written.2.2
  | .array element, written => by
    rw [Written] at written
    rw [text, String.toList_append]
    exact (spells_written element written).array
  | .named name args, written => by
    rw [Written] at written
    obtain ⟨spelled, notPrimitive, notVariable, inside⟩ := written
    have named := spelled.isName notPrimitive
    have each := spells_allWritten args inside
    have head : ofHead vars name args = .named name args := if_neg notVariable
    by_cases none : args = []
    · subst none
      rw [text, List.isEmpty_nil, if_pos rfl, ← head]
      exact named.spells
    · have spells : SpellsType vars _ (ofHead vars name (args.map id)) := named.spells_args each
      rwa [List.map_id, head, ← text_args none] at spells
  | .null, written => by
    rw [Written] at written
    exact written.elim
  | .unknown, written => by
    rw [Written] at written
    exact written.elim

theorem spells_allWritten : ∀ ts : List JavaType, AllWritten vars ts →
    ∀ t ∈ ts, Spells vars (text t).toList t
  | [], _ => nofun
  | t :: ts, written => by
    rw [AllWritten] at written
    have first := (spells_written t written.1).toSpells
    exact List.forall_mem_cons.mpr ⟨first, spells_allWritten ts written.2⟩

end

/-- The arguments of a class are cut apart where they have been joined. -/
theorem splitArgs_written {name : String} {args : List JavaType} (written : Written vars (.named name args))
    (nonempty : args ≠ []) :
    (splitGeneric (text (.named name args)).toList).2.map (splitArgs 0 []) =
      some (args.map fun t => (text t).toList) := by
  rw [Written] at written
  obtain ⟨spelled, notPrimitive, -, inside⟩ := written
  have each := spells_allWritten args inside
  have texts : ∀ cs ∈ args.map fun t => (text t).toList, Tight cs ∧ Passes 0 cs := by
    intro cs hcs
    obtain ⟨t, ht, rfl⟩ := List.mem_map.mp hcs
    exact ⟨(each t ht).tight, (each t ht).passes⟩
  rw [text_args nonempty, (spelled.isName notPrimitive).splitGeneric_brackets, Option.map_some,
    splitArgs_intercalate texts (.inl rfl)]

/-- A type is read back from its text, and the arguments of every class are cut apart where they have been
joined. -/
theorem read_written {t : JavaType} (written : Written vars t) :
    read vars t.text = t ∧ ∀ name args, t = .named name args → args ≠ [] →
      (splitGeneric t.text.toList).2.map (splitArgs 0 []) = some (args.map fun t => (text t).toList) := by
  refine ⟨(spells_written t written).read _ (Nat.lt_succ_self _), ?_⟩
  rintro name args rfl nonempty
  exact splitArgs_written written nonempty

/-- A map with a variable, arrays and nested arguments. -/
theorem read_written_nested :
    let entry := JavaType.named "java.util.Map.Entry" [.variable "K$", .array (.array (.primitive "int"))]
    let t := JavaType.array (.named "p.Pair" [entry, .named "List" [entry], .primitive "void"])
    Written ["K$"] t ∧ read ["K$"] t.text = t := by
  intro entry t
  have spelled (words : List String) (nonempty : words ≠ [])
      (plain : ∀ w ∈ words, Identifier.isIdentifier w = true ∧ '$' ∉ w.toList) : Spelled (Dotted.join words) :=
    ⟨words, nonempty, plain, rfl⟩
  have written : Written ["K$"] t := by
    have pair := spelled ["p", "Pair"] (by decide) (by decide)
    have map := spelled ["java", "util", "Map", "Entry"] (by decide) (by decide)
    have list := spelled ["List"] (by decide) (by decide)
    simp only [t, entry, Written, AllWritten]
    refine ⟨pair, by decide, by decide, ⟨map, by decide, by decide, ⟨by decide, by decide, by decide⟩, by decide, trivial⟩,
      ⟨list, by decide, by decide, ⟨map, by decide, by decide, ⟨by decide, by decide, by decide⟩, by decide, trivial⟩,
        trivial⟩, by decide, trivial⟩
  exact ⟨written, (read_written written).1⟩

end JavaType
end JavaIndex
