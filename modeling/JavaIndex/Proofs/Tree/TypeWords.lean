import JavaIndex.Proofs.Token.Words
import JavaIndex.Tree.WrittenType

/-! The words and signs that written types are made of. The text of a type is read as the words of the type. -/
namespace JavaIndex

variable {A : Type}

/-- The type that stands in an argument. -/
def TypeArg.type? : TypeArg A → Option (WrittenType A)
  | .type t => some t
  | .wildcard _ => none
  | .bounded _ t _ => some t

/-- The type can be written. What names it are names, and an array has a dimension. -/
inductive WrittenType.Writable (names : String → Prop) : WrittenType A → Prop
  | primitive {keyword range} :
    keyword ∈ Token.primitives ∨ keyword = "void" → Writable names (.primitive keyword range)
  | named {ss range} : ss ≠ [] → (∀ s ∈ ss, names s.name.text) →
    (∀ s ∈ ss, ∀ args ∈ s.args, ∀ a ∈ args, ∀ t ∈ a.type?, Writable names t) → Writable names (.named ss range)
  | array {element dims range} : 0 < dims → Writable names element → Writable names (.array element dims range)

/-- So many empty pairs of brackets. -/
def bracketWords : Nat → List Token.Word
  | 0 => []
  | n + 1 => (.sign, "[") :: (.sign, "]") :: bracketWords n

theorem bracketWords_add (m n : Nat) : bracketWords (m + n) = bracketWords m ++ bracketWords n := by
  induction m with
  | zero => rw [Nat.zero_add]; rfl
  | succ m ih => rw [Nat.succ_add, bracketWords, ih]; rfl

mutual

/-- The words and signs of a written type, without annotations. -/
def WrittenType.words : WrittenType A → List Token.Word
  | .primitive keyword _ => [(.keyword, keyword)]
  | .named segments _ => [(.sign, ".")].intercalate (TypeSegment.rows segments)
  | .array element dims _ => element.words ++ bracketWords dims

def TypeSegment.rows : List (TypeSegment A) → List (List Token.Word)
  | [] => []
  | ⟨_, name, args⟩ :: rest => ((.identifier, name.text) :: TypeArg.listWords args) :: TypeSegment.rows rest

def TypeArg.listWords : Option (List (TypeArg A)) → List Token.Word
  | none => []
  | some args => (.sign, "<") :: ([(.sign, ",")].intercalate (TypeArg.rows args) ++ [(.sign, ">")])

def TypeArg.rows : List (TypeArg A) → List (List Token.Word)
  | [] => []
  | arg :: rest => arg.words :: TypeArg.rows rest

def TypeArg.words : TypeArg A → List Token.Word
  | .type t => t.words
  | .wildcard _ => [(.sign, "?")]
  | .bounded bound t _ => (.sign, "?") :: (.keyword, bound.keyword) :: t.words

end

/-! What stands between separators comes after the first, each with the separator before it. -/

theorem intercalate_cons {α : Type} (sep x : List α) (xs : List (List α)) :
    sep.intercalate (x :: xs) = x ++ xs.flatMap fun y => sep ++ y := by
  induction xs generalizing x with
  | nil => simp
  | cons y ys ih => rw [List.intercalate_cons_cons, ih, List.flatMap_cons, List.append_assoc, List.append_assoc]

theorem length_le_intercalate {α : Type} (sep : List α) {x : List α} {xs : List (List α)} (hx : x ∈ xs) :
    x.length ≤ (sep.intercalate xs).length := by
  obtain ⟨y, ys, rfl⟩ := List.exists_cons_of_ne_nil (List.ne_nil_of_mem hx)
  rw [intercalate_cons, List.length_append]
  rcases List.mem_cons.mp hx with rfl | later
  · exact Nat.le_add_right ..
  · have := (List.sublist_flatten_of_mem (List.mem_map_of_mem (f := fun y => sep ++ y) later)).length_le
    rw [List.length_append] at this
    rw [List.flatMap_def]
    omega

namespace TypeArg

theorem texts_eq (args : List (TypeArg A)) : texts args = args.map text := by
  induction args with
  | nil => rfl
  | cons a args ih => rw [texts, ih, List.map_cons]

theorem rows_eq (args : List (TypeArg A)) : rows args = args.map words := by
  induction args with
  | nil => rfl
  | cons a args ih => rw [rows, ih, List.map_cons]

theorem listText_some (a : TypeArg A) (as : List (TypeArg A)) : (listText (some (a :: as))).toList =
    '<' :: (a.text.toList ++ ((as.flatMap fun a => ',' :: ' ' :: a.text.toList) ++ ['>'])) := by
  simp [listText, texts_eq, String.toList_intercalate, intercalate_cons, List.flatMap_map]

theorem listWords_some (a : TypeArg A) (as : List (TypeArg A)) : listWords (some (a :: as)) =
    (.sign, "<") :: (a.words ++ ((as.flatMap fun a => (.sign, ",") :: a.words) ++ [(.sign, ">")])) := by
  simp [listWords, rows_eq, intercalate_cons, List.flatMap_map]

end TypeArg

namespace TypeSegment

def text (s : TypeSegment A) : String := s.name.text ++ TypeArg.listText s.args

def words (s : TypeSegment A) : List Token.Word := (.identifier, s.name.text) :: TypeArg.listWords s.args

theorem texts_eq (ss : List (TypeSegment A)) : texts ss = ss.map text := by
  induction ss with
  | nil => rfl
  | cons s ss ih =>
    obtain ⟨annotations, name, args⟩ := s
    rw [texts, ih, List.map_cons, text]

theorem rows_eq (ss : List (TypeSegment A)) : rows ss = ss.map words := by
  induction ss with
  | nil => rfl
  | cons s ss ih =>
    obtain ⟨annotations, name, args⟩ := s
    rw [rows, ih, List.map_cons, words]

end TypeSegment

namespace WrittenType

theorem named_text (s : TypeSegment A) (ss : List (TypeSegment A)) (range : Span) :
    (named (s :: ss) range).text.toList = s.text.toList ++ ss.flatMap fun s => '.' :: s.text.toList := by
  simp [text, TypeSegment.texts_eq, String.toList_intercalate, intercalate_cons, List.flatMap_map]

theorem named_words (s : TypeSegment A) (ss : List (TypeSegment A)) (range : Span) :
    (named (s :: ss) range).words = s.words ++ ss.flatMap fun s => (.sign, ".") :: s.words := by
  simp [words, TypeSegment.rows_eq, intercalate_cons, List.flatMap_map]

@[simp] theorem element_primitive (keyword : String) (range : Span) :
    (primitive keyword range : WrittenType A).element = .primitive keyword range := rfl

@[simp] theorem element_named (ss : List (TypeSegment A)) (range : Span) :
    (named ss range).element = .named ss range := rfl

/-- The dimensions are written after the element. -/
theorem words_eq : ∀ t : WrittenType A, t.words = t.element.words ++ bracketWords t.dimensions
  | .primitive _ _ => (List.append_nil _).symm
  | .named _ _ => (List.append_nil _).symm
  | .array element dims _ => by
    rw [words, words_eq element, List.append_assoc, ← bracketWords_add, Nat.add_comm]
    rfl

/-- A type begins with a word, and not like a wildcard or an annotation. -/
theorem Writable.starts {names : String → Prop} {t : WrittenType A} (writable : t.Writable names) :
    ∃ w ws, t.words = w :: ws ∧ ∀ text ∈ ["?", ">", "@"], w.spells text = false := by
  induction writable with
  | @primitive keyword range listed =>
    have other : ∀ keyword ∈ Token.primitives ++ ["void"], ∀ text ∈ ["?", ">", "@"], (keyword == text) = false := by
      decide
    rw [words]
    exact ⟨_, [], rfl, other keyword (by simpa using listed)⟩
  | @named ss range some named inner ih =>
    obtain ⟨s, ss, rfl⟩ := List.exists_cons_of_ne_nil some
    rw [named_words, TypeSegment.words]
    exact ⟨_, _, rfl, fun _ _ => rfl⟩
  | @array element dims range positive inner ih =>
    obtain ⟨w, ws, same, other⟩ := ih
    rw [words, same]
    exact ⟨w, ws ++ bracketWords dims, rfl, other⟩

end WrittenType

/-! Each argument of a type has fewer words than the type. -/

theorem TypeArg.length_le {a : TypeArg A} {t : WrittenType A} (inside : t ∈ a.type?) :
    t.words.length ≤ a.words.length := by
  cases a <;> cases inside
  · exact Nat.le_refl _
  · rw [TypeArg.words]
    simp only [List.length_cons]
    omega

theorem TypeSegment.length_lt {s : TypeSegment A} {args : List (TypeArg A)} (given : args ∈ s.args)
    {a : TypeArg A} (ha : a ∈ args) : a.words.length < s.words.length := by
  have row := length_le_intercalate [((.sign, ",") : Token.Word)] (List.mem_map_of_mem (f := TypeArg.words) ha)
  rw [← TypeArg.rows_eq] at row
  rw [TypeSegment.words, Option.mem_def.mp given, TypeArg.listWords]
  simp only [List.length_cons, List.length_append]
  omega

theorem WrittenType.length_le {ss : List (TypeSegment A)} {s : TypeSegment A} (hs : s ∈ ss) (range : Span) :
    s.words.length ≤ (named ss range).words.length := by
  rw [words, TypeSegment.rows_eq]
  exact length_le_intercalate _ (List.mem_map_of_mem hs)

/-! Texts are read as words. -/

open Lexer

theorem brackets_reads (n : Nat) : Stops (brackets n).toList ∧ Reads (brackets n).toList (bracketWords n) := by
  induction n with
  | zero => exact ⟨nofun, .nil⟩
  | succ n ih =>
    have chars : (brackets (n + 1)).toList = '[' :: ']' :: (brackets n).toList := by
      simp [brackets, List.replicate_succ, String.join_cons]
    rw [chars]
    exact ⟨.cons rfl _, .sign (by decide) (.sign (by decide) ih.2)⟩

/-- The text of the type is read as its words. -/
def WrittenType.Legible (t : WrittenType A) : Prop := Opens t.text.toList ∧ Reads t.text.toList t.words

theorem TypeArg.reads {a : TypeArg A} (legible : ∀ t ∈ a.type?, t.Legible) :
    Opens a.text.toList ∧ Reads a.text.toList a.words := by
  cases a with
  | type t => exact legible t rfl
  | wildcard range =>
    rw [text, words]
    exact ⟨⟨'?', rfl, by decide⟩, .sign (by decide) .nil⟩
  | bounded bound t range =>
    obtain ⟨-, reads⟩ := legible t rfl
    have chars : (TypeArg.bounded bound t range).text.toList =
        '?' :: ' ' :: (bound.keyword.toList ++ ' ' :: t.text.toList) := by
      simp [TypeArg.text]
    have listed : bound.keyword ∈ Token.keywords := by cases bound <;> decide
    rw [chars, TypeArg.words]
    refine ⟨⟨'?', rfl, by decide⟩, .sign (by decide) (.blank ?_)⟩
    exact (Reads.keyword listed).append (.cons rfl _) reads.blank

theorem TypeArg.list_reads {args : Option (List (TypeArg A))}
    (legible : ∀ as ∈ args, ∀ a ∈ as, ∀ t ∈ a.type?, t.Legible) :
    Stops (listText args).toList ∧ Reads (listText args).toList (listWords args) := by
  have closing : Reads ['>'] [(.sign, ">")] := .sign (by decide) .nil
  match args with
  | none => exact ⟨nofun, .nil⟩
  | some [] =>
    rw [listText, listWords, texts, rows]
    exact ⟨.cons rfl _, Reads.opening (c := '<') (by decide) ⟨'>', rfl, by decide⟩ closing⟩
  | some (a :: as) =>
    obtain ⟨first, others⟩ := List.forall_mem_cons.mp (legible (a :: as) rfl)
    obtain ⟨opens, reads⟩ := TypeArg.reads first
    have later : ∀ a ∈ as, Reads (',' :: ' ' :: a.text.toList) ((.sign, ",") :: a.words) :=
      fun a ha => .sign (by decide) (TypeArg.reads (others a ha)).2.blank
    obtain ⟨stops, rest⟩ := Reads.flatMap (fun _ _ => .cons rfl _) later
    rw [listText_some, listWords_some]
    refine ⟨.cons rfl _, .opening (by decide) (opens.append _) (reads.append (stops.append (.cons rfl _)) ?_)⟩
    exact rest.append (.cons rfl _) closing

theorem TypeSegment.reads {s : TypeSegment A} (isName : IsName s.name.text)
    (legible : ∀ as ∈ s.args, ∀ a ∈ as, ∀ t ∈ a.type?, t.Legible) :
    Opens s.text.toList ∧ Reads s.text.toList s.words := by
  obtain ⟨stops, reads⟩ := TypeArg.list_reads legible
  rw [text, String.toList_append]
  exact ⟨isName.opens.append _, (Reads.name isName).append stops reads⟩

/-- The text of a type is read as its words. -/
theorem WrittenType.Writable.legible {t : WrittenType A} (writable : t.Writable IsName) : t.Legible := by
  induction writable with
  | @primitive keyword range listed =>
    have known : ∀ w ∈ Token.primitives ++ ["void"], w ∈ Token.keywords ∧ w.toList.head?.any opensType = true := by
      decide
    obtain ⟨word, begins⟩ := known keyword (by simpa using listed)
    rw [Legible, text, words]
    exact ⟨(Option.any_eq_true _ _).mp begins, .keyword word⟩
  | @named ss range some isName inner ih =>
    obtain ⟨s, ss, rfl⟩ := List.exists_cons_of_ne_nil some
    rw [List.forall_mem_cons] at isName ih
    obtain ⟨opens, reads⟩ := TypeSegment.reads isName.1 ih.1
    have dotted : ∀ s ∈ ss, Reads ('.' :: s.text.toList) ((.sign, ".") :: s.words) := by
      intro s hs
      obtain ⟨opens, reads⟩ := TypeSegment.reads (isName.2 s hs) (ih.2 s hs)
      exact .opening (by decide) opens reads
    obtain ⟨stops, rest⟩ := Reads.flatMap (fun _ _ => .cons rfl _) dotted
    rw [Legible, named_text, named_words]
    exact ⟨opens.append _, reads.append stops rest⟩
  | @array element dims range positive inner ih =>
    obtain ⟨stops, rest⟩ := brackets_reads dims
    rw [Legible, text, String.toList_append]
    exact ⟨ih.1.append _, ih.2.append stops rest⟩

end JavaIndex
