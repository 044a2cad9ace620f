import JavaIndex.Environment.TypeNames
import JavaIndex.JavaType.Reader
import JavaIndex.Proofs.Text.Trimming
import JavaIndex.Proofs.Tree.TypeWords
import Mathlib.Data.List.Basic
import Mathlib.Data.List.TakeWhile

/-! A type means the same in a library and in a file. If its classes are spelled with their full names, what is
read from the text of a written type is the type that it denotes in a file. A wildcard that is bounded from
below is the exception: a library reads it as its bound, and a file takes it for any object. -/
namespace JavaIndex

namespace JavaType

/-! Texts of types as lists of characters. -/

/-- There is something, and no blank at either end. -/
structure Tight (cs : List Char) : Prop where
  first : ∃ c, cs.head? = some c ∧ Blank.isBlank c = false
  last : ∃ c, cs.getLast? = some c ∧ Blank.isBlank c = false

namespace Tight

variable {cs ds : List Char}

theorem ne_nil (tight : Tight cs) : cs ≠ [] := by
  obtain ⟨c, first, -⟩ := tight.first
  rintro rfl
  cases first

theorem trimStart (tight : Tight cs) : Blank.trimStart cs = cs := by
  obtain ⟨c, first, front⟩ := tight.first
  cases cs with
  | nil => rfl
  | cons d cs =>
    cases first
    simp [Blank.trimStart, front]

theorem trimEnd (tight : Tight cs) : Blank.trimEnd cs = cs := by
  obtain ⟨c, last, back⟩ := tight.last
  obtain ⟨ds, rfl⟩ := List.getLast?_eq_some_iff.mp last
  simp [Blank.trimEnd, back]

theorem trim (tight : Tight cs) : Blank.trim cs = cs := by rw [Blank.trim, tight.trimStart, tight.trimEnd]

/-- A blank before it is cut off. -/
theorem trim_blank (tight : Tight cs) : Blank.trim (' ' :: cs) = cs := by
  have dropped : Blank.trimStart (' ' :: cs) = Blank.trimStart cs := by
    rw [Blank.trimStart, List.dropWhile_cons_of_pos (by decide), Blank.trimStart]
  rw [Blank.trim, dropped, tight.trimStart, tight.trimEnd]

/-- Only the outer ends count. -/
theorem around (first : ∃ c, cs.head? = some c ∧ Blank.isBlank c = false)
    (last : ∃ c, ds.getLast? = some c ∧ Blank.isBlank c = false) : Tight (cs ++ ds) := by
  obtain ⟨c, begins, front⟩ := first
  obtain ⟨d, ends, back⟩ := last
  have begins : (cs ++ ds).head? = some c := by
    rw [List.head?_append, begins]
    rfl
  have ends : (cs ++ ds).getLast? = some d := by
    rw [List.getLast?_append, ends]
    rfl
  exact ⟨⟨c, begins, front⟩, ⟨d, ends, back⟩⟩

end Tight

/-- Reading arguments goes through the characters without a cut, at this depth and further in. -/
def Passes (low : Int) (cs : List Char) : Prop :=
  ∀ depth piece rest, low ≤ depth →
    splitArgs depth piece (cs ++ rest) = splitArgs depth (cs.reverse ++ piece) rest

namespace Passes

variable {low : Int} {cs ds : List Char}

theorem nil (low : Int) : Passes low [] := fun _ _ _ _ => rfl

theorem append (first : Passes low cs) (second : Passes low ds) : Passes low (cs ++ ds) := by
  intro depth piece rest deep
  rw [List.append_assoc, first depth piece _ deep, second depth _ rest deep, List.reverse_append,
    List.append_assoc]

theorem deeper (passes : Passes 0 cs) : Passes 1 cs :=
  fun depth piece rest deep => passes depth piece rest (by omega)

/-- A character that means nothing in an argument list. -/
theorem char {c : Char} (opens : c ≠ '<') (closes : c ≠ '>') (cuts : c = ',' → 0 < low) : Passes low [c] := by
  intro depth piece rest deep
  have inside : ¬ (c = ',' ∧ depth = 0) := by
    rintro ⟨comma, rfl⟩
    have := cuts comma
    omega
  rw [List.singleton_append, splitArgs, if_neg inside]
  · rfl
  · exact opens
  · exact closes

theorem chars (opens : '<' ∉ cs) (closes : '>' ∉ cs) (cuts : ',' ∉ cs) : Passes low cs := by
  induction cs with
  | nil => exact nil low
  | cons c cs ih =>
    rw [List.mem_cons, not_or] at opens closes cuts
    have first : Passes low [c] := char (Ne.symm opens.1) (Ne.symm closes.1) fun comma => absurd comma.symm cuts.1
    exact first.append (ih opens.2 closes.2 cuts.2)

/-- Further in, commas may stand between texts. -/
theorem intercalate {texts : List (List Char)} (each : ∀ t ∈ texts, Passes 0 t) :
    Passes 1 ([',', ' '].intercalate texts) := by
  induction texts with
  | nil => exact nil 1
  | cons t texts ih =>
    have first : Passes 1 t := (each t List.mem_cons_self).deeper
    cases texts with
    | nil => rwa [List.intercalate_singleton]
    | cons u texts =>
      have comma : Passes 1 [','] := char (by decide) (by decide) fun _ => by decide
      have blank : Passes 1 [' '] := chars (by decide) (by decide) (by decide)
      rw [List.intercalate_cons_cons]
      exact (first.append (comma.append blank)).append (ih fun v hv => each v (List.mem_cons_of_mem _ hv))

/-- In brackets there may be commas. -/
theorem brackets (inside : Passes 1 cs) : Passes 0 ('<' :: cs ++ ['>']) := by
  intro depth piece rest deep
  have opened := inside (depth + 1) ('<' :: piece) ('>' :: rest) (by omega)
  simp only [List.cons_append, List.append_assoc, List.nil_append, splitArgs, opened, List.reverse_append,
    List.reverse_cons, List.reverse_nil]
  congr 1
  omega

end Passes

theorem splitArgs_comma (piece cs : List Char) :
    splitArgs 0 piece (',' :: cs) = Blank.trim piece.reverse :: splitArgs 0 [] cs := by
  simp [splitArgs]

theorem splitArgs_blank (cs : List Char) : splitArgs 0 [] (' ' :: cs) = splitArgs 0 [' '] cs := by
  simp [splitArgs]

/-- Arguments with commas and blanks between them are cut apart. -/
theorem splitArgs_intercalate {texts : List (List Char)} (each : ∀ t ∈ texts, Tight t ∧ Passes 0 t)
    {lead : List Char} (blank : lead = [] ∨ lead = [' ']) :
    splitArgs 0 lead ([',', ' '].intercalate texts) = texts := by
  induction texts generalizing lead with
  | nil => rcases blank with rfl | rfl <;> rfl
  | cons t texts ih =>
    obtain ⟨tight, passes⟩ := each t List.mem_cons_self
    have whole : Blank.trim (t.reverse ++ lead).reverse = t := by
      rw [List.reverse_append, List.reverse_reverse]
      rcases blank with rfl | rfl
      · exact tight.trim
      · exact tight.trim_blank
    cases texts with
    | nil =>
      have read := passes 0 lead [] (by omega)
      rw [List.append_nil] at read
      have some : t.isEmpty = false := List.isEmpty_eq_false_iff.mpr tight.ne_nil
      rw [List.intercalate_singleton, read, splitArgs]
      simp only [whole, some, Bool.false_eq_true, if_false]
    | cons u texts =>
      have later := ih (fun v hv => each v (List.mem_cons_of_mem _ hv)) (.inr rfl)
      rw [List.intercalate_cons_cons, List.append_assoc, passes 0 lead _ (by omega), List.cons_append,
        splitArgs_comma, whole, List.singleton_append, splitArgs_blank, later]

/-! Reading. -/

variable {vars : List String} {cs : List Char} {t : JavaType} {n : Nat}

/-- The text is one of a type, or of what can stand for one in an argument list. -/
structure Spells (vars : List String) (cs : List Char) (t : JavaType) : Prop where
  tight : Tight cs
  passes : Passes 0 cs
  read : ∀ n, cs.length < n → readAt vars n cs = t

/-- What stands before the bound of a wildcard. -/
def bounding : Bound → List Char
  | .upper => ['?', ' ', 'e', 'x', 't', 'e', 'n', 'd', 's', ' ']
  | .lower => ['?', ' ', 's', 'u', 'p', 'e', 'r', ' ']

/-- The text is one of a type, and it is read as the same type when it bounds a wildcard. -/
structure SpellsType (vars : List String) (cs : List Char) (t : JavaType) : Prop extends Spells vars cs t where
  bound : ∀ b n, (bounding b ++ cs).length < n → readAt vars n (bounding b ++ cs) = t

theorem arrayElement?_brackets (cs : List Char) : arrayElement? (cs ++ ['[', ']']) = some cs := by
  rw [arrayElement?, Lists.dropBack?_append, Option.some_or]

theorem arrayElement?_none {c : Char} (ends : cs.getLast? = some c) (bracket : c ≠ ']') (dot : c ≠ '.') :
    arrayElement? cs = none := by
  obtain ⟨ds, rfl⟩ := List.getLast?_eq_some_iff.mp ends
  have noBrackets := Lists.dropBack?_last bracket.symm ['['] ds
  have noDots := Lists.dropBack?_last dot.symm ['.', '.'] ds
  simp only [List.cons_append, List.nil_append] at noBrackets noDots
  rw [arrayElement?, noBrackets, noDots, Option.none_or]

theorem readAt_array (tight : Tight (cs ++ ['[', ']'])) (n : Nat) :
    readAt vars (n + 1) (cs ++ ['[', ']']) = .array (readAt vars n cs) := by
  have filled : (cs ++ ['[', ']']).isEmpty = false := List.isEmpty_eq_false_iff.mpr tight.ne_nil
  simp only [readAt, tight.trim, filled, arrayElement?_brackets, Bool.false_eq_true, if_false]

theorem bounding_long (b : Bound) : 8 ≤ (bounding b).length := by cases b <;> decide

theorem wildcardBound?_bounding (b : Bound) (cs : List Char) : wildcardBound? (bounding b ++ cs) = some cs := by
  cases b with
  | upper =>
    rw [wildcardBound?, show "? extends ".toList = bounding .upper from rfl, Lists.dropFront?_append,
      Option.some_or]
  | lower =>
    have other : Lists.dropFront? "? extends ".toList (bounding .lower ++ cs) = none := rfl
    rw [wildcardBound?, other, show "? super ".toList = bounding .lower from rfl, Lists.dropFront?_append,
      Option.none_or]

theorem bounding_passes (b : Bound) : Passes 0 (bounding b) := by
  cases b <;> exact .chars (by decide) (by decide) (by decide)

theorem Tight.bounding (tight : Tight cs) (b : Bound) : Tight (bounding b ++ cs) := by
  have first : (JavaType.bounding b).head? = some '?' := by cases b <;> rfl
  exact .around ⟨'?', first, by decide⟩ tight.last

theorem readAt_bounding {b : Bound} (tight : Tight (bounding b ++ cs))
    (single : arrayElement? (bounding b ++ cs) = none) (n : Nat) :
    readAt vars (n + 1) (bounding b ++ cs) = readAt vars n cs := by
  have filled : (bounding b ++ cs).isEmpty = false := List.isEmpty_eq_false_iff.mpr tight.ne_nil
  have other : bounding b ++ cs ≠ ['?'] := by
    intro same
    have lengths := congrArg List.length same
    have long := bounding_long b
    rw [List.length_append, List.length_singleton] at lengths
    omega
  simp only [readAt, tight.trim, filled, single, other, wildcardBound?_bounding, Bool.false_eq_true, if_false]

namespace SpellsType

/-- A text without brackets or dots at its end. -/
theorem of_last (spells : Spells vars cs t) {c : Char} (ends : cs.getLast? = some c) (bracket : c ≠ ']')
    (dot : c ≠ '.') : SpellsType vars cs t := by
  refine ⟨spells, fun b n long => ?_⟩
  have ends : (bounding b ++ cs).getLast? = some c := by
    rw [List.getLast?_append, ends]
    rfl
  cases n with
  | zero => cases long
  | succ n =>
    rw [readAt_bounding (spells.tight.bounding b) (arrayElement?_none ends bracket dot)]
    refine spells.read n ?_
    have prefixed := bounding_long b
    rw [List.length_append] at long
    omega

theorem array (spells : SpellsType vars cs t) : SpellsType vars (cs ++ ['[', ']']) (.array t) := by
  have tight : Tight (cs ++ ['[', ']']) := .around spells.tight.first ⟨']', rfl, by decide⟩
  have passes : Passes 0 (cs ++ ['[', ']']) := spells.passes.append (.chars (by decide) (by decide) (by decide))
  refine ⟨⟨tight, passes, fun n long => ?_⟩, fun b n long => ?_⟩
  · cases n with
    | zero => cases long
    | succ n =>
      rw [List.length_append, show ['[', ']'].length = 2 from rfl] at long
      rw [readAt_array tight, spells.read n (by omega)]
  · have together : bounding b ++ (cs ++ ['[', ']']) = bounding b ++ cs ++ ['[', ']'] := by rw [List.append_assoc]
    have tight := tight.bounding b
    rw [together] at tight long ⊢
    cases n with
    | zero => cases long
    | succ n =>
      rw [List.length_append, show ['[', ']'].length = 2 from rfl] at long
      rw [readAt_array tight, spells.bound b n (by omega)]

theorem arrayOf (spells : SpellsType vars cs t) (dims : Nat) :
    SpellsType vars (cs ++ (brackets dims).toList) (.arrayOf dims t) := by
  induction dims with
  | zero => simpa [brackets, JavaType.arrayOf] using spells
  | succ dims ih =>
    have last : (brackets (dims + 1)).toList = (brackets dims).toList ++ ['[', ']'] := by
      simp [brackets, List.replicate_succ']
    rw [last, ← List.append_assoc]
    exact ih.array

end SpellsType

theorem spells_wildcard : Spells vars ['?'] .object := by
  have passes : Passes 0 ['?'] := .chars (by decide) (by decide) (by decide)
  refine ⟨⟨⟨'?', rfl, by decide⟩, ⟨'?', rfl, by decide⟩⟩, passes, fun n long => ?_⟩
  cases n with
  | zero => cases long
  | succ n => rfl

theorem SpellsType.spells_bounding (spells : SpellsType vars cs t) (b : Bound) : Spells vars (bounding b ++ cs) t :=
  ⟨spells.tight.bounding b, (bounding_passes b).append spells.passes, spells.bound b⟩

/-- What neither makes an array nor is a wildcard is a primitive type, or a name with its arguments. -/
theorem readAt_name (tight : Tight cs) {first last : Char} (begins : cs.head? = some first)
    (ends : cs.getLast? = some last) (wildcard : first ≠ '?') (bracket : last ≠ ']') (dot : last ≠ '.') (n : Nat) :
    readAt vars (n + 1) cs =
      if String.ofList cs ∈ primitiveNames then .primitive (String.ofList cs)
      else if String.ofList (splitGeneric cs).1 ∈ vars then .variable (String.ofList (splitGeneric cs).1)
      else .named (Dotted.ofBinary (String.ofList (splitGeneric cs).1))
        (((splitGeneric cs).2.map fun inner => (splitArgs 0 [] inner).map (readAt vars n)).getD []) := by
  have filled : cs.isEmpty = false := List.isEmpty_eq_false_iff.mpr tight.ne_nil
  obtain ⟨ds, rfl⟩ := List.head?_eq_some_iff.mp begins
  have other : first :: ds ≠ ['?'] := by
    intro same
    exact wildcard (List.cons.inj same).1
  have unbounded : wildcardBound? (first :: ds) = none := by
    have extending := Lists.dropFront?_head wildcard.symm "? extends ".toList.tail ds
    have supering := Lists.dropFront?_head wildcard.symm "? super ".toList.tail ds
    rw [wildcardBound?, show "? extends ".toList = '?' :: "? extends ".toList.tail from rfl,
      show "? super ".toList = '?' :: "? super ".toList.tail from rfl, extending, supering, Option.none_or]
  simp only [readAt, tight.trim, filled, arrayElement?_none ends bracket dot, other, unbounded, Bool.false_eq_true,
    if_false, List.contains_iff_mem]
  cases (splitGeneric (first :: ds)).2 <;> rfl

/-! Names. -/

/-- A name without the signs that types are built with, and no primitive type. -/
structure IsName (name : String) : Prop where
  plain : ∀ c ∈ name.toList, Blank.isBlank c = false ∧ c ∉ ['<', '>', ',', '[', ']', '?', '$']
  last : ∃ c, name.toList.getLast? = some c ∧ c ≠ '.'
  notPrimitive : name ∉ primitiveNames

/-- What a name with arguments is read as. -/
def ofHead (vars : List String) (name : String) (args : List JavaType) : JavaType :=
  if name ∈ vars then .variable name else .named name args

theorem spells_primitive {name : String} (primitive : name ∈ primitiveNames) :
    SpellsType vars name.toList (.primitive name) := by
  have shape : ∀ name ∈ primitiveNames, ∃ first last, name.toList.head? = some first ∧
      name.toList.getLast? = some last ∧ Blank.isBlank first = false ∧ Blank.isBlank last = false ∧
        first ≠ '?' ∧ last ≠ ']' ∧ last ≠ '.' := by
    simp only [primitiveNames, List.forall_mem_cons]
    refine ⟨?_, ?_, ?_, ?_, ?_, ?_, ?_, ?_, ?_, nofun⟩ <;> exact ⟨_, _, rfl, rfl, by decide⟩
  have plain : ∀ name ∈ primitiveNames, '<' ∉ name.toList ∧ '>' ∉ name.toList ∧ ',' ∉ name.toList := by decide
  obtain ⟨first, last, begins, ends, front, back, wildcard, bracket, dot⟩ := shape name primitive
  obtain ⟨opens, closes, cuts⟩ := plain name primitive
  have tight : Tight name.toList := ⟨⟨first, begins, front⟩, ⟨last, ends, back⟩⟩
  refine .of_last ⟨tight, .chars opens closes cuts, fun n long => ?_⟩ ends bracket dot
  cases n with
  | zero => cases long
  | succ n => rw [readAt_name tight begins ends wildcard bracket dot, String.ofList_toList, if_pos primitive]

namespace IsName

variable {name : String}

theorem first (named : IsName name) :
    ∃ c, name.toList.head? = some c ∧ Blank.isBlank c = false ∧ c ≠ '?' := by
  obtain ⟨last, ends, -⟩ := named.last
  cases chars : name.toList with
  | nil =>
    rw [chars] at ends
    cases ends
  | cons c cs =>
    obtain ⟨blank, signs⟩ := named.plain c (by rw [chars]; exact List.mem_cons_self)
    refine ⟨c, rfl, blank, ?_⟩
    rintro rfl
    exact signs (by decide)

theorem letters (named : IsName name) : ∀ c ∈ name.toList, c ≠ '<' ∧ c ≠ '>' ∧ c ≠ ',' ∧ c ≠ '$' := by
  intro c hc
  have signs := (named.plain c hc).2
  refine ⟨?_, ?_, ?_, ?_⟩ <;> rintro rfl <;> exact signs (by decide)

theorem ofBinary (named : IsName name) : Dotted.ofBinary name = name := by
  have kept : name.toList.map (fun c => if c = '$' then '.' else c) = name.toList := by
    rw [List.map_congr_left fun c hc => if_neg (named.letters c hc).2.2.2, List.map_id']
  rw [Dotted.ofBinary, kept, String.ofList_toList]

theorem tight (named : IsName name) : Tight name.toList := by
  obtain ⟨first, begins, front, -⟩ := named.first
  obtain ⟨last, ends, -⟩ := named.last
  exact ⟨⟨first, begins, front⟩, ⟨last, ends, (named.plain last (List.mem_of_getLast? ends)).1⟩⟩

theorem passes (named : IsName name) : Passes 0 name.toList :=
  .chars (fun opens => (named.letters _ opens).1 rfl) (fun closes => (named.letters _ closes).2.1 rfl)
    fun cuts => (named.letters _ cuts).2.2.1 rfl

theorem spells (named : IsName name) : SpellsType vars name.toList (ofHead vars name []) := by
  obtain ⟨first, begins, -, wildcard⟩ := named.first
  obtain ⟨last, ends, dot⟩ := named.last
  have bracket : last ≠ ']' := by
    rintro rfl
    exact (named.plain ']' (List.mem_of_getLast? ends)).2 (by decide)
  have whole : splitGeneric name.toList = (name.toList, none) := by
    have none : name.toList.dropWhile (· ≠ '<') = [] :=
      List.dropWhile_eq_nil_iff.mpr fun c hc => decide_eq_true (named.letters c hc).1
    rw [splitGeneric, none]
  refine .of_last ⟨named.tight, named.passes, fun n long => ?_⟩ ends bracket dot
  cases n with
  | zero => cases long
  | succ n =>
    rw [readAt_name named.tight begins ends wildcard bracket dot, whole, String.ofList_toList,
      if_neg named.notPrimitive, named.ofBinary]
    rfl

theorem splitGeneric_brackets (named : IsName name) (inner : List Char) :
    splitGeneric (name.toList ++ ('<' :: inner ++ ['>'])) = (name.toList, some inner) := by
  have letter : ∀ c ∈ name.toList, decide (c ≠ '<') = true := fun c hc => decide_eq_true (named.letters c hc).1
  have rest (cs : List Char) : (name.toList ++ '<' :: cs).dropWhile (· ≠ '<') = '<' :: cs := by
    rw [List.dropWhile_append_of_pos letter, List.dropWhile_cons_of_neg (by decide)]
  have base (cs : List Char) : (name.toList ++ '<' :: cs).takeWhile (· ≠ '<') = name.toList := by
    rw [List.takeWhile_append_of_pos letter, List.takeWhile_cons_of_neg (by decide), List.append_nil]
  have back : Lists.dropBack? ['>'] (name.toList ++ ('<' :: inner ++ ['>'])) = some (name.toList ++ '<' :: inner) := by
    rw [← List.append_assoc, Lists.dropBack?_append]
  rw [splitGeneric, back, List.cons_append, rest, base]
  change (name.toList, some (((name.toList ++ '<' :: inner).dropWhile (· ≠ '<')).drop 1)) = _
  rw [rest, List.drop_one, List.tail_cons]

/-- Each of the arguments is read from its own text. -/
theorem spells_args {α : Type} (named : IsName name) {args : List α} {text : α → List Char}
    {type : α → JavaType} (each : ∀ a ∈ args, Spells vars (text a) (type a)) :
    SpellsType vars (name.toList ++ ('<' :: [',', ' '].intercalate (args.map text) ++ ['>']))
      (ofHead vars name (args.map type)) := by
  obtain ⟨first, begins, -, wildcard⟩ := named.first
  have texts : ∀ t ∈ args.map text, Tight t ∧ Passes 0 t := by
    intro t ht
    obtain ⟨a, ha, rfl⟩ := List.mem_map.mp ht
    exact ⟨(each a ha).tight, (each a ha).passes⟩
  have cut := splitArgs_intercalate texts (.inl rfl)
  have commas : Passes 1 ([',', ' '].intercalate (args.map text)) := .intercalate fun t ht => (texts t ht).2
  have shorter : ∀ a ∈ args, (text a).length ≤ ([',', ' '].intercalate (args.map text)).length :=
    fun a ha => length_le_intercalate _ (List.mem_map_of_mem ha)
  generalize [',', ' '].intercalate (args.map text) = inner at cut commas shorter ⊢
  have begins : (name.toList ++ ('<' :: inner ++ ['>'])).head? = some first := by
    rw [List.head?_append, begins]
    rfl
  have ends : ('<' :: inner ++ ['>']).getLast? = some '>' := List.getLast?_concat ..
  have tight : Tight (name.toList ++ ('<' :: inner ++ ['>'])) := .around named.tight.first ⟨'>', ends, by decide⟩
  have passes : Passes 0 (name.toList ++ ('<' :: inner ++ ['>'])) :=
    named.passes.append (.brackets commas)
  have ends : (name.toList ++ ('<' :: inner ++ ['>'])).getLast? = some '>' := by
    rw [List.getLast?_append, ends]
    rfl
  refine .of_last ⟨tight, passes, fun n long => ?_⟩ ends (by decide) (by decide)
  cases n with
  | zero => cases long
  | succ n =>
    have other : String.ofList (name.toList ++ ('<' :: inner ++ ['>'])) ∉ primitiveNames := by
      intro primitive
      have plain : ∀ p ∈ primitiveNames, '<' ∉ p.toList := by decide
      refine plain _ primitive ?_
      simp
    have read : (args.map text).map (readAt vars n) = args.map type := by
      rw [List.map_map]
      apply List.map_congr_left
      intro a ha
      refine (each a ha).read n ?_
      have inside := shorter a ha
      simp only [List.length_append, List.length_cons, List.length_nil] at long
      omega
    rw [readAt_name tight begins ends wildcard (by decide) (by decide), if_neg other,
      named.splitGeneric_brackets, String.ofList_toList, named.ofBinary, Option.map_some, Option.getD_some, cut, read]
    rfl

end IsName

end JavaType

namespace Environment

open JavaType (IsName ofHead Spells SpellsType)

variable {A : Type}

/-- The name is one of the type variables, or it is the full name of the class that it means. -/
inductive NamedInFull (env : Environment) (place : Place) (vars : List String) : List String → Prop
  | typeParam {name n symbol} : name ∈ vars → env.simpleType? place name = some (.typeParam n symbol) →
      NamedInFull env place vars [name]
  | ofClass {names c} : Dotted.join names ∉ vars → (env.typePath place names).getLast? = some (.ofClass c) →
      c.qualifiedName = Dotted.join names → NamedInFull env place vars names

theorem NamedInFull.typeOfPath {env : Environment} {place : Place} {vars names : List String}
    (named : env.NamedInFull place vars names) (args : List JavaType) :
    Environment.typeOfPath (env.typePath place names) names args = ofHead vars (Dotted.join names) args := by
  cases named with
  | typeParam known found =>
    rename_i name n symbol
    have alone : Dotted.join [name] = name := by simp [Dotted.join]
    rw [ofHead, alone, if_pos known]
    simp [typePath, found, Environment.typeOfPath]
  | ofClass other found own =>
    rw [ofHead, if_neg other]
    simp [Environment.typeOfPath, found, own]

mutual

/-- All names in the type are full names, arguments stand behind the last segment of a name, and no wildcard is
bounded from below. -/
def InFull (env : Environment) (place : Place) (vars : List String) : WrittenType A → Prop
  | .primitive keyword _ => keyword ∈ JavaType.primitiveNames
  | .array element _ _ => env.InFull place vars element
  | .named segments _ =>
    IsName (Dotted.join (segments.map fun s => s.name.text)) ∧
      env.NamedInFull place vars (segments.map fun s => s.name.text) ∧ env.SegmentsInFull place vars segments

def SegmentsInFull (env : Environment) (place : Place) (vars : List String) : List (TypeSegment A) → Prop
  | [] => True
  | [⟨_, _, args⟩] => env.ArgListInFull place vars args
  | ⟨_, _, args⟩ :: s :: rest => args = none ∧ env.SegmentsInFull place vars (s :: rest)

def ArgListInFull (env : Environment) (place : Place) (vars : List String) : Option (List (TypeArg A)) → Prop
  | none => True
  | some args => env.ArgsInFull place vars args

def ArgsInFull (env : Environment) (place : Place) (vars : List String) : List (TypeArg A) → Prop
  | [] => True
  | arg :: rest => env.ArgInFull place vars arg ∧ env.ArgsInFull place vars rest

def ArgInFull (env : Environment) (place : Place) (vars : List String) : TypeArg A → Prop
  | .type t => env.InFull place vars t
  | .wildcard _ => True
  | .bounded .upper t _ => env.InFull place vars t
  | .bounded .lower _ _ => False

end

variable {env : Environment} {place : Place} {vars : List String}

theorem convertArgs_eq (args : List (TypeArg A)) : env.convertArgs place args = args.map (env.convertArg place) := by
  induction args with
  | nil => rfl
  | cons a args ih => rw [convertArgs, ih, List.map_cons]

theorem texts_cons (annotations : List A) (name : Ident) (s : TypeSegment A) (rest : List (TypeSegment A)) :
    ".".intercalate (TypeSegment.texts (⟨annotations, name, none⟩ :: s :: rest)) =
      name.text ++ "." ++ ".".intercalate (TypeSegment.texts (s :: rest)) := by
  obtain ⟨as, n, args⟩ := s
  rw [TypeSegment.texts, TypeSegment.texts, String.intercalate_cons_cons, TypeArg.listText, String.append_empty]

/-- A name with its arguments. -/
theorem spells_head {name : String} (named : IsName name) (args : Option (List (TypeArg A)))
    (each : ∀ as, args = some as → ∀ a ∈ as, Spells vars a.text.toList (env.convertArg place a)) :
    SpellsType vars (name ++ TypeArg.listText args).toList (ofHead vars name (env.convertArgList place args)) := by
  cases args with
  | none =>
    rw [TypeArg.listText, String.append_empty, convertArgList]
    exact named.spells
  | some as =>
    have chars : (name ++ TypeArg.listText (some as)).toList =
        name.toList ++ ('<' :: [',', ' '].intercalate (as.map fun a => a.text.toList) ++ ['>']) := by
      rw [TypeArg.listText, TypeArg.texts_eq]
      simp [String.toList_append, String.toList_intercalate, List.map_map, Function.comp_def]
    rw [chars, convertArgList, convertArgs_eq]
    exact named.spells_args (each as rfl)

mutual

theorem spells_text : ∀ t : WrittenType A, env.InFull place vars t →
    SpellsType vars t.text.toList (env.convert place t)
  | .primitive keyword _, full => by
    rw [InFull] at full
    rw [WrittenType.text, convert]
    exact JavaType.spells_primitive full
  | .array element dims _, full => by
    rw [InFull] at full
    rw [WrittenType.text, String.toList_append, convert]
    exact (spells_text element full).arrayOf dims
  | .named segments _, full => by
    rw [InFull] at full
    obtain ⟨name, named, inside⟩ := full
    obtain ⟨args, text, converted, each⟩ := spells_segments segments inside
    rw [WrittenType.text, text, convert, converted]
    rw [named.typeOfPath]
    exact spells_head name args each

theorem spells_segments : ∀ segments : List (TypeSegment A), env.SegmentsInFull place vars segments →
    ∃ args : Option (List (TypeArg A)), ".".intercalate (TypeSegment.texts segments) =
        Dotted.join (segments.map fun s => s.name.text) ++ TypeArg.listText args ∧
      env.lastArgs place segments = env.convertArgList place args ∧
      ∀ as, args = some as → ∀ a ∈ as, Spells vars a.text.toList (env.convertArg place a)
  | [], _ => ⟨none, by rw [TypeSegment.texts, TypeArg.listText]; rfl, rfl, nofun⟩
  | [⟨_, name, args⟩], full => by
    rw [SegmentsInFull] at full
    refine ⟨args, ?_, rfl, spells_argList args full⟩
    simp [TypeSegment.texts, Dotted.join]
  | ⟨_, name, args⟩ :: s :: rest, full => by
    rw [SegmentsInFull] at full
    obtain ⟨rfl, inside⟩ := full
    obtain ⟨args, text, converted, each⟩ := spells_segments (s :: rest) inside
    have joined : Dotted.join (name.text :: (s :: rest).map fun s => s.name.text) =
        name.text ++ "." ++ Dotted.join ((s :: rest).map fun s => s.name.text) := String.intercalate_cons_cons
    refine ⟨args, ?_, converted, each⟩
    rw [texts_cons, text, ← String.append_assoc, ← joined]
    rfl

theorem spells_argList : ∀ args : Option (List (TypeArg A)), env.ArgListInFull place vars args →
    ∀ as, args = some as → ∀ a ∈ as, Spells vars a.text.toList (env.convertArg place a)
  | none, _ => nofun
  | some as, full => by
    rw [ArgListInFull] at full
    intro as' same
    cases same
    exact spells_args as full

theorem spells_args : ∀ as : List (TypeArg A), env.ArgsInFull place vars as →
    ∀ a ∈ as, Spells vars a.text.toList (env.convertArg place a)
  | [], _ => nofun
  | a :: as, full => by
    rw [ArgsInFull] at full
    have first := spells_arg a full.1
    have rest := spells_args as full.2
    exact List.forall_mem_cons.mpr ⟨first, rest⟩

theorem spells_arg : ∀ a : TypeArg A, env.ArgInFull place vars a →
    Spells vars a.text.toList (env.convertArg place a)
  | .type t, full => by
    rw [ArgInFull] at full
    rw [TypeArg.text, convertArg]
    exact (spells_text t full).toSpells
  | .wildcard _, _ => by
    rw [TypeArg.text, convertArg]
    exact JavaType.spells_wildcard
  | .bounded .upper t _, full => by
    rw [ArgInFull] at full
    rw [TypeArg.text, convertArg, String.toList_append]
    exact (spells_text t full).spells_bounding .upper
  | .bounded .lower t _, full => by
    rw [ArgInFull] at full
    exact full.elim

end

/-- What a library reads from the text of a written type is what the type denotes in a file. -/
theorem read_text {t : WrittenType A} (full : env.InFull place vars t) :
    JavaType.read vars t.text = env.convert place t :=
  (spells_text t full).read _ (Nat.lt_succ_self _)

example : JavaType.read ["T"] "p.A<T, ? extends p.B<int[]>[]>" =
    .named "p.A" [.variable "T", .array (.named "p.B" [.array .int])] := by rfl

/-- A library reads every bounded wildcard as its bound. In a file only an upper bound counts. -/
theorem read_bounded (b : Bound) {t : WrittenType A} (full : env.InFull place vars t) (range : Span) :
    JavaType.read vars (TypeArg.bounded b t range).text = env.convert place t := by
  have chars : (TypeArg.bounded b t range).text.toList = JavaType.bounding b ++ t.text.toList := by
    cases b <;> simp [TypeArg.text, JavaType.bounding, Bound.keyword, String.toList_append]
  rw [JavaType.read, chars]
  exact (spells_text t full).bound b _ (Nat.lt_succ_self _)

end Environment
end JavaIndex
