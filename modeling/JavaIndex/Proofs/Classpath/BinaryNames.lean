import JavaIndex.Classpath.Manifest
import JavaIndex.Proofs.Project.Names

/-! Binary names. The package and the words of a nested class are read back from its binary name, and the
steps to its symbol are made of them. -/
namespace JavaIndex

namespace Dotted

theorem ofBinary_append (a b : String) : ofBinary (a ++ b) = ofBinary a ++ ofBinary b := by
  simp [ofBinary, String.toList_append, String.ofList_append]

theorem ofBinary_of_free {word : String} (free : '$' ∉ word.toList) : ofBinary word = word := replace_of_free free

theorem ofBinary_intercalate {words : List String} (free : ∀ word ∈ words, '$' ∉ word.toList) :
    ofBinary ("$".intercalate words) = ".".intercalate words := replace_intercalate free

end Dotted

namespace Manifest

/-- The binary name of the innermost of some classes in one another, the outermost of which is in a package. -/
def binaryName (package : String) (words : List String) : String := Dotted.within package ("$".intercalate words)

/-- A word that can stand in a binary name. -/
def Separable (word : String) : Prop := '.' ∉ word.toList ∧ '$' ∉ word.toList

section

variable {package : String} {words : List String} (some : words ≠ []) (separable : ∀ word ∈ words, Separable word)

include some separable

theorem splitBinaryName_inside (package : String) :
    splitBinaryName (package ++ "." ++ "$".intercalate words) = (package, words) := by
  have free : '.' ∉ ("$".intercalate words).toList :=
    notMem_intercalate (by decide) fun word hword => (separable word hword).1
  unfold splitBinaryName
  simp only [Dotted.splitLast?_inside package free, Option.getD_some]
  exact congrArg (Prod.mk package) (Lists.split_words some fun word hword => (separable word hword).2)

theorem splitBinaryName_alone : splitBinaryName ("$".intercalate words) = ("", words) := by
  have free : '.' ∉ ("$".intercalate words).toList :=
    notMem_intercalate (by decide) fun word hword => (separable word hword).1
  unfold splitBinaryName
  simp only [Dotted.splitLast?_of_free free, Option.getD_none]
  exact congrArg (Prod.mk "") (Lists.split_words some fun word hword => (separable word hword).2)

theorem splitBinaryName_binaryName : splitBinaryName (binaryName package words) = (package, words) := by
  rw [binaryName, Dotted.within]
  split
  · rename_i none
    rw [splitBinaryName_alone some separable, none]
  · exact splitBinaryName_inside some separable package

theorem segments_alone : Dotted.segments (Dotted.ofBinary ("$".intercalate words)) = words := by
  rw [Dotted.ofBinary_intercalate fun word hword => (separable word hword).2]
  exact Dotted.segments_intercalate some fun word hword => (separable word hword).1

theorem segments_inside (package : String) :
    Dotted.segments (Dotted.ofBinary (package ++ "." ++ "$".intercalate words)) =
      Dotted.segments (Dotted.ofBinary package) ++ words := by
  have dot : Dotted.ofBinary "." = "." := rfl
  rw [Dotted.ofBinary_append, Dotted.ofBinary_append, dot, Dotted.segments_inside, segments_alone some separable]

omit some in
theorem ofBinary_binaryName (plain : '$' ∉ package.toList) :
    Dotted.ofBinary (binaryName package words) = Dotted.within package (".".intercalate words) := by
  have inner := Dotted.ofBinary_intercalate fun word hword => (separable word hword).2
  rw [binaryName, Dotted.within, Dotted.within]
  split
  · exact inner
  · rw [Dotted.ofBinary_append, Dotted.ofBinary_append, Dotted.ofBinary_of_free plain, inner]
    rfl

end

/-- Every text is a binary name, of classes in some package or in none. -/
theorem exists_words (name : String) : ∃ words, words ≠ [] ∧ (∀ word ∈ words, Separable word) ∧
    (name = "$".intercalate words ∨ ∃ package, name = package ++ "." ++ "$".intercalate words) := by
  obtain ⟨steps, some, whole, dotless⟩ := Lists.exists_words '.' name
  obtain ⟨front, last, rfl⟩ := (List.eq_nil_or_concat' steps).resolve_left some
  obtain ⟨words, some', inner, plain⟩ := Lists.exists_words '$' last
  refine ⟨words, some', fun word hword => ⟨fun dot => ?_, (plain word hword).1⟩, ?_⟩
  · exact (dotless last List.mem_concat_self).1 ((plain word hword).2 dot)
  · by_cases alone : front = []
    · subst alone
      exact .inl (whole.trans inner)
    · refine .inr ⟨".".intercalate front, whole.trans ?_⟩
      rw [String.intercalate_append_of_ne_nil alone (List.cons_ne_nil _ _), String.intercalate_singleton, inner]
      rfl

/-- The symbols of classes in one another, from what the outermost of them stands in. -/
theorem nested_ok (names : List String) {owner : Symbol} (scheme : owner.scheme = .external)
    (holds : owner.kind = .package ∨ owner.kind.isType = true) :
    ∃ inner, names.foldlM (fun owner outer => Symbol.ofDeclaration (.type outer .classType) (some owner)) owner =
        .ok inner ∧
      (inner.kind = .package ∨ inner.kind.isType = true) ∧ inner.id = ⟨.external, owner.path ++ names.map .type⟩ := by
  induction names generalizing owner with
  | nil =>
    refine ⟨owner, rfl, holds, ?_⟩
    rw [List.map_nil, List.append_nil, ← scheme]
    rfl
  | cons name names ih =>
    have outside : owner.isLocal = false := by simp [Symbol.isLocal, scheme]
    have next : Symbol.ofDeclaration (.type name .classType) (some owner) = _ :=
      Symbol.ofDeclaration_type outside holds rfl name
    obtain ⟨inner, run, type, path⟩ := @ih (owner.child (.type name) .classType) scheme (.inr rfl)
    refine ⟨inner, ?_, type, ?_⟩
    · rw [List.foldlM_cons, next]
      exact run
    · rw [path]
      simp [Symbol.child, Symbol.path]

/-- Whatever a class of a library stands in has a symbol. -/
theorem ownerSymbol_ok (package : String) (words : List String) :
    ∃ owner, ownerSymbol package words = .ok owner ∧ (owner.kind = .package ∨ owner.kind.isType = true) ∧
      owner.id = ⟨.external, (Dotted.steps package).map .package ++ words.dropLast.map .type⟩ :=
  @nested_ok words.dropLast (Symbol.package package .external) rfl (.inl rfl)

end Manifest
end JavaIndex
