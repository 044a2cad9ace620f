import JavaIndex.Proofs.Parser.Source
import JavaIndex.Proofs.Symbol.Text
import JavaIndex.Proofs.Token.Tiling
import JavaIndex.Proofs.Token.Words

/-! What texts are read as identifiers and what symbols show without marks. A word is one identifier of a text
exactly if the naming of symbols takes it for one and it is no keyword, so that no symbol puts marks around a name
that stands in a source text. -/
namespace JavaIndex

open Span (bytesOf bytesOf_nil bytesOf_toList)

/-- A text that is one identifier, and nothing else. -/
def IsOneIdentifier (text : String) : Prop :=
  ∃ t, tokenize text = .ok [t] ∧ t.kind = .identifier ∧ t.range = ⟨0, text.utf8ByteSize⟩

/-- What holds letters in all its bytes is made of these letters. -/
theorem Span.Holds.whole {source : String} {letters : List Char}
    (h : Span.Holds ⟨0, source.utf8ByteSize⟩ source letters) : source.toList = letters := by
  obtain ⟨pre, post, text, size⟩ := h
  obtain ⟨start, stop⟩ := Span.mk.inj size
  rw [← start, Nat.zero_add] at stop
  have begun : [] ++ source.toList = pre ++ (letters ++ post) := text
  obtain ⟨rfl, rest⟩ := Span.bytesOf_split begun (bytesOf_nil.trans start)
  have ended : source.toList ++ [] = letters ++ post := (List.append_nil _).trans rest
  exact (Span.bytesOf_split ended ((bytesOf_toList source).trans stop)).1

theorem isName_of_isOneIdentifier {word : String} (h : IsOneIdentifier word) : Lexer.IsName word := by
  obtain ⟨t, read, sort, range⟩ := h
  have held := (tokenize_tiling read).spelled t (List.mem_singleton_self t)
  rw [range] at held
  have same : word = t.text := String.toList_inj.mp held.whole
  rw [same]
  exact tokenize_names read t (List.mem_singleton_self t) sort

theorem isOneIdentifier_of_isName {word : String} (h : Lexer.IsName word) : IsOneIdentifier word := by
  obtain ⟨spelled, free⟩ := h
  unfold Identifier.isIdentifier at spelled
  cases letters : word.toList with
  | nil =>
    rw [letters] at spelled
    cases spelled
  | cons c cs =>
    rw [letters] at spelled
    have text : String.ofList (c :: cs) = word := by rw [← letters, String.ofList_toList]
    have size : word.utf8ByteSize = c.utf8Size + bytesOf cs := by rw [← bytesOf_toList, letters, Span.bytesOf_cons]
    have read : Lexer.lexeme c (cs ++ []) = _ := Lexer.lexeme_word spelled nofun
    rw [List.append_nil, text, Lexer.wordKind, if_neg free] at read
    have rest : Lexer.scan c.utf8Size none cs.length cs = .ok [] := by
      rw [Lexer.scan_skip, List.drop_length, Lexer.scan]
    refine ⟨⟨.identifier, word, ⟨0, word.utf8ByteSize⟩, none⟩, ?_, rfl, rfl⟩
    simp only [tokenize, letters, Lexer.scan, read, rest, List.take_length, text, size, Nat.zero_add]

/-- The name is a word of a source text: an identifier or a keyword of it. -/
def IsWordOf (source name : String) : Prop := ∃ tokens, tokenize source = .ok tokens ∧
  ∃ t ∈ tokens, (t.kind = .identifier ∨ t.text ∈ Token.keywords) ∧ t.text = name

theorem IsWordOf.isIdentifier {source name : String} (h : IsWordOf source name) :
    Identifier.isIdentifier name = true := by
  obtain ⟨tokens, read, t, ht, word, rfl⟩ := h
  have keywords : ∀ w ∈ Token.keywords, Identifier.isIdentifier w = true := by decide
  exact word.elim (fun sort => (tokenize_names read t ht sort).1) (keywords _)

/-- The words of a tree are words of its text. -/
theorem isWordOf_of_parse {source : String} {u : CompilationUnit} (parsed : parse source = .ok u) {i : Ident}
    (word : i ∈ Grammar.unitWords u) : IsWordOf source i.text := by
  obtain ⟨tokens, read, built⟩ := parse_tokens parsed
  obtain ⟨t, ht, rfl, naming⟩ := Token.mem_words ((parseTokens_words built).mem word)
  have keywords : ∀ w ∈ ["this", "super", "new"], w ∈ Token.keywords := by decide
  exact ⟨tokens, read, t, ht, naming.imp_right (keywords _), rfl⟩

namespace Descriptor

variable {d : Descriptor}

theorem opening_unmarked (d : Descriptor) : mark ∉ d.opening := by
  rcases d.opening_eq with none | bracket
  · simp [none]
  · rw [bracket]
    decide

theorem toString_unmarked (n : Nat) : mark ∉ (toString n).toList := by
  intro inside
  cases isDigit_of_mem_toString inside

theorem overloadText_unmarked (overload : Nat) : mark ∉ overloadText overload := by
  cases overload with
  | zero => decide
  | succ n =>
    have digits := toString_unmarked (n + 1)
    have plus : mark ≠ '+' := by decide
    have closing : mark ∉ [')', '.'] := by decide
    rw [overloadText, List.mem_cons, List.mem_append, not_or, not_or]
    exact ⟨plus, digits, closing⟩

theorem ending_unmarked (d : Descriptor) : mark ∉ d.ending := by
  cases d with
  | method name overload =>
    have bracket : mark ≠ '(' := by decide
    rw [ending, List.mem_cons, not_or]
    exact ⟨bracket, overloadText_unmarked overload⟩
  | package | type | term | typeParameter | «local» =>
    rw [ending]
    decide

/-- An identifier is shown as it is, and holds no mark. -/
theorem quoted_unmarked {name : String} (spelled : Identifier.isIdentifier name = true) :
    mark ∉ (quoted name).toList := by
  rw [toList_quoted, if_pos spelled]
  intro inside
  have occurs := Identifier.mayOccur_of_isIdentifier spelled mark inside
  rw [mark_stops] at occurs
  cases occurs

theorem localText_unmarked (number : Nat) : mark ∉ (localText number).toList := by
  have letters : mark ∉ "local".toList := by decide
  rw [localText, String.toList_append, List.mem_append, not_or]
  exact ⟨letters, toString_unmarked number⟩

/-- A step whose name is an identifier shows no mark. -/
theorem text_unmarked (spelled : d.isNamed = true → Identifier.isIdentifier d.name = true) :
    mark ∉ d.text.toList := by
  cases named : d.isNamed with
  | true =>
    rw [toList_text named, List.mem_append, List.mem_append, not_or, not_or]
    exact ⟨⟨d.opening_unmarked, quoted_unmarked (spelled named)⟩, d.ending_unmarked⟩
  | false =>
    cases d with
    | «local» number => exact localText_unmarked number
    | _ => cases named

end Descriptor

/-- A symbol whose names are identifiers shows no mark. -/
theorem Symbol.text_unmarked {s : Symbol}
    (spelled : ∀ d ∈ s.path, d.isNamed = true → Identifier.isIdentifier d.name = true) :
    Descriptor.mark ∉ s.text.toList := by
  have steps : Descriptor.mark ∉ (String.join (s.path.map Descriptor.text)).toList := by
    rw [SymbolId.toList_join, List.flatMap_map]
    intro inside
    obtain ⟨d, hd, here⟩ := List.mem_flatMap.mp inside
    exact Descriptor.text_unmarked (spelled d hd) here
  unfold text SymbolId.text
  split
  · exact Descriptor.localText_unmarked _
  · exact steps

/-- The words of a package are those it is declared with. -/
theorem CompilationUnit.mem_steps {u : CompilationUnit} (worded : u.Worded) {step : String}
    (mem : step ∈ Dotted.steps u.packageName) : ∃ i ∈ Grammar.unitWords u, i.text = step := by
  obtain ⟨mem, full⟩ := List.mem_filter.mp mem
  have unnamed (none : u.packageName = "") : step ∉ Dotted.segments u.packageName := by
    simpa [none, Dotted.segments, Lists.split] using full
  cases declared : u.package with
  | none => exact absurd mem (unnamed (by rw [packageName, declared]))
  | some p =>
    have name : u.packageName = Ident.dotted p.name := by rw [packageName, declared]
    cases words : p.name with
    | nil => exact absurd mem (unnamed (by rw [name, words]; rfl))
    | cons first rest =>
      have free : ∀ w ∈ p.name.map Ident.text, '.' ∉ w.toList := by
        simpa using fun i hi => (worded.package p declared i hi).1
      rw [name, Ident.dotted, Dotted.segments_intercalate (by simp [words]) free] at mem
      obtain ⟨i, hi, same⟩ := List.mem_map.mp mem
      refine ⟨i, ?_, same⟩
      rw [Grammar.unitWords, declared]
      exact List.mem_append_left _ hi

namespace Site

variable {source name word : String} {outer : List String}

/-- Types around one another are called by words of a text. -/
def CalledBy (source : String) (outer : List String) (name : String) : Prop :=
  ∀ w ∈ words (name :: outer), IsWordOf source w

theorem CalledBy.top (plain : Plain word) (here : IsWordOf source word) (package : String) :
    CalledBy source [] (Dotted.within package word) := by
  rw [CalledBy, words_top package plain]
  exact List.forall_mem_singleton.mpr here

theorem CalledBy.member (h : CalledBy source outer name) (plain : Plain word) (here : IsWordOf source word) :
    CalledBy source (name :: outer) (name ++ "." ++ word) := by
  rw [CalledBy, words_inside name outer plain]
  exact List.forall_mem_append.mpr ⟨h, List.forall_mem_singleton.mpr here⟩

/-- A declared type is known by words of its file. -/
theorem path_words {unit : SourceUnit} {site : Site} (parsed : parse source = .ok unit.tree)
    (hs : site ∈ ofUnit unit) : ∀ d ∈ site.path, IsWordOf source d.name := by
  have worded := parse_worded parsed
  have named : ∀ n ∈ Nodes.unit unit.tree, ∀ i, n.ident? = some i → Plain i.text ∧ IsWordOf source i.text := by
    intro n hn i named
    have word : i ∈ Nodes.idents (Nodes.unit unit.tree) := List.mem_filterMap.mpr ⟨n, hn, named⟩
    exact ⟨worded.nodes n hn i named, isWordOf_of_parse parsed (List.mem_append_right _ word)⟩
  obtain ⟨types, rfl⟩ := @ofUnit_names unit site (fun word => Plain word ∧ IsWordOf source word) (CalledBy source)
    named (fun _ good => .top good.1 good.2 _) (fun _ _ _ good h => h.member good.1 good.2) hs
  intro d hd
  rcases List.mem_append.mp hd with package | type
  · obtain ⟨step, hstep, rfl⟩ := List.mem_map.mp package
    obtain ⟨i, hi, rfl⟩ := CompilationUnit.mem_steps worded hstep
    exact isWordOf_of_parse parsed hi
  · obtain ⟨name, hname, rfl⟩ := List.mem_map.mp type
    exact types _ (List.mem_map_of_mem hname)

end Site

/-- A word is read as one identifier exactly if it is an identifier of symbols and no keyword. So the words of source
texts are shown as they are, and no symbol that is named by them shows a mark; declared types are named by them. -/
theorem identifiers_agree :
    (∀ word, IsOneIdentifier word ↔ Identifier.isIdentifier word = true ∧ word ∉ Token.keywords) ∧
    (∀ source name, IsWordOf source name → Descriptor.quoted name = name) ∧
    (∀ s : Symbol, (∀ d ∈ s.path, d.isNamed = true → ∃ source, IsWordOf source d.name) →
      Descriptor.mark ∉ s.text.toList) ∧
    ∀ source tree, parse source = .ok tree → (∀ i ∈ Grammar.unitWords tree, IsWordOf source i.text) ∧
      ∀ file, ∀ site ∈ Site.ofUnit ⟨file, tree⟩, ∀ d ∈ site.symbol.path, IsWordOf source d.name := by
  refine ⟨fun word => ⟨isName_of_isOneIdentifier, isOneIdentifier_of_isName⟩, ?_, ?_, ?_⟩
  · intro source name word
    rw [Descriptor.quoted, if_pos word.isIdentifier]
  · intro s words
    refine Symbol.text_unmarked fun d hd named => ?_
    obtain ⟨source, word⟩ := words d hd named
    exact word.isIdentifier
  · intro source tree parsed
    exact ⟨fun i => isWordOf_of_parse parsed, fun file site hs => Site.path_words parsed hs⟩

/-- Letters of any script, a dollar sign and digits make an identifier, and the symbols of the types of a file are
shown without marks. -/
theorem identifiers_agree_nested :
    let source := "package a.b; class C$1 \x7b enum É \x7b\x7d \x7d"
    IsOneIdentifier "_é$0" ∧ ¬ IsOneIdentifier "null" ∧ ¬ IsOneIdentifier "a b" ∧
      ∃ tree, parse source = .ok tree ∧
        (Site.ofUnit ⟨0, tree⟩).map (fun s => s.symbol.text) = ["a/b/C$1#", "a/b/C$1#É#"] ∧
        ∀ site ∈ Site.ofUnit ⟨0, tree⟩, Descriptor.mark ∉ site.symbol.text.toList := by
  intro source
  obtain ⟨same, -, unmarked, declared⟩ := identifiers_agree
  obtain ⟨tree, parsed, texts⟩ : ∃ tree, parse source = .ok tree ∧
      (Site.ofUnit ⟨0, tree⟩).map (fun s => s.symbol.text) = ["a/b/C$1#", "a/b/C$1#É#"] :=
    exists_parse (by decide +kernel)
  refine ⟨(same _).mpr (by decide +kernel), fun one => ?_, fun one => ?_, tree, parsed, texts, ?_⟩
  · exact ((same _).mp one).2 (by decide)
  · exact absurd ((same _).mp one).1 (by decide +kernel)
  · intro site hs
    exact unmarked _ fun d hd _ => ⟨source, (declared _ _ parsed).2 0 site hs d hd⟩

end JavaIndex
