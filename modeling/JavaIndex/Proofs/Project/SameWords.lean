import JavaIndex.Proofs.Index.Sorted
import JavaIndex.Proofs.Parser.Printed.Outline
import JavaIndex.Proofs.Project.Facades
import JavaIndex.Proofs.Project.Mentions

/-! Texts that differ in nothing but the space and the comments between their tokens. They are rejected for the
same fault at the same token, or their indexes show the same at the same tokens: each is a printing of one
outline, the trees are one tree in two layouts, and mentions are sorted as their tokens are. -/
namespace JavaIndex

theorem Token.Placed.atMost_startAt {source : String} {tokens : List Token}
    (placed : Placed tokens source.utf8ByteSize) (j k : Nat) :
    ((LineIndex.ofText source).position (startAt tokens source.utf8ByteSize j)).atMost
      ((LineIndex.ofText source).position (startAt tokens source.utf8ByteSize k)) =
      decide (j ≤ k ∨ tokens.length ≤ k) := by
  rw [Bool.eq_iff_iff, LineIndex.position_atMost (placed.startAt_le_size j) (placed.startAt_le_size k),
    placed.startAt_le_iff, decide_eq_true_iff]

/-- A word of the outline is printed as the tokens of one number in two texts. -/
theorem Token.Placed.one_token {tokens tokens' : List Token} {size size' : Nat}
    (placed : Placed tokens size) (placed' : Placed tokens' size') (one : outline tokens = outline tokens')
    {i : Ident} (word : i ∈ words (outline tokens)) : ∃ (k : Nat) (t t' : Token), tokens[k]? = some t ∧
      tokens'[k]? = some t' ∧ placed.printing.layout.mark i.range = t.range ∧
      placed'.printing.layout.mark i.range = t'.range := by
  obtain ⟨k, t, here, named, mark⟩ := placed.mark_word word
  obtain ⟨k', t', there, named', mark'⟩ := placed'.mark_word (one ▸ word)
  have start : 2 * k + 1 = 2 * k' + 1 :=
    congrArg (fun i : Ident => i.range.start) (named.symm.trans named')
  obtain rfl : k = k' := by omega
  exact ⟨k, t, t', here, there, mark, mark'⟩

/-! What is noted over the words of an outline, as it is shown in a text. -/

section

variable {source : String} {tokens : List Token} (placed : Token.Placed tokens source.utf8ByteSize)
  {notes : List Note} {shown : Note → Occurrence}
  (stands : ∀ n, (shown n).region =
    (LineIndex.ofText source).region (placed.printing.layout.mark n.name.range))
  (words : ∀ n ∈ notes, n.name ∈ Token.words (Token.outline tokens))
  (nodup : (notes.map Note.name).Nodup)

include stands words

theorem Note.shown_nonempty : ∀ n ∈ notes, (shown n).region.Nonempty := by
  intro n hn
  obtain ⟨k, t, here, -, mark⟩ := placed.mark_word (words n hn)
  have ht := List.mem_of_getElem? here
  rw [stands, mark]
  exact (LineIndex.position_before (Nat.le_of_lt (placed.start_lt ht)) (placed.inside t ht)).mpr
    (placed.nonempty t ht)

include nodup

theorem Note.shown_apart : (notes.map shown).Pairwise fun a b => a.region.Apart b.region := by
  rw [List.pairwise_map]
  apply (List.pairwise_map.mp nodup).imp_of_mem
  intro n m hn hm different
  obtain ⟨j, t, first, named, mark⟩ := placed.mark_word (words n hn)
  obtain ⟨k, u, second, named', mark'⟩ := placed.mark_word (words m hm)
  rw [stands, stands, mark, mark']
  apply LineIndex.region_apart
  apply placed.apart first second
  rintro rfl
  cases first.symm.trans second
  exact different (named.trans named'.symm)

/-- Mentions are shown in the order of the outline. -/
theorem Note.shown_order : ∀ n ∈ notes, ∀ m ∈ notes,
    (compare n.name.range.start m.name.range.start).isLE =
      (Emission.order (shown n, (shown n).symbol.text) (shown m, (shown m).symbol.text)).isLE := by
  intro n hn m hm
  obtain ⟨j, t, first, named, mark⟩ := placed.mark_word (words n hn)
  obtain ⟨k, u, second, named', mark'⟩ := placed.mark_word (words m hm)
  -- over one token there is one mention, and of two tokens the first decides before anything else is compared
  by_cases same : j = k
  · subst same
    cases first.symm.trans second
    obtain rfl : n = m := List.inj_on_of_nodup_map nodup hn hm (named.trans named'.symm)
    have itself (a : Occurrence × String) : Emission.keys a a = .eq := Std.ReflCmp.compare_self
    rw [Emission.order_eq, itself, Nat.compare_eq_eq.mpr rfl]
  · have starts : compare (shown n).region.start (shown m).region.start = compare j k := by
      rw [stands, stands, mark, mark']
      refine (LineIndex.compare_position (Nat.le_of_lt (placed.start_lt (List.mem_of_getElem? first)))
        (Nat.le_of_lt (placed.start_lt (List.mem_of_getElem? second)))).trans ?_
      have compared := placed.compare_startAt (List.getElem?_eq_some_iff.mp first).1
        (List.getElem?_eq_some_iff.mp second).1
      rw [Token.startAt, Token.startAt, first, second] at compared
      exact compared
    have numbers : compare n.name.range.start m.name.range.start = compare j k := by
      rw [named, named']
      change compare (2 * j + 1) (2 * k + 1) = _
      rcases Nat.lt_or_gt_of_ne same with less | more
      · rw [Nat.compare_eq_lt.mpr less, Nat.compare_eq_lt.mpr (by omega)]
      · rw [Nat.compare_eq_gt.mpr more, Nat.compare_eq_gt.mpr (by omega)]
    rw [numbers, Emission.order, starts]
    cases compared : compare j k with
    | lt => rfl
    | gt => rfl
    | eq => exact absurd (Nat.compare_eq_eq.mp compared) same

end

/-! What two texts of the same words have in common. -/

/-- Two mentions over one token, of one symbol, in one role and inside one declaration. -/
structure Occurrence.Corresponds (source source' : String) (tokens tokens' : List Token)
    (o o' : Occurrence) : Prop where
  token : ∃ (k : Nat) (t t' : Token), tokens[k]? = some t ∧ tokens'[k]? = some t' ∧
    o.region = (LineIndex.ofText source).region t.range ∧
    o'.region = (LineIndex.ofText source').region t'.range
  role : o.role = o'.role
  symbol : o.symbol = o'.symbol
  enclosing : o.enclosing = o'.enclosing

/-- The same is known of one symbol, but for the wording of its signature. -/
structure SymbolInfo.Corresponds (i i' : SymbolInfo) : Prop where
  symbol : i.symbol = i'.symbol
  displayName : i.displayName = i'.displayName
  signature : i.signature.isSome = i'.signature.isSome
  overrides : i.overrides = i'.overrides

/-- One problem, wherever it is. -/
structure Diagnostic.Corresponds (d d' : Diagnostic) : Prop where
  file : d.file = d'.file
  problem : d.problem = d'.problem

/-- Two indexes show the same at the same tokens. -/
structure UnitIndex.Corresponds (source source' : String) (tokens tokens' : List Token)
    (index index' : UnitIndex) : Prop where
  file : index.file = index'.file
  occurrences : List.Forall₂ (Occurrence.Corresponds source source' tokens tokens') index.occurrences
    index'.occurrences
  symbols : List.Forall₂ SymbolInfo.Corresponds index.symbols index'.symbols
  diagnostics : List.Forall₂ Diagnostic.Corresponds index.diagnostics index'.diagnostics

/-- A reader is told the same of one token, or of the end of the text. -/
structure SyntaxError.Corresponds (source source' : String) (tokens tokens' : List Token)
    (e e' : SyntaxError) : Prop where
  message : e.message = e'.message
  token : ∃ k : Nat, (Token.places tokens source.utf8ByteSize)[k]? = some e.range.start ∧
    (Token.places tokens' source'.utf8ByteSize)[k]? = some e'.range.start

/-- What comes of two texts: both are rejected alike, or their indexes show the same. -/
inductive SameOutcome (source source' : String) (tokens tokens' : List Token) (external : ExternalTable)
    (config : Config) : Prop
  | rejected {e e' : SyntaxError} : parse source = .error e → parse source' = .error e' →
    e.Corresponds source source' tokens tokens' e' → SameOutcome source source' tokens tokens' external config
  | indexed {tree tree' : CompilationUnit} {index index' : UnitIndex} : parse source = .ok tree →
    parse source' = .ok tree' → indexSource source external config = .ok index →
    indexSource source' external config = .ok index' →
    index.Corresponds source source' tokens tokens' index' →
    SameOutcome source source' tokens tokens' external config

section

variable {source source' : String} {tokens tokens' : List Token}
  (placed : Token.Placed tokens source.utf8ByteSize) (placed' : Token.Placed tokens' source'.utf8ByteSize)

/-- The outline printed in both texts. -/
def Twins.printed : Twins :=
  ⟨placed.printing.layout, placed'.printing.layout, .same, 0, 0, .ofText source, .ofText source', source, source',
    False, fun never => never.elim⟩

variable {placed placed'} (one : Token.outline tokens = Token.outline tokens')

include one

theorem Token.length_of_outline : tokens.length = tokens'.length := by
  rw [← outline_length tokens, one, outline_length]

/-- What is told in the words of an outline is shown at the same tokens. -/
theorem Twins.Tells.corresponds {log : Log} {index index' : UnitIndex}
    (told : (Twins.printed placed placed').Tells (Token.words (Token.outline tokens)) log index index') :
    index.Corresponds source source' tokens tokens' index' := by
  let w := Twins.printed placed placed'
  have nodup : (log.notes.map Note.name).Nodup := List.nodup_iff_count_le_one.mpr fun i =>
    Nat.le_trans (told.fewer i) (List.nodup_iff_count_le_one.mp (Token.outline_words_nodup tokens) i)
  have words : ∀ n ∈ log.notes, n.name ∈ Token.words (Token.outline tokens) :=
    fun n hn => told.fewer.mem (List.mem_map_of_mem hn)
  have words' : ∀ n ∈ log.notes, n.name ∈ Token.words (Token.outline tokens') := one ▸ words
  have stands (n : Note) : (w.occurrence n).region =
      (LineIndex.ofText source).region (placed.printing.layout.mark n.name.range) := rfl
  have stands' (n : Note) : (w.occurrence' n).region =
      (LineIndex.ofText source').region (placed'.printing.layout.mark n.name.range) := rfl
  have apart := Note.shown_apart placed stands words nodup
  have apart' := Note.shown_apart placed' stands' words' nodup
  have nonempty := Note.shown_nonempty placed stands words
  have nonempty' := Note.shown_nonempty placed' stands' words'
  have shown := Emission.final_map (log.facts.map Twins.info)
    (Note.shown_order placed stands words nodup) apart nonempty
  have shown' := Emission.final_map (log.facts.map Twins.info')
    (Note.shown_order placed' stands' words' nodup) apart' nonempty'
  rw [told.index, told.index']
  refine ⟨rfl, (forall₂_meet shown shown').imp ?_, ?_, ?_⟩
  · rintro o o' ⟨n, hn, noted, noted'⟩
    have hn : n ∈ log.notes := List.mem_reverse.mp ((List.mergeSort_perm _ _).mem_iff.mp hn)
    obtain ⟨k, t, t', here, there, mark, mark'⟩ := placed.one_token placed' one (words n hn)
    obtain ⟨shows, enclosing⟩ := noted.shows
    obtain ⟨shows', enclosing'⟩ := noted'.shows
    refine ⟨⟨k, t, t', here, there, ?_, ?_⟩, shows.role.trans shows'.role.symm, ?_,
      enclosing.trans enclosing'.symm⟩
    · rw [shows.region, stands, mark]
    · rw [shows'.region, stands', mark']
    · rw [noted.symbol, noted'.symbol]
      rfl
  · change List.Forall₂ SymbolInfo.Corresponds (Emission.sortedInfos (log.facts.map Twins.info).reverse)
      (Emission.sortedInfos (log.facts.map Twins.info').reverse)
    rw [← List.map_reverse, ← List.map_reverse, Emission.sortedInfos_map, Emission.sortedInfos_map,
      List.forall₂_map_left_iff, List.forall₂_map_right_iff]
    refine List.forall₂_same.mpr fun f hf => ⟨rfl, rfl, ?_, rfl⟩
    obtain ⟨first, second⟩ := told.told f (List.mem_reverse.mp ((List.mergeSort_perm _ _).mem_iff.mp hf))
    exact first.trans second.symm
  · have length := Token.length_of_outline one
    rw [Emission.diagnostics_of_apart _ _ apart nonempty, Emission.diagnostics_of_apart _ _ apart' nonempty',
      ← List.map_reverse, ← List.map_reverse,
      Emission.diagnostics_map fun p _ q _ => (placed.atMost_startAt ((p.1.start - 1) / 2) _).symm,
      Emission.diagnostics_map fun p _ q _ => (placed'.atMost_startAt ((p.1.start - 1) / 2) _).symm, ← length,
      List.forall₂_map_left_iff, List.forall₂_map_right_iff]
    exact List.forall₂_same.mpr fun p _ => ⟨rfl, rfl⟩

end

section

variable {source source' : String} {tokens tokens' : List Token} (read : tokenize source = .ok tokens)
  (read' : tokenize source' = .ok tokens') (same : Token.SameWords tokens tokens') (external : ExternalTable)
  (config : Config)

theorem parse_of_tokens (read : tokenize source = .ok tokens) :
    parse source = parseTokens tokens source.utf8ByteSize := by
  unfold parse
  rw [read]

theorem indexSource_of_parse {tree : CompilationUnit} (parsed : parse source = .ok tree) :
    indexSource source external config = .ok (SourceUnit.index ⟨0, tree⟩ source
      (.build [⟨0, tree⟩] external config) external config) := by
  unfold indexSource
  rw [parsed]

include read read' same

/-- Space and comments between tokens change neither whether a text is rejected nor what its index shows. -/
theorem index_sameWords : SameOutcome source source' tokens tokens' external config := by
  have placed := tokenize_placed read
  have placed' := tokenize_placed read'
  have one := same.outline
  obtain ⟨printed, begins⟩ := placed.parseTokens_outline
  obtain ⟨printed', -⟩ := placed'.parseTokens_outline
  rw [← parse_of_tokens read] at printed
  rw [← parse_of_tokens read', ← one, ← Token.length_of_outline one] at printed'
  cases run : parseTokens (Token.outline tokens) (2 * tokens.length + 1) with
  | error e =>
    rw [run] at printed printed'
    have odd := begins e run
    obtain ⟨k, start⟩ : ∃ k, e.range.start = 2 * k + 1 := ⟨e.range.start / 2, by omega⟩
    refine .rejected printed printed' ⟨rfl, min k tokens.length, ?_, ?_⟩
    · rw [Token.places_startAt, ← Token.byteAt_start, ← start]
      rfl
    · rw [Token.length_of_outline one, Token.places_startAt, ← Token.byteAt_start, ← start]
      rfl
  | ok u =>
    rw [run] at printed printed'
    -- the words of the tree are words of the outline, so that what is noted over them has a number
    have inOutline : FewerWords (Nodes.idents (Nodes.unit u)) (Token.words (Token.outline tokens)) := by
      apply FewerWords.trans _ (parseTokens_words run)
      intro i
      rw [Grammar.unitWords, List.count_append]
      exact Nat.le_add_left ..
    obtain ⟨log, told⟩ := Twins.index (w := Twins.printed placed placed') rfl rfl
      (.same (.start (.build [⟨0, u⟩] external config) external)) u config
    have told := { told with fewer := told.fewer.trans inOutline }
    refine .indexed printed printed' (indexSource_of_parse external config printed)
      (indexSource_of_parse external config printed') ?_
    rw [ProjectClasses.build_laid _ ⟨0, u⟩, ProjectClasses.build_laid _ ⟨0, u⟩]
    exact told.corresponds one

end

/-- A program and the same program with its lines broken and a comment put in. -/
theorem shift_sameWords :
    let source := "class A { int g(A<A<B>> a) { return a >> 1; } }"
    let source' := "class A \x7b // g\n  int g(A<A<B>> a) \x7b\n    return a>>1;\x7d\x7d"
    ∃ tokens tokens', tokenize source = .ok tokens ∧ tokenize source' = .ok tokens' ∧
      Token.SameWords tokens tokens' ∧ (parse source).isOk = true ∧
        SameOutcome source source' tokens tokens' .empty .standard := by
  intro source source'
  let tokens := (tokenize source).toOption.getD []
  let tokens' := (tokenize source').toOption.getD []
  obtain ⟨read, read', words, closing, program⟩ : tokenize source = .ok tokens ∧ tokenize source' = .ok tokens' ∧
      (tokens.map (fun t => (t.kind, t.text)) = tokens'.map fun t => (t.kind, t.text)) ∧
        tokens.tails.map Token.closesTwice = tokens'.tails.map Token.closesTwice ∧ (parse source).isOk = true := by
    decide +kernel
  exact ⟨tokens, tokens', read, read', ⟨words, closing⟩, program,
    index_sameWords read read' ⟨words, closing⟩ .empty .standard⟩

end JavaIndex
