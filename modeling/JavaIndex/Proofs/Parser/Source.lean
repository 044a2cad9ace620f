import JavaIndex.Proofs.Parser.Unit
import JavaIndex.Proofs.Project.Plans
import JavaIndex.Proofs.Token.Spread

/-! The words of a source text that is a program. Each stands for itself in the text, so that a word of
the tree is known by its span, and a part of the tree by its word. -/
namespace JavaIndex

namespace Token

/-- An identifier, or one of the keywords that may stand for a constructor. -/
def Naming (t : Token) : Prop := t.kind = .identifier ∨ t.text ∈ ["this", "super", "new"]

theorem callsConstructor_text {t : Token} {rest : List Token} (calls : t.callsConstructor rest = true) :
    t.text = "this" ∨ t.text = "super" := by
  have keyword := (Bool.and_eq_true_iff.mp calls).1
  rcases Bool.or_eq_true_iff.mp keyword with this | super
  · exact .inl (kind_of_spells this).2
  · exact .inr (kind_of_spells super).2

/-- The keyword that names a constructor is no word where it stands, only where it is announced. -/
theorem wordsAt_new {t : Token} (spelled : t.spells "new" = true) (rest : List Token) :
    wordsAt t rest = [] := by
  obtain ⟨sort, text⟩ := kind_of_spells spelled
  have notCall : t.callsConstructor rest = false := by
    by_contra calls
    rcases callsConstructor_text (by simpa using calls) with this | super
    · rw [text] at this
      exact absurd this (by decide)
    · rw [text] at super
      exact absurd super (by decide)
  have notColons : t.spells "::" = false := by
    by_contra colons
    have spelled : t.spells "::" = true := by simpa using colons
    have same := (kind_of_spells spelled).2
    rw [text] at same
    exact absurd same (by decide)
  rw [wordsAt, sort, notCall, notColons]
  rfl

theorem wordsAt_cases (t : Token) (rest : List Token) :
    wordsAt t rest = [] ∨ (wordsAt t rest = [⟨t.text, t.range⟩] ∧ t.Naming) ∨
      ∃ n after, rest = n :: after ∧ wordsAt t rest = [⟨n.text, n.range⟩] ∧ n.Naming ∧
        wordsAt n after = [] := by
  unfold wordsAt
  split
  · rename_i here
    refine .inr (.inl ⟨rfl, ?_⟩)
    rcases Bool.or_eq_true_iff.mp here with word | calls
    · exact .inl (eq_of_beq word)
    · rcases callsConstructor_text calls with this | super
      · exact .inr (by simp [this])
      · exact .inr (by simp [super])
  · split
    · cases rest with
      | nil => exact .inl rfl
      | cons n after =>
        cases named : n.spells "new" with
        | false => exact .inl (by simp [named])
        | true =>
          refine .inr (.inr ⟨n, after, rfl, by simp [named], .inr ?_, wordsAt_new named after⟩)
          simp [(kind_of_spells named).2]
    · exact .inl rfl

theorem mem_words {tokens : List Token} {i : Ident} (word : i ∈ words tokens) :
    ∃ t ∈ tokens, i = ⟨t.text, t.range⟩ ∧ t.Naming := by
  induction tokens with
  | nil => cases word
  | cons t rest ih =>
    rcases List.mem_append.mp word with here | later
    · rcases wordsAt_cases t rest with none | ⟨own, naming⟩ | ⟨n, after, rfl, next, naming, -⟩
      · rw [none] at here
        cases here
      · rw [own, List.mem_singleton] at here
        exact ⟨t, List.mem_cons_self, here, naming⟩
      · rw [next, List.mem_singleton] at here
        exact ⟨n, List.mem_cons_of_mem _ List.mem_cons_self, here, naming⟩
    · obtain ⟨u, hu, rest⟩ := ih later
      exact ⟨u, List.mem_cons_of_mem _ hu, rest⟩

/-- Words stand one after the other where tokens do. -/
theorem words_pairwise {tokens : List Token}
    (apart : tokens.Pairwise fun t u => t.range.stop ≤ u.range.start) :
    (words tokens).Pairwise fun i j => i.range.stop ≤ j.range.start := by
  induction tokens with
  | nil => exact .nil
  | cons t rest ih =>
    obtain ⟨first, later⟩ := List.pairwise_cons.mp apart
    rcases wordsAt_cases t rest with none | ⟨own, -⟩ | ⟨n, after, rfl, next, -, none⟩
    · rw [words, none]
      exact ih later
    · rw [words, own]
      apply List.Pairwise.cons _ (ih later)
      intro j word
      obtain ⟨u, hu, rfl, -⟩ := mem_words word
      exact first u hu
    · have rest := ih later
      rw [words, none] at rest
      rw [words, next, words, none]
      apply List.Pairwise.cons _ rest
      intro j word
      obtain ⟨u, hu, rfl, -⟩ := mem_words word
      exact (List.pairwise_cons.mp later).1 u hu

end Token

/-- Some words of a source text: each is written where it stands, and no two stand at one place. -/
structure SourceWords (source : String) (words : List Ident) : Prop where
  nodup : words.Nodup
  written : ∀ i ∈ words, i.range.IsWord source
  plain : ∀ i ∈ words, Plain i.text
  apart : ∀ i ∈ words, ∀ j ∈ words, i ≠ j →
    i.range.stop ≤ j.range.start ∨ j.range.stop ≤ i.range.start

theorem tokenize_words {source : String} {tokens : List Token} (read : tokenize source = .ok tokens) :
    SourceWords source (Token.words tokens) := by
  have pairwise := Token.words_pairwise (tokenize_pairwise read)
  have spelled : ∀ i ∈ Token.words tokens,
      ∃ t ∈ tokens, i = ⟨t.text, t.range⟩ ∧ t.text.toList.all Lexer.extendsWord = true := by
    intro i word
    obtain ⟨t, ht, rfl, naming⟩ := Token.mem_words word
    refine ⟨t, ht, rfl, ?_⟩
    rcases naming with sort | keyword
    · exact tokenize_identifier read ht sort
    · simp only [List.mem_cons, List.not_mem_nil, or_false] at keyword
      rcases keyword with text | text | text <;> rw [text] <;> rfl
  have written : ∀ i ∈ Token.words tokens, i.range.IsWord source := by
    intro i word
    obtain ⟨t, ht, rfl, letters⟩ := spelled i word
    exact tokenize_word read ht letters
  refine ⟨?_, written, ?_, ?_⟩
  · -- a word that stood before itself would be empty
    apply pairwise.imp_of_mem
    intro i j hi hj before same
    have := (written i hi).nonempty
    rw [← same] at before
    omega
  · intro i word
    obtain ⟨t, ht, rfl, letters⟩ := spelled i word
    exact plain_of_extendsWord letters
  · have either : (Token.words tokens).Pairwise fun i j =>
        i.range.stop ≤ j.range.start ∨ j.range.stop ≤ i.range.start :=
      pairwise.imp fun before => .inl before
    have symmetric : Std.Symm fun i j : Ident =>
        i.range.stop ≤ j.range.start ∨ j.range.stop ≤ i.range.start := ⟨fun _ _ h => h.symm⟩
    intro i hi j hj different
    exact either.forall hi hj different

theorem SourceWords.fewer {source : String} {some all : List Ident} (words : SourceWords source all)
    (fewer : FewerWords some all) : SourceWords source some := by
  refine ⟨?_, fun i hi => words.written i (fewer.mem hi), fun i hi => words.plain i (fewer.mem hi),
    fun i hi j hj => words.apart i (fewer.mem hi) j (fewer.mem hj)⟩
  rw [List.nodup_iff_count_le_one]
  intro i
  exact Nat.le_trans (fewer i) (List.nodup_iff_count_le_one.mp words.nodup i)

/-- A word is known by its span. -/
theorem SourceWords.eq_of_range {source : String} {all : List Ident} (words : SourceWords source all)
    {i j : Ident} (hi : i ∈ all) (hj : j ∈ all) (same : i.range = j.range) : i = j := by
  by_contra different
  have nonempty := (words.written i hi).nonempty
  rcases words.apart i hi j hj different with before | before
  · rw [← same] at before
    omega
  · rw [← same] at before
    omega

theorem parse_tokens {source : String} {u : CompilationUnit} (parsed : parse source = .ok u) :
    ∃ tokens, tokenize source = .ok tokens ∧ parseTokens tokens source.utf8ByteSize = .ok u := by
  unfold parse at parsed
  split at parsed
  · cases parsed
  · rename_i tokens read
    exact ⟨tokens, read, parsed⟩

/-- The words of a tree are words of its text. -/
theorem parse_words {source : String} {u : CompilationUnit} (parsed : parse source = .ok u) :
    SourceWords source (Grammar.unitWords u) := by
  obtain ⟨tokens, read, built⟩ := parse_tokens parsed
  exact (tokenize_words read).fewer (parseTokens_words built)

theorem parse_idents {source : String} {u : CompilationUnit} (parsed : parse source = .ok u) :
    SourceWords source (Nodes.idents (Nodes.unit u)) := by
  apply (parse_words parsed).fewer
  intro i
  rw [Grammar.unitWords, List.count_append]
  exact Nat.le_add_left ..

theorem parse_worded {source : String} {u : CompilationUnit} (parsed : parse source = .ok u) :
    u.Worded where
  nodes n hn i named := (parse_idents parsed).plain i (List.mem_filterMap.mpr ⟨n, hn, named⟩)
  package p written i hi := (parse_words parsed).plain i (by
    rw [Grammar.unitWords, written]
    exact List.mem_append_left _ hi)

theorem parse_eq_ok {source : String} (ok : (parse source).toOption.isSome) :
    parse source = .ok ((parse source).toOption.get ok) := by
  generalize parse source = result at ok
  cases result with
  | ok u => rfl
  | error e => cases ok

/-- A text is a program of some sort if the tree that is read from it is of that sort. -/
theorem exists_parse {source : String} {P : CompilationUnit → Prop}
    (found : ∃ ok : (parse source).toOption.isSome = true, P ((parse source).toOption.get ok)) :
    ∃ tree, parse source = .ok tree ∧ P tree := by
  obtain ⟨ok, holds⟩ := found
  exact ⟨_, parse_eq_ok ok, holds⟩

/-- Two entries that carry one value stand at one place. -/
theorem eq_of_nodup_filterMap {α β : Type} {f : α → Option β} {xs : List α}
    (distinct : (xs.filterMap f).Nodup) {x y : α} {b : β} (hx : x ∈ xs) (hy : y ∈ xs)
    (first : f x = some b) (second : f y = some b) : x = y := by
  induction xs with
  | nil => cases hx
  | cons z xs ih =>
    have tail : (xs.filterMap f).Nodup :=
      distinct.sublist ((List.sublist_cons_self z xs).filterMap f)
    have apart (same : f z = some b) {y : α} (hy : y ∈ xs) (found : f y = some b) : False := by
      rw [List.filterMap_cons_some same] at distinct
      exact (List.nodup_cons.mp distinct).1 (List.mem_filterMap.mpr ⟨y, hy, found⟩)
    rcases List.mem_cons.mp hx with rfl | laterX
    · rcases List.mem_cons.mp hy with rfl | laterY
      · rfl
      · exact (apart first laterY second).elim
    · rcases List.mem_cons.mp hy with rfl | laterY
      · exact (apart second laterX first).elim
      · exact ih tail laterX laterY

end JavaIndex
