import JavaIndex.Proofs.Resolve.ClassNames
import JavaIndex.Proofs.Text.Lines
import JavaIndex.Token.Lexer

/-! Where the tokens of a text stand: one after the other, each over the characters that spell it. What a
word is made of keeps lines and qualified names apart. -/
namespace JavaIndex

open Span (bytesOf bytesOf_cons bytesOf_append)

namespace Lexer

theorem take_run (p : Char → Bool) (cs : List Char) : (cs.take (Number.run p cs)).all p = true := by
  induction cs with
  | nil => rfl
  | cons c cs ih =>
    rw [Number.run]
    split
    · rename_i here
      rw [List.take_succ_cons, List.all_cons, here, ih]
      rfl
    · rfl

theorem quoted_kind {kind k : TokenKind} {quote : Char} {read more : Nat} {cs : List Char}
    (read' : quoted kind quote read cs = .token k more) : k = kind := by
  fun_induction quoted kind quote read cs with grind

theorem textBlock_kind {k : TokenKind} {read more : Nat} {cs : List Char}
    (read' : textBlock read cs = .token k more) : k = .textBlock := by
  fun_induction textBlock read cs with grind

theorem blockComment_token {k : TokenKind} {read more : Nat} {cs : List Char} :
    blockComment read cs ≠ .token k more := by
  fun_induction blockComment read cs with grind

/-- A word goes on as long as its characters do. -/
theorem word_cons {c : Char} {cs letters : List Char} (opens : opensWord c = true)
    (run : cs.take (Number.run extendsWord cs) = letters) :
    word (c :: cs) = if Token.keywords.contains (String.ofList (c :: letters)) then .token .keyword letters.length
      else if Identifier.isSpelledBy (c :: letters) then .token .identifier letters.length
      else .unknown letters.length := by
  have first : extendsWord c = true := by rw [extendsWord, opens, Bool.true_or]
  rw [word, Number.run, if_pos first, List.take_succ_cons, run]
  rfl

theorem take_length_run (p : Char → Bool) (cs : List Char) :
    cs.take (cs.take (Number.run p cs)).length = cs.take (Number.run p cs) :=
  (List.prefix_iff_eq_take.mp (List.take_prefix ..)).symm

/-- An identifier is a word. -/
theorem identifier_letters {c : Char} {cs : List Char} {more : Nat}
    (read : lexeme c cs = .token .identifier more) : opensWord c = true ∧
      cs.take more = cs.take (Number.run extendsWord cs) ∧ Identifier.isSpelledBy (c :: cs.take more) = true ∧
      String.ofList (c :: cs.take more) ∉ Token.keywords := by
  unfold lexeme at read
  split at read
  · cases read
  · split at read
    · rename_i opens
      rw [word_cons opens rfl] at read
      split at read
      · cases read
      · rename_i other
        split at read
        · rename_i spelled
          cases read
          rw [take_length_run]
          exact ⟨opens, rfl, spelled, by simpa using other⟩
        · cases read
    · exfalso
      split at read
      · cases read
      · split at read
        · cases read
        · exact blockComment_token read
        · cases textBlock_kind read
        · cases quoted_kind read
        · cases quoted_kind read
        · split at read
          · cases read
          · cases read

/-- An identifier holds nothing but the characters of words. -/
theorem lexeme_identifier {c : Char} {cs : List Char} {more : Nat}
    (read : lexeme c cs = .token .identifier more) : (c :: cs.take more).all extendsWord = true := by
  obtain ⟨opens, letters, -⟩ := identifier_letters read
  rw [List.all_cons, extendsWord, opens, letters, take_run]
  rfl

end Lexer

/-- Tokens stand in this order among the characters from an offset on. -/
inductive Spread : Nat → List Char → List Token → Prop
  | done {offset cs} : Spread offset cs []
  | token {offset gap letters rest t ts} : letters ≠ [] → t.text = String.ofList letters →
      t.range = ⟨offset + bytesOf gap, offset + bytesOf gap + bytesOf letters⟩ →
      (t.kind = .identifier → letters.all Lexer.extendsWord = true) →
      Spread (offset + bytesOf gap + bytesOf letters) rest ts →
      Spread offset (gap ++ (letters ++ rest)) (t :: ts)

namespace Spread

theorem after_gap {offset : Nat} {gap cs : List Char} {ts : List Token}
    (h : Spread (offset + bytesOf gap) cs ts) : Spread offset (gap ++ cs) ts := by
  cases h with
  | done => exact .done
  | @token _ gap' letters rest t ts some spelled range word later =>
    rw [← List.append_assoc]
    rw [Nat.add_assoc offset, ← bytesOf_append] at range later
    exact .token some spelled range word later

theorem of_scan {offset skip : Nat} {doc : Option Comment} {cs : List Char} {ts : List Token}
    (read : Lexer.scan offset doc skip cs = .ok ts) :
    Spread (offset + bytesOf (cs.take skip)) (cs.drop skip) ts := by
  induction cs generalizing offset doc skip ts with
  | nil =>
    cases read
    exact .done
  | cons c cs ih =>
    cases skip with
    | succ skip =>
      rw [Lexer.scan] at read
      rw [List.take_succ_cons, List.drop_succ_cons, bytesOf_cons, ← Nat.add_assoc]
      exact ih read
    | zero =>
      -- what has been read, then what is left of the text
      have past (more : Nat) {ts : List Token} (left : Spread
          (offset + c.utf8Size + bytesOf (cs.take more)) (cs.drop more) ts) :
          Spread offset (c :: cs) ts := by
        have gap : bytesOf (c :: cs.take more) = c.utf8Size + bytesOf (cs.take more) := bytesOf_cons ..
        rw [Nat.add_assoc, ← gap] at left
        have all := left.after_gap
        rwa [List.cons_append, List.take_append_drop] at all
      rw [Lexer.scan] at read
      change Spread offset (c :: cs) ts
      split at read
      · exact past 0 (ih read)
      · rename_i more _
        exact past more (ih read)
      · rename_i kind more lexeme
        split at read
        · rename_i tokens rest
          cases read
          have split : c :: cs = [] ++ ((c :: cs.take more) ++ cs.drop more) := by
            rw [List.nil_append, List.cons_append, List.take_append_drop]
          have later := ih rest
          rw [split]
          apply Spread.token (List.cons_ne_nil _ _) rfl
          · simp only [bytesOf_cons, Span.bytesOf_nil, Nat.add_assoc, Nat.add_zero]
          · rintro rfl
            exact Lexer.lexeme_identifier lexeme
          · rw [bytesOf_cons, Span.bytesOf_nil, Nat.add_zero, ← Nat.add_assoc]
            exact later
        · cases read
      · cases read

variable {offset : Nat} {cs : List Char} {t : Token} {ts : List Token}

theorem starts_after (h : Spread offset cs ts) (ht : t ∈ ts) : offset ≤ t.range.start := by
  induction h with
  | done => cases ht
  | token some spelled range word later ih =>
    rcases List.mem_cons.mp ht with rfl | ht
    · rw [range]
      exact Nat.le_add_right ..
    · have := ih ht
      omega

theorem pairwise (h : Spread offset cs ts) : ts.Pairwise fun t u => t.range.stop ≤ u.range.start := by
  induction h with
  | done => exact .nil
  | token some spelled range word later ih =>
    apply List.Pairwise.cons _ ih
    intro u hu
    rw [range]
    exact later.starts_after hu

/-- A token is spelled by the characters of its span. -/
theorem spelled (h : Spread offset cs ts) (ht : t ∈ ts) : ∃ pre letters post,
    cs = pre ++ (letters ++ post) ∧ letters ≠ [] ∧ t.text = String.ofList letters ∧
      t.range = ⟨offset + bytesOf pre, offset + bytesOf pre + bytesOf letters⟩ ∧
      (t.kind = .identifier → letters.all Lexer.extendsWord = true) := by
  induction h with
  | done => cases ht
  | @token offset gap letters rest t' ts some text range word later ih =>
    rcases List.mem_cons.mp ht with rfl | ht
    · exact ⟨gap, letters, rest, rfl, some, text, range, word⟩
    · obtain ⟨pre, letters', post, rfl, some', text', range', word'⟩ := ih ht
      have bytes : bytesOf (gap ++ (letters ++ pre)) = bytesOf gap + (bytesOf letters + bytesOf pre) := by
        rw [bytesOf_append, bytesOf_append]
      refine ⟨gap ++ (letters ++ pre), letters', post, ?_, some', text', ?_, word'⟩
      · simp only [List.append_assoc]
      · rw [range', bytes]
        simp only [Nat.add_assoc]

end Spread

/-! The words of a source text. -/

/-- The span holds these characters of the text. -/
def Span.Holds (span : Span) (source : String) (letters : List Char) : Prop :=
  ∃ pre post, source.toList = pre ++ (letters ++ post) ∧
    span = ⟨bytesOf pre, bytesOf pre + bytesOf letters⟩

/-- A word of the text stands in the span. -/
def Span.IsWord (span : Span) (source : String) : Prop :=
  ∃ letters, span.Holds source letters ∧ letters ≠ [] ∧ letters.all Lexer.extendsWord = true

theorem Lexer.not_mem_of_extendsWord {letters : List Char} (word : letters.all extendsWord = true)
    {c : Char} (other : extendsWord c = false) : c ∉ letters := by
  intro here
  have := List.all_eq_true.mp word c here
  rw [other] at this
  cases this

namespace Span.IsWord

variable {span : Span} {source : String} (word : span.IsWord source)

include word

theorem nonempty : span.start < span.stop := by
  obtain ⟨letters, ⟨pre, post, -, rfl⟩, some, -⟩ := word
  have := Span.bytesOf_pos some
  simp only
  omega

theorem inside : span.stop ≤ (LineIndex.ofText source).size := by
  obtain ⟨letters, ⟨pre, post, split, rfl⟩, -, -⟩ := word
  rw [LineIndex.size_ofText, split, bytesOf_append, bytesOf_append]
  simp only
  omega

theorem one_line : ((LineIndex.ofText source).region span).start.line =
    ((LineIndex.ofText source).region span).stop.line := by
  have inside := word.inside
  have nonempty := word.nonempty
  obtain ⟨letters, ⟨pre, post, split, rfl⟩, -, spelled⟩ := word
  have free := Lexer.not_mem_of_extendsWord spelled (c := '\n') rfl
  rw [LineIndex.region, LineIndex.position_of_inside inside,
    LineIndex.position_of_inside (Nat.le_of_lt (Nat.lt_of_lt_of_le nonempty inside))]
  exact LineIndex.lineOf_of_free split free

end Span.IsWord

section

variable {source : String} {tokens : List Token} (read : tokenize source = .ok tokens)

include read

theorem tokenize_spread : Spread 0 source.toList tokens := by
  have spread := Spread.of_scan read
  rwa [List.take_zero, List.drop_zero] at spread

/-- Tokens do not overlap, and they stand in the order of the text. -/
theorem tokenize_pairwise : tokens.Pairwise fun t u => t.range.stop ≤ u.range.start :=
  (tokenize_spread read).pairwise

theorem tokenize_identifier {t : Token} (ht : t ∈ tokens) (sort : t.kind = .identifier) :
    t.text.toList.all Lexer.extendsWord = true := by
  obtain ⟨pre, letters, post, split, some, spelled, -, word⟩ := (tokenize_spread read).spelled ht
  rw [spelled, String.toList_ofList]
  exact word sort

theorem tokenize_word {t : Token} (ht : t ∈ tokens) (word : t.text.toList.all Lexer.extendsWord = true) :
    t.range.IsWord source := by
  obtain ⟨pre, letters, post, split, some, spelled, range, -⟩ := (tokenize_spread read).spelled ht
  rw [Nat.zero_add] at range
  rw [spelled, String.toList_ofList] at word
  exact ⟨letters, ⟨pre, post, split, range⟩, some, word⟩

end

theorem plain_of_extendsWord {text : String} (word : text.toList.all Lexer.extendsWord = true) :
    Plain text :=
  ⟨Lexer.not_mem_of_extendsWord word rfl, Lexer.not_mem_of_extendsWord word rfl⟩

/-- Words with one region are one word. -/
theorem LineIndex.region_injective {source : String} {a b : Span} (first : a.IsWord source)
    (second : b.IsWord source)
    (same : (LineIndex.ofText source).region a = (LineIndex.ofText source).region b) : a = b := by
  have insideA := first.inside
  have insideB := second.inside
  have nonemptyA := first.nonempty
  have nonemptyB := second.nonempty
  have start := position_injective (by omega) (by omega) (congrArg Region.start same)
  have stop := position_injective (by omega) (by omega) (congrArg Region.stop same)
  cases a
  cases b
  cases start
  cases stop
  rfl

end JavaIndex
