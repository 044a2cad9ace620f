import JavaIndex.Proofs.Token.Spread
import Mathlib.Data.List.Infix

/-! What stands between the tokens of a text. A text that has tokens is made of them and of blanks and
comments, which can be told apart in one way only, and a token carries the last documentation comment since the
token before. -/
namespace JavaIndex

open Span (bytesOf bytesOf_nil bytesOf_cons bytesOf_append bytesOf_pos)

/-- What may stand between tokens: a blank, or a comment without the signs that mark it. -/
inductive Filler where
  | blank (c : Char)
  | lineComment (body : List Char)
  | blockComment (body : List Char)

namespace Filler

/-- What is written. -/
def chars : Filler → List Char
  | blank c => [c]
  | lineComment body => '/' :: '/' :: body
  | blockComment body => '/' :: '*' :: (body ++ ['*', '/'])

def written (fs : List Filler) : List Char := fs.flatMap chars

/-- The filler can stand before a text. Blanks are spaces, tabs, line ends and form feeds. A comment after two
slashes takes the rest of its line, and one between signs is over as soon as it is closed. -/
def Stands (rest : List Char) : Filler → Prop
  | blank c => c ∈ [' ', '\t', '\r', '\n', '\x0c']
  | lineComment body => '\n' ∉ body ∧ ∀ c ∈ rest.head?, c = '\n'
  | blockComment body => ¬ ['*', '/'] <:+: body ++ ['*']

/-- The fillers can stand one after the other before a text. -/
def Fill (after : List Char) : List Filler → Prop
  | [] => True
  | f :: fs => f.Stands (written fs ++ after) ∧ Fill after fs

/-- The documentation comment that the filler is at an offset: it opens with two stars, and it takes more than
four bytes. -/
def doc? (offset : Nat) (f : Filler) : Option Comment :=
  if ['/', '*', '*'] <+: f.chars ∧ 4 < bytesOf f.chars then
    some ⟨String.ofList f.chars, ⟨offset, offset + bytesOf f.chars⟩⟩
  else none

/-- The last documentation comment of some fillers. -/
def lastDoc? (offset : Nat) : List Filler → Option Comment
  | [] => none
  | f :: fs => (lastDoc? (offset + bytesOf f.chars) fs).or (f.doc? offset)

@[simp] theorem written_nil : written [] = [] := rfl

@[simp] theorem written_cons (f : Filler) (fs : List Filler) : written (f :: fs) = f.chars ++ written fs := rfl

/-- The shortest comment that opens with two stars has four characters and as many bytes. -/
theorem isDoc_iff {rest : List Char} (f : Filler) (stands : f.Stands rest) :
    Lexer.isDoc f.chars = true ↔ ['/', '*', '*'] <+: f.chars ∧ 4 < bytesOf f.chars := by
  have least (c : Char) : 1 ≤ c.utf8Size := c.utf8Size_pos
  have enough (cs : List Char) : cs.length ≤ bytesOf cs := by
    induction cs with
    | nil => simp
    | cons c cs ih =>
      have := least c
      simp only [List.length_cons, bytesOf_cons]
      omega
  cases f with
  | blank c => simp [Lexer.isDoc, chars]
  | lineComment body => simp [Lexer.isDoc, chars]
  | blockComment body =>
    cases body with
    | nil => simp [Lexer.isDoc, chars, bytesOf, Lists.total, Char.utf8Size]
    | cons c body =>
      have := enough (chars (blockComment (c :: body)))
      have long : 4 < (chars (blockComment (c :: body))).length := by simp [chars]
      have longer := Nat.lt_of_lt_of_le long (enough _)
      simp [Lexer.isDoc, List.isPrefixOf_iff_prefix, long, longer]

theorem doc?_eq {rest : List Char} (offset : Nat) (f : Filler) (stands : f.Stands rest) :
    f.doc? offset = if Lexer.isDoc f.chars then
      some ⟨String.ofList f.chars, ⟨offset, offset + bytesOf f.chars⟩⟩ else none := by
  simp only [doc?, isDoc_iff f stands]

/-! The text tells which fillers stand in it. -/

theorem lineComment_unique {body body' rest rest' : List Char} (stands : (lineComment body).Stands rest)
    (stands' : (lineComment body').Stands rest') (same : body ++ rest = body' ++ rest') : body = body' := by
  induction body generalizing body' with
  | nil =>
    cases body' with
    | nil => rfl
    | cons c body' =>
      have stop : c = '\n' := stands.2 c (by simp_all)
      exact absurd stands'.1 (by simp [stop])
  | cons c body ih =>
    cases body' with
    | nil =>
      have stop : c = '\n' := stands'.2 c (by rw [← List.nil_append rest', ← same]; rfl)
      exact absurd stands.1 (by simp [stop])
    | cons d body' =>
      simp only [List.cons_append, List.cons.injEq] at same
      obtain ⟨first, later⟩ := same
      have left : (lineComment body).Stands rest := ⟨fun h => stands.1 (.tail _ h), stands.2⟩
      have right : (lineComment body').Stands rest' := ⟨fun h => stands'.1 (.tail _ h), stands'.2⟩
      rw [first, ih left right later]

theorem blockComment_shortest {body more rest rest' : List Char}
    (same : '*' :: '/' :: rest = more ++ '*' :: '/' :: rest')
    (stands : (blockComment (body ++ more)).Stands rest') : more = [] := by
  match more with
  | [] => rfl
  | [c] => simp at same
  | c :: d :: more =>
    simp only [List.cons_append, List.cons.injEq] at same
    obtain ⟨rfl, rfl, -⟩ := same
    exact absurd ⟨body, more ++ ['*'], by simp⟩ stands

theorem blockComment_unique {body body' rest rest' : List Char} (stands : (blockComment body).Stands rest)
    (stands' : (blockComment body').Stands rest')
    (same : body ++ '*' :: '/' :: rest = body' ++ '*' :: '/' :: rest') : body = body' := by
  obtain ⟨more, rfl, later⟩ | ⟨more, rfl, later⟩ := List.append_eq_append_iff.mp same
  · simp [blockComment_shortest later stands']
  · simp [blockComment_shortest later stands]

theorem unique {f g : Filler} {rest rest' : List Char} (stands : f.Stands rest) (stands' : g.Stands rest')
    (same : f.chars ++ rest = g.chars ++ rest') : f = g := by
  cases f with
  | blank c =>
    cases g with
    | blank d => simp_all [chars]
    | lineComment body | blockComment body =>
      obtain ⟨rfl, -⟩ : c = '/' ∧ _ := by simpa [chars] using same
      simp [Stands] at stands
  | lineComment body =>
    cases g with
    | blank d =>
      obtain ⟨rfl, -⟩ : '/' = d ∧ _ := by simpa [chars] using same
      simp [Stands] at stands'
    | lineComment body' => rw [lineComment_unique stands stands' (by simpa [chars] using same)]
    | blockComment body' => simp [chars] at same
  | blockComment body =>
    cases g with
    | blank d =>
      obtain ⟨rfl, -⟩ : '/' = d ∧ _ := by simpa [chars] using same
      simp [Stands] at stands'
    | lineComment body' => simp [chars] at same
    | blockComment body' => rw [blockComment_unique stands stands' (by simpa [chars] using same)]

theorem chars_ne_nil (f : Filler) : f.chars ≠ [] := by cases f <;> simp [chars]

theorem written_unique {fs gs : List Filler} {after : List Char} (fill : Fill after fs) (fill' : Fill after gs)
    (same : written fs = written gs) : fs = gs := by
  induction fs generalizing gs with
  | nil =>
    cases gs with
    | nil => rfl
    | cons g gs => simp [chars_ne_nil] at same
  | cons f fs ih =>
    cases gs with
    | nil => simp [chars_ne_nil] at same
    | cons g gs =>
      have whole : f.chars ++ (written fs ++ after) = g.chars ++ (written gs ++ after) := by
        simpa using congrArg (· ++ after) same
      obtain rfl := unique fill.1 fill'.1 whole
      rw [ih fill.2 fill'.2 (by simpa using same)]

end Filler

namespace Lexer

theorem run_stop (p : Char → Bool) (cs : List Char) : ∀ c ∈ (cs.drop (Number.run p cs)).head?, p c = false := by
  induction cs with
  | nil => simp [Number.run]
  | cons c cs ih =>
    rw [Number.run]
    split
    · simpa using ih
    · rename_i other
      simpa using other

theorem blockComment_closed {read more : Nat} {cs : List Char}
    (closed : blockComment read cs = .comment more) :
    ∃ body after, cs = body ++ '*' :: '/' :: after ∧ more = read + body.length + 1 ∧
      ¬ ['*', '/'] <:+: body ++ ['*'] := by
  fun_induction blockComment read cs with
  | case1 read after =>
    cases closed
    exact ⟨[], after, rfl, by simp, by decide⟩
  | case2 read => cases closed
  | case3 read c cs other ih =>
    obtain ⟨body, after, rfl, rfl, once⟩ := ih closed
    refine ⟨c :: body, after, rfl, by simp; omega, ?_⟩
    rw [List.cons_append, List.infix_cons_iff, not_or]
    refine ⟨?_, once⟩
    intro opened
    obtain ⟨star, opened⟩ := List.cons_prefix_cons.mp opened
    cases body with
    | nil => simp at opened
    | cons d body =>
      obtain ⟨slash, -⟩ := List.cons_prefix_cons.mp opened
      exact other _ star.symm (by rw [← slash]; rfl)

/-- How many characters after the first one are passed over, if this is no token. -/
def passed? : Lexeme → Option Nat
  | .blank => some 0
  | .comment more => some more
  | .token _ _ | .unknown _ => none

theorem word_kept (cs : List Char) : passed? (word cs) = none := by
  unfold word
  grind [passed?]

theorem quoted_kept (kind : TokenKind) (quote : Char) (read : Nat) (cs : List Char) :
    passed? (quoted kind quote read cs) = none := by
  fun_induction quoted kind quote read cs with grind [passed?]

theorem textBlock_kept (read : Nat) (cs : List Char) : passed? (textBlock read cs) = none := by
  fun_induction textBlock read cs with grind [passed?]

theorem blockComment_ne_blank (read : Nat) (cs : List Char) : blockComment read cs ≠ .blank := by
  fun_induction blockComment read cs with grind

theorem lineComment_filler (rest : List Char) : ∃ f : Filler,
    f.chars = '/' :: ('/' :: rest).take (Number.run (· != '\n') rest + 1) ∧
      f.Stands (('/' :: rest).drop (Number.run (· != '\n') rest + 1)) := by
  refine ⟨.lineComment (rest.take (Number.run (· != '\n') rest)), by simp [Filler.chars], ?_, ?_⟩
  · intro within
    have := List.all_eq_true.mp (take_run (· != '\n') rest) _ within
    simp at this
  · simpa using run_stop (· != '\n') rest

theorem blockComment_filler {rest : List Char} {more : Nat} (passed : passed? (blockComment 2 rest) = some more) :
    ∃ f : Filler, f.chars = '/' :: ('*' :: rest).take more ∧ f.Stands (('*' :: rest).drop more) := by
  cases read : blockComment 2 rest with
  | comment n =>
    rw [read] at passed
    cases passed
    obtain ⟨body, after, rfl, rfl, once⟩ := blockComment_closed read
    have past : 2 + body.length = body.length + 2 := Nat.add_comm ..
    refine ⟨.blockComment body, ?_, once⟩
    simp [Filler.chars, past, List.take_append]
  | blank => exact absurd read (blockComment_ne_blank _ _)
  | token | unknown => simp [read, passed?] at passed

/-- What is passed over is a blank or a comment. -/
theorem lexeme_filler {c : Char} {cs : List Char} {more : Nat} (passed : passed? (lexeme c cs) = some more) :
    ∃ f : Filler, f.chars = c :: cs.take more ∧ f.Stands (cs.drop more) := by
  unfold lexeme at passed
  split at passed
  · rename_i gap
    cases passed
    refine ⟨.blank c, by simp [Filler.chars], ?_⟩
    simpa [isGap, Filler.Stands, or_assoc] using gap
  · split at passed
    · simp [word_kept] at passed
    · split at passed
      · cases passed
      · split at passed
        · cases passed
          exact lineComment_filler _
        · exact blockComment_filler passed
        · simp [textBlock_kept] at passed
        · simp [quoted_kept] at passed
        · simp [quoted_kept] at passed
        · split at passed <;> cases passed

end Lexer

/-- Tokens and fillers make up the characters from an offset on, after a documentation comment that is still to be
carried. -/
inductive Tiled : Nat → Option Comment → List Char → List Token → Prop
  | done {offset doc fs} : Filler.Fill [] fs → Tiled offset doc (Filler.written fs) []
  | token {offset doc fs letters rest t ts} : Filler.Fill (letters ++ rest) fs → t.text = String.ofList letters →
      t.range.start = offset + bytesOf (Filler.written fs) → t.range.stop = t.range.start + bytesOf letters →
      t.doc = (Filler.lastDoc? offset fs).or doc → Tiled t.range.stop none rest ts →
      Tiled offset doc (Filler.written fs ++ (letters ++ rest)) (t :: ts)

namespace Tiled

open Filler (Fill written)

theorem filler {offset : Nat} {doc : Option Comment} {cs : List Char} {ts : List Token} {f : Filler}
    (stands : f.Stands cs) (h : Tiled (offset + bytesOf f.chars) ((f.doc? offset).or doc) cs ts) :
    Tiled offset doc (f.chars ++ cs) ts := by
  cases h with
  | @done _ _ fs fills =>
    have all : Fill [] (f :: fs) := ⟨by simpa using stands, fills⟩
    simpa using done all
  | @token _ _ fs letters rest t ts fills spelled start stop carried later =>
    have all : Fill (letters ++ rest) (f :: fs) := ⟨stands, fills⟩
    have tile : Tiled offset doc (written (f :: fs) ++ (letters ++ rest)) (t :: ts) :=
      token all spelled (by simp [start, bytesOf_append, Nat.add_assoc]) stop
        (by rw [carried, Filler.lastDoc?, Option.or_assoc]) later
    simpa using tile

theorem of_scan {offset skip : Nat} {doc : Option Comment} {cs : List Char} {ts : List Token}
    (read : Lexer.scan offset doc skip cs = .ok ts) :
    Tiled (offset + bytesOf (cs.take skip)) doc (cs.drop skip) ts := by
  induction cs generalizing offset doc skip ts with
  | nil =>
    cases read
    have nothing : Tiled (offset + bytesOf []) doc (written []) [] := done trivial
    simpa using nothing
  | cons c cs ih =>
    cases skip with
    | succ skip =>
      rw [Lexer.scan] at read
      simpa [bytesOf_cons, Nat.add_assoc] using ih read
    | zero =>
      -- a blank or a comment, then what is left of the text
      have past (more : Nat) (passed : Lexer.passed? (Lexer.lexeme c cs) = some more)
          (left : ∀ f : Filler, f.chars = c :: cs.take more → f.Stands (cs.drop more) →
            Tiled (offset + bytesOf f.chars) ((f.doc? offset).or doc) (cs.drop more) ts) :
          Tiled offset doc (c :: cs) ts := by
        obtain ⟨f, same, stands⟩ := Lexer.lexeme_filler passed
        have all := filler stands (left f same stands)
        rwa [same, List.cons_append, List.take_append_drop] at all
      rw [Lexer.scan] at read
      change Tiled offset doc (c :: cs) ts
      split at read
      · rename_i lexeme
        apply past 0 (by rw [lexeme]; rfl)
        intro f same stands
        have none : f.doc? offset = none := by simp [Filler.doc?, same]
        have left := ih read
        simpa [none, same, bytesOf_cons, bytesOf_nil] using left
      · rename_i more lexeme
        apply past more (by rw [lexeme]; rfl)
        intro f same stands
        have left := ih read
        have carried : (if Lexer.isDoc (c :: cs.take more) then
            some ⟨String.ofList (c :: cs.take more), ⟨offset, offset + c.utf8Size + bytesOf (cs.take more)⟩⟩
            else doc) = (f.doc? offset).or doc := by
          rw [f.doc?_eq offset stands, same, bytesOf_cons, Nat.add_assoc]
          split <;> rfl
        rw [carried] at left
        simpa [same, bytesOf_cons, Nat.add_assoc] using left
      · rename_i kind more lexeme
        split at read
        · rename_i tokens rest
          cases read
          have later := ih rest
          have tile : Tiled offset doc (written [] ++ ((c :: cs.take more) ++ cs.drop more))
              (⟨kind, String.ofList (c :: cs.take more),
                ⟨offset, offset + c.utf8Size + bytesOf (cs.take more)⟩, doc⟩ :: tokens) :=
            token trivial rfl (by simp [bytesOf_nil]) (by simp [bytesOf_cons, Nat.add_assoc])
              (by simp [Filler.lastDoc?]) later
          simpa using tile
        · cases read
      · cases read

end Tiled

/-- The stretches between tokens, from an offset to the end of a text. -/
def Token.gaps (offset size : Nat) : List Token → List Span
  | [] => [⟨offset, size⟩]
  | t :: ts => ⟨offset, t.range.start⟩ :: gaps t.range.stop size ts

/-- The span is made of these fillers. -/
def Span.FilledBy (span : Span) (source : String) (fs : List Filler) : Prop :=
  ∃ pre post, source.toList = pre ++ (Filler.written fs ++ post) ∧ Filler.Fill post fs ∧
    span = ⟨bytesOf pre, bytesOf pre + bytesOf (Filler.written fs)⟩

namespace Span

theorem sliceFrom_begun {start offset : Nat} (begun : start ≤ offset) (letters post : List Char) :
    sliceFrom ⟨start, offset + bytesOf letters⟩ offset (letters ++ post) = letters := by
  induction letters generalizing offset with
  | nil => cases post <;> simp [sliceFrom, bytesOf_nil]
  | cons c letters ih =>
    have size := c.utf8Size_pos
    have rest : sliceFrom ⟨start, offset + c.utf8Size + bytesOf letters⟩ (offset + c.utf8Size) (letters ++ post) =
        letters := ih (by omega)
    rw [Nat.add_assoc] at rest
    rw [List.cons_append, sliceFrom, bytesOf_cons, if_neg (by simp only; omega), if_neg (by simp only; omega), rest]

theorem sliceFrom_after (offset : Nat) (pre letters post : List Char) :
    sliceFrom ⟨offset + bytesOf pre, offset + bytesOf pre + bytesOf letters⟩ offset (pre ++ (letters ++ post)) =
      letters := by
  induction pre generalizing offset with
  | nil => simpa [bytesOf_nil] using sliceFrom_begun (Nat.le_refl offset) letters post
  | cons c pre ih =>
    have size := c.utf8Size_pos
    have rest := ih (offset + c.utf8Size)
    rw [Nat.add_assoc offset] at rest
    rw [List.cons_append, sliceFrom, bytesOf_cons, if_neg (by simp only; omega), if_pos (by simp only; omega), rest]

/-- What a text holds in a span is sliced from it. -/
theorem Holds.slice {span : Span} {source : String} {letters : List Char} (h : span.Holds source letters) :
    span.slice source = String.ofList letters := by
  obtain ⟨pre, post, text, rfl⟩ := h
  have sliced := sliceFrom_after 0 pre letters post
  rw [Span.slice, text]
  simpa using congrArg String.ofList sliced

end Span

/-- Characters take at least a byte, so that bytes cut a text in one place. -/
theorem Span.bytesOf_split {xs xs' ys ys' : List Char} (same : xs ++ ys = xs' ++ ys')
    (size : bytesOf xs = bytesOf xs') : xs = xs' ∧ ys = ys' := by
  have empty (more : List Char) (none : bytesOf more = 0) : more = [] := by
    by_contra some
    exact absurd none (Nat.ne_of_gt (bytesOf_pos some))
  obtain ⟨more, rfl, rfl⟩ | ⟨more, rfl, rfl⟩ := List.append_eq_append_iff.mp same
  · obtain rfl := empty more (by rw [bytesOf_append] at size; omega)
    simp
  · obtain rfl := empty more (by rw [bytesOf_append] at size; omega)
    simp

theorem Span.FilledBy.unique {span : Span} {source : String} {fs gs : List Filler}
    (first : span.FilledBy source fs) (second : span.FilledBy source gs) : fs = gs := by
  obtain ⟨pre, post, text, fill, rfl⟩ := first
  obtain ⟨pre', post', text', fill', size⟩ := second
  obtain ⟨start, stop⟩ := Span.mk.inj size
  rw [text] at text'
  obtain ⟨rfl, rest⟩ := bytesOf_split text' start
  obtain ⟨same, rfl⟩ := bytesOf_split rest (by omega)
  exact Filler.written_unique fill fill' same

namespace Tiled

open Token (gaps)

theorem gaps_filled {source : String} {offset : Nat} {doc : Option Comment} {pre cs : List Char} {ts : List Token}
    (h : Tiled offset doc cs ts) (text : source.toList = pre ++ cs) (here : offset = bytesOf pre) :
    ∀ gap ∈ gaps offset source.utf8ByteSize ts, ∃ fs, gap.FilledBy source fs := by
  induction h generalizing pre with
  | @done offset doc fs fills =>
    subst here
    have size : source.utf8ByteSize = bytesOf pre + bytesOf (Filler.written fs) := by
      rw [← Span.bytesOf_toList, text, bytesOf_append]
    simp only [gaps, List.mem_singleton, forall_eq]
    exact ⟨fs, pre, [], by simpa using text, fills, by rw [size]⟩
  | @token offset doc fs letters rest t ts fills spelled start stop carried later ih =>
    subst here
    intro gap mem
    rcases List.mem_cons.mp mem with rfl | mem
    · exact ⟨fs, pre, letters ++ rest, text, fills, by rw [start]⟩
    · have text : source.toList = (pre ++ (Filler.written fs ++ letters)) ++ rest := by simpa using text
      apply ih text _ gap mem
      simp only [bytesOf_append]
      omega

theorem docs_carried {source : String} {offset : Nat} {doc : Option Comment} {pre cs : List Char} {ts : List Token}
    (h : Tiled offset doc cs ts) (fresh : doc = none) (text : source.toList = pre ++ cs)
    (here : offset = bytesOf pre) :
    ∀ p ∈ ts.zip (gaps offset source.utf8ByteSize ts), ∃ fs, p.2.FilledBy source fs ∧
      p.1.doc = Filler.lastDoc? p.2.start fs := by
  induction h generalizing pre with
  | done => simp
  | @token offset doc fs letters rest t ts fills spelled start stop carried later ih =>
    subst here fresh
    intro p mem
    rcases List.mem_cons.mp mem with rfl | mem
    · exact ⟨fs, ⟨pre, letters ++ rest, text, fills, by rw [start]⟩, by simpa using carried⟩
    · have text : source.toList = (pre ++ (Filler.written fs ++ letters)) ++ rest := by simpa using text
      apply ih rfl text _ p mem
      simp only [bytesOf_append]
      omega

end Tiled

/-- Tokens tile a text. -/
structure Tiling (source : String) (tokens : List Token) : Prop where
  nonempty : ∀ t ∈ tokens, t.range.start < t.range.stop
  spelled : ∀ t ∈ tokens, t.range.Holds source t.text.toList
  ordered : tokens.Pairwise fun t u => t.range.stop ≤ u.range.start
  filled : ∀ gap ∈ Token.gaps 0 source.utf8ByteSize tokens, ∃ fs, gap.FilledBy source fs
  documented : ∀ p ∈ tokens.zip (Token.gaps 0 source.utf8ByteSize tokens), ∀ fs, p.2.FilledBy source fs →
    p.1.doc = Filler.lastDoc? p.2.start fs

/-- Blanks and comments stand between the tokens of a text and nothing else, and the last documentation comment in
front of a token is the one it carries. -/
theorem tokenize_tiling {source : String} {tokens : List Token} (read : tokenize source = .ok tokens) :
    Tiling source tokens := by
  have tiled : Tiled 0 none source.toList tokens := by simpa [bytesOf_nil] using Tiled.of_scan read
  have whole : source.toList = [] ++ source.toList := rfl
  refine ⟨?_, ?_, tokenize_pairwise read, tiled.gaps_filled whole rfl, ?_⟩
  · intro t mem
    obtain ⟨pre, letters, post, -, some, -, range, -⟩ := (tokenize_spread read).spelled mem
    have := bytesOf_pos some
    rw [range]
    simp only
    omega
  · intro t mem
    obtain ⟨pre, letters, post, split, -, text, range, -⟩ := (tokenize_spread read).spelled mem
    exact ⟨pre, post, by simpa [text] using split, by simpa [text] using range⟩
  · intro p mem fs filled
    obtain ⟨gs, filled', carried⟩ := tiled.docs_carried rfl whole rfl p mem
    rw [carried, filled.unique filled']

/-- Of two comments in front of a token, the one that documents it is carried. -/
theorem tokenize_tiling_commented :
    let source := "// A line.\n/* A block. */ /** Documents it. */ /**/ class A \x7b\x7d"
    let tokens := (tokenize source).toOption.getD []
    tokenize source = .ok tokens ∧ Tiling source tokens := by
  intro source tokens
  have read : tokenize source = .ok tokens := by decide +kernel
  exact ⟨read, tokenize_tiling read⟩

end JavaIndex
