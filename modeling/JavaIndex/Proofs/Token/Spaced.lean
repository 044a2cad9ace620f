import JavaIndex.Proofs.Token.Numbers
import JavaIndex.Proofs.Token.Words

/-! Tokens end by themselves. Each is the longest match in front of its text, no token but a literal holds a space, and
a literal shows where it ends. So a token is read again from its own characters wherever a space or nothing follows
them, and tokens that are written with single spaces between them are the tokens that are read. -/
namespace JavaIndex

open Span (bytesOf)

/-- A space is next, or nothing. -/
def Parted (rest : List Char) : Prop := ∀ c ∈ rest.head?, c = ' '

theorem Parted.nothing : Parted [] := by simp [Parted]

theorem Parted.space (rest : List Char) : Parted (' ' :: rest) := by simp [Parted]

theorem prefix_of_parted (letters : List Char) {w rest : List Char} (parted : Parted rest) (free : ' ' ∉ w)
    (before : w <+: letters ++ rest) : w <+: letters := by
  rcases List.prefix_or_prefix_of_prefix before (List.prefix_append letters rest) with short | ⟨more, rfl⟩
  · exact short
  · have inside : more <+: rest := (List.prefix_append_right_inj letters).mp before
    cases more with
    | nil => simp
    | cons c more =>
      obtain ⟨after, rfl⟩ := inside
      exact absurd (parted c rfl) fun same => free (by simp [same])

/-- What is measured in a language without spaces is measured alike in front of a space. -/
theorem Measures.parted {f : List Char → Option Nat} {L : Language Char} (h : Measures f L)
    (free : ∀ w ∈ L, ' ' ∉ w) (letters : List Char) {after rest : List Char} (parted : Parted rest)
    (within : ∀ n ∈ f (letters ++ after), n ≤ letters.length) : f (letters ++ rest) = f (letters ++ after) := by
  have back : ∀ n, f (letters ++ after) = some n → ∃ m, f (letters ++ rest) = some m ∧ n ≤ m := by
    intro n here
    obtain ⟨w, hw, before, rfl⟩ := h.found here
    have inside := List.prefix_of_prefix_length_le before (List.prefix_append letters after) (within _ here)
    exact h.most hw (inside.trans (List.prefix_append letters rest))
  have forth : ∀ m, f (letters ++ rest) = some m → ∃ n, f (letters ++ after) = some n ∧ m ≤ n := by
    intro m there
    obtain ⟨w, hw, before, rfl⟩ := h.found there
    exact h.most hw ((prefix_of_parted letters parted (free w hw) before).trans (List.prefix_append letters after))
  cases here : f (letters ++ after) with
  | none =>
    cases there : f (letters ++ rest) with
    | none => rfl
    | some m =>
      obtain ⟨n, found, -⟩ := forth m there
      cases here.symm.trans found
  | some n =>
    obtain ⟨m, there, less⟩ := back n here
    obtain ⟨n', found, more⟩ := forth m there
    obtain rfl := Option.some.inj (here.symm.trans found)
    rw [there, Nat.le_antisymm more less]

/-- What is measured in front of a text is measured again where its characters are parted from what follows. -/
theorem Measures.letters {f : List Char → Option Nat} {L : Language Char} (h : Measures f L)
    (free : ∀ w ∈ L, ' ' ∉ w) {c : Char} {cs : List Char} {n : Nat} (found : f (c :: cs) = some n) :
    ∃ letters after, cs = letters ++ after ∧ letters.length = n - 1 ∧
      ∀ rest, Parted rest → f (c :: (letters ++ rest)) = some n := by
  obtain ⟨w, -, before, rfl⟩ := h.found found
  have split := (List.take_append_drop (w.length - 1) cs).symm
  have size : (cs.take (w.length - 1)).length = w.length - 1 := by
    have := before.length_le
    rw [List.length_take, List.length_cons] at *
    omega
  refine ⟨_, _, split, size, fun rest parted => ?_⟩
  rw [split] at found
  rw [← found]
  refine h.parted free (c :: cs.take (w.length - 1)) parted ?_
  rintro n here
  obtain rfl := Option.some.inj (found.symm.trans here)
  rw [List.length_cons, size]
  omega

namespace Lexer

/-- The signs. -/
def signWords : Language Char := {w | String.ofList w ∈ Token.signs}

/-- The longest sign in front of a text is measured. -/
theorem measures_sign : Measures sign? signWords where
  found {cs n} same := by
    obtain ⟨mem, -⟩ := List.max?_eq_some_iff.mp same
    obtain ⟨s, fits, rfl⟩ := List.mem_map.mp mem
    obtain ⟨listed, before⟩ := List.mem_filter.mp fits
    have word : String.ofList s.toList ∈ Token.signs := by rwa [String.ofList_toList]
    exact ⟨s.toList, word, List.isPrefixOf_iff_prefix.mp before, String.length_toList⟩
  most {cs w} mem before := by
    have fits : (String.ofList w).length ∈
        (Token.signs.filter fun s => s.toList.isPrefixOf cs).map (·.length) := by
      refine List.mem_map_of_mem (List.mem_filter.mpr ⟨mem, ?_⟩)
      simpa using before
    cases longest : sign? cs with
    | none =>
      rw [List.max?_eq_none_iff.mp longest] at fits
      cases fits
    | some n => exact ⟨n, rfl, by simpa using (List.max?_eq_some_iff.mp longest).2 _ fits⟩

theorem signWords_free : ∀ w ∈ signWords, ' ' ∉ w := by
  have free : ∀ s ∈ Token.signs, ' ' ∉ s.toList := List.all_iff_forall_prop.mp (by decide)
  intro w mem
  simpa using free _ mem

end Lexer

namespace Number

theorem numberWords_free : ∀ w ∈ numberWords, ' ' ∉ w := by
  have other {p : Char → Bool} (no : p ' ' = false) (c : Char) (isP : p c = true) : (c != ' ') = true := by
    rw [bne_iff_ne]
    rintro rfl
    rw [no] at isP
    cases isP
  have digits : Over (· != ' ') digitWords := .mul (.one (other rfl)) (.many (other rfl))
  have radix {isMark isPart : Char → Bool} (mark : isMark ' ' = false) (part : isPart ' ' = false) :
      Over (· != ' ') (radixWords isMark isPart) :=
    .mul (.one (other rfl)) (.mul (.one (other mark))
      (.mul (.mul (.one (other part)) (.many (other part))) (Over.one (other rfl)).perhaps))
  have exponent : Over (· != ' ') exponentWords :=
    .mul (.one (other rfl)) (.mul (Over.one (other rfl)).perhaps (.mul (.one (other rfl)) (.many (other rfl))))
  have suffix : Over (· != ' ') (perhaps (one isFloatMark)) := (Over.one (other rfl)).perhaps
  have fraction : Over (· != ' ') fractionWords :=
    .mul (.one (other rfl)) (.mul digits (.mul exponent.perhaps suffix))
  have made : Over (· != ' ') numberWords :=
    .add (.add (.add (.add (.add (.add .nothing (radix rfl rfl)) (radix rfl rfl))
      (.mul digits (Over.one (other rfl)).perhaps)) (.mul digits (.mul exponent suffix))) (.mul digits fraction)) fraction
  intro w mem inside
  simpa using made w mem _ inside

end Number

namespace Lexer

/-- A character that is neither a backslash at the end nor one before another character is no backslash. -/
theorem unescaped {c : Char} {cs : List Char} (last : c = '\\' → cs = [] → False)
    (other : ∀ d ds, c = '\\' → cs = d :: ds → False) : c ≠ '\\' := by
  rintro rfl
  cases cs with
  | nil => exact last rfl rfl
  | cons d ds => exact other d ds rfl rfl

theorem quoted_plain (kind : TokenKind) (quote : Char) (read : Nat) {c : Char} (cs : List Char) (plain : c ≠ '\\') :
    quoted kind quote read (c :: cs) = if c = quote then .token kind read
      else if c = '\n' then .unknown (read - 1) else quoted kind quote (read + 1) cs := by
  rw [quoted] <;> simp [plain]

theorem textBlock_plain (read : Nat) {c : Char} {cs : List Char} (plain : c ≠ '\\')
    (inside : ¬ ['"', '"', '"'] <+: c :: cs) : textBlock read (c :: cs) = textBlock (read + 1) cs := by
  rw [textBlock]
  · rintro tail rfl rfl
    exact inside ⟨tail, rfl⟩
  · simp [plain]
  · simp [plain]

/-- A literal shows where it ends. -/
theorem quoted_letters {kind k : TokenKind} {quote : Char} {read more : Nat} {cs : List Char}
    (closed : quoted kind quote read cs = .token k more) : ∃ letters after, cs = letters ++ after ∧
      more + 1 = read + letters.length ∧ ∀ rest, quoted kind quote read (letters ++ rest) = .token k more := by
  fun_induction quoted kind quote read cs with
  | case1 | case2 | case3 | case6 => cases closed
  | case4 read c cs line ih =>
    obtain ⟨letters, after, rfl, size, again⟩ := ih closed
    exact ⟨'\\' :: c :: letters, after, rfl, by simp; omega, fun rest => by simp [quoted, line, again]⟩
  | case5 read cs last other =>
    cases closed
    exact ⟨[quote], cs, rfl, rfl, fun rest => by simp [quoted_plain _ _ _ _ (unescaped last other)]⟩
  | case7 read c cs last other unquoted line ih =>
    have plain := unescaped last other
    obtain ⟨letters, after, rfl, size, again⟩ := ih closed
    refine ⟨c :: letters, after, rfl, by simp; omega, fun rest => ?_⟩
    rw [List.cons_append, quoted_plain _ _ _ _ plain, if_neg unquoted, if_neg line, again]

/-- A text block shows where it ends. -/
theorem textBlock_letters {k : TokenKind} {read more : Nat} {cs : List Char}
    (closed : textBlock read cs = .token k more) : ∃ letters after, cs = letters ++ after ∧ 3 ≤ letters.length ∧
      more + 1 = read + letters.length ∧ ∀ rest, textBlock read (letters ++ rest) = .token k more := by
  fun_induction textBlock read cs with
  | case1 read after =>
    cases closed
    exact ⟨['"', '"', '"'], after, rfl, Nat.le_refl 3, rfl, fun rest => by simp [textBlock]⟩
  | case2 | case3 => cases closed
  | case4 read c cs ih =>
    obtain ⟨letters, after, rfl, long, size, again⟩ := ih closed
    exact ⟨'\\' :: c :: letters, after, rfl, by simp; omega, by simp; omega, fun rest => by simp [textBlock, again]⟩
  | case5 read c cs inside last other ih =>
    obtain ⟨letters, after, rfl, long, size, again⟩ := ih closed
    refine ⟨c :: letters, after, rfl, by simp; omega, by simp; omega, fun rest => ?_⟩
    rw [List.cons_append, textBlock_plain _ (unescaped last other), again]
    intro quotes
    obtain ⟨rfl, within⟩ := List.cons_prefix_cons.mp quotes
    obtain ⟨more, rfl⟩ := List.prefix_of_prefix_length_le within (List.prefix_append letters rest)
      (Nat.le_of_succ_le long)
    exact inside (more ++ after) rfl rfl

/-- An identifier or a keyword ends where a space follows. -/
theorem word_letters {c : Char} {cs : List Char} {k : TokenKind} {more : Nat} (opens : opensWord c = true)
    (read : word (c :: cs) = .token k more) : ∃ letters after, cs = letters ++ after ∧ letters.length = more ∧
      ∀ rest, Parted rest → word (c :: (letters ++ rest)) = .token k more := by
  let letters := cs.take (Number.run extendsWord cs)
  have run : cs.take (Number.run extendsWord cs) = letters := rfl
  rw [word_cons opens run] at read
  have size : letters.length = more := by
    split at read
    · cases read
      rfl
    · split at read
      · cases read
        rfl
      · cases read
  refine ⟨letters, cs.drop (Number.run extendsWord cs), (List.take_append_drop _ cs).symm, size, fun rest parted => ?_⟩
  have stop : ∀ d ∈ rest.head?, extendsWord d = false := by
    intro d here
    rw [parted d here]
    rfl
  rw [word_cons opens (by rw [run_append (take_run extendsWord cs) stop, List.take_left])]
  exact read

/-! What stands in front of a text, sort by sort. -/

theorem lexeme_opening {c : Char} (cs : List Char) (opens : opensWord c = true) : lexeme c cs = word (c :: cs) := by
  unfold lexeme
  rw [if_neg (by simp [not_gap_of_opens opens]), if_pos opens]

theorem lexeme_number {c : Char} {cs : List Char} {n : Nat} (solid : ¬ isGap c = true) (closed : ¬ opensWord c = true)
    (number : Number.length? (c :: cs) = some n) : lexeme c cs = .token .number (n - 1) := by
  unfold lexeme
  rw [if_neg solid, if_neg closed, number]

theorem lexeme_blockOfText (rest : List Char) : lexeme '"' ('"' :: '"' :: rest) = textBlock 3 rest := by
  have number : Number.length? ('"' :: '"' :: '"' :: rest) = none := length?_sign rfl nofun
  simp [lexeme, isGap, opensWord, Identifier.isLetter, Identifier.isWide, number]

theorem lexeme_string {cs : List Char} (single : ¬ ['"', '"'] <+: cs) : lexeme '"' cs = quoted .string '"' 1 cs := by
  have number : Number.length? ('"' :: cs) = none := length?_sign rfl nofun
  have other : ∀ rest, cs ≠ '"' :: '"' :: rest := fun rest same => single ⟨rest, same.symm⟩
  simp [lexeme, isGap, opensWord, Identifier.isLetter, Identifier.isWide, number]

theorem lexeme_character (cs : List Char) : lexeme '\'' cs = quoted .character '\'' 1 cs := by
  have number : Number.length? ('\'' :: cs) = none := length?_sign rfl nofun
  simp [lexeme, isGap, opensWord, Identifier.isLetter, Identifier.isWide, number]

theorem lexeme_lineComment (rest : List Char) :
    lexeme '/' ('/' :: rest) = .comment (Number.run (· != '\n') rest + 1) := by
  have number : Number.length? ('/' :: '/' :: rest) = none := length?_sign rfl nofun
  simp [lexeme, isGap, opensWord, Identifier.isLetter, Identifier.isWide, number]

theorem lexeme_blockComment (rest : List Char) : lexeme '/' ('*' :: rest) = blockComment 2 rest := by
  have number : Number.length? ('/' :: '*' :: rest) = none := length?_sign rfl nofun
  simp [lexeme, isGap, opensWord, Identifier.isLetter, Identifier.isWide, number]

theorem lexeme_plain {c : Char} {cs : List Char} (solid : ¬ isGap c = true) (closed : ¬ opensWord c = true)
    (number : Number.length? (c :: cs) = none) (string : c ≠ '"') (character : c ≠ '\'')
    (line : ¬ ['/', '/'] <+: c :: cs) (block : ¬ ['/', '*'] <+: c :: cs) :
    lexeme c cs = match sign? (c :: cs) with
      | some n => .token .sign (n - 1)
      | none => .unknown 0 := by
  unfold lexeme
  rw [if_neg solid, if_neg closed, number]
  dsimp only
  split
  · exact absurd ⟨_, rfl⟩ line
  · exact absurd ⟨_, rfl⟩ block
  · exact absurd rfl string
  · exact absurd rfl string
  · exact absurd rfl character
  · rfl

/-- The token that stands in front of a text is read again from its own characters, where a space or nothing follows
them. -/
def Returns (c : Char) (cs : List Char) (k : TokenKind) (more : Nat) : Prop :=
  ∃ letters after, cs = letters ++ after ∧ letters.length = more ∧
    ∀ rest, Parted rest → lexeme c (letters ++ rest) = .token k more

section

variable {c : Char} {cs : List Char} {k : TokenKind} {more : Nat}

theorem returns_word (opens : opensWord c = true) (read : lexeme c cs = .token k more) : Returns c cs k more := by
  rw [lexeme_opening cs opens] at read
  obtain ⟨letters, after, rfl, size, again⟩ := word_letters opens read
  exact ⟨letters, after, rfl, size, fun rest parted => (lexeme_opening _ opens).trans (again rest parted)⟩

theorem returns_number {n : Nat} (solid : ¬ isGap c = true) (closed : ¬ opensWord c = true)
    (number : Number.length? (c :: cs) = some n) (read : lexeme c cs = .token k more) : Returns c cs k more := by
  rw [lexeme_number solid closed number] at read
  cases read
  obtain ⟨letters, after, rfl, size, again⟩ := Number.measures_length.letters Number.numberWords_free number
  exact ⟨letters, after, rfl, size, fun rest parted => lexeme_number solid closed (again rest parted)⟩

/-- A string and a text block end at quotes, and what begins as one of them does not become the other. -/
theorem returns_string (read : lexeme '"' cs = .token k more) : Returns '"' cs k more := by
  by_cases block : ['"', '"'] <+: cs
  · obtain ⟨rest, rfl⟩ := block
    rw [List.cons_append, List.cons_append, List.nil_append, lexeme_blockOfText] at read
    obtain ⟨letters, after, rfl, -, size, again⟩ := textBlock_letters read
    refine ⟨'"' :: '"' :: letters, after, rfl, by simp; omega, fun rest parted => ?_⟩
    exact (lexeme_blockOfText _).trans (again rest)
  · rw [lexeme_string block] at read
    obtain ⟨letters, after, rfl, size, again⟩ := quoted_letters read
    refine ⟨letters, after, rfl, by omega, fun rest parted => (lexeme_string fun double => block ?_).trans (again rest)⟩
    -- quotes in front of a space are quotes of the token
    exact (prefix_of_parted letters parted (by decide) double).trans (List.prefix_append letters after)

theorem returns_character (read : lexeme '\'' cs = .token k more) : Returns '\'' cs k more := by
  rw [lexeme_character] at read
  obtain ⟨letters, after, rfl, size, again⟩ := quoted_letters read
  exact ⟨letters, after, rfl, by omega, fun rest parted => (lexeme_character _).trans (again rest)⟩

/-- What begins no literal, word or comment begins none in front of a space. -/
theorem returns_sign (solid : ¬ isGap c = true) (closed : ¬ opensWord c = true)
    (number : Number.length? (c :: cs) = none) (string : c ≠ '"') (character : c ≠ '\'')
    (read : lexeme c cs = .token k more) : Returns c cs k more := by
  have line : ¬ ['/', '/'] <+: c :: cs := by
    rintro ⟨rest, same⟩
    obtain ⟨rfl, rfl⟩ := List.cons.inj same
    cases (lexeme_lineComment rest).symm.trans read
  have block : ¬ ['/', '*'] <+: c :: cs := by
    rintro ⟨rest, same⟩
    obtain ⟨rfl, rfl⟩ := List.cons.inj same
    exact blockComment_token ((lexeme_blockComment rest).symm.trans read)
  rw [lexeme_plain solid closed number string character line block] at read
  split at read
  · rename_i n sign
    cases read
    obtain ⟨letters, after, rfl, size, again⟩ := measures_sign.letters signWords_free sign
    refine ⟨letters, after, rfl, size, fun rest parted => ?_⟩
    have same : Number.length? (c :: (letters ++ rest)) = Number.length? (c :: (letters ++ after)) :=
      Number.measures_length.parted Number.numberWords_free (c :: letters) parted
        (by rw [List.cons_append, number]; nofun)
    have inside {w : List Char} (free : ' ' ∉ w) (before : w <+: c :: (letters ++ rest)) :
        w <+: c :: (letters ++ after) :=
      (prefix_of_parted (c :: letters) parted free before).trans ⟨after, rfl⟩
    rw [lexeme_plain solid closed (same.trans number) string character
      (fun slashes => line (inside (by decide) slashes)) (fun opened => block (inside (by decide) opened)),
      again rest parted]
  · cases read

/-- A token is read again in front of a space. -/
theorem lexeme_returns (read : lexeme c cs = .token k more) : Returns c cs k more := by
  by_cases solid : isGap c = true
  · unfold lexeme at read
    rw [if_pos solid] at read
    cases read
  by_cases closed : opensWord c = true
  · exact returns_word closed read
  cases number : Number.length? (c :: cs) with
  | some n => exact returns_number solid closed number read
  | none =>
    by_cases string : c = '"'
    · subst string
      exact returns_string read
    by_cases character : c = '\''
    · subst character
      exact returns_character read
    exact returns_sign solid closed number string character read

end

/-- The word is read by itself in front of a space and at the end of a text. -/
def Whole (w : Token.Word) : Prop := ∃ c letters, w.2.toList = c :: letters ∧
  ∀ rest, Parted rest → lexeme c (letters ++ rest) = .token w.1 letters.length

theorem scan_whole {offset skip : Nat} {doc : Option Comment} {cs : List Char} {ts : List Token}
    (read : scan offset doc skip cs = .ok ts) : ∀ t ∈ ts, Whole t.word := by
  induction cs generalizing offset doc skip ts with
  | nil =>
    cases read
    exact nofun
  | cons c cs ih =>
    cases skip with
    | succ skip => exact ih read
    | zero =>
      rw [scan] at read
      split at read
      · exact ih read
      · exact ih read
      · rename_i kind more lexeme
        split at read
        · rename_i tokens rest
          cases read
          refine List.forall_mem_cons.mpr ⟨?_, ih rest⟩
          obtain ⟨letters, after, rfl, rfl, again⟩ := lexeme_returns lexeme
          exact ⟨c, letters, by simp [Token.word], again⟩
        · cases read
      · cases read

/-- The characters are read as these words without any comments. -/
def Says (cs : List Char) (ws : List Token.Word) : Prop :=
  ∀ offset, ∃ ts, scan offset none 0 cs = .ok ts ∧ ts.map Token.word = ws ∧ ∀ t ∈ ts, t.doc = none

theorem Says.nothing : Says [] [] := fun _ => ⟨[], rfl, rfl, nofun⟩

theorem Says.space {cs : List Char} {ws : List Token.Word} (h : Says cs ws) : Says (' ' :: cs) ws := fun _ => h _

theorem Says.token {rest : List Char} {w : Token.Word} {ws : List Token.Word} (h : Says rest ws) (whole : Whole w)
    (parted : Parted rest) : Says (w.2.toList ++ rest) (w :: ws) := by
  obtain ⟨c, letters, spelled, again⟩ := whole
  intro offset
  obtain ⟨ts, scanned, words, bare⟩ := h (offset + c.utf8Size + bytesOf letters)
  have later : scan (offset + c.utf8Size) none letters.length (letters ++ rest) = .ok ts := by
    rw [scan_skip, List.take_left, List.drop_left]
    exact scanned
  have text : w.2 = String.ofList (c :: letters) := by rw [← spelled, String.ofList_toList]
  rw [spelled, List.cons_append]
  refine ⟨_, by simp only [scan, again rest parted, later]; rfl, ?_, ?_⟩
  · simp [Token.word, words, ← text]
  · simpa using bare

/-- Words with single spaces between them are read as themselves. -/
theorem says_spaced {ws : List Token.Word} (whole : ∀ w ∈ ws, Whole w) :
    Says (" ".intercalate (ws.map Prod.snd)).toList ws := by
  induction ws with
  | nil => exact .nothing
  | cons w ws ih =>
    obtain ⟨first, others⟩ := List.forall_mem_cons.mp whole
    cases ws with
    | nil => simpa using Says.nothing.token first .nothing
    | cons v ws =>
      simpa [String.toList_append] using (ih others).space.token first (.space _)

end Lexer

/-- Tokens are told apart by spaces alone: written with single spaces between them they are the tokens that are read,
and none carries a comment. -/
theorem tokenize_spaced {source : String} {tokens : List Token} (read : tokenize source = .ok tokens) :
    ∃ again, tokenize (" ".intercalate (tokens.map Token.text)) = .ok again ∧
      again.map (fun t => (t.kind, t.text)) = tokens.map (fun t => (t.kind, t.text)) ∧ ∀ t ∈ again, t.doc = none := by
  have whole : ∀ w ∈ tokens.map Token.word, Lexer.Whole w := by
    simpa using Lexer.scan_whole read
  obtain ⟨again, scanned, words, bare⟩ := Lexer.says_spaced whole 0
  rw [List.map_map] at scanned
  exact ⟨again, scanned, words, bare⟩

/-- Numbers that are cut off, and literals that hold quotes, spaces and what opens a comment. -/
theorem tokenize_spaced_literals :
    let source := "f(0x,1e+.5f,0b12)/** d */+\"a /* \\\" //\"+'\\''// e\n+\"\"\"\n \"b\" \\\"\"\" /**/\"\"\".g()>>>=1..2"
    let tokens := (tokenize source).toOption.getD []
    tokenize source = .ok tokens ∧ ∃ again, tokenize (" ".intercalate (tokens.map Token.text)) = .ok again ∧
      again.map (fun t => (t.kind, t.text)) = tokens.map (fun t => (t.kind, t.text)) ∧ ∀ t ∈ again, t.doc = none := by
  intro source tokens
  have read : tokenize source = .ok tokens := by decide +kernel
  exact ⟨read, tokenize_spaced read⟩

end JavaIndex
