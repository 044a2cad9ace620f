import JavaIndex.Proofs.Token.Spread
import Mathlib.Data.Bool.AllAny

/-! The words and signs of a text, wherever they stand. A text that is put together from words and from the signs
that types are written with is read as those words and signs. -/
namespace JavaIndex

open Span (bytesOf bytesOf_cons)

/-- A word or a sign, wherever it stands. -/
abbrev Token.Word := TokenKind × String

/-- What a token says. -/
def Token.word (t : Token) : Word := (t.kind, t.text)

/-- The word is the keyword or sign of this spelling. -/
def Token.Word.spells (w : Token.Word) (text : String) : Bool :=
  match w.1 with
  | .keyword | .sign => w.2 == text
  | _ => false

namespace Lexer

/-- The word can name something: it is an identifier, and no keyword. -/
def IsName (word : String) : Prop := Identifier.isIdentifier word = true ∧ word ∉ Token.keywords

theorem scan_names {offset skip : Nat} {doc : Option Comment} {cs : List Char} {ts : List Token}
    (read : scan offset doc skip cs = .ok ts) : ∀ t ∈ ts, t.kind = .identifier → IsName t.text := by
  induction cs generalizing offset doc skip ts with
  | nil =>
    cases read
    exact nofun
  | cons c cs ih =>
    cases skip with
    | succ skip => exact ih read
    | zero =>
      rw [scan] at read
      split at read
      · exact ih read
      · exact ih read
      · rename_i kind more lexeme
        split at read
        · rename_i tokens rest
          cases read
          refine List.forall_mem_cons.mpr ⟨?_, ih rest⟩
          rintro rfl
          obtain ⟨-, -, spelled, free⟩ := identifier_letters lexeme
          exact ⟨by simpa [Identifier.isIdentifier] using spelled, free⟩
        · cases read
      · cases read

theorem scan_skip (offset : Nat) (doc : Option Comment) (skip : Nat) (cs : List Char) :
    scan offset doc skip cs = scan (offset + bytesOf (cs.take skip)) doc 0 (cs.drop skip) := by
  induction cs generalizing offset skip with
  | nil => simp [scan]
  | cons c cs ih =>
    cases skip with
    | zero => rfl
    | succ skip =>
      rw [scan, ih, List.take_succ_cons, List.drop_succ_cons, bytesOf_cons, Nat.add_assoc]

/-! What stands in front of a text. -/

theorem opens_of_mayStart {c : Char} (start : Identifier.mayStart c = true) : opensWord c = true := by
  unfold Identifier.mayStart Identifier.isXidStart at start
  unfold opensWord
  grind

theorem extends_of_mayContinue {c : Char} (more : Identifier.mayContinue c = true) : extendsWord c = true := by
  unfold Identifier.mayContinue Identifier.isXidContinue at more
  unfold extendsWord opensWord
  grind

theorem all_extends_of_spelled {letters : List Char} (spelled : Identifier.isSpelledBy letters = true) :
    letters.all extendsWord = true := by
  cases letters with
  | nil => rfl
  | cons c letters =>
    obtain ⟨start, more⟩ := Bool.and_eq_true_iff.mp spelled
    rw [List.all_eq_true] at more ⊢
    refine List.forall_mem_cons.mpr ⟨?_, fun d hd => extends_of_mayContinue (more d hd)⟩
    rw [extendsWord, opens_of_mayStart start, Bool.true_or]

theorem not_gap_of_opens {c : Char} (opens : opensWord c = true) : isGap c = false := by
  by_contra gap
  have blank : isGap c = true := by simpa using gap
  simp only [isGap, Bool.or_eq_true, beq_iff_eq] at blank
  rcases blank with (((rfl | rfl) | rfl) | rfl) | rfl <;> exact absurd opens (by decide)

theorem run_append {p : Char → Bool} {letters rest : List Char} (inside : letters.all p = true)
    (stop : ∀ d ∈ rest.head?, p d = false) : Number.run p (letters ++ rest) = letters.length := by
  induction letters with
  | nil =>
    cases rest with
    | nil => rfl
    | cons d rest => simp [Number.run, stop d rfl]
  | cons c letters ih =>
    obtain ⟨here, inside⟩ := Bool.and_eq_true_iff.mp inside
    simp [Number.run, here, ih inside]

/-- No word goes on here. -/
def Stops (cs : List Char) : Prop := ∀ d ∈ cs.head?, extendsWord d = false

theorem Stops.cons {c : Char} (other : extendsWord c = false) (cs : List Char) : Stops (c :: cs) := by
  simpa [Stops] using other

theorem Stops.append {cs rest : List Char} (h : Stops cs) (h' : Stops rest) : Stops (cs ++ rest) := by
  cases cs with
  | nil => exact h'
  | cons c cs => exact h

/-- The kind of a word. -/
def wordKind (word : String) : TokenKind := if word ∈ Token.keywords then .keyword else .identifier

theorem lexeme_word {c : Char} {letters rest : List Char}
    (spelled : Identifier.isSpelledBy (c :: letters) = true) (stop : Stops rest) :
    lexeme c (letters ++ rest) = .token (wordKind (String.ofList (c :: letters))) letters.length := by
  have opens := opens_of_mayStart (Bool.and_eq_true_iff.mp spelled).1
  have inside : letters.all extendsWord = true := (Bool.and_eq_true_iff.mp (all_extends_of_spelled spelled)).2
  have taken : (letters ++ rest).take (Number.run extendsWord (letters ++ rest)) = letters := by
    rw [run_append inside stop, List.take_left]
  unfold lexeme wordKind
  rw [if_neg (by simp [not_gap_of_opens opens]), if_pos opens, word_cons opens taken, if_pos spelled]
  simp only [List.contains_iff_mem]
  split <;> rfl

/-- The signs that types are written with. -/
def typeSigns : List Char := ['<', '>', ',', '.', '[', ']', '?']

/-- What may follow a dot or an opening bracket in a type: a word, a wildcard or nothing at all. -/
def opensType (c : Char) : Bool := opensWord c || c == '?' || c == '>'

theorem not_digit_of_opensType {c : Char} (opens : opensType c = true) : Identifier.isDigit c = false := by
  by_contra digit
  have digit : Identifier.isDigit c = true := by simpa using digit
  simp only [opensType, opensWord, Identifier.isLetter, Identifier.isWide, Identifier.isDigit, Bool.or_eq_true,
    Bool.and_eq_true, decide_eq_true_eq, beq_iff_eq, Char.le_def, UInt32.le_iff_toNat_le, Char.reduceVal,
    UInt32.reduceToNat, Char.toNat] at opens digit
  rcases opens with ((((letters | rfl) | rfl) | wide) | rfl) | rfl
  · omega
  · exact absurd digit (by decide)
  · exact absurd digit (by decide)
  · omega
  · exact absurd digit (by decide)
  · exact absurd digit (by decide)

theorem sign?_typeSign {c : Char} {rest : List Char} (sign : c ∈ typeSigns) (plain : '=' ∉ rest)
    (opens : c = '<' ∨ c = '.' → ∀ d ∈ rest.head?, opensType d = true) : sign? (c :: rest) = some 1 := by
  have known : ∀ c ∈ typeSigns, String.singleton c ∈ Token.signs := List.all_iff_forall_prop.mp (by decide)
  have longer : ∀ c ∈ typeSigns, ∀ s ∈ Token.signs, s.toList.head? = some c → s.length ≤ 1 ∨
      '=' ∈ s.toList.tail ∨ s.toList.tail.head? = some c ∧ (c = '<' ∨ c = '.') := List.all_iff_forall_prop.mp (by decide)
  refine List.max?_eq_some_iff.mpr ⟨?_, ?_⟩
  · refine List.mem_map.mpr ⟨String.singleton c, List.mem_filter.mpr ⟨known c sign, ?_⟩, by simp⟩
    simp
  · intro n mem
    obtain ⟨s, fits, rfl⟩ := List.mem_map.mp mem
    obtain ⟨listed, fits⟩ := List.mem_filter.mp fits
    obtain ⟨after, same⟩ := List.isPrefixOf_iff_prefix.mp fits
    cases letters : s.toList with
    | nil => simp [← String.length_toList, letters]
    | cons d tail =>
      rw [letters, List.cons_append] at same
      obtain ⟨rfl, rfl⟩ := List.cons.inj same
      rcases longer d sign s listed (by rw [letters]; rfl) with short | equals | ⟨twice, double⟩
      · exact short
      · rw [letters, List.tail_cons] at equals
        exact absurd (List.mem_append_left _ equals) plain
      · rw [letters, List.tail_cons] at twice
        have next : opensType d = true := opens double d (by simp [twice])
        rcases double with rfl | rfl <;> exact absurd next (by decide)

theorem length?_sign {c : Char} {rest : List Char} (digit : Identifier.isDigit c = false)
    (point : c = '.' → Number.digits rest = none) : Number.length? (c :: rest) = none := by
  have zero : c ≠ '0' := by
    rintro rfl
    cases digit
  have whole : Number.digits (c :: rest) = none := by simp [Number.digits, digit]
  have radix (isMark isPart : Char → Bool) : Number.radix isMark isPart (c :: rest) = none := by
    simp [Number.radix, zero]
  have fraction : Number.fraction (c :: rest) = none := by
    by_cases dot : c = '.'
    · subst dot
      simp [Number.fraction, point rfl]
    · simp [Number.fraction, dot]
  simp [Number.length?, Number.whole, Number.scientific, Number.decimal, whole, radix, fraction]

theorem lexeme_sign {c : Char} {rest : List Char} (sign : c ∈ typeSigns) (plain : '=' ∉ rest)
    (opens : c = '<' ∨ c = '.' → ∀ d ∈ rest.head?, opensType d = true) : lexeme c rest = .token .sign 0 := by
  have other : ∀ c ∈ typeSigns, isGap c = false ∧ opensWord c = false ∧ Identifier.isDigit c = false ∧
      c ≠ '/' ∧ c ≠ '"' ∧ c ≠ '\'' := List.all_iff_forall_prop.mp (by decide)
  obtain ⟨gap, word, digit, slash, quote, apostrophe⟩ := other c sign
  have number : Number.length? (c :: rest) = none := by
    refine length?_sign digit ?_
    rintro rfl
    cases rest with
    | nil => rfl
    | cons d rest =>
      have next := opens (.inr rfl) d rfl
      simp [Number.digits, not_digit_of_opensType next]
  have found := sign?_typeSign sign plain opens
  simp [lexeme, gap, word, number, slash, quote, found]

/-- The characters are read as these words and signs, wherever they stand. No sign is longer than one character
where no equals sign follows it. -/
structure Lexes (cs : List Char) (ws : List Token.Word) : Prop where
  plain : '=' ∉ cs
  scans : ∀ offset doc, ∃ ts, scan offset doc 0 cs = .ok ts ∧ ts.map Token.word = ws

namespace Lexes

variable {rest : List Char} {ws : List Token.Word}

theorem nil : Lexes [] [] := ⟨nofun, fun _ _ => ⟨[], rfl, rfl⟩⟩

theorem blank (h : Lexes rest ws) : Lexes (' ' :: rest) ws where
  plain := by simpa using h.plain
  scans offset doc := h.scans _ doc

theorem token {c : Char} {letters : List Char} {kind : TokenKind}
    (read : lexeme c (letters ++ rest) = .token kind letters.length) (free : '=' ∉ c :: letters) (h : Lexes rest ws) :
    Lexes (c :: (letters ++ rest)) ((kind, String.ofList (c :: letters)) :: ws) where
  plain := by
    rw [← List.cons_append, List.mem_append, not_or]
    exact ⟨free, h.plain⟩
  scans offset doc := by
    obtain ⟨ts, scanned, words⟩ := h.scans (offset + c.utf8Size + bytesOf letters) none
    have later : scan (offset + c.utf8Size) none letters.length (letters ++ rest) = .ok ts := by
      rw [scan_skip, List.take_left, List.drop_left]
      exact scanned
    simp [scan, read, later, Token.word, ← words]

theorem word {word : String} (spelled : Identifier.isIdentifier word = true) (stop : Stops rest) (h : Lexes rest ws) :
    Lexes (word.toList ++ rest) ((wordKind word, word) :: ws) := by
  unfold Identifier.isIdentifier at spelled
  cases letters : word.toList with
  | nil =>
    rw [letters] at spelled
    cases spelled
  | cons c letters' =>
    rw [letters] at spelled
    have same : String.ofList (c :: letters') = word := by rw [← letters, String.ofList_toList]
    have free : '=' ∉ c :: letters' := not_mem_of_extendsWord (all_extends_of_spelled spelled) rfl
    have read := h.token (lexeme_word spelled stop) free
    rwa [same] at read

theorem sign {c : Char} (listed : c ∈ typeSigns) (opens : c = '<' ∨ c = '.' → ∀ d ∈ rest.head?, opensType d = true)
    (h : Lexes rest ws) : Lexes (c :: rest) ((.sign, String.singleton c) :: ws) := by
  have free : ∀ c ∈ typeSigns, '=' ∉ [c] := List.all_iff_forall_prop.mp (by decide)
  have read : lexeme c ([] ++ rest) = .token .sign ([] : List Char).length := lexeme_sign listed h.plain opens
  exact h.token read (free c listed)

end Lexes

/-- A type can go on here after a dot or an opening bracket. -/
def Opens (cs : List Char) : Prop := ∃ d ∈ cs.head?, opensType d = true

theorem Opens.append {cs : List Char} (h : Opens cs) (rest : List Char) : Opens (cs ++ rest) := by
  obtain ⟨d, here, opens⟩ := h
  exact ⟨d, by rw [List.head?_append, Option.mem_def.mp here]; rfl, opens⟩

theorem IsName.opens {name : String} (isName : IsName name) : Opens name.toList := by
  have spelled := isName.1
  unfold Identifier.isIdentifier at spelled
  cases letters : name.toList with
  | nil =>
    rw [letters] at spelled
    cases spelled
  | cons c cs =>
    rw [letters] at spelled
    exact ⟨c, rfl, by simp [opensType, opens_of_mayStart (Bool.and_eq_true_iff.mp spelled).1]⟩

/-- The characters are read as these words and signs, whatever follows that is not part of a word. -/
def Reads (cs : List Char) (ws : List Token.Word) : Prop :=
  ∀ rest more, Stops rest → Lexes rest more → Lexes (cs ++ rest) (ws ++ more)

namespace Reads

variable {cs cs' : List Char} {ws ws' : List Token.Word}

theorem nil : Reads [] [] := fun _ _ _ h => h

/-- A name is read as itself. -/
theorem name {name : String} (isName : IsName name) : Reads name.toList [(.identifier, name)] := by
  intro rest more stop h
  have read := h.word isName.1 stop
  rwa [wordKind, if_neg isName.2] at read

/-- A keyword is read as itself. -/
theorem keyword {keyword : String} (listed : keyword ∈ Token.keywords) :
    Reads keyword.toList [(.keyword, keyword)] := by
  intro rest more stop h
  have spelled : ∀ w ∈ Token.keywords, Identifier.isIdentifier w = true := by decide
  have read := h.word (spelled keyword listed) stop
  rwa [wordKind, if_pos listed] at read

theorem blank (h : Reads cs ws) : Reads (' ' :: cs) ws :=
  fun rest more stop after => (h rest more stop after).blank

/-- A dot or an opening bracket is read as itself where a type goes on. -/
theorem opening {c : Char} (listed : c ∈ ['<', '.']) (opens : Opens cs) (h : Reads cs ws) :
    Reads (c :: cs) ((.sign, String.singleton c) :: ws) := by
  have known : ∀ c ∈ ['<', '.'], c ∈ typeSigns := List.all_iff_forall_prop.mp (by decide)
  intro rest more stop after
  refine (h rest more stop after).sign (known c listed) fun _ d next => ?_
  obtain ⟨e, here, opens⟩ := opens.append rest
  rwa [← Option.mem_unique here next]

/-- Any other sign is read as itself. -/
theorem sign {c : Char} (listed : c ∈ ['>', ',', '[', ']', '?']) (h : Reads cs ws) :
    Reads (c :: cs) ((.sign, String.singleton c) :: ws) := by
  have known : ∀ c ∈ ['>', ',', '[', ']', '?'], c ∈ typeSigns ∧ ¬ (c = '<' ∨ c = '.') := List.all_iff_forall_prop.mp (by decide)
  obtain ⟨sign, other⟩ := known c listed
  intro rest more stop after
  exact (h rest more stop after).sign sign fun double => absurd double other

theorem append (first : Reads cs ws) (stop : Stops cs') (second : Reads cs' ws') : Reads (cs ++ cs') (ws ++ ws') := by
  intro rest more last after
  rw [List.append_assoc, List.append_assoc]
  exact first _ _ (stop.append last) (second rest more last after)

theorem flatMap {α : Type} {xs : List α} {f : α → List Char} {g : α → List Token.Word}
    (stop : ∀ x ∈ xs, Stops (f x)) (each : ∀ x ∈ xs, Reads (f x) (g x)) :
    Stops (xs.flatMap f) ∧ Reads (xs.flatMap f) (xs.flatMap g) := by
  induction xs with
  | nil => exact ⟨nofun, nil⟩
  | cons x xs ih =>
    obtain ⟨here, stop⟩ := List.forall_mem_cons.mp stop
    obtain ⟨first, each⟩ := List.forall_mem_cons.mp each
    obtain ⟨stops, reads⟩ := ih stop each
    exact ⟨here.append stops, first.append stops reads⟩

end Reads
end Lexer

/-- The identifiers of a text are names. -/
theorem tokenize_names {source : String} {tokens : List Token} (read : tokenize source = .ok tokens) :
    ∀ t ∈ tokens, t.kind = .identifier → Lexer.IsName t.text :=
  Lexer.scan_names read

/-- A text is made of the words and signs it is read as. -/
theorem tokenize_reads {text : String} {ws : List Token.Word} (reads : Lexer.Reads text.toList ws) :
    ∃ tokens, tokenize text = .ok tokens ∧ tokens.map Token.word = ws := by
  have lexes := (reads [] [] nofun .nil).scans 0 none
  rwa [List.append_nil, List.append_nil] at lexes

end JavaIndex
