import JavaIndex.Token.Basic
import JavaIndex.Token.Number

/-! From characters to tokens. `lexeme` measures what stands in front of a text, and `scan` walks the
text by it, dropping blanks and comments and keeping the last documentation comment of each gap for
the token after it. The first stretch that is neither token, blank nor comment is the answer when there
is one. -/
namespace JavaIndex

/-- What stands in front of a text, with the number of characters it takes less one. -/
inductive Lexeme where
  | blank
  | comment (more : Nat)
  | token (kind : TokenKind) (more : Nat)
  | unknown (more : Nat)
deriving DecidableEq, Repr

namespace Lexer

/-- Space, tab, line ends and form feed. -/
def isGap (c : Char) : Bool :=
  c == ' ' || c == '\t' || c == '\r' || c == '\n' || c == '\x0c'

/-- Up to and including the end of a block comment whose opening has been read. The number counts the
characters read so far. -/
def blockComment (read : Nat) : List Char → Lexeme
  | '*' :: '/' :: _ => .comment (read + 1)
  | [] => .unknown (read - 1)
  | _ :: cs => blockComment (read + 1) cs

/-- Up to and including the closing quotes of a text block. A backslash takes the next character
with it. -/
def textBlock (read : Nat) : List Char → Lexeme
  | '"' :: '"' :: '"' :: _ => .token .textBlock (read + 2)
  | [] => .unknown (read - 1)
  | ['\\'] => .unknown read
  | '\\' :: _ :: cs => textBlock (read + 2) cs
  | _ :: cs => textBlock (read + 1) cs

/-- Up to and including the closing quote of a literal on one line. A backslash takes the next
character with it, but neither may be a line feed. -/
def quoted (kind : TokenKind) (quote : Char) (read : Nat) : List Char → Lexeme
  | [] => .unknown (read - 1)
  | '\\' :: [] => .unknown (read - 1)
  | '\\' :: c :: cs => if c = '\n' then .unknown (read - 1) else quoted kind quote (read + 2) cs
  | c :: cs =>
    if c = quote then .token kind read
    else if c = '\n' then .unknown (read - 1)
    else quoted kind quote (read + 1) cs

/-- May begin a word. Characters outside ASCII are sorted out once the word is complete. -/
def opensWord (c : Char) : Bool :=
  Identifier.isLetter c || c == '_' || c == '$' || Identifier.isWide c

/-- May stand inside a word. -/
def extendsWord (c : Char) : Bool := opensWord c || Identifier.isDigit c

/-- A word is a keyword, an identifier, or not allowed. -/
def word (cs : List Char) : Lexeme :=
  let letters := cs.take (Number.run extendsWord cs)
  let more := letters.length - 1
  if Token.keywords.contains (String.ofList letters) then .token .keyword more
  else if Identifier.isSpelledBy letters then .token .identifier more
  else .unknown more

/-- The sign in front of a text, the longest one if several fit. -/
def sign? (cs : List Char) : Option Nat :=
  (Token.signs.filter fun s => s.toList.isPrefixOf cs).map (·.length) |>.max?

/-- What stands in front of the text `c :: cs`. -/
def lexeme (c : Char) (cs : List Char) : Lexeme :=
  if isGap c then .blank
  else if opensWord c then word (c :: cs)
  else
    match Number.length? (c :: cs) with
    | some n => .token .number (n - 1)
    | none =>
      match c, cs with
      | '/', '/' :: rest => .comment (Number.run (· != '\n') rest + 1)
      | '/', '*' :: rest => blockComment 2 rest
      | '"', '"' :: '"' :: rest => textBlock 3 rest
      | '"', _ => quoted .string '"' 1 cs
      | '\'', _ => quoted .character '\'' 1 cs
      | _, _ =>
        match sign? (c :: cs) with
        | some n => .token .sign (n - 1)
        | none => .unknown 0

/-- A comment documents what follows if it opens with two stars and is not the shortest of those. -/
def isDoc (text : List Char) : Bool :=
  ['/', '*', '*'].isPrefixOf text && 4 < text.length

/-- The tokens of the characters from a byte offset on, of which the first `skip` belong to what has
been read already. -/
def scan (offset : Nat) (doc : Option Comment) (skip : Nat) :
    List Char → Except Span (List Token)
  | [] => .ok []
  | c :: cs =>
    let next := offset + c.utf8Size
    match skip with
    | skip + 1 => scan next doc skip cs
    | 0 =>
      let range (more : Nat) : Span := ⟨offset, next + Span.bytesOf (cs.take more)⟩
      match lexeme c cs with
      | .blank => scan next doc 0 cs
      | .comment more =>
        let text := c :: cs.take more
        let doc := if isDoc text then some ⟨String.ofList text, range more⟩ else doc
        scan next doc more cs
      | .token kind more =>
        match scan next none more cs with
        | .ok tokens => .ok (⟨kind, String.ofList (c :: cs.take more), range more, doc⟩ :: tokens)
        | .error bad => .error bad
      | .unknown more => .error (range more)

end Lexer

/-- The tokens of a source text, or the first stretch that none of them fits. -/
def tokenize (source : String) : Except Span (List Token) :=
  Lexer.scan 0 none 0 source.toList

end JavaIndex
