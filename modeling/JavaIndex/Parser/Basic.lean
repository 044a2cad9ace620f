import JavaIndex.Token.Lexer
import JavaIndex.Tree.Name

/-! What every rule of the grammar is built from: a cursor in a token list, the ways in which reading can
fail, and loops. A rule is a function of the cursor that answers a value and the cursor after it, so that
trying a rule without being bound by it is keeping the old cursor. -/
namespace JavaIndex

/-- Why a source text is not a program. -/
inductive SyntaxFault where
  /-- The text holds something that is no token. -/
  | unknownText (text : String)
  /-- Something else was called for than the token that was found, or than the end of the text. -/
  | expected (what : String) (found : Option String)
  /-- Something in front of a class literal or of brackets is not the name of a type. -/
  | notTypeName
  /-- Rules were nested more deeply than there are tokens. -/
  | tooDeep
deriving DecidableEq, Repr, Inhabited

/-- A fault and where it was found. -/
structure SyntaxError where
  fault : SyntaxFault
  range : Span
deriving DecidableEq, Repr, Inhabited

namespace SyntaxError

/-- What a reader is told. -/
def message (e : SyntaxError) : String :=
  match e.fault with
  | .unknownText text => "unexpected character `" ++ text ++ "`"
  | .expected what (some found) => "expected " ++ what ++ ", found `" ++ found ++ "`"
  | .expected what none => "expected " ++ what ++ ", found end of input"
  | .notTypeName => "expected type name"
  | .tooDeep => "nesting too deep"

end SyntaxError

/-- The tokens still to be read, where the last one that was read ended, and where the text ends. -/
structure Cursor where
  rest : List Token
  before : Nat
  size : Nat
deriving Repr, Inhabited

/-- A rule of the grammar. -/
abbrev Parser := StateT Cursor (Except SyntaxError)

namespace Cursor

/-- The token some way ahead. -/
def ahead? (c : Cursor) (n : Nat) : Option Token := c.rest[n]?

/-- The token some way ahead is the keyword or sign of this spelling. -/
def spellsAt (c : Cursor) (n : Nat) (text : String) : Bool :=
  match c.ahead? n with
  | some t => t.spells text
  | none => false

/-- The token some way ahead is one of these keywords and signs. -/
def spellsOneAt (c : Cursor) (n : Nat) (texts : List String) : Bool :=
  texts.any (c.spellsAt n)

/-- The token some way ahead is an identifier. -/
def identifierAt (c : Cursor) (n : Nat) : Bool :=
  match c.ahead? n with
  | some t => t.kind == .identifier
  | none => false

/-- The token some way ahead is the identifier of this spelling. -/
def wordAt (c : Cursor) (n : Nat) (word : String) : Bool :=
  match c.ahead? n with
  | some t => t.kind == .identifier && t.text == word
  | none => false

/-- The token some way ahead is a keyword that names a primitive type. -/
def primitiveAt (c : Cursor) (n : Nat) : Bool :=
  match c.ahead? n with
  | some t => t.isPrimitive
  | none => false

/-- All tokens have been read. -/
def atEnd (c : Cursor) : Bool := c.rest.isEmpty

/-- Where the next token stands; at the end, the empty span there. -/
def range (c : Cursor) : Span :=
  match c.rest with
  | t :: _ => t.range
  | [] => ⟨c.size, c.size⟩

/-- Where the next token begins. -/
def start (c : Cursor) : Nat := c.range.start

/-- The documentation comment of the next token. -/
def doc (c : Cursor) : Option Comment :=
  match c.rest with
  | t :: _ => t.doc
  | [] => none

/-- The span from a beginning to the end of the last token read. -/
def since (c : Cursor) (start : Nat) : Span := ⟨start, max c.before start⟩

/-- The cursor after the next token. -/
def next (c : Cursor) : Cursor :=
  match c.rest with
  | t :: rest => { c with rest, before := t.range.stop }
  | [] => c

/-- Two tokens one after the other with nothing between them. -/
def adjacentAt (c : Cursor) (n : Nat) : Bool :=
  match c.ahead? n, c.ahead? (n + 1) with
  | some a, some b => a.range.stop == b.range.start
  | _, _ => false

/-- How many tokens lie after the parenthesis that closes the one at the cursor, given how many are
open. -/
def afterParen? (depth : Nat) : List Token → Option (List Token)
  | [] => none
  | t :: rest =>
    if t.spells "(" then afterParen? (depth + 1) rest
    else if t.spells ")" then
      match depth with
      | 0 => none
      | 1 => some rest
      | depth + 1 => afterParen? depth rest
    else afterParen? depth rest

end Cursor

namespace Parser

/-- The fault of finding something else here. -/
def fail (what : String) : Parser α := fun c =>
  .error ⟨.expected what ((c.ahead? 0).map Token.text), c.range⟩

/-- The fault of too deep a nesting. -/
def tooDeep : Parser α := fun c => .error ⟨.tooDeep, c.range⟩

/-- What the cursor says. -/
def look (f : Cursor → α) : Parser α := fun c => .ok (f c, c)

/-- The next token is the keyword or sign of this spelling. -/
def sees (text : String) : Parser Bool := look (·.spellsAt 0 text)

/-- Go past the next token, and answer where it stands. -/
def bump : Parser Span := fun c => .ok (c.range, c.next)

/-- Go past the next token if it is the keyword or sign of this spelling. -/
def eat (text : String) : Parser Bool := fun c =>
  if c.spellsAt 0 text then .ok (true, c.next) else .ok (false, c)

/-- Go past the next token, which has to be the keyword or sign of this spelling. -/
def expectAs (text what : String) : Parser Span := fun c =>
  if c.spellsAt 0 text then .ok (c.range, c.next) else fail what c

/-- Go past the next token, which has to be the keyword or sign of this spelling. -/
def expect (text : String) : Parser Span := expectAs text ("`" ++ text ++ "`")

/-- The next token, which has to be an identifier. -/
def ident : Parser Ident := fun c =>
  match c.rest with
  | t :: _ => if t.kind == .identifier then .ok (⟨t.text, t.range⟩, c.next) else fail "identifier" c
  | [] => fail "identifier" c

/-- The value of a rule if it applies here. If it does not, nothing has been read. -/
def attempt (p : Parser α) : Parser (Option α) := fun c =>
  match p c with
  | .ok (x, c') => .ok (some x, c')
  | .error _ => .ok (none, c)

/-- The value of a rule if it applies here and finds something. If not, nothing has been read. -/
def attemptSome (p : Parser (Option α)) : Parser (Option α) := fun c =>
  match p c with
  | .ok (some x, c') => .ok (some x, c')
  | .ok (none, _) => .ok (none, c)
  | .error e => .error e

/-- Take steps from a value, each to the next value, until a step finds nothing to do. -/
def iterateFor (step : α → Parser (Option α)) : Nat → α → Parser α
  | 0, _ => tooDeep
  | n + 1, x => fun c =>
    match step x c with
    | .error e => .error e
    | .ok (none, c') => .ok (x, c')
    | .ok (some y, c') => iterateFor step n y c'

/-- Take steps from a value until a step finds nothing to do. Every step but the last reads a token, so
there are at most as many as tokens. -/
def iterate (step : α → Parser (Option α)) (x : α) : Parser α := fun c =>
  iterateFor step (c.rest.length + 1) x c

/-- The values of a rule, in order, for as long as it finds something. -/
def many (p : Parser (Option α)) : Parser (List α) := do
  let found ← iterate (fun xs => do return (← p).map (· :: xs)) []
  return found.reverse

/-- Repeat a rule while the condition holds at the cursor. -/
def manyWhile (condition : Cursor → Bool) (p : Parser α) : Parser (List α) :=
  many do if ← look condition then return some (← p) else return none

/-- At least one value, with the keyword or sign between each two. -/
def sepBy (text : String) (p : Parser α) : Parser (List α) := do
  let first ← p
  let rest ← many do if ← eat text then return some (← p) else return none
  return first :: rest

/-- Values with commas between them, unless the closing sign follows at once. -/
def commaList (close : String) (p : Parser α) : Parser (List α) := do
  if ← sees close then return [] else sepBy "," p

/-- A list between parentheses. -/
def parens (p : Parser α) : Parser (List α) := do
  discard (expect "(")
  let xs ← commaList ")" p
  discard (expect ")")
  return xs

/-- How many empty pairs of brackets follow. -/
def emptyBrackets : Parser Nat := do
  let pairs ← manyWhile (fun c => c.spellsAt 0 "[" && c.spellsAt 1 "]") (do discard bump; discard bump)
  return pairs.length

/-- The span from a beginning to here. -/
def since (start : Nat) : Parser Span := look (·.since start)

end Parser
end JavaIndex
