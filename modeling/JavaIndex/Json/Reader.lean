import JavaIndex.Json.Basic

/-! Reading JSON. The text has to be one document, with nothing but blanks around it. -/
namespace JavaIndex.Json

/-- The four characters that may stand between the parts of a document. -/
def isBlank (c : Char) : Bool := c == ' ' || c == '\n' || c == '\t' || c == '\r'

/-- What is left after blanks. -/
def skip (cs : List Char) : List Char := cs.dropWhile isBlank

/-- The value of a hexadecimal digit. -/
def hexDigit? (c : Char) : Option Nat :=
  if '0' ≤ c && c ≤ '9' then some (c.toNat - 48)
  else if 'a' ≤ c && c ≤ 'f' then some (c.toNat - 87)
  else if 'A' ≤ c && c ≤ 'F' then some (c.toNat - 55)
  else none

/-- The value of four hexadecimal digits. -/
def hexWord? (a b c d : Char) : Option Nat := do
  return ((← hexDigit? a) * 16 + (← hexDigit? b)) * 256 + (← hexDigit? c) * 16 + (← hexDigit? d)

/-- The character of an escape that is one letter. -/
def escape? : Char → Option Char
  | '"' => some '"'
  | '\\' => some '\\'
  | '/' => some '/'
  | 'b' => some '\x08'
  | 'f' => some '\x0c'
  | 'n' => some '\n'
  | 'r' => some '\r'
  | 't' => some '\t'
  | _ => none

/-- The text of a string read so far: its characters backwards, or nothing if half of a surrogate pair
stood alone in it, and the first half of a pair that still waits for its second. -/
structure Partial where
  chars : Option (List Char)
  half : Option Nat

namespace Partial

/-- Nothing read. -/
def empty : Partial := ⟨some [], none⟩

/-- One more character. A waiting half is alone now. -/
def push (p : Partial) (c : Char) : Partial :=
  match p.half with
  | some _ => ⟨none, none⟩
  | none => ⟨p.chars.map (c :: ·), none⟩

/-- One more unit of sixteen bits. -/
def pushUnit (p : Partial) (u : Nat) : Partial :=
  if 0xd800 ≤ u && u < 0xdc00 then
    match p.half with
    | some _ => ⟨none, some u⟩
    | none => ⟨p.chars, some u⟩
  else if 0xdc00 ≤ u && u < 0xe000 then
    match p.half with
    | some h =>
      ⟨p.chars.map (Char.ofNat (0x10000 + (h - 0xd800) * 0x400 + (u - 0xdc00)) :: ·), none⟩
    | none => ⟨none, none⟩
  else p.push (Char.ofNat u)

/-- The text, if every half found its other half. -/
def text (p : Partial) : Option String :=
  match p.half with
  | some _ => none
  | none => p.chars.map fun cs => String.ofList cs.reverse

end Partial

/-- A string whose opening quote has been read. -/
def string? (p : Partial) : List Char → Option (Option String × List Char)
  | [] => none
  | '"' :: cs => some (p.text, cs)
  | '\\' :: 'u' :: a :: b :: c :: d :: cs =>
    match hexWord? a b c d with
    | some u => string? (p.pushUnit u) cs
    | none => none
  | '\\' :: e :: cs =>
    match escape? e with
    | some c => string? (p.push c) cs
    | none => none
  | c :: cs => if c.toNat < 0x20 || c == '\\' then none else string? (p.push c) cs

/-- A decimal digit. -/
def isDigit (c : Char) : Bool := '0' ≤ c && c ≤ '9'

/-- Digits, at least one, and what follows them. -/
def digits? (cs : List Char) : Option (List Char × List Char) :=
  match cs.takeWhile isDigit with
  | [] => none
  | ds => some (ds, cs.dropWhile isDigit)

/-- A whole part: zero, or digits that do not begin with zero. -/
def whole? : List Char → Option (List Char × List Char)
  | '0' :: c :: cs => if isDigit c then none else some (['0'], c :: cs)
  | cs => digits? cs

/-- A fraction, if a point comes next. -/
def fraction? : List Char → Option (List Char × List Char)
  | '.' :: cs => (digits? cs).map fun (ds, rest) => ('.' :: ds, rest)
  | cs => some ([], cs)

/-- The sign of an exponent, which may be left out. -/
def sign : List Char → List Char × List Char
  | '+' :: cs => (['+'], cs)
  | '-' :: cs => (['-'], cs)
  | cs => ([], cs)

/-- An exponent, if its mark comes next. -/
def exponent? : List Char → Option (List Char × List Char)
  | c :: cs =>
    if c == 'e' || c == 'E' then
      let (s, rest) := sign cs
      (digits? rest).map fun (ds, rest) => (c :: s ++ ds, rest)
    else some ([], c :: cs)
  | [] => some ([], [])

/-- A number and what follows it. -/
def number? (cs : List Char) : Option (Json × List Char) := do
  let (minus, rest) := match cs with
    | '-' :: rest => (['-'], rest)
    | rest => ([], rest)
  let (w, rest) ← whole? rest
  let (f, rest) ← fraction? rest
  let (e, rest) ← exponent? rest
  return (.number (String.ofList (minus ++ w ++ f ++ e)), rest)

/-- What follows a given word. -/
def word? : List Char → List Char → Option (List Char)
  | [], cs => some cs
  | w :: ws, c :: cs => if w = c then word? ws cs else none
  | _ :: _, [] => none

mutual

/-- A value, nested at most so deep, and what follows it. -/
def value? : Nat → List Char → Option (Json × List Char)
  | 0, _ => none
  | n + 1, cs =>
    match skip cs with
    | [] => none
    | '"' :: cs => (string? .empty cs).map fun (s, rest) => (.string s, rest)
    | '[' :: cs =>
      match skip cs with
      | ']' :: rest => some (.array [], rest)
      | cs => (items? n cs).map fun (xs, rest) => (.array xs, rest)
    | '\x7b' :: cs =>
      match skip cs with
      | '\x7d' :: rest => some (.object [], rest)
      | cs => (fields? n cs).map fun (xs, rest) => (.object xs, rest)
    | 't' :: cs => (word? ['r', 'u', 'e'] cs).map fun rest => (.bool true, rest)
    | 'f' :: cs => (word? ['a', 'l', 's', 'e'] cs).map fun rest => (.bool false, rest)
    | 'n' :: cs => (word? ['u', 'l', 'l'] cs).map fun rest => (.null, rest)
    | cs => number? cs

/-- The values of an array up to its closing bracket. -/
def items? : Nat → List Char → Option (List Json × List Char)
  | 0, _ => none
  | n + 1, cs =>
    match value? n cs with
    | none => none
    | some (x, rest) =>
      match skip rest with
      | ',' :: rest => (items? n rest).map fun (xs, rest) => (x :: xs, rest)
      | ']' :: rest => some ([x], rest)
      | _ => none

/-- The fields of an object up to its closing brace. -/
def fields? : Nat → List Char → Option (List (Option String × Json) × List Char)
  | 0, _ => none
  | n + 1, cs =>
    match skip cs with
    | '"' :: cs =>
      match string? .empty cs with
      | none => none
      | some (name, rest) =>
        match skip rest with
        | ':' :: rest =>
          match value? n rest with
          | none => none
          | some (x, rest) =>
            match skip rest with
            | ',' :: rest => (fields? n rest).map fun (xs, rest) => ((name, x) :: xs, rest)
            | '\x7d' :: rest => some ([(name, x)], rest)
            | _ => none
        | _ => none
    | _ => none

end

/-- The document that a text is. -/
def read? (source : String) : Option Json := do
  let cs := source.toList
  let (value, rest) ← value? (cs.length + 1) cs
  if (skip rest).isEmpty then some value else none

end JavaIndex.Json
