import JavaIndex.Text.Identifier

/-! Number literals. Six forms compete, and the longest one that fits wins, so that a half-written
exponent or radix falls back to the shorter number before it. Every function here answers how many
characters of the text its form takes. -/
namespace JavaIndex.Number

/-- How many characters in front are in the class. -/
def run (p : Char → Bool) : List Char → Nat
  | [] => 0
  | c :: cs => if p c then run p cs + 1 else 0

/-- One character of the class, if one is in front. -/
def atMostOne (p : Char → Bool) : List Char → Nat
  | [] => 0
  | c :: _ => if p c then 1 else 0

/-- At least one character of the class. -/
def runOne (p : Char → Bool) (cs : List Char) : Option Nat :=
  match run p cs with
  | 0 => none
  | n + 1 => some (n + 1)

/-- A digit or an underscore. -/
def isDigitPart (c : Char) : Bool := Identifier.isDigit c || c == '_'

/-- A hexadecimal digit or an underscore. -/
def isHexPart (c : Char) : Bool :=
  isDigitPart c || ('a' ≤ c && c ≤ 'f') || ('A' ≤ c && c ≤ 'F')

/-- A binary digit or an underscore. -/
def isBinaryPart (c : Char) : Bool := c == '0' || c == '1' || c == '_'

/-- The suffix of a long integer. -/
def isLongMark (c : Char) : Bool := c == 'l' || c == 'L'

/-- The suffix of a floating point number. -/
def isFloatMark (c : Char) : Bool := c == 'f' || c == 'F' || c == 'd' || c == 'D'

/-- A digit, then digits and underscores. -/
def digits : List Char → Option Nat
  | c :: cs => if Identifier.isDigit c then some (run isDigitPart cs + 1) else none
  | [] => none

/-- A radix mark, digits of that radix, and perhaps the long suffix. -/
def radix (isMark isPart : Char → Bool) : List Char → Option Nat
  | '0' :: mark :: cs =>
    if isMark mark then
      (runOne isPart cs).map fun n => n + 2 + atMostOne isLongMark (cs.drop n)
    else none
  | _ => none

/-- A whole number with perhaps a suffix. -/
def whole (cs : List Char) : Option Nat :=
  (digits cs).map fun n => n + atMostOne (fun c => isLongMark c || isFloatMark c) (cs.drop n)

/-- An exponent: its mark, perhaps a sign, and digits. -/
def exponent : List Char → Option Nat
  | mark :: cs =>
    if mark == 'e' || mark == 'E' then
      let sign := atMostOne (fun c => c == '+' || c == '-') cs
      (runOne Identifier.isDigit (cs.drop sign)).map fun n => n + sign + 1
    else none
  | [] => none

/-- A whole number with an exponent, and perhaps a suffix. -/
def scientific (cs : List Char) : Option Nat := do
  let n ← digits cs
  let e ← exponent (cs.drop n)
  return n + e + atMostOne isFloatMark (cs.drop (n + e))

/-- A point, digits, perhaps an exponent, perhaps a suffix. -/
def fraction : List Char → Option Nat
  | '.' :: cs => do
    let n ← digits cs
    let e := (exponent (cs.drop n)).getD 0
    return n + e + 1 + atMostOne isFloatMark (cs.drop (n + e))
  | _ => none

/-- Digits before a fraction. -/
def decimal (cs : List Char) : Option Nat := do
  let n ← digits cs
  let f ← fraction (cs.drop n)
  return n + f

/-- The length of the longest number in front of the text. -/
def length? (cs : List Char) : Option Nat :=
  [radix (fun c => c == 'x' || c == 'X') isHexPart cs,
   radix (fun c => c == 'b' || c == 'B') isBinaryPart cs,
   whole cs, scientific cs, decimal cs, fraction cs].foldl max none

end JavaIndex.Number
