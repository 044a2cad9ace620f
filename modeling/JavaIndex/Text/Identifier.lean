import JavaIndex.Text.IdentifierTable
import JavaIndex.Text.Rank

/-! Which characters and which words may name something in Java: a letter in the sense of XID_Start, a
dollar sign or an underscore, then characters of XID_Continue or dollar signs. -/
namespace JavaIndex.Identifier

/-- An ASCII letter. -/
def isLetter (c : Char) : Bool :=
  ('a' ≤ c && c ≤ 'z') || ('A' ≤ c && c ≤ 'Z')

/-- An ASCII digit. -/
def isDigit (c : Char) : Bool := '0' ≤ c && c ≤ '9'

/-- Not an ASCII character. -/
def isWide (c : Char) : Bool := 128 ≤ c.toNat

/-- The Unicode property XID_Start. -/
def isXidStart (c : Char) : Bool :=
  if isWide c then Rank.rank IdentifierTable.startSwitches c.toNat % 2 == 1 else isLetter c

/-- The Unicode property XID_Continue. -/
def isXidContinue (c : Char) : Bool :=
  if isWide c then Rank.rank IdentifierTable.continueSwitches c.toNat % 2 == 1
  else isLetter c || isDigit c || c == '_'

/-- May begin an identifier. -/
def mayStart (c : Char) : Bool := c == '$' || c == '_' || isXidStart c

/-- May stand inside an identifier. -/
def mayContinue (c : Char) : Bool := c == '$' || isXidContinue c

/-- The characters form an identifier. Keywords are identifiers in this sense. -/
def isSpelledBy : List Char → Bool
  | [] => false
  | c :: cs => mayStart c && cs.all mayContinue

/-- The word is an identifier. -/
def isIdentifier (word : String) : Bool := isSpelledBy word.toList

end JavaIndex.Identifier
