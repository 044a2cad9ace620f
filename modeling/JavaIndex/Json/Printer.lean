import JavaIndex.Json.Basic

/-! Writing JSON: on one line, or laid out over several with two blanks of indentation. -/
namespace JavaIndex.Json

/-- A hexadecimal digit in lower case. -/
def hexChar (n : Nat) : Char :=
  if n < 10 then Char.ofNat (48 + n) else Char.ofNat (87 + n)

/-- A character as it stands inside quotes. -/
def escaped (c : Char) : List Char :=
  if c = '"' then ['\\', '"']
  else if c = '\\' then ['\\', '\\']
  else if c = '\n' then ['\\', 'n']
  else if c = '\r' then ['\\', 'r']
  else if c = '\t' then ['\\', 't']
  else if c = '\x08' then ['\\', 'b']
  else if c = '\x0c' then ['\\', 'f']
  else if c.toNat < 0x20 then
    ['\\', 'u', '0', '0', hexChar (c.toNat / 16), hexChar (c.toNat % 16)]
  else [c]

/-- A text between quotes. -/
def quoted (s : String) : String :=
  "\"" ++ String.ofList (s.toList.flatMap escaped) ++ "\""

mutual

/-- The value on one line. -/
def compact : Json → String
  | .null => "null"
  | .bool b => if b then "true" else "false"
  | .number n => n
  | .string s => quoted (s.getD "")
  | .array items => "[" ++ ",".intercalate (compactItems items) ++ "]"
  | .object fields => "\x7b" ++ ",".intercalate (compactFields fields) ++ "\x7d"

/-- Each value on one line. -/
def compactItems : List Json → List String
  | [] => []
  | x :: xs => compact x :: compactItems xs

/-- Each field on one line. -/
def compactFields : List (Option String × Json) → List String
  | [] => []
  | (name, x) :: rest => (quoted (name.getD "") ++ ":" ++ compact x) :: compactFields rest

end

/-- A new line at a depth of indentation. -/
def newline (depth : Nat) : String := "\n" ++ String.join (List.replicate depth "  ")

/-- Lines between an opening and a closing sign, or the signs alone if there are none. -/
def bracketed (opening closing : String) (depth : Nat) (lines : List String) : String :=
  if lines.isEmpty then opening ++ closing
  else
    opening ++ newline (depth + 1) ++ ("," ++ newline (depth + 1)).intercalate lines
      ++ newline depth ++ closing

mutual

/-- The value over several lines, of which all but the first are indented at least so deep. -/
def prettyAt (depth : Nat) : Json → String
  | .null => "null"
  | .bool b => if b then "true" else "false"
  | .number n => n
  | .string s => quoted (s.getD "")
  | .array items => bracketed "[" "]" depth (prettyItems depth items)
  | .object fields => bracketed "\x7b" "\x7d" depth (prettyFields depth fields)

/-- Each value of an array at that depth. -/
def prettyItems (depth : Nat) : List Json → List String
  | [] => []
  | x :: xs => prettyAt (depth + 1) x :: prettyItems depth xs

/-- Each field of an object at that depth. -/
def prettyFields (depth : Nat) : List (Option String × Json) → List String
  | [] => []
  | (name, x) :: rest =>
    (quoted (name.getD "") ++ ": " ++ prettyAt (depth + 1) x) :: prettyFields depth rest

end

/-- The value over several lines. -/
def pretty (j : Json) : String := prettyAt 0 j

end JavaIndex.Json
