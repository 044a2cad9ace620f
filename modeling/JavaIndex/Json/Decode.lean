import JavaIndex.Json.Basic

/-! Records read from JSON. A record may be written as an object, whose unknown fields are passed over and
whose known ones may each occur once, or as an array of its fields in their order, of which the last ones
may be missing. What is missing has a default. Nothing is converted from one type to another. -/
namespace JavaIndex.Json

/-- The values that an object gives to the known names, each at most once. A name that is no text is an
error even where its value would be passed over. -/
def namedFields (names : List String) (fields : List (Option String × Json)) :
    Option (List (Option Json)) :=
  if fields.all fun (n, _) => n.isSome then
    names.mapM fun name =>
      match fields.filter (fun (n, _) => n == some name) with
      | [] => some none
      | [(_, value)] => some (some value)
      | _ => none
  else none

/-- The values of a record's fields in their order, where they are given. -/
def recordFields? (names : List String) : Json → Option (List (Option Json))
  | .object fields => namedFields names fields
  | .array items =>
    if items.length ≤ names.length then
      some (items.map some ++ List.replicate (names.length - items.length) none)
    else none
  | _ => none

/-- The value of a field, or its default if it is missing. -/
def fieldOr (default : α) (decode : Json → Option α) : Option Json → Option α
  | some value => decode value
  | none => some default

/-- A text. -/
def text? : Json → Option String
  | .string s => s
  | _ => none

/-- A truth value. -/
def bool? : Json → Option Bool
  | .bool b => some b
  | _ => none

/-- The first number that does not fit into 64 bits. -/
def word64Bound : Nat := 18446744073709551616

/-- A whole number of at most 64 bits, written without sign, fraction and exponent. -/
def word64? : Json → Option Nat
  | .number n =>
    if n.toList.all Char.isDigit then n.toNat?.filter (· < word64Bound) else none
  | _ => none

/-- A list of values. -/
def list? (decode : Json → Option α) : Json → Option (List α)
  | .array items => items.mapM decode
  | _ => none

/-- A value that may be absent, which is written as null. -/
def nullable? (decode : Json → Option α) : Json → Option (Option α)
  | .null => some none
  | value => (decode value).map some

/-- One of some words, written as a string, or as an object that gives it null. -/
def choice? (words : List (String × α)) : Json → Option α
  | .string (some s) => (words.find? fun (w, _) => w == s).map Prod.snd
  | .object [(some s, .null)] => (words.find? fun (w, _) => w == s).map Prod.snd
  | _ => none

end JavaIndex.Json
