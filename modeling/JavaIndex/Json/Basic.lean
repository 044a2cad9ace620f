/-! JSON documents. A number keeps its spelling, so that whole numbers can be told from others. A string
may have been written with half of a surrogate pair; it then stands for no text, which only matters to
those who want its text. Fields keep their order and their repetitions. -/
namespace JavaIndex

/-- A JSON value. -/
inductive Json where
  | null
  | bool (value : Bool)
  | number (spelling : String)
  | string (text : Option String)
  | array (items : List Json)
  | object (fields : List (Option String × Json))
deriving Inhabited

namespace Json

/-- A string of some text. -/
def text (s : String) : Json := .string (some s)

/-- A whole number. -/
def nat (n : Nat) : Json := .number (toString n)

/-- An object with these fields. -/
def record (fields : List (String × Json)) : Json :=
  .object (fields.map fun (name, value) => (some name, value))

/-- The value of the first field of the name. -/
def field? (name : String) : Json → Option Json
  | .object fields => (fields.find? fun (n, _) => n == some name).map Prod.snd
  | _ => none

end Json
end JavaIndex
