import JavaIndex.Text.Dotted

/-! The static types that are kept track of. A class is known by its dotted name, with dots for nesting
too, so that a type means the same whether a file or a library mentions it. -/
namespace JavaIndex

/-- A static type, as far as one is known. -/
inductive JavaType where
  /-- A primitive type or `void`. -/
  | primitive (name : String)
  /-- A class by its qualified name, with its type arguments if they are given. -/
  | named (name : String) (args : List JavaType)
  | array (element : JavaType)
  | variable (name : String)
  /-- The type of `null`. -/
  | null
  | unknown
deriving Inhabited

namespace JavaType

/-- The class of a name without type arguments. -/
def ofName (name : String) : JavaType := .named name []

/-- The class of texts. -/
def string : JavaType := ofName "java.lang.String"

/-- The class above all others. -/
def object : JavaType := ofName "java.lang.Object"

/-- The type of truth values. -/
def boolean : JavaType := .primitive "boolean"

/-- The type of ordinary whole numbers. -/
def int : JavaType := .primitive "int"

/-- The primitive types and `void`. -/
def primitiveNames : List String :=
  ["boolean", "byte", "char", "short", "int", "long", "float", "double", "void"]

/-- Something is known of the type that can tell overloads apart. -/
def isKnown : JavaType → Bool
  | .unknown | .null => false
  | _ => true

/-- The qualified name of a class. -/
def className? : JavaType → Option String
  | .named name _ => some name
  | _ => none

/-- So many array dimensions over a type. -/
def arrayOf (dims : Nat) (t : JavaType) : JavaType :=
  match dims with
  | 0 => t
  | n + 1 => .array (arrayOf n t)

/-- The same type once type arguments are dropped. -/
def sameErasure : JavaType → JavaType → Bool
  | .primitive a, .primitive b => a == b
  | .named a _, .named b _ => a == b
  | .array a, .array b => sameErasure a b
  | .variable a, .variable b => a == b
  | _, _ => false

/-- Types for type variables. -/
abbrev Bindings := List (String × JavaType)

namespace Bindings

/-- The type given to a variable. -/
def get? (b : Bindings) (name : String) : Option JavaType :=
  (b.find? fun (n, _) => n == name).map Prod.snd

/-- The variable stands for the type from now on. -/
def insert (b : Bindings) (name : String) (t : JavaType) : Bindings :=
  (name, t) :: b.filter fun (n, _) => n ≠ name

/-- Each variable stands for the type in its place. -/
def ofLists (names : List String) (types : List JavaType) : Bindings :=
  (names.zip types).foldl (fun b (n, t) => b.insert n t) []

end Bindings

mutual

/-- The type with types for its variables, where they are given. -/
def substitute (b : Bindings) : JavaType → JavaType
  | .variable name => (Bindings.get? b name).getD (.variable name)
  | .named name args => .named name (substituteAll b args)
  | .array element => .array (substitute b element)
  | .primitive name => .primitive name
  | .null => .null
  | .unknown => .unknown

/-- Each of the types with types for its variables. -/
def substituteAll (b : Bindings) : List JavaType → List JavaType
  | [] => []
  | t :: ts => substitute b t :: substituteAll b ts

end

mutual

/-- The type as people read it. -/
def text : JavaType → String
  | .primitive name | .variable name => name
  | .named name args =>
    if args.isEmpty then name else name ++ "<" ++ ", ".intercalate (texts args) ++ ">"
  | .array element => text element ++ "[]"
  | .null => "null"
  | .unknown => "?"

/-- Each of the types as people read it. -/
def texts : List JavaType → List String
  | [] => []
  | t :: ts => text t :: texts ts

end

end JavaType
end JavaIndex
