import JavaIndex.Classpath.ResourceCache

/-! Classes generated from resources: in a package that has resources, the class `R`, in it a class for
each type of resource, and in those a constant for every name that is asked for. -/
namespace JavaIndex.Resources

/-- The types of resources that have a class. -/
def types : List String := [
  "anim", "animator", "array", "attr", "bool", "color", "dimen", "drawable", "font", "fraction",
  "id", "integer", "interpolator", "layout", "menu", "mipmap", "navigation", "plurals", "raw",
  "string", "style", "styleable", "transition", "xml"]

/-- The word is a type of resource. -/
def isType (word : String) : Bool := types.contains word

/-- A package, and what is named in its class `R`: a type of resource, and a constant of that. -/
structure Name where
  package : String
  type : Option String
  constant : Option String
deriving DecidableEq, Repr

/-- The segments around the last `R` among them, those before it backwards. -/
def aroundLast (before : List String) : List String → Option (List String × List String)
  | [] => none
  | s :: rest =>
    match aroundLast (s :: before) rest with
    | some found => some found
    | none => if s = "R" then some (before, rest) else none

/-- The parts of a name of something generated. There is a package before the `R`, and at most a type and
a constant after it. -/
def split? (qualified : String) : Option Name :=
  match aroundLast [] (Dotted.segments qualified) with
  | some (package :: outer, rest) =>
    let dotted := Dotted.join (package :: outer).reverse
    match rest with
    | [] => some ⟨dotted, none, none⟩
    | [type] => some ⟨dotted, some type, none⟩
    | [type, constant] => some ⟨dotted, some type, some constant⟩
    | _ => none
  | _ => none

/-- A generated class that nothing has been said about. -/
def bareClass (package qualifiedName : String) (symbol : Symbol) : ClassInfo :=
  ⟨qualifiedName, package, symbol, .external, [], none, [], [], [], [], false⟩

/-- The symbol of the class `R` of a package. -/
def outerSymbol (package : String) : Symbol :=
  (Symbol.package package .external).child (.type "R") .classType

/-- The symbol of the class of a type of resource. -/
def typeSymbol (package type : String) : Symbol :=
  (outerSymbol package).child (.type type) .classType

/-- The entry of a name, unless its type is no type of resource. -/
def generate? (name : Name) : Option ResourceEntry :=
  let outer := name.package ++ ".R"
  match name.type with
  | none => some (.ofClass (bareClass name.package outer (outerSymbol name.package)))
  | some type =>
    if !isType type then none
    else
      let symbol := typeSymbol name.package type
      match name.constant with
      | none =>
        let info := bareClass name.package (outer ++ "." ++ type) symbol
        some (.ofClass { info with syntheticMembers := true })
      | some constant =>
        some (.constant ⟨constant, .int, true, symbol.child (.term constant) .syntheticMember⟩)

end JavaIndex.Resources
