import JavaIndex.Parser.Grammar

/-! Reading names, annotations, modifiers and types. -/
namespace JavaIndex.Grammar

open Parser

/-- Identifiers joined by dots. A dot before something else is left alone. -/
def qualifiedName : Parser (List Ident) := do
  let first ← ident
  let rest ← manyWhile (fun c => c.spellsAt 0 "." && c.identifierAt 1) (do discard bump; ident)
  return first :: rest

/-- One value that an annotation is given, with or without the name of its element. -/
def annotationArg (g : Grammar) : Parser AnnotationArg := do
  if ← look (fun c => c.identifierAt 0 && c.spellsAt 1 "=") then
    let name ← ident
    discard bump
    return ⟨some name, ← g.elementValue⟩
  else
    return ⟨none, ← g.elementValue⟩

/-- An annotation. -/
def annotationHere (g : Grammar) : Parser Annotation := do
  let start ← look Cursor.start
  discard (expect "@")
  let name ← qualifiedName
  let args ← if ← sees "(" then parens g.annotationArg else pure []
  return ⟨name, args, ← since start⟩

/-- An annotation comes next, and not the declaration of an annotation type. -/
def atAnnotationSign (c : Cursor) : Bool := c.spellsAt 0 "@" && !c.spellsAt 1 "interface"

/-- Any number of annotations. -/
def annotations (g : Grammar) : Parser (List Annotation) := manyWhile atAnnotationSign g.annotationHere

/-- The arguments of a generic type, in their angle brackets. -/
def typeArg (g : Grammar) : Parser (TypeArg Annotation) := do
  if ← sees "?" then
    let start ← look Cursor.start
    discard bump
    if ← eat "extends" then
      let type ← g.type
      return .bounded .upper type (← since start)
    else if ← eat "super" then
      let type ← g.type
      return .bounded .lower type (← since start)
    else
      return .wildcard (← since start)
  else
    return .type (← g.type)

/-- The arguments of a generic type. Empty brackets leave them to be inferred. -/
def typeArgs (g : Grammar) : Parser (List (TypeArg Annotation)) := do
  discard (expect "<")
  if ← eat ">" then return []
  let args ← sepBy "," g.typeArg
  discard (expect ">")
  return args

/-- One name of a dotted type. -/
def typeSegment (g : Grammar) (annotations : List Annotation) : Parser (TypeSegment Annotation) := do
  let name ← ident
  let args ← if ← sees "<" then some <$> g.typeArgs else pure none
  return ⟨annotations, name, args⟩

/-- A type without array brackets; its annotations have been read, and belong to its first name. -/
def plainType (g : Grammar) (annotations : List Annotation) : Parser TypeRef := do
  if ← look (fun c => c.primitiveAt 0 || c.spellsAt 0 "void") then
    let keyword ← look fun c => ((c.ahead? 0).map Token.text).getD ""
    return .primitive keyword (← bump)
  else if ← look (·.identifierAt 0) then
    let start ← look Cursor.start
    let first ← g.typeSegment annotations
    let rest ← manyWhile (fun c => c.spellsAt 0 "." && c.identifierAt 1)
      (do discard bump; g.typeSegment [])
    return .named (first :: rest) (← since start)
  else
    fail "type"

/-- The type as an array of as many dimensions as empty pairs of brackets follow. -/
def arrayOf (base : TypeRef) : Parser TypeRef := do
  let dims ← emptyBrackets
  if dims = 0 then return base
  return .array base dims (← since base.range.start)

/-- A type. -/
def typeRef (g : Grammar) : Parser TypeRef := do
  let annotations ← g.annotations
  arrayOf (← g.plainType annotations)

/-- Types with commas between them. -/
def typeList (g : Grammar) : Parser (List TypeRef) := sepBy "," g.typeRef

/-- A type variable. -/
def typeParam (g : Grammar) : Parser TypeParam := do
  let annotations ← g.annotations
  let name ← ident
  let bounds ← if ← eat "extends" then sepBy "&" g.typeRef else pure []
  return ⟨annotations, name, bounds⟩

/-- Type variables in their angle brackets. -/
def typeParams (g : Grammar) : Parser (List TypeParam) := do
  discard (expect "<")
  let params ← sepBy "," g.typeParam
  discard (expect ">")
  return params

/-- Type variables, if angle brackets come next. -/
def optionalTypeParams (g : Grammar) : Parser (List TypeParam) := do
  if ← sees "<" then g.typeParams else return []

/-- The word `record` as the beginning of a declaration: a name follows, and then what only a record
header can go on with. -/
def atRecord : List Token → Bool
  | t :: name :: next :: _ =>
    t.kind == .identifier && t.text == "record" && name.kind == .identifier
      && (next.spells "(" || next.spells "<")
  | _ => false

/-- A type declaration begins here, perhaps after modifiers. -/
def beginsTypeDecl : List Token → Bool
  | [] => false
  | t :: rest =>
    ["class", "interface", "enum"].any t.spells
      || (t.spells "@" && (rest.head?.map (·.spells "interface")).getD false)
      || atRecord (t :: rest)
      || (t.isModifier && beginsTypeDecl rest)

/-- A type declaration begins at the cursor. -/
def atTypeDecl (c : Cursor) : Bool := beginsTypeDecl c.rest

/-- A modifier or an annotation, added to those before it. The word `non-sealed` is passed over. -/
def addModifier (g : Grammar) (m : Modifiers) : Parser (Option Modifiers) := do
  if ← look atAnnotationSign then
    let a ← g.annotationHere
    return some { m with annotations := m.annotations ++ [a] }
  else if ← look (fun c => c.wordAt 0 "sealed" && beginsTypeDecl c.rest.tail) then
    discard bump
    return some { m with keywords := m.keywords ++ [.sealed] }
  else if ← look (fun c => c.wordAt 0 "non" && c.spellsAt 1 "-" && c.wordAt 2 "sealed") then
    discard bump
    discard bump
    discard bump
    return some m
  else
    match ← look (fun c => (c.ahead? 0).bind Modifier.ofToken?) with
    | some word =>
      discard bump
      return some { m with keywords := m.keywords ++ [word] }
    | none => return none

/-- Any number of modifiers and annotations. -/
def modifiers (g : Grammar) : Parser Modifiers := iterate g.addModifier .none

end JavaIndex.Grammar
