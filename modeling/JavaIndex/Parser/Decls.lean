import JavaIndex.Parser.Exprs

/-! Reading declarations: types, their members, methods, fields and parameters. -/
namespace JavaIndex.Grammar

open Parser

/-- Whether a class body is one of an enum, which begins with constants, or of a record, whose
constructor may be written without its parameters, and the name by which its constructors are known. -/
structure BodyShape where
  kind : DeclKind
  name : Option String
deriving DecidableEq, Repr

namespace BodyShape

/-- The body of a class without a name. -/
def anonymous : BodyShape := ⟨.classType, none⟩

/-- The body belongs to a record. -/
def isRecord (shape : BodyShape) : Bool := shape.kind == .recordType

end BodyShape

/-- A parameter. Brackets after its name belong to its type. -/
def param (g : Grammar) : Parser Param := do
  let start ← look Cursor.start
  let modifiers ← g.modifiers
  let type ← g.typeRef
  let varargs ← eat "..."
  let name ← ident
  let dims ← emptyBrackets
  return ⟨modifiers, type.withDims dims, varargs, name, ← since start⟩

/-- Parameters in their parentheses. -/
def params (g : Grammar) : Parser (List Param) := parens g.param

/-- What follows the name of a variable. -/
def declarator (g : Grammar) (name : Ident) : Parser Declarator := do
  let dims ← emptyBrackets
  let init ← if ← eat "=" then some <$> g.initializer else pure none
  return ⟨name, dims, init⟩

/-- The variables of a declaration with commas between them. -/
def declarators (g : Grammar) : Parser (List Declarator) :=
  sepBy "," do g.declarator (← ident)

/-- What a method is made of before its parameters have been read. -/
structure MethodHead where
  modifiers : Modifiers
  typeParams : List TypeParam
  returns : Option TypeRef
  name : Ident
  doc : Option Comment
  start : Nat

/-- A method from the end of its parameters on. Brackets there are an old way to write the type that it
returns, and are passed over. -/
def methodRest (g : Grammar) (head : MethodHead) (params : List Param) (compact : Bool) :
    Parser MethodDecl := do
  discard emptyBrackets
  let throwing ← if ← eat "throws" then g.typeList else pure []
  let defaultValue ← if ← eat "default" then some <$> g.elementValue else pure none
  let body ←
    if ← sees "\x7b" then some <$> g.block
    else do
      discard (expectAs ";" "`;` or method body")
      pure none
  return ⟨head.modifiers, head.typeParams, head.returns, head.name, params, throwing, body,
    defaultValue, compact, head.doc, ← since head.start⟩

/-- A constant of an enum. -/
def enumConstant (g : Grammar) : Parser EnumConstant := do
  let doc ← look Cursor.doc
  let annotations ← g.annotations
  let name ← ident
  let args ← if ← sees "(" then some <$> g.args else pure none
  let body ← if ← sees "\x7b" then some <$> g.classBody else pure none
  return ⟨annotations, name, args, body, doc⟩

/-- The constants of an enum, of which the last may be followed by a comma, and the semicolon after
them. -/
def enumConstants (g : Grammar) : Parser (List EnumConstant) := do
  let step : (List EnumConstant × Bool) → Parser (Option (List EnumConstant × Bool)) :=
    fun (found, more) => do
      if !more || (← look (·.spellsOneAt 0 [";", "\x7d"])) then return none
      let constant ← g.enumConstant
      return some (constant :: found, ← eat ",")
  let (found, _) ← iterate step ([], true)
  discard (eat ";")
  return found.reverse

/-- Any number of semicolons. -/
def semicolons : Parser Unit := discard (manyWhile (·.spellsAt 0 ";") bump)

/-- Members up to and including the closing brace. -/
def members (g : Grammar) (shape : BodyShape) : Parser (List Member) := many do
  semicolons
  if ← eat "\x7d" then return none
  if ← look Cursor.atEnd then fail "`\x7d`"
  return some (← g.member shape.name shape.isRecord)

/-- A class body in its braces: the constants of an enum, and the members. -/
def body (g : Grammar) (shape : BodyShape) : Parser (List EnumConstant × List Member) := do
  discard (expect "\x7b")
  let constants ← if shape.kind = .enumType then g.enumConstants else pure []
  return (constants, ← g.members shape)

/-- What sort of type is declared here; the words that say so are passed. -/
def declKind : Parser DeclKind := do
  if ← eat "class" then return .classType
  else if ← eat "interface" then return .interfaceType
  else if ← eat "enum" then return .enumType
  else if ← look (fun c => c.spellsAt 0 "@" && c.spellsAt 1 "interface") then
    discard bump
    discard bump
    return .annotationType
  else if ← look (·.wordAt 0 "record") then
    discard bump
    return .recordType
  else fail "class, interface, enum or record declaration"

/-- A declaration of a type after its modifiers. -/
def typeDecl (g : Grammar) (modifiers : Modifiers) (doc : Option Comment) (start : Nat) :
    Parser TypeDecl := do
  let kind ← declKind
  let name ← ident
  let typeParams ← g.optionalTypeParams
  let components ← if kind = .recordType then g.params else pure []
  let extending ← if ← eat "extends" then g.typeList else pure []
  let implementing ← if ← eat "implements" then g.typeList else pure []
  let permitting ←
    if ← look (·.wordAt 0 "permits") then do
      discard bump
      g.typeList
    else pure []
  let (constants, members) ← g.body ⟨kind, some name.text⟩
  return ⟨kind, modifiers, name, typeParams, extending, implementing, permitting, components,
    constants, members, doc, ← since start⟩

/-- A member of a class body. A name before parentheses is a constructor if it is the name of the class,
and in a record it may do without the parentheses. -/
def classMember (g : Grammar) (className : Option String) (isRecord : Bool) : Parser Member := do
  if ← sees "\x7b" then return .initializer false (← g.block)
  if ← look (fun c => c.spellsAt 0 "static" && c.spellsAt 1 "\x7b") then
    discard bump
    return .initializer true (← g.block)
  let doc ← look Cursor.doc
  let start ← look Cursor.start
  let modifiers ← g.modifiers
  if ← look atTypeDecl then return .type (← g.typeDecl modifiers doc start)
  let typeParams ← g.optionalTypeParams
  let namesClass (c : Cursor) : Bool := (className.map (c.wordAt 0)).getD false
  if ← look (fun c => namesClass c && c.spellsAt 1 "(") then
    let name ← ident
    let params ← g.params
    return .method (← g.methodRest ⟨modifiers, typeParams, none, name, doc, start⟩ params false)
  if ← look (fun c => namesClass c && isRecord && c.spellsAt 1 "\x7b") then
    let name ← ident
    return .method (← g.methodRest ⟨modifiers, typeParams, none, name, doc, start⟩ [] true)
  let type ← g.typeRef
  if ← look (fun c => c.identifierAt 0 && c.spellsAt 1 "(") then
    let name ← ident
    let params ← g.params
    return .method (← g.methodRest ⟨modifiers, typeParams, some type, name, doc, start⟩ params false)
  let declarators ← g.declarators
  discard (expect ";")
  return .field ⟨modifiers, type, declarators⟩ doc (← since start)

end JavaIndex.Grammar
