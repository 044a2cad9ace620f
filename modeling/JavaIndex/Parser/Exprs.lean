import JavaIndex.Parser.Types

/-! Reading expressions, and the blocks and `switch` bodies that stand inside them. Operators of one
precedence group to the left. Whether parentheses hold a type to convert to, the parameters of a lambda
expression or an expression is settled by reading ahead. -/
namespace JavaIndex.Grammar

open Parser

/-- Statements up to a closing brace. -/
def block (g : Grammar) : Parser Block := do
  let start ← look Cursor.start
  discard (expect "\x7b")
  let stmts ← many do
    if ← eat "\x7d" then return none
    if ← look Cursor.atEnd then fail "`\x7d`"
    return some (← g.statement)
  return ⟨stmts, ← since start⟩

/-- The values between the braces of an array, of which the last may be followed by a comma. -/
def arrayValues (value : Parser Expr) : Parser (List Expr) := do
  discard (expect "\x7b")
  let step : (List Expr × Bool) → Parser (Option (List Expr × Bool)) := fun (values, more) => do
    if !more || (← sees "\x7d") then return none
    let v ← value
    return some (v :: values, ← eat ",")
  let (values, _) ← iterate step ([], true)
  discard (expect "\x7d")
  return values.reverse

/-- The values of an array in braces. -/
def arrayInit (value : Parser Expr) : Parser Expr := do
  let start ← look Cursor.start
  let values ← arrayValues value
  return .arrayInit values (← since start)

/-- Arguments in their parentheses. -/
def args (g : Grammar) : Parser (List Expr) := parens g.expr

/-- An expression between parentheses. -/
def parenExpr (g : Grammar) : Parser Expr := do
  discard (expect "(")
  let e ← g.expr
  discard (expect ")")
  return e

/-- A lambda expression begins here: one name before an arrow, or parentheses before one. -/
def atLambda (c : Cursor) : Bool :=
  match c.rest with
  | t :: _ =>
    if t.kind == .identifier then c.spellsAt 1 "->"
    else if t.spells "(" then
      match Cursor.afterParen? 0 c.rest with
      | some (arrow :: _) => arrow.spells "->"
      | _ => false
    else false
  | [] => false

/-- A parameter of a lambda expression. -/
def lambdaParam (g : Grammar) : Parser LambdaParam := do
  if ← look (fun c => c.identifierAt 0 && c.spellsOneAt 1 [",", ")"]) then
    return ⟨.none, none, ← ident⟩
  else
    let modifiers ← g.modifiers
    let type ← g.typeRef
    let type ← if ← eat "..." then pure (.array type 1 type.range) else pure type
    return ⟨modifiers, some type, ← ident⟩

/-- A lambda expression. -/
def lambda (g : Grammar) : Parser Expr := do
  let start ← look Cursor.start
  let params ←
    if ← look (·.identifierAt 0) then do
      let name ← ident
      pure [⟨.none, none, name⟩]
    else parens g.lambdaParam
  discard (expect "->")
  if ← sees "\x7b" then
    let body ← g.block
    return .blockLambda params body (← since start)
  else
    let body ← g.expr
    return .lambda params body (← since start)

/-- A label of a case: a type with a name to bind is a pattern, all else is a constant. -/
def caseLabel (g : Grammar) : Parser CaseLabel := do
  if ← eat "default" then return .default
  let pattern : Parser (Option CaseLabel) := do
    if !(← look fun c => c.identifierAt 0 || c.primitiveAt 0) then return none
    match ← attempt g.typeRef with
    | none => return none
    | some type =>
      if ← look (fun c => c.identifierAt 0 && !c.wordAt 0 "when") then
        return some (.pattern type (← ident))
      else return none
  match ← attemptSome pattern with
  | some label => return label
  | none => return .expr (← g.ternary)

/-- What stands after the arrow of a case. -/
def caseRule (g : Grammar) : Parser Stmt := do
  if ← sees "\x7b" then
    return .block (← g.block)
  else if ← sees "throw" then
    g.statement
  else
    let e ← g.expr
    discard (expect ";")
    return .expr e

/-- A case of a `switch`. -/
def switchCase (g : Grammar) : Parser SwitchCase := do
  let labels ←
    if ← eat "default" then pure [.default]
    else do
      discard (expectAs "case" "`case` or `default`")
      sepBy "," g.caseLabel
  let guard ←
    if ← look (·.wordAt 0 "when") then do
      discard bump
      some <$> g.expr
    else pure none
  if ← eat "->" then
    return .rule labels guard (← g.caseRule)
  else
    discard (expectAs ":" "`:` or `->`")
    let inside (c : Cursor) : Bool := !c.atEnd && !c.spellsOneAt 0 ["case", "default", "\x7d"]
    return .group labels guard (← manyWhile inside g.statement)

/-- A `switch`, as a statement or as an expression. -/
def switchOf (g : Grammar) (make : Expr → List SwitchCase → Span → α) : Parser α := do
  let start ← look Cursor.start
  discard (expect "switch")
  let selector ← g.parenExpr
  discard (expect "\x7b")
  let cases ← many do
    if ← eat "\x7d" then return none
    if ← look Cursor.atEnd then fail "`\x7d`"
    return some (← g.switchCase)
  return make selector cases (← since start)

/-- The size of one array dimension, or none between empty brackets. -/
def arraySize (g : Grammar) : Parser (List Expr) := do
  discard (expect "[")
  if ← eat "]" then return []
  let e ← g.expr
  discard (expect "]")
  return [e]

/-- The creation of an object or of an array, from the word `new` on. -/
def creation (g : Grammar) (qualifier : Option Expr) (start : Nat) : Parser Expr := do
  discard (expect "new")
  if ← sees "<" then discard g.typeArgs
  let annotations ← g.annotations
  let type ← g.plainType annotations
  if ← sees "[" then
    let sizes ← manyWhile (·.spellsAt 0 "[") g.arraySize
    let init ← if ← sees "\x7b" then some <$> arrayValues g.variableInit else pure none
    return .createArray type sizes.flatten init (← since start)
  else
    let args ← g.args
    let body ← if ← sees "\x7b" then some <$> g.classBody else pure none
    return .create qualifier type args body (← since start)

/-- What a method reference names: a method, or the constructor. -/
def methodRefName : Parser Ident := do
  if ← sees "new" then return ⟨"new", ← bump⟩ else ident

/-- What makes an expression of a type: `.class` or a method reference. -/
def afterType (type : TypeRef) (start : Nat) : Parser Expr := do
  if ← eat "." then
    discard (expect "class")
    return .classLiteral type (← since start)
  else if ← eat "::" then
    let name ← methodRefName
    return .typeMethodRef type name (← since start)
  else
    fail "`.class` or `::`"

/-- The type that an expression of nothing but names can be read as. -/
def typeOfChain (e : Expr) : Parser TypeRef := fun c =>
  match e.nameChain? with
  | some names => .ok (.named (names.map fun n => ⟨[], n, none⟩) e.range, c)
  | none => .error ⟨.notTypeName, e.range⟩

/-- What sort of number is written: by its suffix, then by its radix, point and exponent. -/
def numberKind (text : String) : LiteralKind :=
  let lower := text.toList.map Char.toLower
  let last := lower.getLast?
  if ['0', 'x'].isPrefixOf lower || ['0', 'b'].isPrefixOf lower then
    if last == some 'l' then .long else .int
  else if last == some 'l' then .long
  else if last == some 'f' then .float
  else if last == some 'd' || lower.contains '.' || lower.contains 'e' then .double
  else .int

/-- What sort of value a literal is. -/
def literalKind (t : Token) : LiteralKind :=
  match t.kind with
  | .string | .textBlock => .string
  | .character => .char
  | .keyword => if t.text == "null" then .null else .boolean
  | _ => numberKind t.text

/-- `this` or `super`: as a receiver, or with arguments as the call of a constructor. -/
def delegation (g : Grammar) (kind : Delegate) (receiver : Span → Expr) (start : Nat) :
    Parser Expr := do
  let keyword ← bump
  if ← sees "(" then
    let args ← g.args
    return .delegate kind keyword none args (← since start)
  else
    return receiver keyword

/-- An expression that nothing is applied to. -/
def primary (g : Grammar) : Parser Expr := do
  let start ← look Cursor.start
  match ← look (·.ahead? 0) with
  | none => fail "expression"
  | some t =>
    if t.isLiteral then return .literal (literalKind t) (← bump)
    else if t.spells "this" then g.delegation .this (.this none) start
    else if t.spells "super" then g.delegation .super (.super none) start
    else if t.spells "new" then g.creation none start
    else if t.spells "(" then
      let inner ← g.parenExpr
      return .paren inner (← since start)
    else if t.spells "switch" then g.switchOf .switching
    else if t.spells "\x7b" then arrayInit g.variableInit
    else if t.kind == .identifier then
      let name ← ident
      if ← sees "(" then
        let args ← g.args
        return .call none [] name args (← since start)
      else return .name name
    else if t.isPrimitive || t.spells "void" then
      afterType (← g.typeRef) start
    else fail "expression"

/-- What follows a dot after an expression. -/
def afterDot (g : Grammar) (e : Expr) (start : Nat) : Parser Expr := do
  discard (expect ".")
  if ← sees "new" then g.creation (some e) start
  else if ← eat "this" then return .this (some e) (← since start)
  else if ← sees "super" then
    let keyword ← bump
    if ← sees "(" then
      let args ← g.args
      return .delegate .super keyword (some e) args (← since start)
    else return .super (some e) (← since start)
  else if ← eat "class" then
    let type ← typeOfChain e
    return .classLiteral type (← since start)
  else if ← eat "<" then
    let typeArgs ← g.typeList
    discard (expect ">")
    let name ← ident
    let args ← g.args
    return .call (some e) typeArgs name args (← since start)
  else
    let name ← ident
    if ← sees "(" then
      let args ← g.args
      return .call (some e) [] name args (← since start)
    else return .field e name (← since start)

/-- One thing applied to an expression from behind. The answer says whether more may follow. -/
def suffix (g : Grammar) (start : Nat) : (Expr × Bool) → Parser (Option (Expr × Bool))
  | (_, false) => return none
  | (e, true) => do
    let more (e : Expr) : Option (Expr × Bool) := some (e, true)
    if ← sees "." then return more (← g.afterDot e start)
    else if ← look (fun c => c.spellsAt 0 "[" && c.spellsAt 1 "]") then
      let type ← arrayOf (← typeOfChain e)
      return some (← afterType type start, false)
    else if ← eat "[" then
      let i ← g.expr
      discard (expect "]")
      return more (.index e i (← since start))
    else if ← eat "++" then return more (.unary .postIncrement e (← since start))
    else if ← eat "--" then return more (.unary .postDecrement e (← since start))
    else if ← eat "::" then
      let name ← methodRefName
      return more (.methodRef e name (← since start))
    else return none

/-- An expression and whatever is applied to it from behind. -/
def postfixed (g : Grammar) : Parser Expr := do
  let start ← look Cursor.start
  let first ← g.primary
  let (e, _) ← iterate (g.suffix start) (first, true)
  return e

/-- What may be converted begins here. After a primitive type that is nearly anything; after a named one
only what could not go on an expression in parentheses. -/
def atOperand (primitive : Bool) (c : Cursor) : Bool :=
  match c.rest with
  | [] => false
  | t :: _ =>
    if primitive then !(t.spells "." || t.spells "[")
    else t.isLiteral || t.isPrimitive || t.kind == .identifier
      || ["(", "this", "super", "new", "!", "~", "switch"].any t.spells

/-- The types of a conversion in their parentheses, if that is what they are. -/
def castTypes (g : Grammar) : Parser (Option (TypeRef × List TypeRef)) := attemptSome do
  discard (expect "(")
  let primitive ← look (·.primitiveAt 0)
  if !primitive && !(← look fun c => c.identifierAt 0 || c.spellsAt 0 "@") then return none
  match ← attempt g.typeRef with
  | none => return none
  | some type =>
    match ← attempt (many do if ← eat "&" then return some (← g.typeRef) else return none) with
    | none => return none
    | some bounds =>
      if !(← eat ")") then return none
      if ← look (atOperand primitive) then return some (type, bounds) else return none

/-- The operator in front of an operand. -/
def unaryOp (c : Cursor) : Option UnaryOp :=
  if c.spellsAt 0 "+" then some .plus
  else if c.spellsAt 0 "-" then some .minus
  else if c.spellsAt 0 "!" then some .not
  else if c.spellsAt 0 "~" then some .bitNot
  else if c.spellsAt 0 "++" then some .preIncrement
  else if c.spellsAt 0 "--" then some .preDecrement
  else none

/-- An operand with the operators in front of it, or a conversion. -/
def unaryExpr (g : Grammar) : Parser Expr := do
  let start ← look Cursor.start
  match ← look unaryOp with
  | some op =>
    discard bump
    let operand ← g.unary
    return .unary op operand (← since start)
  | none =>
    match ← if ← sees "(" then g.castTypes else pure none with
    | some (type, bounds) =>
      let value ← if ← look atLambda then g.lambda else g.unary
      return .cast type bounds value (← since start)
    | none => g.postfixed

/-- The precedence of an operator, from the loosest, 1, to the tightest, 10. -/
def precedence : BinaryOp → Nat
  | .or => 1
  | .and => 2
  | .bitOr => 3
  | .bitXor => 4
  | .bitAnd => 5
  | .eq | .notEq => 6
  | .lt | .gt | .ltEq | .gtEq => 7
  | .shl | .shr | .ushr => 8
  | .add | .sub => 9
  | .mul | .div | .rem => 10

/-- The precedence of `instanceof`. -/
def instanceOfPrecedence : Nat := 7

/-- The operators that are one token. -/
def simpleOps : List (String × BinaryOp) :=
  [("||", .or), ("&&", .and), ("|", .bitOr), ("^", .bitXor), ("&", .bitAnd), ("==", .eq),
   ("!=", .notEq), ("<", .lt), ("<=", .ltEq), (">=", .gtEq), ("<<", .shl), ("+", .add),
   ("-", .sub), ("*", .mul), ("/", .div), ("%", .rem)]

/-- The operator between two operands, and how many tokens it takes. Closing angle brackets make one
shift operator when nothing stands between them. -/
def binaryOp? (c : Cursor) : Option (BinaryOp × Nat) :=
  if c.spellsAt 0 ">" then
    if c.spellsAt 1 ">" && c.adjacentAt 0 then
      if c.spellsAt 2 ">" && c.adjacentAt 1 then some (.ushr, 3) else some (.shr, 2)
    else some (.gt, 1)
  else
    (simpleOps.find? fun (text, _) => c.spellsAt 0 text).map fun (_, op) => (op, 1)

/-- Go past some tokens. -/
def bumpMany : Nat → Parser Unit
  | 0 => pure ()
  | n + 1 => do discard bump; bumpMany n

/-- One more operator at least as tight as asked, with its right operand, or an `instanceof`. -/
def operation (g : Grammar) (least start : Nat) (left : Expr) : Parser (Option Expr) := do
  if (← sees "instanceof") && least ≤ instanceOfPrecedence then
    discard bump
    discard (eat "final")
    let type ← g.typeRef
    let binding ← if ← look (·.identifierAt 0) then some <$> ident else pure none
    return some (.instanceOf left type binding (← since start))
  else
    match ← look binaryOp? with
    | none => return none
    | some (op, width) =>
      if precedence op < least then return none
      bumpMany width
      let right ← g.binary (precedence op + 1)
      return some (.binary op left right (← since start))

/-- Operands and operators at least as tight as asked. -/
def binaryExpr (g : Grammar) (least : Nat) : Parser Expr := do
  let start ← look Cursor.start
  let first ← g.unaryExpr
  iterate (g.operation least start) first

/-- Operands and operators, perhaps as the condition of a choice. -/
def ternaryExpr (g : Grammar) : Parser Expr := do
  let start ← look Cursor.start
  let condition ← g.binaryExpr 1
  if !(← eat "?") then return condition
  let thenValue ← g.expr
  discard (expect ":")
  let elseValue ← if ← look atLambda then g.lambda else g.ternary
  return .conditional condition thenValue elseValue (← since start)

/-- The signs that assign. -/
def assignSigns : List String :=
  ["=", "+=", "-=", "*=", "/=", "&=", "|=", "^=", "%=", "<<=", ">>=", ">>>="]

/-- An expression. -/
def fullExpr (g : Grammar) : Parser Expr := do
  if ← look atLambda then g.lambda
  else
    let start ← look Cursor.start
    let target ← g.ternaryExpr
    if ← look (·.spellsOneAt 0 assignSigns) then
      discard bump
      let value ← g.expr
      return .assign target value (← since start)
    else return target

/-- What a variable begins with: an expression, or the values of an array. -/
def initializer (g : Grammar) : Parser Expr := do
  if ← sees "\x7b" then arrayInit g.variableInit else g.fullExpr

/-- What an element of an annotation is given. -/
def annotationValue (g : Grammar) : Parser Expr := do
  if ← sees "@" then return .annotated (← g.annotationHere)
  else if ← sees "\x7b" then arrayInit g.elementValue
  else g.ternaryExpr

end JavaIndex.Grammar
