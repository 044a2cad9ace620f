import JavaIndex.Parser.Decls

/-! Reading statements. A name may begin a declaration of variables or an expression; it is read as a
type first, and counts as one if the name of a variable and something that can follow it come next. -/
namespace JavaIndex.Grammar

open Parser

/-- A declaration of variables without its semicolon, if one begins here. Otherwise nothing is read. -/
def localDecl? (g : Grammar) (modifiers : Modifiers) : Parser (Option VarDecl) := do
  let type ← attemptSome do
    if !(← look fun c => c.primitiveAt 0 || c.identifierAt 0) then return none
    match ← attempt g.typeRef with
    | none => return none
    | some type =>
      if ← look (fun c => c.identifierAt 0 && c.spellsOneAt 1 ["=", ";", ",", "[", ":"]) then
        return some type
      else return none
  match type with
  | none => return none
  | some type => return some ⟨modifiers, type, ← g.declarators⟩

/-- The variable, the colon and the iterated value of a loop over elements, if that is what the
parentheses hold. Otherwise nothing is read. -/
def elementVariable? (g : Grammar) : Parser (Option VarDecl) := attemptSome do
  let modifiers ← g.modifiers
  if !(← look fun c => c.identifierAt 0 || c.primitiveAt 0) then return none
  match ← attempt g.typeRef with
  | none => return none
  | some type =>
    if ← look (fun c => c.identifierAt 0 && c.spellsAt 1 ":") then
      let name ← ident
      discard bump
      return some ⟨modifiers, type, [⟨name, 0, none⟩]⟩
    else return none

/-- What a counting loop begins with. -/
def forInit (g : Grammar) : Parser (List Stmt) := do
  if ← sees ";" then return []
  let modifiers ← g.modifiers
  match ← g.localDecl? modifiers with
  | some decl => return [.locals decl]
  | none => sepBy "," (Stmt.expr <$> g.expr)

/-- A loop, over elements or counting. -/
def forStmt (g : Grammar) : Parser Stmt := do
  discard (expect "for")
  discard (expect "(")
  match ← g.elementVariable? with
  | some decl =>
    let iterable ← g.expr
    discard (expect ")")
    return .forEach decl iterable (← g.statement)
  | none =>
    let init ← g.forInit
    discard (expect ";")
    let condition ← if ← sees ";" then pure none else some <$> g.expr
    discard (expect ";")
    let update ← commaList ")" g.expr
    discard (expect ")")
    return .forLoop init condition update (← g.statement)

/-- What a `try` statement closes at its end. -/
def resource (g : Grammar) : Parser Stmt := do
  let modifiers ← g.modifiers
  match ← g.localDecl? modifiers with
  | some decl => return .locals decl
  | none => return .expr (← g.expr)

/-- The resources of a `try` statement in their parentheses, of which the last may be followed by a
semicolon. -/
def resources (g : Grammar) : Parser (List Stmt) := do
  if !(← eat "(") then return []
  let step : (List Stmt × Bool) → Parser (Option (List Stmt × Bool)) :=
    fun (found, more) => do
      if !more then return none
      if ← eat ")" then return none
      let r ← g.resource
      if ← eat ";" then return some (r :: found, true)
      discard (expect ")")
      return some (r :: found, false)
  let (found, _) ← iterate step ([], true)
  return found.reverse

/-- A handler for exceptions after the word `catch`. -/
def catchClause (g : Grammar) : Parser CatchClause := do
  discard (expect "(")
  let modifiers ← g.modifiers
  let types ← sepBy "|" g.typeRef
  let name ← ident
  discard (expect ")")
  return ⟨modifiers, types, name, ← g.block⟩

/-- A `try` statement. Without resources it has to have a handler or a closing block. -/
def tryStmt (g : Grammar) : Parser Stmt := do
  discard (expect "try")
  let resources ← g.resources
  let body ← g.block
  let catches ← many do if ← eat "catch" then return some (← g.catchClause) else return none
  let closing ← if ← eat "finally" then some <$> g.block else pure none
  if catches.isEmpty && closing.isNone && resources.isEmpty then fail "`catch` or `finally`"
  return .trying resources body catches closing

/-- A declaration of a class or of variables, or an expression. -/
def localOrExpr (g : Grammar) : Parser Stmt := do
  let doc ← look Cursor.doc
  let start ← look Cursor.start
  if ← look (fun c => atTypeDecl c || c.spellsOneAt 0 ["final", "@"]) then
    let modifiers ← g.modifiers
    if ← look atTypeDecl then return .localType (← g.typeDecl modifiers doc start)
    match ← g.localDecl? modifiers with
    | some decl =>
      discard (expect ";")
      return .locals decl
    | none => fail "local variable declaration"
  else
    match ← g.localDecl? .none with
    | some decl =>
      discard (expect ";")
      return .locals decl
    | none =>
      let e ← g.fullExpr
      discard (expect ";")
      return .expr e

/-- What follows the word `yield` makes it a statement, and not the name of a variable or method. -/
def yieldsValue (c : Cursor) : Bool :=
  (c.ahead? 1).isSome
    && !c.spellsOneAt 1 ["=", ".", "[", ";", "++", "--", "+=", "-=", "->", "::"]

/-- The label of a jump. -/
def jump (make : Option Ident → Stmt) : Parser Stmt := do
  discard bump
  let label ← if ← look (·.identifierAt 0) then some <$> ident else pure none
  discard (expect ";")
  return make label

/-- A statement that is one keyword and an expression. -/
def keywordExpr (g : Grammar) (make : Expr → Stmt) : Parser Stmt := do
  discard bump
  let e ← g.expr
  discard (expect ";")
  return make e

/-- A choice between statements. -/
def ifStmt (g : Grammar) : Parser Stmt := do
  discard (expect "if")
  let condition ← g.parenExpr
  let thenBranch ← g.statement
  if ← eat "else" then return .ifElse condition thenBranch (← g.statement)
  else return .ifThen condition thenBranch

/-- A loop whose condition comes last. -/
def doStmt (g : Grammar) : Parser Stmt := do
  discard (expect "do")
  let body ← g.statement
  discard (expect "while")
  let condition ← g.parenExpr
  discard (expect ";")
  return .doLoop body condition

/-- A statement that ends a method, perhaps with a value. -/
def returnStmt (g : Grammar) : Parser Stmt := do
  discard (expect "return")
  let value ← if ← sees ";" then pure none else some <$> g.expr
  discard (expect ";")
  return .returning value

/-- An assertion, perhaps with a message. -/
def assertStmt (g : Grammar) : Parser Stmt := do
  discard (expect "assert")
  let condition ← g.expr
  let message ← if ← eat ":" then some <$> g.expr else pure none
  discard (expect ";")
  return .asserting condition message

/-- A statement. -/
def stmt (g : Grammar) : Parser Stmt := do
  let here (text : String) : Parser Bool := sees text
  if ← look Cursor.atEnd then fail "statement"
  else if ← here "\x7b" then return .block (← g.block)
  else if ← eat ";" then return .empty
  else if ← here "if" then g.ifStmt
  else if ← eat "while" then
    let condition ← g.parenExpr
    return .whileLoop condition (← g.statement)
  else if ← here "do" then g.doStmt
  else if ← here "for" then g.forStmt
  else if ← here "return" then g.returnStmt
  else if ← here "throw" then g.keywordExpr .throwing
  else if ← here "break" then jump .breaking
  else if ← here "continue" then jump .continuing
  else if ← here "try" then g.tryStmt
  else if ← here "switch" then
    let s ← g.switchOf .switching
    discard (eat ";")
    return s
  else if ← look (fun c => c.spellsAt 0 "synchronized" && c.spellsAt 1 "(") then
    discard bump
    let lock ← g.parenExpr
    return .synchronized lock (← g.block)
  else if ← here "assert" then g.assertStmt
  else if ← look (fun c => c.identifierAt 0 && c.spellsAt 1 ":") then
    let label ← ident
    discard bump
    return .labeled label (← g.statement)
  else if ← look (fun c => c.wordAt 0 "yield" && yieldsValue c) then g.keywordExpr .yielding
  else g.localOrExpr

end JavaIndex.Grammar
