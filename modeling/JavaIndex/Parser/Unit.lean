import JavaIndex.Parser.Stmts

/-! Reading a whole source file. The levels of the grammar are tied together here, one for each token of
the text and one more. -/
namespace JavaIndex

namespace Grammar

open Parser

/-- The rules that may read so many tokens below one another. -/
def level : Nat → Grammar
  | 0 => bottom
  | n + 1 => {
      type := fun c => (level n).typeRef c
      elementValue := fun c => (level n).annotationValue c
      variableInit := fun c => (level n).initializer c
      expr := fun c => (level n).fullExpr c
      ternary := fun c => (level n).ternaryExpr c
      binary := fun least c => (level n).binaryExpr least c
      unary := fun c => (level n).unaryExpr c
      statement := fun c => (level n).stmt c
      member := fun name isRecord c => (level n).classMember name isRecord c
      classBody := fun c => (Prod.snd <$> (level n).body .anonymous) c }

/-- The package clause, if there is one. Otherwise nothing is read. -/
def packageClause (g : Grammar) : Parser (Option PackageDecl) := attemptSome do
  let start ← look Cursor.start
  let annotations ← g.annotations
  if !(← eat "package") then return none
  let name ← qualifiedName
  discard (expect ";")
  return some ⟨annotations, name, ← since start⟩

/-- One more name of an import, or the star that ends it. -/
def importStep : (List Ident × Bool) → Parser (Option (List Ident × Bool))
  | (_, true) => return none
  | (names, false) => do
    if !(← eat ".") then return none
    if ← eat "*" then return some (names, true)
    return some (names ++ [← ident], false)

/-- An import. -/
def importDecl : Parser ImportDecl := do
  let start ← look Cursor.start
  discard (expect "import")
  let isStatic ← eat "static"
  let first ← ident
  let (path, onDemand) ← iterate importStep ([first], false)
  discard (expect ";")
  return ⟨isStatic, path, onDemand, ← since start⟩

/-- A declaration of a type that belongs to no other. -/
def topLevelType (g : Grammar) : Parser TypeDecl := do
  let doc ← look Cursor.doc
  let start ← look Cursor.start
  let modifiers ← g.modifiers
  g.typeDecl modifiers doc start

/-- A whole file. -/
def compilationUnit (g : Grammar) : Parser CompilationUnit := do
  let package ← g.packageClause
  let imports ← manyWhile (·.spellsAt 0 "import") importDecl
  let types ← many do
    semicolons
    if ← look Cursor.atEnd then return none
    return some (← g.topLevelType)
  return ⟨package, imports, types⟩

end Grammar

/-- The tree of the tokens of a text of so many bytes. -/
def parseTokens (tokens : List Token) (size : Nat) : Except SyntaxError CompilationUnit :=
  match (Grammar.level (tokens.length + 1)).compilationUnit ⟨tokens, 0, size⟩ with
  | .ok (u, _) => .ok u
  | .error e => .error e

/-- The tree of a source text, or the first fault in it. -/
def parse (source : String) : Except SyntaxError CompilationUnit :=
  match tokenize source with
  | .error range => .error ⟨.unknownText (range.slice source), range⟩
  | .ok tokens => parseTokens tokens source.utf8ByteSize

end JavaIndex
