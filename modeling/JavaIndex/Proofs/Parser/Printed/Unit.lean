import JavaIndex.Parser.Unit
import JavaIndex.Proofs.Parser.Printed.Decls

/-! Statements and whole files are read in a text as they are read at the tokens. -/
namespace JavaIndex

namespace Grammar

open JavaIndex.Printing (Follows Becomes)

variable {w : Printing} {g : Grammar}

theorem localDecl?_printed (printed : g.Printed w) (mods : Modifiers) :
    w.Follows (Becomes (Option.map w.layout.varDecl)) (g.localDecl? mods)
      (g.localDecl? (w.layout.modifiers mods)) := by
  refine .bind (F := Option.map w.layout.typeRef) (.attemptSome ?_) fun type? => ?_
  · refine (Follows.look fun c => by simp).same fun typed => .cond (.pure rfl) ?_
    refine (typeRef_printed printed).attempt.bind fun type? => ?_
    cases type? with
    | none => exact .pure rfl
    | some type => exact (Follows.look fun c => by simp).same fun declares => .cond (.pure rfl) (.pure rfl)
  · cases type? with
    | none => exact .pure rfl
    | some type => exact (declarators_printed printed).bind fun vs => .pure (by simp [Layout.varDecl])

theorem elementVariable?_printed (printed : g.Printed w) :
    w.Follows (Becomes (Option.map w.layout.varDecl)) g.elementVariable? g.elementVariable? := by
  refine .attemptSome ((modifiers_printed printed).bind fun mods => ?_)
  refine (Follows.look fun c => by simp).same fun typed => .cond (.pure rfl) ?_
  refine (typeRef_printed printed).attempt.bind fun type? => ?_
  cases type? with
  | none => exact .pure rfl
  | some type =>
    refine (Follows.look fun c => by simp).same fun binds => .cond ?_ (.pure rfl)
    exact Follows.ident.bind fun name => .past .bump (.pure rfl)

theorem forInit_printed (printed : g.Printed w) :
    w.Follows (Becomes (List.map w.layout.stmt)) g.forInit g.forInit := by
  refine (Follows.sees _).same fun empty => .cond (.pure rfl) ?_
  refine (modifiers_printed printed).bind fun mods => (localDecl?_printed printed mods).bind fun decl? => ?_
  cases decl? with
  | some decl => exact .pure (by simp [Layout.stmt])
  | none =>
    refine .sepBy _ (printed.expr.map ?_)
    rintro e _ rfl
    exact (by rw [Layout.stmt] : Stmt.expr (w.layout.expr e) = w.layout.stmt (.expr e))

theorem forStmt_printed (printed : g.Printed w) : w.Follows (Becomes w.layout.stmt) g.forStmt g.forStmt := by
  refine .past (.expect _) (.past (.expect _) ((elementVariable?_printed printed).bind fun decl? => ?_))
  cases decl? with
  | some decl =>
    refine printed.expr.bind fun iterable => .past (.expect _) ?_
    exact printed.statement.bind fun body => .pure (by rw [Layout.stmt])
  | none =>
    refine (forInit_printed printed).bind fun init => .past (.expect _) ((Follows.sees _).same fun endless => ?_)
    refine .either (.pure rfl) printed.expr.found fun condition => .past (.expect _) ?_
    refine (printed.expr.commaList _).bind fun update => .past (.expect _) ?_
    exact printed.statement.bind fun body => .pure (by simp [Layout.stmt])

theorem resource_printed (printed : g.Printed w) :
    w.Follows (Becomes w.layout.stmt) g.resource g.resource := by
  refine (modifiers_printed printed).bind fun mods => (localDecl?_printed printed mods).bind fun decl? => ?_
  cases decl? with
  | some decl => exact .pure (by rw [Layout.stmt])
  | none => exact printed.expr.bind fun e => .pure (by rw [Layout.stmt])

theorem resources_printed (printed : g.Printed w) :
    w.Follows (Becomes (List.map w.layout.stmt)) g.resources g.resources := by
  refine (Follows.eat _).same fun given => .cond (.pure rfl) ?_
  refine .bind (F := Prod.map (List.map w.layout.stmt) id) (.iterateOn rfl fun (found, more) => ?_)
    fun (found, more) => .pure (List.map_reverse ..).symm
  refine .cond (.pure rfl) ((Follows.eat _).same fun closed => .cond (.pure rfl) ?_)
  refine (resource_printed printed).bind fun r => (Follows.eat _).same fun more => .cond (.pure rfl) ?_
  exact .past (.expect _) (.pure rfl)

theorem catchClause_printed (printed : g.Printed w) :
    w.Follows (Becomes w.layout.catchClause) g.catchClause g.catchClause := by
  refine .past (.expect _) ((modifiers_printed printed).bind fun mods => ?_)
  refine ((typeRef_printed printed).sepBy _).bind fun types => Follows.ident.bind fun name => ?_
  refine .past (.expect _) ((block_printed printed).bind fun body => .pure ?_)
  simp [Layout.catchClause]

theorem tryStmt_printed (printed : g.Printed w) : w.Follows (Becomes w.layout.stmt) g.tryStmt g.tryStmt := by
  refine .past (.expect _) ((resources_printed printed).bind fun resources => ?_)
  refine (block_printed printed).bind fun body => .bind (F := List.map w.layout.catchClause) (.many ?_)
    fun catches => ?_
  · exact (Follows.eat _).same fun caught => .cond ((catchClause_printed printed).bind fun c => .pure rfl)
      (.pure rfl)
  refine (Follows.eat _).same fun closes => ?_
  refine .either (block_printed printed).found (.pure rfl) fun closing => ?_
  have alone : ((catches.map w.layout.catchClause).isEmpty && (closing.map w.layout.block).isNone &&
      (resources.map w.layout.stmt).isEmpty) =
      (catches.isEmpty && closing.isNone && resources.isEmpty) := by
    simp
  simp only [alone]
  exact .skipIf (.fail _) fun _ => .pure (by simp [Layout.stmt])

theorem localOrExpr_printed (printed : g.Printed w) :
    w.Follows (Becomes w.layout.stmt) g.localOrExpr g.localOrExpr := by
  have typed (c : Cursor) : (atTypeDecl (w.cursor c) || (w.cursor c).spellsOneAt 0 ["final", "@"]) =
      (atTypeDecl c || c.spellsOneAt 0 ["final", "@"]) := by
    rw [atTypeDecl_printed, Printing.cursor_spellsOneAt]
  refine Follows.doc.bind fun doc => Follows.start.seq ?_
  rintro start _ ⟨rfl, -⟩
  refine (Follows.look typed).same fun declares => .cond ?_ ?_
  · refine (modifiers_printed printed).bind fun mods => ?_
    refine (Follows.look atTypeDecl_printed).same fun isType => .cond ?_ ?_
    · exact (typeDecl_printed printed mods doc start).bind fun d => .pure (by rw [Layout.stmt])
    refine (localDecl?_printed printed mods).bind fun decl? => ?_
    cases decl? with
    | some decl => exact .past (.expect _) (.pure (by rw [Layout.stmt]))
    | none => exact .fail _
  · have plain : w.layout.modifiers .none = .none := by
      simp [Modifiers.none, Layout.modifiers]
    have decl? := localDecl?_printed printed .none
    rw [plain] at decl?
    refine decl?.bind fun decl? => ?_
    cases decl? with
    | some decl => exact .past (.expect _) (.pure (by rw [Layout.stmt]))
    | none => exact (fullExpr_printed printed).bind fun e => .past (.expect _) (.pure (by rw [Layout.stmt]))

theorem yieldsValue_printed (c : Cursor) : yieldsValue (w.cursor c) = yieldsValue c := by
  rw [yieldsValue, yieldsValue, Printing.cursor_spellsOneAt, Printing.cursor_ahead?, Option.isSome_map]

theorem jump_printed {make : Option Ident → Stmt}
    (made : ∀ label, w.layout.stmt (make label) = make (label.map w.layout.ident)) :
    w.Follows (Becomes w.layout.stmt) (jump make) (jump make) := by
  refine .past .bump ((Follows.look fun c => by simp).same fun named => ?_)
  refine .either Follows.ident.found (.pure rfl) fun label => .past (.expect _) (.pure (made label).symm)

theorem keywordExpr_printed (printed : g.Printed w) {make : Expr → Stmt}
    (made : ∀ e, w.layout.stmt (make e) = make (w.layout.expr e)) :
    w.Follows (Becomes w.layout.stmt) (g.keywordExpr make) (g.keywordExpr make) :=
  .past .bump (printed.expr.bind fun e => .past (.expect _) (.pure (made e).symm))

theorem ifStmt_printed (printed : g.Printed w) : w.Follows (Becomes w.layout.stmt) g.ifStmt g.ifStmt := by
  refine .past (.expect _) ((parenExpr_printed printed).bind fun condition => ?_)
  refine printed.statement.bind fun thenBranch => (Follows.eat _).same fun other => .cond ?_ ?_
  · exact printed.statement.bind fun elseBranch => .pure (by rw [Layout.stmt])
  · exact .pure (by rw [Layout.stmt])

theorem doStmt_printed (printed : g.Printed w) : w.Follows (Becomes w.layout.stmt) g.doStmt g.doStmt := by
  refine .past (.expect _) (printed.statement.bind fun body => .past (.expect _) ?_)
  exact (parenExpr_printed printed).bind fun condition => .past (.expect _) (.pure (by rw [Layout.stmt]))

theorem returnStmt_printed (printed : g.Printed w) :
    w.Follows (Becomes w.layout.stmt) g.returnStmt g.returnStmt := by
  refine .past (.expect _) ((Follows.sees _).same fun empty => ?_)
  refine .either (.pure rfl) printed.expr.found fun value => .past (.expect _) (.pure ?_)
  simp [Layout.stmt]

theorem assertStmt_printed (printed : g.Printed w) :
    w.Follows (Becomes w.layout.stmt) g.assertStmt g.assertStmt := by
  refine .past (.expect _) (printed.expr.bind fun condition => (Follows.eat _).same fun told => ?_)
  refine .either printed.expr.found (.pure rfl) fun message => .past (.expect _) (.pure ?_)
  simp [Layout.stmt]

theorem stmt_printed (printed : g.Printed w) : w.Follows (Becomes w.layout.stmt) g.stmt g.stmt := by
  refine (Follows.look Printing.cursor_atEnd).same fun atEnd => .cond (.fail _) ?_
  refine (Follows.sees _).same fun braced => .cond ?_ ?_
  · exact (block_printed printed).bind fun b => .pure (by rw [Layout.stmt])
  refine (Follows.eat _).same fun empty => .cond (.pure (by rw [Layout.stmt])) ?_
  refine (Follows.sees _).same fun chooses => .cond (ifStmt_printed printed) ?_
  refine (Follows.eat _).same fun loops => .cond ?_ ?_
  · refine (parenExpr_printed printed).bind fun condition => printed.statement.bind fun body => .pure ?_
    rw [Layout.stmt]
  refine (Follows.sees _).same fun does => .cond (doStmt_printed printed) ?_
  refine (Follows.sees _).same fun counts => .cond (forStmt_printed printed) ?_
  refine (Follows.sees _).same fun returns => .cond (returnStmt_printed printed) ?_
  refine (Follows.sees _).same fun throws => .cond ?_ ?_
  · exact keywordExpr_printed printed fun e => by rw [Layout.stmt]
  refine (Follows.sees _).same fun breaks => .cond (jump_printed fun label => by rw [Layout.stmt]) ?_
  refine (Follows.sees _).same fun continues => .cond (jump_printed fun label => by rw [Layout.stmt]) ?_
  refine (Follows.sees _).same fun tries => .cond (tryStmt_printed printed) ?_
  refine (Follows.sees _).same fun switches => .cond ?_ ?_
  · have cases : w.Follows (Becomes w.layout.stmt) (g.switchOf .switching) (g.switchOf .switching) :=
      switchOf_printed printed fun e cs range _ => by rw [Becomes, Layout.stmt, Layout.switchCases_eq]
    exact cases.bind fun s => .past (.eat _) (.pure rfl)
  refine (Follows.look fun c => by simp).same fun locks => .cond ?_ ?_
  · refine .past .bump ((parenExpr_printed printed).bind fun lock => ?_)
    exact (block_printed printed).bind fun b => .pure (by rw [Layout.stmt])
  refine (Follows.sees _).same fun asserts => .cond (assertStmt_printed printed) ?_
  refine (Follows.look fun c => by simp).same fun labels => .cond ?_ ?_
  · refine Follows.ident.bind fun label => .past .bump ?_
    exact printed.statement.bind fun body => .pure (by rw [Layout.stmt])
  refine (Follows.look fun c => by rw [Printing.cursor_wordAt, yieldsValue_printed]).same fun yields => ?_
  exact .cond (keywordExpr_printed printed fun e => by rw [Layout.stmt]) (localOrExpr_printed printed)

end Grammar

/-! Files. -/

namespace Grammar

open JavaIndex.Printing (Follows Becomes)

variable {w : Printing} {g : Grammar}

/-- Every level of the grammar is followed in the text. -/
theorem level_printed (n : Nat) : (level n).Printed w := by
  induction n with
  | zero => constructor <;> intros <;> exact .tooDeep
  | succ n ih =>
    exact {
      type := typeRef_printed ih
      elementValue := annotationValue_printed ih
      variableInit := initializer_printed ih
      expr := fullExpr_printed ih
      ternary := ternaryExpr_printed ih
      binary := binaryExpr_printed ih
      unary := unaryExpr_printed ih
      statement := stmt_printed ih
      member := classMember_printed ih
      classBody := (body_printed ih _).map fun r _ same => by rw [Becomes, same]; rfl }

theorem packageClause_printed (printed : g.Printed w) :
    w.Follows (Becomes (Option.map w.layout.packageDecl)) g.packageClause g.packageClause := by
  refine .attemptSome (Follows.start.seq ?_)
  rintro start _ ⟨rfl, -⟩
  refine (annotations_printed printed).bind fun as => (Follows.eat _).same fun named => .cond (.pure rfl) ?_
  refine qualifiedName_printed.bind fun name => .past (.expect _) ((Follows.since start).bind fun range => ?_)
  exact .pure (by simp [Layout.packageDecl])

theorem importStep_printed (r : List Ident × Bool) :
    w.Follows (Becomes (Option.map (Prod.map (List.map w.layout.ident) id))) (importStep r)
      (importStep (Prod.map (List.map w.layout.ident) id r)) := by
  obtain ⟨names, done⟩ := r
  cases done with
  | true => exact .pure rfl
  | false =>
    refine (Follows.eat _).same fun dot => .cond (.pure rfl) ?_
    refine (Follows.eat _).same fun star => .cond (.pure rfl) ?_
    exact Follows.ident.bind fun name => .pure (by simp)

theorem importDecl_printed : w.Follows (Becomes w.layout.importDecl) importDecl importDecl := by
  refine Follows.start.seq ?_
  rintro start _ ⟨rfl, -⟩
  refine .past (.expect _) ((Follows.eat _).same fun static => Follows.ident.bind fun first => ?_)
  refine .bind (F := Prod.map (List.map w.layout.ident) id) (.iterateOn rfl importStep_printed)
    fun (path, all) => .past (.expect _) ?_
  exact (Follows.since start).bind fun range => .pure rfl

theorem topLevelType_printed (printed : g.Printed w) :
    w.Follows (Becomes w.layout.typeDecl) g.topLevelType g.topLevelType := by
  refine Follows.doc.bind fun doc => Follows.start.seq ?_
  rintro start _ ⟨rfl, -⟩
  exact (modifiers_printed printed).bind fun mods => typeDecl_printed printed mods doc start

theorem compilationUnit_printed (printed : g.Printed w) :
    w.Follows (Becomes w.layout.unit) g.compilationUnit g.compilationUnit := by
  refine (packageClause_printed printed).bind fun package => ?_
  refine (importDecl_printed.manyWhile fun c => by simp).bind fun imports => ?_
  refine .bind (F := List.map w.layout.typeDecl) (.many ?_) fun types => ?_
  · refine semicolons_printed.seq fun _ _ _ => ?_
    refine (Follows.look Printing.cursor_atEnd).same fun atEnd => .cond (.pure rfl) ?_
    exact (topLevelType_printed printed).bind fun d => .pure rfl
  · exact .pure (by rw [Layout.unit, Layout.typeDecls_eq])

end Grammar

/-- A text is read as its tokens are, or it is rejected for the same fault at the same token. -/
theorem parseTokens_printed (w : Printing) (tokens : List Token) (size : Nat)
    (fits : w.Fits ⟨tokens, 0, size⟩) :
    parseTokens (tokens.map w.token) (w.layout.offset size) =
      ((parseTokens tokens size).map w.layout.unit).mapError w.error ∧
    ∀ e, parseTokens tokens size = .error e → w.begins e.range.start := by
  have read := Grammar.compilationUnit_printed (w := w) (Grammar.level_printed (tokens.length + 1))
  have there : w.cursor ⟨tokens, 0, size⟩ = ⟨tokens.map w.token, 0, w.layout.offset size⟩ := by
    rw [Printing.cursor, w.layout.origin]
  unfold parseTokens
  rw [List.length_map]
  cases run : (Grammar.level (tokens.length + 1)).compilationUnit ⟨tokens, 0, size⟩ with
  | ok r =>
    obtain ⟨-, _, rfl, run'⟩ := read.ok _ r.1 r.2 fits run
    rw [there] at run'
    rw [run']
    exact ⟨rfl, fun _ wrong => nomatch wrong⟩
  | error e =>
    obtain ⟨begins, run'⟩ := read.error _ e fits run
    rw [there] at run'
    rw [run']
    exact ⟨rfl, fun _ same => by cases same; exact begins⟩

end JavaIndex
