import JavaIndex.Parser.Unit
import JavaIndex.Proofs.Parser.Decls

/-! The words of statements are words that were read. Those of a file are words of its text, and none of them is used
twice. -/
namespace JavaIndex

namespace Grammar

open JavaIndex.Parser
open JavaIndex.Nodes (words)

variable {g : Grammar}

theorem localDecl?_keeps (keeping : g.Keeping) (mods : Modifiers) :
    Keeps (words Nodes.modifiers mods) (g.localDecl? mods) (optional (words Nodes.varDecl)) := by
  refine Keeps.bind (w := optional (words Nodes.typeRef)) (.attemptSome ?_) fun type? => ?_
  · refine .skip (look_silent _) fun typed => ?_
    split
    · exact keeps_pure (.refl _)
    refine (typeRef_keeps keeping).attempt.bind fun type? => ?_
    split
    · exact keeps_pure (.refl _)
    refine .skip (look_silent _) fun declares => ?_
    split
    · exact keeps_pure (.refl _)
    · exact keeps_pure fun i => by simp
  · split
    · exact keeps_pure fun i => by simp
    · exact (declarators_keeps keeping).bind fun vs => keeps_pure fun i => by
        simp [words, Nodes.varDecl]

theorem elementVariable?_keeps (keeping : g.Keeping) :
    Keeps [] g.elementVariable? (optional (words Nodes.varDecl)) := by
  refine .attemptSome ((modifiers_keeps keeping).bind fun mods => .skip (look_silent _) fun typed => ?_)
  split
  · exact keeps_pure fun i => by simp
  refine (typeRef_keeps keeping).attempt.bind fun type? => ?_
  split
  · exact keeps_pure fun i => by simp
  refine .skip (look_silent _) fun binds => ?_
  split
  · refine ident_keeps.bind fun name => .skip bump_silent.discard fun _ => keeps_pure fun i => ?_
    simp [words, Nodes.varDecl, Nodes.varDeclarators, Nodes.expr?]
  · exact keeps_pure fun i => by simp

theorem forInit_keeps (keeping : g.Keeping) :
    Keeps [] g.forInit fun ss => ss.flatMap (words Nodes.stmt) := by
  refine .skip (sees_silent _) fun empty => ?_
  split
  · exact keeps_pure (.refl _)
  refine (modifiers_keeps keeping).bind fun mods => (localDecl?_keeps keeping mods).seq fun decl? => ?_
  split
  · exact keeps_pure fun i => by simp [words, Nodes.stmt]
  · have one : Keeps [] (Stmt.expr <$> g.expr) (words Nodes.stmt) :=
      .map (keeping.expr.weaken (.refl _) fun e i => by simp [words])
    exact one.sepBy _

theorem forStmt_keeps (keeping : g.Keeping) : Keeps [] g.forStmt (words Nodes.stmt) := by
  refine .skip (expect_silent _).discard fun _ => .skip (expect_silent _).discard fun _ => ?_
  refine (elementVariable?_keeps keeping).bind fun decl? => ?_
  split
  · refine keeping.expr.bind fun iterable => .skip (expect_silent _).discard fun _ => ?_
    refine keeping.statement.bind fun body => keeps_pure fun i => ?_
    simp only [words, Nodes.stmt, Nodes.idents_append, List.count_append, optional_some]
    omega
  · refine (forInit_keeps keeping).bind fun init => .skip (expect_silent _).discard fun _ => ?_
    refine .skip (sees_silent _) fun endless => ?_
    refine .either (keeps_pure (.refl _)) keeping.expr.found fun condition => ?_
    refine .skip (expect_silent _).discard fun _ => (keeping.expr.commaList _).bind fun update => ?_
    refine .skip (expect_silent _).discard fun _ => keeping.statement.bind fun body => keeps_pure fun i => ?_
    simp [words, Nodes.stmt]

theorem resource_keeps (keeping : g.Keeping) : Keeps [] g.resource (words Nodes.stmt) := by
  refine (modifiers_keeps keeping).bind fun mods => (localDecl?_keeps keeping mods).seq fun decl? => ?_
  split
  · exact keeps_pure fun i => by simp [words, Nodes.stmt]
  · exact keeping.expr.bind fun e => keeps_pure fun i => by simp [words]

theorem resources_keeps (keeping : g.Keeping) :
    Keeps [] g.resources fun ss => ss.flatMap (words Nodes.stmt) := by
  refine .skip (eat_silent _) fun given => ?_
  split
  · exact keeps_pure (.refl _)
  refine Keeps.bind (w := fun r : List Stmt × Bool => r.1.flatMap (words Nodes.stmt)) ?_ fun (ss, _) =>
    keeps_pure fun i => Nat.le_of_eq ((ss.reverse_perm.flatMap_right _).count_eq i)
  refine .iterate (.refl []) fun (ss, more) => ?_
  dsimp only
  split
  · exact keeps_pure (.refl _)
  refine .skip (eat_silent _) fun closed => ?_
  split
  · exact keeps_pure (.refl _)
  refine (resource_keeps keeping).bind fun r => .skip (eat_silent _) fun more => ?_
  have both : FewerWords ((r :: ss).flatMap (words Nodes.stmt))
      (ss.flatMap (words Nodes.stmt) ++ words Nodes.stmt r) := fun i => by
    simp only [List.flatMap_cons, List.count_append]
    omega
  split
  · exact keeps_pure both
  · exact .skip (expect_silent _).discard fun _ => keeps_pure both

theorem catchClause_keeps (keeping : g.Keeping) :
    Keeps [] g.catchClause (words fun c => Nodes.catchClauses [c]) := by
  refine .skip (expect_silent _).discard fun _ => (modifiers_keeps keeping).bind fun mods => ?_
  refine ((typeRef_keeps keeping).sepBy _).bind fun types => ident_keeps.bind fun name => ?_
  refine .skip (expect_silent _).discard fun _ => (block_keeps keeping).bind fun body => ?_
  exact keeps_pure fun i => by simp [words, Nodes.catchClauses]

theorem tryStmt_keeps (keeping : g.Keeping) : Keeps [] g.tryStmt (words Nodes.stmt) := by
  refine .skip (expect_silent _).discard fun _ => (resources_keeps keeping).bind fun resources => ?_
  refine (block_keeps keeping).bind fun body => ?_
  refine Keeps.bind (w := fun cs => cs.flatMap (words fun c => Nodes.catchClauses [c])) (.many ?_)
    fun catches => ?_
  · refine .skip (eat_silent _) fun catches => ?_
    split
    · exact (catchClause_keeps keeping).bind fun c => keeps_pure (.refl _)
    · exact keeps_pure (.refl _)
  refine .skip (eat_silent _) fun closes => ?_
  refine .either (block_keeps keeping).found (keeps_pure (.refl _)) fun closing => ?_
  refine .skipIf (fail_keeps _) fun _ => keeps_pure fun i => ?_
  simp [words, Nodes.stmt]

theorem localOrExpr_keeps (keeping : g.Keeping) : Keeps [] g.localOrExpr (words Nodes.stmt) := by
  refine .skip (look_silent _) fun doc => .skip (look_silent _) fun start => ?_
  refine .skip (look_silent _) fun declares => ?_
  split
  · refine (modifiers_keeps keeping).bind fun mods => .skip (look_silent _) fun isType => ?_
    split
    · exact (typeDecl_keeps keeping mods doc start).seq fun d => keeps_pure fun i => by
        simp [words, Nodes.stmt]
    refine (localDecl?_keeps keeping mods).seq fun decl? => ?_
    split
    · exact .skip (expect_silent _).discard fun _ => keeps_pure fun i => by simp [words, Nodes.stmt]
    · exact fail_keeps _
  · refine (localDecl?_keeps keeping .none).bind fun decl? => ?_
    split
    · exact .skip (expect_silent _).discard fun _ => keeps_pure fun i => by simp [words, Nodes.stmt]
    · refine (fullExpr_keeps keeping).bind fun e => .skip (expect_silent _).discard fun _ => ?_
      exact keeps_pure fun i => by simp [words]

theorem jump_keeps {make : Option Ident → Stmt} (empty : ∀ label, Nodes.stmt (make label) = []) :
    Keeps [] (jump make) (words Nodes.stmt) := by
  refine .skip bump_silent.discard fun _ => .skip (look_silent _) fun named => ?_
  refine .either ident_keeps.found (keeps_pure (.refl _)) fun label => ?_
  exact .skip (expect_silent _).discard fun _ => keeps_pure fun i => by simp [words, empty]

theorem keywordExpr_keeps (keeping : g.Keeping) {make : Expr → Stmt}
    (same : ∀ e, Nodes.stmt (make e) = Nodes.expr e) :
    Keeps [] (g.keywordExpr make) (words Nodes.stmt) := by
  refine .skip bump_silent.discard fun _ => keeping.expr.bind fun e => ?_
  exact .skip (expect_silent _).discard fun _ => keeps_pure fun i => by simp [words, same]

theorem ifStmt_keeps (keeping : g.Keeping) : Keeps [] g.ifStmt (words Nodes.stmt) := by
  refine .skip (expect_silent _).discard fun _ => (parenExpr_keeps keeping).bind fun condition => ?_
  refine keeping.statement.bind fun thenBranch => .skip (eat_silent _) fun other => ?_
  split
  · exact keeping.statement.bind fun elseBranch => keeps_pure fun i => by simp [words, Nodes.stmt]
  · exact keeps_pure fun i => by simp [words, Nodes.stmt]

theorem doStmt_keeps (keeping : g.Keeping) : Keeps [] g.doStmt (words Nodes.stmt) := by
  refine .skip (expect_silent _).discard fun _ => keeping.statement.bind fun body => ?_
  refine .skip (expect_silent _).discard fun _ => (parenExpr_keeps keeping).bind fun condition => ?_
  exact .skip (expect_silent _).discard fun _ => keeps_pure fun i => by simp [words, Nodes.stmt]

theorem returnStmt_keeps (keeping : g.Keeping) : Keeps [] g.returnStmt (words Nodes.stmt) := by
  refine .skip (expect_silent _).discard fun _ => .skip (sees_silent _) fun empty => ?_
  refine .either (keeps_pure (.refl _)) keeping.expr.found fun value => ?_
  exact .skip (expect_silent _).discard fun _ => keeps_pure fun i => by simp [words, Nodes.stmt]

theorem assertStmt_keeps (keeping : g.Keeping) : Keeps [] g.assertStmt (words Nodes.stmt) := by
  refine .skip (expect_silent _).discard fun _ => keeping.expr.bind fun condition => ?_
  refine .skip (eat_silent _) fun told => ?_
  refine .either keeping.expr.found (keeps_pure (.refl _)) fun message => ?_
  exact .skip (expect_silent _).discard fun _ => keeps_pure fun i => by simp [words, Nodes.stmt]

theorem stmt_keeps (keeping : g.Keeping) : Keeps [] g.stmt (words Nodes.stmt) := by
  refine .skip (look_silent _) fun atEnd => ?_
  refine .cond ?_ ?_
  · exact fail_keeps _
  refine .skip (sees_silent _) fun braced => ?_
  refine .cond ?_ ?_
  · exact (block_keeps keeping).bind fun b => keeps_pure fun i => by simp [words]
  refine .skip (eat_silent _) fun empty => ?_
  refine .cond ?_ ?_
  · exact keeps_pure fun i => by simp [words, Nodes.stmt]
  refine .skip (sees_silent _) fun chooses => ?_
  refine .cond ?_ ?_
  · exact ifStmt_keeps keeping
  refine .skip (eat_silent _) fun loops => ?_
  refine .cond ?_ ?_
  · refine (parenExpr_keeps keeping).bind fun condition => keeping.statement.bind fun body => ?_
    exact keeps_pure fun i => by simp [words, Nodes.stmt]
  refine .skip (sees_silent _) fun does => ?_
  refine .cond ?_ ?_
  · exact doStmt_keeps keeping
  refine .skip (sees_silent _) fun counts => ?_
  refine .cond ?_ ?_
  · exact forStmt_keeps keeping
  refine .skip (sees_silent _) fun returns => ?_
  refine .cond ?_ ?_
  · exact returnStmt_keeps keeping
  refine .skip (sees_silent _) fun throws => ?_
  refine .cond ?_ ?_
  · exact keywordExpr_keeps keeping fun e => by rw [Nodes.stmt]
  refine .skip (sees_silent _) fun breaks => ?_
  refine .cond ?_ ?_
  · exact jump_keeps fun label => by rw [Nodes.stmt]
  refine .skip (sees_silent _) fun continues => ?_
  refine .cond ?_ ?_
  · exact jump_keeps fun label => by rw [Nodes.stmt]
  refine .skip (sees_silent _) fun tries => ?_
  refine .cond ?_ ?_
  · exact tryStmt_keeps keeping
  refine .skip (sees_silent _) fun switches => ?_
  refine .cond ?_ ?_
  · have cases : Keeps [] (g.switchOf .switching) (words Nodes.stmt) :=
      switchOf_keeps keeping fun e cs range i => by simp [words, Nodes.stmt]
    exact cases.bind fun s => .skip (eat_silent _).discard fun _ => keeps_pure (.refl _)
  refine .skip (look_silent _) fun locks => ?_
  refine .cond ?_ ?_
  · refine .skip bump_silent.discard fun _ => (parenExpr_keeps keeping).bind fun lock => ?_
    exact (block_keeps keeping).bind fun b => keeps_pure fun i => by simp [words, Nodes.stmt]
  refine .skip (sees_silent _) fun asserts => ?_
  refine .cond ?_ ?_
  · exact assertStmt_keeps keeping
  refine .skip (look_silent _) fun labels => ?_
  refine .cond ?_ ?_
  · refine ident_keeps.bind fun label => .skip bump_silent.discard fun _ => ?_
    exact keeping.statement.bind fun body => keeps_pure fun i => by simp [words, Nodes.stmt, List.count_cons]
  refine .skip (look_silent _) fun yields => ?_
  refine .cond ?_ ?_
  · exact keywordExpr_keeps keeping fun e => by rw [Nodes.stmt]
  · exact localOrExpr_keeps keeping

end Grammar

/-! Files. -/

namespace Grammar

open JavaIndex.Parser
open JavaIndex.Nodes (words)

variable {g : Grammar}

/-- Every level of the grammar answers only words that it read. -/
theorem level_keeping (n : Nat) : (level n).Keeping := by
  induction n with
  | zero => constructor <;> intros <;> exact tooDeep_keeps
  | succ n ih =>
    exact {
      type := typeRef_keeps ih
      elementValue := annotationValue_keeps ih
      variableInit := initializer_keeps ih
      expr := fullExpr_keeps ih
      ternary := ternaryExpr_keeps ih
      binary := binaryExpr_keeps ih
      unary := unaryExpr_keeps ih
      statement := stmt_keeps ih
      member := classMember_keeps ih
      classBody := .map ((body_keeps ih _).weaken (.refl _) fun r i => by simp) }

/-- The words of a package clause, its name among them. -/
def packageWords (p : PackageDecl) : List Ident :=
  p.name ++ p.annotations.flatMap (words Nodes.annotation)

theorem packageClause_keeps (keeping : g.Keeping) : Keeps [] g.packageClause (optional packageWords) := by
  refine .attemptSome (.skip (look_silent _) fun start => (annotations_keeps keeping).bind fun as => ?_)
  refine .skip (eat_silent _) fun named => ?_
  split
  · exact keeps_pure fun i => by simp
  refine qualifiedName_keeps.bind fun name => .skip (expect_silent _).discard fun _ => ?_
  refine .skip (since_silent _) fun range => keeps_pure fun i => ?_
  simp only [optional_some, packageWords, List.count_append, List.count_nil, id]
  omega

theorem importStep_keeps (r : List Ident × Bool) :
    Keeps r.1 (importStep r) fun r' => (r'.getD r).1 := by
  obtain ⟨names, done⟩ := r
  cases done with
  | true => exact keeps_pure (.refl _)
  | false =>
    refine .skip (eat_silent _) fun dot => ?_
    split
    · exact keeps_pure (.refl _)
    refine .skip (eat_silent _) fun star => ?_
    split
    · exact keeps_pure (.refl _)
    · exact ident_keeps.bind fun name => keeps_pure (.refl _)

theorem importDecl_keeps : Keeps [] importDecl (words fun i => Nodes.mentions i.path) := by
  refine .skip (look_silent _) fun start => .skip (expect_silent _).discard fun _ => ?_
  refine .skip (eat_silent _) fun static => ident_keeps.bind fun first => ?_
  refine Keeps.seq (w := fun r : List Ident × Bool => r.1) (.iterate (.refl _) importStep_keeps)
    fun (path, all) => .skip (expect_silent _).discard fun _ => ?_
  exact .skip (since_silent _) fun range => keeps_pure fun i => by simp [words]

theorem topLevelType_keeps (keeping : g.Keeping) : Keeps [] g.topLevelType (words Nodes.typeDecl) := by
  refine .skip (look_silent _) fun doc => .skip (look_silent _) fun start => ?_
  exact (modifiers_keeps keeping).bind fun mods => typeDecl_keeps keeping mods doc start

/-- The words of a file: what it declares and looks up, and the name of its package. -/
def unitWords (u : CompilationUnit) : List Ident :=
  optional PackageDecl.name u.package ++ Nodes.idents (Nodes.unit u)

theorem compilationUnit_keeps (keeping : g.Keeping) : Keeps [] g.compilationUnit unitWords := by
  refine (packageClause_keeps keeping).bind fun package => (importDecl_keeps.manyWhile _).bind fun is => ?_
  refine Keeps.bind (w := fun ds => ds.flatMap (words Nodes.typeDecl)) (.many ?_) fun ds => ?_
  · refine .skip semicolons_silent fun _ => .skip (look_silent _) fun atEnd => ?_
    split
    · exact keeps_pure (.refl _)
    · exact (topLevelType_keeps keeping).bind fun d => keeps_pure (.refl _)
  · refine keeps_pure fun i => ?_
    cases package <;> simp [unitWords, Nodes.unit, Nodes.package, packageWords]

end Grammar

/-- A file holds no word more often than its tokens do. -/
theorem parseTokens_words {tokens : List Token} {size : Nat} {u : CompilationUnit}
    (parsed : parseTokens tokens size = .ok u) :
    FewerWords (Grammar.unitWords u) (Token.words tokens) := by
  unfold parseTokens at parsed
  split at parsed
  · rename_i read
    cases parsed
    have := (Grammar.compilationUnit_keeps (Grammar.level_keeping (tokens.length + 1))).count _ _ _ read
    intro i
    have := this i
    simp only [Cursor.words, List.count_nil] at this
    omega
  · cases parsed

end JavaIndex
