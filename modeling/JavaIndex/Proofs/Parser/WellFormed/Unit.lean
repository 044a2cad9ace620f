import JavaIndex.Parser.Unit
import JavaIndex.Proofs.Parser.WellFormed.Decls

/-! The types and the expressions of statements and of whole files are well formed. -/
namespace JavaIndex

namespace Grammar

open JavaIndex.Parser Subtree

variable {names : String → Prop} {g : Grammar}

theorem localDecl?_gives (forming : g.Forming names) {mods : Modifiers}
    (modified : All names (Subtrees.modifiers mods)) :
    Gives names (g.localDecl? mods) fun d? => ∀ d ∈ d?, All names (Subtrees.varDecl d) := by
  refine .bind (.attemptSome (w := fun t => All names (Subtrees.typeRef t)) ?_) fun type? typed => ?_
  · refine .skip (look_gives _) fun typed => .cond (gives_pure nofun) ?_
    refine .bind (.attempt (typeRef_gives forming)) fun type? held => ?_
    cases type? with
    | none => exact gives_pure nofun
    | some type => exact .skip (look_gives _) fun declares => .cond (gives_pure held) (gives_pure nofun)
  · cases type? with
    | none => exact gives_pure nofun
    | some type =>
      refine .bind (declarators_gives forming) fun vars held => gives_pure ?_
      simp only [Option.mem_some_iff, forall_eq', Subtrees.varDecl, Subtrees.declarators_eq, all_append, all_flatMap]
      exact ⟨modified, typed type rfl, held⟩

theorem elementVariable?_gives (forming : g.Forming names) :
    Gives names g.elementVariable? fun d? => ∀ d ∈ d?, All names (Subtrees.varDecl d) := by
  refine .attemptSome (.bind (modifiers_gives forming) fun mods modified => .skip (look_gives _) fun typed => ?_)
  refine .cond (gives_pure nofun) (.bind (.attempt (typeRef_gives forming)) fun type? held => ?_)
  cases type? with
  | none => exact gives_pure nofun
  | some type =>
    refine .skip (look_gives _) fun binds => .cond ?_ (gives_pure nofun)
    refine .skip ident_gives fun name => .skip pass_gives fun _ => gives_pure ?_
    simp only [Option.mem_some_iff, forall_eq', Subtrees.varDecl, Subtrees.declarators_eq, all_append,
      all_flatMap]
    exact ⟨modified, held type rfl, by simp⟩

theorem forInit_gives (forming : g.Forming names) :
    Gives names g.forInit fun ss => ∀ s ∈ ss, All names (Subtrees.stmt s) := by
  refine .skip (sees_gives _) fun empty => .cond (gives_pure nofun) ?_
  refine .bind (modifiers_gives forming) fun mods modified => .bind (localDecl?_gives forming modified) fun decl? held => ?_
  cases decl? with
  | some decl => exact gives_pure (List.forall_mem_singleton.mpr (by simpa only [Subtrees.stmt] using held decl rfl))
  | none => exact .sepBy _ (.map (forming.expr.imp fun e held => by simpa only [Subtrees.stmt] using held))

theorem forStmt_gives (forming : g.Forming names) : Gives names g.forStmt fun s => All names (Subtrees.stmt s) := by
  refine .skip (expect_gives _) fun _ => .skip (expect_gives _) fun _ => ?_
  refine .bind (elementVariable?_gives forming) fun decl? declared => ?_
  cases decl? with
  | some decl =>
    refine .bind forming.expr fun iterable held => .skip (expect_gives _) fun _ => ?_
    refine .bind forming.statement fun body held' => gives_pure ?_
    simp only [Subtrees.stmt, all_append]
    exact ⟨declared decl rfl, held, held'⟩
  | none =>
    refine .bind (forInit_gives forming) fun init formed => .skip (expect_gives _) fun _ => ?_
    refine .skip (sees_gives _) fun endless => ?_
    refine .either (gives_pure (by simp)) (.found forming.expr) fun condition held => .skip (expect_gives _) fun _ => ?_
    refine .bind (.commaList _ forming.expr) fun update held' => .skip (expect_gives _) fun _ => ?_
    refine .bind forming.statement fun body held'' => gives_pure ?_
    simp only [Subtrees.stmt, Subtrees.stmts_eq, Subtrees.expr?_eq, Subtrees.exprs_eq, all_append, all_flatMap, all_elim]
    exact ⟨formed, held, held', held''⟩

theorem resource_gives (forming : g.Forming names) : Gives names g.resource fun s => All names (Subtrees.stmt s) := by
  refine .bind (modifiers_gives forming) fun mods modified => .bind (localDecl?_gives forming modified) fun decl? held => ?_
  cases decl? with
  | some decl => exact gives_pure (by simpa only [Subtrees.stmt] using held decl rfl)
  | none => exact .bind forming.expr fun e held => gives_pure (by simpa only [Subtrees.stmt] using held)

theorem resources_gives (forming : g.Forming names) :
    Gives names g.resources fun ss => ∀ s ∈ ss, All names (Subtrees.stmt s) := by
  refine .skip (eat_gives _) fun given => .cond (gives_pure nofun) ?_
  refine .bind (v := fun r => ∀ s ∈ r.1, All names (Subtrees.stmt s)) (.iterate nofun ?_) fun (ss, _) held => ?_
  · refine fun (ss, more) held => .cond (gives_pure nofun) (.skip (eat_gives _) fun closed => ?_)
    refine .cond (gives_pure nofun) (.bind (resource_gives forming) fun r held' => ?_)
    have all (more : Bool) : ∀ r' ∈ some (r :: ss, more), ∀ s ∈ r'.1, All names (Subtrees.stmt s) := by
      simpa only [Option.mem_some_iff, forall_eq', List.forall_mem_cons] using ⟨held', held⟩
    refine .skip (eat_gives _) fun more => .cond (gives_pure (all true)) ?_
    exact .skip (expect_gives _) fun _ => gives_pure (all false)
  · exact gives_pure (by simpa only [List.mem_reverse] using held)

theorem catchClause_gives (forming : g.Forming names) :
    Gives names g.catchClause fun c => All names (Subtrees.catchClause c) := by
  refine .skip (expect_gives _) fun _ => .bind (modifiers_gives forming) fun mods modified => ?_
  refine .bind (.sepBy _ (typeRef_gives forming)) fun types typed => .skip ident_gives fun name => ?_
  refine .skip (expect_gives _) fun _ => .bind (block_gives forming) fun body held => gives_pure ?_
  simp only [Subtrees.catchClause, Subtrees.typeRefs_eq, all_append, all_flatMap]
  exact ⟨modified, typed, held⟩

theorem tryStmt_gives (forming : g.Forming names) : Gives names g.tryStmt fun s => All names (Subtrees.stmt s) := by
  refine .skip (expect_gives _) fun _ => .bind (resources_gives forming) fun resources opened => ?_
  refine .bind (block_gives forming) fun body held => ?_
  refine .bind (.many (w := fun c => All names (Subtrees.catchClause c)) ?_) fun catches caught => ?_
  · refine .skip (eat_gives _) fun catches => .cond ?_ (gives_pure nofun)
    refine .bind (catchClause_gives forming) fun c held => gives_pure ?_
    simpa only [Option.mem_some_iff, forall_eq'] using held
  refine .skip (eat_gives _) fun closes => ?_
  refine .either (.found (block_gives forming)) (gives_pure nofun) fun closing closed => ?_
  refine .skipIf (v := fun _ => True) (fail_gives _) fun _ => gives_pure ?_
  simp only [Subtrees.stmt, Subtrees.stmts_eq, Subtrees.catchClauses_eq, Subtrees.block?_eq, all_append, all_flatMap,
    all_elim]
  exact ⟨opened, held, caught, closed⟩

theorem localOrExpr_gives (forming : g.Forming names) :
    Gives names g.localOrExpr fun s => All names (Subtrees.stmt s) := by
  have locals {decl : VarDecl} (held : All names (Subtrees.varDecl decl)) :
      Gives names (do discard (expect ";"); return Stmt.locals decl) fun s => All names (Subtrees.stmt s) :=
    .skip (expect_gives _) fun _ => gives_pure (by simpa only [Subtrees.stmt] using held)
  refine .skip (look_gives _) fun doc => .skip (look_gives _) fun start => .skip (look_gives _) fun declares => ?_
  refine .cond (.bind (modifiers_gives forming) fun mods modified => .skip (look_gives _) fun isType => .cond ?_ ?_) ?_
  · refine .bind (typeDecl_gives forming modified doc start) fun d held => gives_pure ?_
    simpa only [Subtrees.stmt] using held
  · refine .bind (localDecl?_gives forming modified) fun decl? held => ?_
    cases decl? with
    | some decl => exact locals (held decl rfl)
    | none => exact fail_gives _
  · refine .bind (localDecl?_gives forming (by simp [Modifiers.none])) fun decl? held => ?_
    cases decl? with
    | some decl => exact locals (held decl rfl)
    | none =>
      refine .bind (fullExpr_gives forming) fun e held => .skip (expect_gives _) fun _ => gives_pure ?_
      simpa only [Subtrees.stmt] using held

theorem jump_gives {make : Option Ident → Stmt} (empty : ∀ label, Subtrees.stmt (make label) = []) :
    Gives names (jump make) fun s => All names (Subtrees.stmt s) := by
  have named : Gives names (some <$> ident) fun _ => True := .map (ident_gives.imp fun _ _ => trivial)
  refine .skip pass_gives fun _ => .skip (look_gives _) fun labels => ?_
  refine .either named (gives_pure trivial) fun label _ => .skip (expect_gives _) fun _ => gives_pure ?_
  rw [empty]
  exact all_nil

theorem keywordExpr_gives (forming : g.Forming names) {make : Expr → Stmt}
    (same : ∀ e, Subtrees.stmt (make e) = Subtrees.expr e) :
    Gives names (g.keywordExpr make) fun s => All names (Subtrees.stmt s) := by
  refine .skip pass_gives fun _ => .bind forming.expr fun e held => .skip (expect_gives _) fun _ => gives_pure ?_
  rwa [same]

theorem ifStmt_gives (forming : g.Forming names) : Gives names g.ifStmt fun s => All names (Subtrees.stmt s) := by
  refine .skip (expect_gives _) fun _ => .bind (parenExpr_gives forming) fun condition tested => ?_
  refine .bind forming.statement fun thenBranch held => .skip (eat_gives _) fun other => .cond ?_ (gives_pure ?_)
  · refine .bind forming.statement fun elseBranch held' => gives_pure ?_
    simp only [Subtrees.stmt, all_append]
    exact ⟨tested, held, held'⟩
  · simp only [Subtrees.stmt, all_append]
    exact ⟨tested, held⟩

theorem doStmt_gives (forming : g.Forming names) : Gives names g.doStmt fun s => All names (Subtrees.stmt s) := by
  refine .skip (expect_gives _) fun _ => .bind forming.statement fun body held => .skip (expect_gives _) fun _ => ?_
  refine .bind (parenExpr_gives forming) fun condition tested => .skip (expect_gives _) fun _ => gives_pure ?_
  simp only [Subtrees.stmt, all_append]
  exact ⟨held, tested⟩

theorem returnStmt_gives (forming : g.Forming names) :
    Gives names g.returnStmt fun s => All names (Subtrees.stmt s) := by
  refine .skip (expect_gives _) fun _ => .skip (sees_gives _) fun empty => ?_
  refine .either (gives_pure nofun) (.found forming.expr) fun value held => .skip (expect_gives _) fun _ => ?_
  refine gives_pure ?_
  simp only [Subtrees.stmt, Subtrees.expr?_eq, all_elim]
  exact held

theorem assertStmt_gives (forming : g.Forming names) :
    Gives names g.assertStmt fun s => All names (Subtrees.stmt s) := by
  refine .skip (expect_gives _) fun _ => .bind forming.expr fun condition tested => .skip (eat_gives _) fun told => ?_
  refine .either (.found forming.expr) (gives_pure nofun) fun message held => .skip (expect_gives _) fun _ => ?_
  refine gives_pure ?_
  simp only [Subtrees.stmt, Subtrees.expr?_eq, all_append, all_elim]
  exact ⟨tested, held⟩

theorem stmt_gives (forming : g.Forming names) : Gives names g.stmt fun s => All names (Subtrees.stmt s) := by
  refine .skip (look_gives _) fun atEnd => .cond (fail_gives _) (.skip (sees_gives _) fun braced => .cond ?_ ?_)
  · exact .bind (block_gives forming) fun b held => gives_pure (by simpa only [Subtrees.stmt] using held)
  refine .skip (eat_gives _) fun empty => .cond (gives_pure (by simp only [Subtrees.stmt, all_nil])) ?_
  refine .skip (sees_gives _) fun chooses => .cond (ifStmt_gives forming) (.skip (eat_gives _) fun loops => .cond ?_ ?_)
  · refine .bind (parenExpr_gives forming) fun condition tested => .bind forming.statement fun body held => ?_
    exact gives_pure (by simpa only [Subtrees.stmt, all_append] using ⟨tested, held⟩)
  refine .skip (sees_gives _) fun does => .cond (doStmt_gives forming) ?_
  refine .skip (sees_gives _) fun counts => .cond (forStmt_gives forming) ?_
  refine .skip (sees_gives _) fun returns => .cond (returnStmt_gives forming) ?_
  refine .skip (sees_gives _) fun throws => .cond (keywordExpr_gives forming fun e => by rw [Subtrees.stmt]) ?_
  refine .skip (sees_gives _) fun breaks => .cond (jump_gives fun label => by rw [Subtrees.stmt]) ?_
  refine .skip (sees_gives _) fun continues => .cond (jump_gives fun label => by rw [Subtrees.stmt]) ?_
  refine .skip (sees_gives _) fun tries => .cond (tryStmt_gives forming) ?_
  refine .skip (sees_gives _) fun switches => .cond ?_ ?_
  · refine .bind (switchOf_gives forming fun e cs range held held' => ?_) fun s held =>
      .skip (.discard (eat_gives _)) fun _ => gives_pure held
    simpa only [Subtrees.stmt, Subtrees.switchCases_eq, all_append, all_flatMap] using ⟨held, held'⟩
  refine .skip (look_gives _) fun locks => .cond (.skip pass_gives fun _ => ?_) ?_
  · refine .bind (parenExpr_gives forming) fun lock held => .bind (block_gives forming) fun b held' => ?_
    exact gives_pure (by simpa only [Subtrees.stmt, all_append] using ⟨held, held'⟩)
  refine .skip (sees_gives _) fun asserts => .cond (assertStmt_gives forming) ?_
  refine .skip (look_gives _) fun labels => .cond ?_ (.skip (look_gives _) fun yields => .cond ?_ ?_)
  · refine .skip ident_gives fun label => .skip pass_gives fun _ => .bind forming.statement fun body held => ?_
    exact gives_pure (by simpa only [Subtrees.stmt] using held)
  · exact keywordExpr_gives forming fun e => by rw [Subtrees.stmt]
  · exact localOrExpr_gives forming

end Grammar

/-! Files. -/

namespace Grammar

open JavaIndex.Parser Subtree

/-- Every level of the grammar answers with what is well formed. -/
theorem level_forming (names : String → Prop) (n : Nat) : (level n).Forming names := by
  induction n with
  | zero => constructor <;> intros <;> first | exact tooDeep_gives | contradiction
  | succ n ih =>
    exact {
      type := typeRef_gives ih
      elementValue := annotationValue_gives ih
      variableInit := initializer_gives ih
      expr := fullExpr_gives ih
      ternary := ternaryExpr_gives ih
      binary := binaryExpr_gives ih
      climbed := fun _ _ _ _ named run => (binaryExpr_climbed ih named run).1
      unary := (unaryExpr_gives ih).imp fun _ => And.right
      statement := stmt_gives ih
      member := classMember_gives ih
      classBody := .map ((body_gives ih _).imp fun _ => And.right) }

variable {names : String → Prop} {g : Grammar}

theorem packageClause_gives (forming : g.Forming names) : Gives names g.packageClause fun p? =>
    ∀ p ∈ p?, All names (Subtrees.annotations p.annotations) := by
  refine .attemptSome (.skip (look_gives _) fun start => .bind (annotations_gives forming) fun as formed => ?_)
  refine .skip (eat_gives _) fun named => .cond (gives_pure nofun) (.skip qualifiedName_gives fun name => ?_)
  refine .skip (expect_gives _) fun _ => gives_since fun range => ?_
  simpa only [Option.mem_some_iff, forall_eq', Subtrees.annotations_eq, all_flatMap] using formed

theorem importStep_gives (r : List Ident × Bool) : Gives names (importStep r) fun _ => True := by
  obtain ⟨path, all⟩ := r
  cases all with
  | true => exact gives_pure trivial
  | false =>
    refine .skip (eat_gives _) fun dot => .cond (gives_pure trivial) ?_
    exact .skip (eat_gives _) fun star => .cond (gives_pure trivial) (.skip ident_gives fun name => gives_pure trivial)

theorem importDecl_gives : Gives names importDecl fun _ => True := by
  refine .skip (look_gives _) fun start => .skip (expect_gives _) fun _ => ?_
  refine .skip (eat_gives _) fun static => .skip ident_gives fun first => ?_
  refine .skip (v := fun _ => True) (.iterate trivial fun r _ => ?_) fun (path, all) => ?_
  · exact (importStep_gives r).imp fun _ _ _ _ => trivial
  · exact .skip (expect_gives _) fun _ => gives_since fun range => trivial

theorem topLevelType_gives (forming : g.Forming names) :
    Gives names g.topLevelType fun d => All names (Subtrees.typeDecl d) := by
  refine .skip (look_gives _) fun doc => .skip (look_gives _) fun start => ?_
  exact .bind (modifiers_gives forming) fun mods modified => typeDecl_gives forming modified doc start

theorem compilationUnit_gives (forming : g.Forming names) :
    Gives names g.compilationUnit fun u => All names (Subtrees.unit u) := by
  refine .bind (packageClause_gives forming) fun package held => .skip (.manyWhile _ importDecl_gives) fun imports => ?_
  refine .bind (.many (w := fun d => All names (Subtrees.typeDecl d)) ?_) fun types held' => gives_pure ?_
  · refine .skip semicolons_gives fun _ => .skip (look_gives _) fun atEnd => .cond (gives_pure nofun) ?_
    refine .bind (topLevelType_gives forming) fun d held => gives_pure ?_
    simpa only [Option.mem_some_iff, forall_eq'] using held
  · simp only [Subtrees.unit, all_append, all_elim, all_flatMap]
    exact ⟨held, held'⟩

end Grammar

/-- What is read from tokens is well formed. -/
theorem parseTokens_wellFormed {names : String → Prop} {tokens : List Token} {size : Nat} {u : CompilationUnit}
    (named : ∀ t ∈ tokens, t.kind = .identifier → names t.text) (parsed : parseTokens tokens size = .ok u) :
    Subtree.All names (Subtrees.unit u) := by
  unfold parseTokens at parsed
  split at parsed
  · rename_i u' c run
    cases parsed
    have begins : Cursor.Named names ⟨tokens, 0, size⟩ := named
    exact ((Grammar.compilationUnit_gives (Grammar.level_forming names _)).answers _ _ _ begins run).1
  · cases parsed

end JavaIndex
