import JavaIndex.Parser.Unit
import JavaIndex.Proofs.Parser.Faithful.Decls
import JavaIndex.Proofs.Parser.Source
import JavaIndex.Proofs.Token.Tiling

/-! The identifiers of statements are read in their order. Those of a file are tokens of its text, each of them once and
in their order, and no declaration ends before one that it holds. -/
namespace JavaIndex

namespace Grammar

open JavaIndex.Parser

variable {g : Grammar} {here : Cursor → Prop}

theorem localDecl?_reads (reading : g.Reading) (mods : Modifiers) :
    ReadsFrom here (Spots.modifiers mods) (g.localDecl? mods) (·.elim [] Spots.varDecl) := by
  refine .bind (w := (·.elim [] Spots.typeRef)) (.attemptSome ?_) fun type? => ?_
  · refine .skip (look_unnamed _) fun typed => .cond (reads_pure (.refl _)) ?_
    refine .bind (.attempt (typeRef_reads reading)) fun type? => ?_
    cases type? with
    | none => exact reads_pure (.refl _)
    | some type => exact .skip (look_unnamed _) fun declares => .cond (reads_pure (by simp)) (reads_pure (by simp))
  · cases type? with
    | none => exact reads_pure (by simp)
    | some type => exact .bind (declarators_reads reading) fun vars => reads_pure (by simp)

theorem elementVariable?_reads (reading : g.Reading) :
    Reads [] g.elementVariable? (·.elim [] Spots.varDecl) := by
  refine .attemptSome (.bind (modifiers_reads reading) fun mods => .skip (look_unnamed _) fun typed => ?_)
  refine .cond (reads_pure (by simp)) (.bind (.attempt (typeRef_reads reading)) fun type? => ?_)
  cases type? with
  | none => exact reads_pure (by simp)
  | some type =>
    refine .skip (look_unnamed _) fun binds => .cond ?_ (reads_pure (by simp))
    refine .bind ident_reads fun name => .skip pass_unnamed fun _ => ?_
    exact reads_pure (by simp)

theorem forInit_reads (reading : g.Reading) : Reads [] g.forInit fun ss => ss.flatMap Spots.stmt := by
  refine .skip (sees_unnamed _) fun empty => .cond (reads_pure (.refl _)) ?_
  refine .bind (modifiers_reads reading) fun mods => .seq (localDecl?_reads reading mods) fun decl? => ?_
  cases decl? with
  | some decl => exact reads_pure (by simp)
  | none =>
    have one : Reads [] (Stmt.expr <$> g.expr) Spots.stmt :=
      .map (.fewer reading.expr fun e => by simp)
    exact .sepBy _ one

theorem forStmt_reads (reading : g.Reading) : Reads [] g.forStmt Spots.stmt := by
  refine .skip (.discard (expect_unnamed _)) fun _ => .skip (.discard (expect_unnamed _)) fun _ => ?_
  refine .bind (elementVariable?_reads reading) fun decl? => ?_
  cases decl? with
  | some decl =>
    refine .bind reading.expr fun iterable => .skip (.discard (expect_unnamed _)) fun _ => ?_
    exact .bind reading.statement fun body => reads_pure (by simp)
  | none =>
    refine .bind (forInit_reads reading) fun init => .skip (.discard (expect_unnamed _)) fun _ => ?_
    refine .skip (sees_unnamed _) fun endless => ?_
    refine .either (reads_pure (.refl _)) (.found reading.expr) fun condition => ?_
    refine .skip (.discard (expect_unnamed _)) fun _ => .bind (.commaList _ reading.expr) fun update => ?_
    refine .skip (.discard (expect_unnamed _)) fun _ => .bind reading.statement fun body => ?_
    exact reads_pure (by simp)

theorem resource_reads (reading : g.Reading) : Reads [] g.resource Spots.stmt := by
  refine .bind (modifiers_reads reading) fun mods => .seq (localDecl?_reads reading mods) fun decl? => ?_
  cases decl? with
  | some decl => exact reads_pure (by simp)
  | none => exact .bind reading.expr fun e => reads_pure (by simp)

theorem resources_reads (reading : g.Reading) : Reads [] g.resources fun ss => ss.flatMap Spots.stmt := by
  refine .skip (eat_unnamed _) fun given => .cond (reads_pure (.refl _)) ?_
  refine .seq (w := fun r => r.1.reverse.flatMap Spots.stmt) (.iterate (.refl []) ?_) fun (ss, _) =>
    reads_pure (.refl _)
  refine fun (ss, more) => .cond (reads_pure (.refl _)) (.skip (eat_unnamed _) fun closed => ?_)
  refine .cond (reads_pure (.refl _)) (.bind (resource_reads reading) fun r => ?_)
  refine .skip (eat_unnamed _) fun more => .cond (reads_pure (by simp)) ?_
  exact .skip (.discard (expect_unnamed _)) fun _ => reads_pure (by simp)

theorem catchClause_reads (reading : g.Reading) : Reads [] g.catchClause Spots.catchClause := by
  refine .skip (.discard (expect_unnamed _)) fun _ => .bind (modifiers_reads reading) fun mods => ?_
  refine .bind (.sepBy _ (typeRef_reads reading)) fun types => .bind ident_reads fun name => ?_
  refine .skip (.discard (expect_unnamed _)) fun _ => .bind (block_reads reading) fun body => ?_
  exact reads_pure (by simp)

theorem tryStmt_reads (reading : g.Reading) : Reads [] g.tryStmt Spots.stmt := by
  refine .skip (.discard (expect_unnamed _)) fun _ => .bind (resources_reads reading) fun resources => ?_
  refine .bind (block_reads reading) fun body => ?_
  refine .bind (w := fun cs => cs.flatMap Spots.catchClause) (.many ?_) fun catches => ?_
  · refine .skip (eat_unnamed _) fun catches => .cond ?_ (reads_pure (.refl _))
    exact .bind (catchClause_reads reading) fun c => reads_pure (by simp)
  refine .skip (eat_unnamed _) fun closes => ?_
  refine .either (.found (block_reads reading)) (reads_pure (.refl _)) fun closing => ?_
  exact .skipIf (fail_reads _) fun _ => reads_pure (by simp)

theorem localOrExpr_reads (reading : g.Reading) : Reads [] g.localOrExpr Spots.stmt := by
  refine .skip (look_unnamed _) fun doc => .started fun start => ?_
  refine .skip (look_unnamed _) fun declares => .cond ?_ ?_
  · refine .bind (modifiers_reads reading) fun mods => .skip (look_unnamed _) fun isType => .cond ?_ ?_
    · exact .seq (typeDecl_reads reading mods doc start) fun d => reads_pure (by simp)
    refine .seq (localDecl?_reads reading mods) fun decl? => ?_
    cases decl? with
    | some decl => exact .skip (.discard (expect_unnamed _)) fun _ => reads_pure (by simp)
    | none => exact fail_reads _
  · refine .leaving (Spots.modifiers .none) (by simp [Modifiers.none]) ?_
    refine .seq (localDecl?_reads reading .none) fun decl? => ?_
    cases decl? with
    | some decl => exact .skip (.discard (expect_unnamed _)) fun _ => reads_pure (by simp)
    | none =>
      refine .bind (fullExpr_reads reading) fun e => .skip (.discard (expect_unnamed _)) fun _ => ?_
      exact reads_pure (by simp)

theorem jump_reads {make : Option Ident → Stmt}
    (same : ∀ label, Spots.stmt (make label) = Spots.names label.toList) : Reads [] (jump make) Spots.stmt := by
  refine .skip pass_unnamed fun _ => .skip (look_unnamed _) fun named => ?_
  refine .either (.found ident_reads) (reads_pure (.refl _)) fun label => ?_
  exact .skip (.discard (expect_unnamed _)) fun _ => reads_pure (by simp [same])

theorem keywordExpr_reads (reading : g.Reading) {make : Expr → Stmt}
    (same : ∀ e, Spots.stmt (make e) = Spots.expr e) : Reads [] (g.keywordExpr make) Spots.stmt := by
  refine .skip pass_unnamed fun _ => .bind reading.expr fun e => .skip (.discard (expect_unnamed _)) fun _ => ?_
  exact reads_pure (by simp [same])

theorem ifStmt_reads (reading : g.Reading) : Reads [] g.ifStmt Spots.stmt := by
  refine .skip (.discard (expect_unnamed _)) fun _ => .bind (parenExpr_reads reading) fun condition => ?_
  refine .bind reading.statement fun thenBranch => .skip (eat_unnamed _) fun other => .cond ?_ ?_
  · exact .bind reading.statement fun elseBranch => reads_pure (by simp)
  · exact reads_pure (by simp)

theorem doStmt_reads (reading : g.Reading) : Reads [] g.doStmt Spots.stmt := by
  refine .skip (.discard (expect_unnamed _)) fun _ => .bind reading.statement fun body => ?_
  refine .skip (.discard (expect_unnamed _)) fun _ => .bind (parenExpr_reads reading) fun condition => ?_
  exact .skip (.discard (expect_unnamed _)) fun _ => reads_pure (by simp)

theorem returnStmt_reads (reading : g.Reading) : Reads [] g.returnStmt Spots.stmt := by
  refine .skip (.discard (expect_unnamed _)) fun _ => .skip (sees_unnamed _) fun empty => ?_
  refine .either (reads_pure (.refl _)) (.found reading.expr) fun value => ?_
  exact .skip (.discard (expect_unnamed _)) fun _ => reads_pure (by simp)

theorem assertStmt_reads (reading : g.Reading) : Reads [] g.assertStmt Spots.stmt := by
  refine .skip (.discard (expect_unnamed _)) fun _ => .bind reading.expr fun condition => ?_
  refine .skip (eat_unnamed _) fun told => .either (.found reading.expr) (reads_pure (.refl _)) fun message => ?_
  exact .skip (.discard (expect_unnamed _)) fun _ => reads_pure (by simp)

theorem stmt_reads (reading : g.Reading) : Reads [] g.stmt Spots.stmt := by
  refine .skip (look_unnamed _) fun atEnd => .cond (fail_reads _) (.skip (sees_unnamed _) fun braced => .cond ?_ ?_)
  · exact .bind (block_reads reading) fun b => reads_pure (by simp)
  refine .skip (eat_unnamed _) fun empty => .cond (reads_pure (by simp)) ?_
  refine .skip (sees_unnamed _) fun chooses => .cond (ifStmt_reads reading) ?_
  refine .skip (eat_unnamed _) fun loops => .cond ?_ ?_
  · refine .bind (parenExpr_reads reading) fun condition => .bind reading.statement fun body => ?_
    exact reads_pure (by simp)
  refine .skip (sees_unnamed _) fun does => .cond (doStmt_reads reading) ?_
  refine .skip (sees_unnamed _) fun counts => .cond (forStmt_reads reading) ?_
  refine .skip (sees_unnamed _) fun returns => .cond (returnStmt_reads reading) ?_
  refine .skip (sees_unnamed _) fun throws => .cond (keywordExpr_reads reading (by simp)) ?_
  refine .skip (sees_unnamed _) fun breaks => .cond (jump_reads (by simp)) ?_
  refine .skip (sees_unnamed _) fun continues => .cond (jump_reads (by simp)) ?_
  refine .skip (sees_unnamed _) fun tries => .cond (tryStmt_reads reading) ?_
  refine .skip (sees_unnamed _) fun switches => .cond ?_ ?_
  · refine .seq (switchOf_reads reading (w := Spots.stmt) (by simp)) fun s => ?_
    exact .skip (.discard (eat_unnamed _)) fun _ => reads_pure (.refl _)
  refine .skip (look_unnamed _) fun locks => .cond (.skip pass_unnamed fun _ => ?_) ?_
  · refine .bind (parenExpr_reads reading) fun lock => .bind (block_reads reading) fun b => ?_
    exact reads_pure (by simp)
  refine .skip (sees_unnamed _) fun asserts => .cond (assertStmt_reads reading) ?_
  refine .skip (look_unnamed _) fun labels => .cond ?_ (.skip (look_unnamed _) fun yields => .cond ?_ ?_)
  · refine .bind ident_reads fun label => .skip pass_unnamed fun _ => .bind reading.statement fun body => ?_
    exact reads_pure (by simp)
  · exact keywordExpr_reads reading (by simp)
  · exact localOrExpr_reads reading

end Grammar

/-! Files. -/

namespace Grammar

open JavaIndex.Parser

/-- Every level of the grammar answers with the identifiers that it read. -/
theorem level_reading (n : Nat) : (level n).Reading := by
  induction n with
  | zero => constructor <;> intros <;> exact tooDeep_reads
  | succ n ih =>
    exact {
      type := typeRef_reads ih
      elementValue := annotationValue_reads ih
      variableInit := initializer_reads ih
      expr := fullExpr_reads ih
      ternary := ternaryExpr_reads ih
      binary := binaryExpr_reads ih
      unary := unaryExpr_reads ih
      statement := stmt_reads ih
      member := classMember_reads ih
      classBody := .map (.fewer (body_reads ih _) fun r => List.sublist_append_right ..) }

variable {g : Grammar} {here : Cursor → Prop}

theorem packageClause_reads (reading : g.Reading) : Reads [] g.packageClause (·.elim [] Spots.packageDecl) := by
  refine .attemptSome (.skip (look_unnamed _) fun start => .bind (annotations_reads reading) fun as => ?_)
  refine .skip (eat_unnamed _) fun named => .cond (reads_pure (by simp)) (.bind qualifiedName_reads fun name => ?_)
  refine .skip (.discard (expect_unnamed _)) fun _ => .skip (since_unnamed _) fun range => ?_
  exact reads_pure (by simp [Spots.packageDecl])

theorem importStep_reads (r : List Ident × Bool) :
    ReadsFrom here (Spots.names r.1) (importStep r) fun r' => Spots.names (r'.getD r).1 := by
  obtain ⟨names, all⟩ := r
  cases all with
  | true => exact reads_pure (.refl _)
  | false =>
    refine .skip (eat_unnamed _) fun dot => .cond (reads_pure (.refl _)) ?_
    refine .skip (eat_unnamed _) fun star => .cond (reads_pure (.refl _)) ?_
    exact .bind ident_reads fun name => reads_pure (by simp [Spots.names])

theorem importDecl_reads : Reads [] importDecl Spots.importDecl := by
  refine .skip (look_unnamed _) fun start => .skip (.discard (expect_unnamed _)) fun _ => ?_
  refine .skip (eat_unnamed _) fun static => .seq ident_reads fun first => ?_
  refine .seq (w := fun r => Spots.names r.1) (.iterate (.refl _) importStep_reads) fun (path, all) => ?_
  refine .skip (.discard (expect_unnamed _)) fun _ => .skip (since_unnamed _) fun range => ?_
  exact reads_pure (by simp [Spots.importDecl])

theorem topLevelType_reads (reading : g.Reading) : Reads [] g.topLevelType Spots.typeDecl := by
  refine .skip (look_unnamed _) fun doc => .started fun start => ?_
  exact .bind (modifiers_reads reading) fun mods => typeDecl_reads reading mods doc start

theorem compilationUnit_reads (reading : g.Reading) : Reads [] g.compilationUnit Spots.unit := by
  refine .bind (packageClause_reads reading) fun package => .bind (.manyWhile _ importDecl_reads) fun imports => ?_
  refine .bind (w := fun ds => ds.flatMap Spots.typeDecl) (.many ?_) fun types => ?_
  · refine .skip semicolons_unnamed fun _ => .skip (look_unnamed _) fun atEnd => .cond (reads_pure (.refl _)) ?_
    exact .bind (topLevelType_reads reading) fun d => reads_pure (by simp)
  · exact reads_pure (by simp [Spots.unit])

end Grammar

/-- The identifiers of a file are tokens in the order of the text. -/
theorem parseTokens_spots {tokens : List Token} {size : Nat} {u : CompilationUnit} (inOrder : Token.InOrder tokens)
    (parsed : parseTokens tokens size = .ok u) :
    ((Spots.unit u).map Spot.ident).Sublist (tokens.map Token.ident) ∧ ∀ s ∈ Spots.unit u, s.Inside := by
  unfold parseTokens at parsed
  split at parsed
  · rename_i u' c run
    cases parsed
    have begin := Cursor.Passed.begin (c := ⟨tokens, 0, size⟩) inOrder
    have all := (Grammar.compilationUnit_reads (Grammar.level_reading _)).passed _ _ _ _ trivial begin run
    obtain ⟨k, -, read⟩ := all.read
    exact ⟨read.trans ((List.take_sublist k tokens).map _), all.inside⟩
  · cases parsed

/-- The identifiers of a tree are what the text says they are. -/
structure Faithful (source : String) (tokens : List Token) (u : CompilationUnit) : Prop where
  spelled : ∀ s ∈ Spots.unit u, s.ident.range.slice source = s.ident.text
  token : ∀ s ∈ Spots.unit u, ∃! t, t ∈ tokens ∧ t.range = s.ident.range
  disjoint : (Spots.unit u).Pairwise fun s s' => s.ident.range.stop ≤ s'.ident.range.start
  inside : ∀ s ∈ Spots.unit u, s.Inside

namespace Tiling

variable {source : String} {tokens : List Token} (tiling : Tiling source tokens)

include tiling

theorem inOrder : Token.InOrder tokens where
  forward t mem := Nat.le_of_lt (tiling.nonempty t mem)
  apart := tiling.ordered

/-- No two tokens of a text share their span. -/
theorem eq_of_range {t u : Token} (ht : t ∈ tokens) (hu : u ∈ tokens) (same : t.range = u.range) : t = u := by
  by_contra other
  have symm : Std.Symm fun t u : Token => t.range.stop ≤ u.range.start ∨ u.range.stop ≤ t.range.start :=
    ⟨fun _ _ => Or.symm⟩
  have apart : tokens.Pairwise fun t u => t.range.stop ≤ u.range.start ∨ u.range.stop ≤ t.range.start :=
    tiling.ordered.imp Or.inl
  have either := apart.forall ht hu other
  have nonempty := tiling.nonempty u hu
  rw [same] at either
  omega

end Tiling

/-- What has been parsed is a faithful image of the text. -/
theorem parse_faithful {source : String} {u : CompilationUnit} (parsed : parse source = .ok u) :
    ∃ tokens, tokenize source = .ok tokens ∧ Faithful source tokens u := by
  obtain ⟨tokens, read, built⟩ := parse_tokens parsed
  have tiling := tokenize_tiling read
  obtain ⟨sub, inside⟩ := parseTokens_spots tiling.inOrder built
  -- the token of an identifier
  have spot (s : Spot) (mem : s ∈ Spots.unit u) : ∃ t ∈ tokens, t.ident = s.ident := by
    simpa using sub.subset (List.mem_map_of_mem mem)
  refine ⟨tokens, read, ?_, ?_, ?_, inside⟩
  · intro s mem
    obtain ⟨t, ht, same⟩ := spot s mem
    have slice := (tiling.spelled t ht).slice
    rw [String.ofList_toList] at slice
    rw [← same]
    exact slice
  · intro s mem
    obtain ⟨t, ht, same⟩ := spot s mem
    have range : t.range = s.ident.range := congrArg Ident.range same
    refine ⟨t, ⟨ht, range⟩, ?_⟩
    rintro v ⟨hv, range'⟩
    exact tiling.eq_of_range hv ht (range'.trans range.symm)
  · have ordered : (tokens.map Token.ident).Pairwise fun i j => i.range.stop ≤ j.range.start :=
      List.pairwise_map.mpr tiling.ordered
    exact List.pairwise_map.mp (ordered.sublist sub)

/-- A conversion to a type, which is tried before an expression is read in its place, leaves no identifiers behind. -/
theorem parse_faithful_tried :
    let source := "@A class C \x7b int f = (a) - (b) c; void m() \x7b x.y z = a.b; l: for (D d : e) break l; \x7d \x7d"
    ∃ u, parse source = .ok u ∧ ∃ tokens, tokenize source = .ok tokens ∧ Faithful source tokens u := by
  intro source
  have parsed : parse source = .ok _ := parse_eq_ok (by decide +kernel)
  exact ⟨_, parsed, parse_faithful parsed⟩

end JavaIndex
