import JavaIndex.Parser.Exprs
import JavaIndex.Proofs.Parser.Faithful.Types

/-! The identifiers of expressions are read in their order. -/
namespace JavaIndex.Grammar

open JavaIndex.Parser

variable {g : Grammar} {here : Cursor → Prop}

theorem block_reads (reading : g.Reading) : Reads [] g.block Spots.block := by
  refine .skip (look_unnamed _) fun start => .skip (.discard (expect_unnamed _)) fun _ => ?_
  refine .bind (w := fun ss => ss.flatMap Spots.stmt) (.many ?_) fun ss => ?_
  · refine .skip (eat_unnamed _) fun closed => .cond (reads_pure (.refl _)) ?_
    refine .skip (look_unnamed _) fun atEnd => .skipIf (fail_reads _) fun _ => ?_
    exact .bind reading.statement fun s => reads_pure (by simp)
  · exact .skip (since_unnamed _) fun range => reads_pure (by simp)

theorem arrayValues_reads {value : Parser Expr} (h : Reads [] value Spots.expr) :
    Reads [] (arrayValues value) fun es => es.flatMap Spots.expr := by
  refine .skip (.discard (expect_unnamed _)) fun _ => ?_
  refine .seq (w := fun r => r.1.reverse.flatMap Spots.expr) (.iterate (.refl []) ?_) fun (es, _) => ?_
  · refine fun (es, more) => .skip (sees_unnamed _) fun closed => .cond (reads_pure (.refl _)) ?_
    exact .bind h fun e => .skip (eat_unnamed _) fun more => reads_pure (by simp)
  · exact .skip (.discard (expect_unnamed _)) fun _ => reads_pure (.refl _)

theorem arrayInit_reads {value : Parser Expr} (h : Reads [] value Spots.expr) :
    Reads [] (arrayInit value) Spots.expr := by
  refine .skip (look_unnamed _) fun start => .bind (arrayValues_reads h) fun es => ?_
  exact .skip (since_unnamed _) fun range => reads_pure (by simp)

theorem args_reads (reading : g.Reading) : Reads [] g.args fun es => es.flatMap Spots.expr :=
  .parens reading.expr

theorem parenExpr_reads (reading : g.Reading) : Reads [] g.parenExpr Spots.expr := by
  refine .skip (.discard (expect_unnamed _)) fun _ => .bind reading.expr fun e => ?_
  exact .skip (.discard (expect_unnamed _)) fun _ => reads_pure (by simp)

theorem lambdaParam_reads (reading : g.Reading) : Reads [] g.lambdaParam Spots.lambdaParam := by
  refine .skip (look_unnamed _) fun bare => .cond ?_ ?_
  · exact .bind ident_reads fun name => reads_pure (by simp [Modifiers.none])
  refine .bind (modifiers_reads reading) fun mods => .bind (typeRef_reads reading) fun type => ?_
  refine .skip (eat_unnamed _) fun varargs => .cond ?_ ?_
  · refine .seq (w := fun t => Spots.modifiers mods ++ Spots.typeRef t) (reads_pure (by simp)) ?_
    exact fun type => .bind ident_reads fun name => reads_pure (by simp)
  · refine .seq (w := fun t => Spots.modifiers mods ++ Spots.typeRef t) (reads_pure (by simp)) ?_
    exact fun type => .bind ident_reads fun name => reads_pure (by simp)

theorem lambda_reads (reading : g.Reading) : Reads [] g.lambda Spots.expr := by
  refine .skip (look_unnamed _) fun start => .skip (look_unnamed _) fun bare => ?_
  have single : Reads [] (do let name ← ident; pure [(⟨.none, none, name⟩ : LambdaParam)])
      fun ps => ps.flatMap Spots.lambdaParam :=
    .bind ident_reads fun name => reads_pure (by simp [Modifiers.none])
  refine .stepsOr single (.parens (lambdaParam_reads reading)) fun ps => ?_
  refine .skip (.discard (expect_unnamed _)) fun _ => .skip (sees_unnamed _) fun braced => .cond ?_ ?_
  · refine .bind (block_reads reading) fun body => .skip (since_unnamed _) fun range => ?_
    exact reads_pure (by simp)
  · refine .bind reading.expr fun body => .skip (since_unnamed _) fun range => ?_
    exact reads_pure (by simp)

theorem caseLabel_reads (reading : g.Reading) : Reads [] g.caseLabel Spots.caseLabel := by
  refine .skip (eat_unnamed _) fun default => .cond (reads_pure (by simp)) ?_
  refine .bind (w := (·.elim [] Spots.caseLabel)) (.attemptSome ?_) fun label => ?_
  · refine .skip (look_unnamed _) fun typed => .cond (reads_pure (.refl _)) ?_
    refine .bind (.attempt (typeRef_reads reading)) fun type => ?_
    cases type with
    | none => exact reads_pure (.refl _)
    | some type =>
      refine .skip (look_unnamed _) fun binds => .cond ?_ (reads_pure (by simp))
      exact .bind ident_reads fun name => reads_pure (by simp)
  · cases label with
    | some label => exact reads_pure (by simp)
    | none => exact .bind reading.ternary fun e => reads_pure (by simp)

theorem caseRule_reads (reading : g.Reading) : Reads [] g.caseRule Spots.stmt := by
  refine .skip (sees_unnamed _) fun braced => .cond ?_ ?_
  · exact .bind (block_reads reading) fun b => reads_pure (by simp)
  refine .skip (sees_unnamed _) fun throws => .cond reading.statement ?_
  refine .bind reading.expr fun e => .skip (.discard (expect_unnamed _)) fun _ => ?_
  exact reads_pure (by simp)

theorem switchCase_reads (reading : g.Reading) : Reads [] g.switchCase Spots.switchCase := by
  have constants : Reads [] (do discard (expectAs "case" "`case` or `default`"); sepBy "," g.caseLabel)
      fun ls => ls.flatMap Spots.caseLabel :=
    .skip (.discard (expectAs_unnamed _ _)) fun _ => .sepBy _ (caseLabel_reads reading)
  have guard : Reads [] (do discard bump; some <$> g.expr) (·.elim [] Spots.expr) :=
    .skip pass_unnamed fun _ => .found reading.expr
  refine .skip (eat_unnamed _) fun default => ?_
  refine .orSteps (reads_pure (by simp)) constants fun labels => ?_
  refine .skip (look_unnamed _) fun guarded => .stepsOr guard (reads_pure (.refl _)) fun guard => ?_
  refine .skip (eat_unnamed _) fun arrow => .cond ?_ ?_
  · exact .bind (caseRule_reads reading) fun body => reads_pure (by simp)
  · refine .skip (.discard (expectAs_unnamed _ _)) fun _ => .bind (.manyWhile _ reading.statement) fun body => ?_
    exact reads_pure (by simp)

theorem switchOf_reads {α : Type} (reading : g.Reading) {make : Expr → List SwitchCase → Span → α}
    {w : α → List Spot}
    (made : ∀ e cs range, w (make e cs range) = Spots.expr e ++ cs.flatMap Spots.switchCase) :
    Reads [] (g.switchOf make) w := by
  refine .skip (look_unnamed _) fun start => .skip (.discard (expect_unnamed _)) fun _ => ?_
  refine .bind (parenExpr_reads reading) fun e => .skip (.discard (expect_unnamed _)) fun _ => ?_
  refine .bind (w := fun cs => cs.flatMap Spots.switchCase) (.many ?_) fun cs => ?_
  · refine .skip (eat_unnamed _) fun closed => .cond (reads_pure (.refl _)) ?_
    refine .skip (look_unnamed _) fun atEnd => .skipIf (fail_reads _) fun _ => ?_
    exact .bind (switchCase_reads reading) fun c => reads_pure (by simp)
  · exact .skip (since_unnamed _) fun range => reads_pure (by simp [made])

theorem arraySize_reads (reading : g.Reading) : Reads [] g.arraySize fun es => es.flatMap Spots.expr := by
  refine .skip (.discard (expect_unnamed _)) fun _ => .skip (eat_unnamed _) fun empty => ?_
  refine .cond (reads_pure (.refl _)) (.bind reading.expr fun e => ?_)
  exact .skip (.discard (expect_unnamed _)) fun _ => reads_pure (by simp)

theorem creation_reads (reading : g.Reading) (qualifier : Option Expr) (start : Nat) :
    ReadsFrom here (qualifier.elim [] Spots.expr) (g.creation qualifier start) Spots.expr := by
  have annotated : Reads [] (g.annotations >>= g.plainType) Spots.typeRef :=
    .bind (annotations_reads reading) fun as => plainType_reads reading as
  refine .skip (.discard (expect_unnamed _)) fun _ => .skip (sees_unnamed _) fun generic => ?_
  refine .skipIf (.discard (typeArgs_reads reading)) fun _ => .steps annotated fun type => ?_
  refine .skip (sees_unnamed _) fun sized => .cond ?_ ?_
  · refine .bind (.manyWhile _ (arraySize_reads reading)) fun sizes => .skip (sees_unnamed _) fun filled => ?_
    refine .either (.found (arrayValues_reads reading.variableInit)) (reads_pure (.refl _)) fun init => ?_
    refine .skip (since_unnamed _) fun range => reads_pure ?_
    have all : sizes.flatten.flatMap Spots.expr = sizes.flatMap (·.flatMap Spots.expr) := by
      rw [List.flatten_eq_flatMap, List.flatMap_assoc]
      rfl
    simp [all]
  · refine .bind (args_reads reading) fun args => .skip (sees_unnamed _) fun braced => ?_
    refine .either (.found reading.classBody) (reads_pure (.refl _)) fun body => ?_
    exact .skip (since_unnamed _) fun range => reads_pure (by simp)

theorem methodRefName_reads : Reads [] methodRefName fun name => Spots.names [name] where
  passed c₀ c name c' _ passed run := by
    obtain ⟨constructs, c₁, read, run⟩ := bind_ok run
    cases read
    split at run
    · rename_i constructs
      obtain ⟨t, rest, same, spelled⟩ := Cursor.spellsAt_zero constructs
      cases run
      have text := (Token.kind_of_spells spelled).2
      have range : c.range = t.range := by rw [Cursor.range, same]
      have here := passed.next_ident same
      rwa [Token.ident, text, ← range] at here
    · exact ident_reads.passed c₀ c name c' trivial passed run

theorem afterType_reads (type : TypeRef) (start : Nat) :
    ReadsFrom here (Spots.typeRef type) (afterType type start) Spots.expr := by
  refine .skip (eat_unnamed _) fun dot => .cond ?_ (.skip (eat_unnamed _) fun colons => .cond ?_ (fail_reads _))
  · refine .skip (.discard (expect_unnamed _)) fun _ => .skip (since_unnamed _) fun range => ?_
    exact reads_pure (by simp)
  · refine .bind methodRefName_reads fun name => .skip (since_unnamed _) fun range => ?_
    exact reads_pure (by simp)

theorem typeOfChain_reads (e : Expr) : ReadsFrom here (Spots.expr e) (typeOfChain e) Spots.typeRef where
  passed c₀ c type c' _ passed run := by
    unfold typeOfChain at run
    split at run
    · rename_i names chain
      cases run
      rw [Spots.expr_of_chain chain] at passed
      simpa [List.flatMap_map] using passed
    · cases run

theorem delegation_reads (reading : g.Reading) (kind : Delegate) {receiver : Span → Expr}
    (empty : ∀ range, Spots.expr (receiver range) = []) (start : Nat) :
    Reads [] (g.delegation kind receiver start) Spots.expr := by
  refine .skip bump_unnamed fun keyword => .skip (sees_unnamed _) fun called => .cond ?_ ?_
  · refine .bind (args_reads reading) fun args => .skip (since_unnamed _) fun range => ?_
    exact reads_pure (by simp)
  · exact reads_pure (by simp [empty])

theorem primary_reads (reading : g.Reading) : Reads [] g.primary Spots.expr := by
  refine .skip (look_unnamed _) fun start => .skip (look_unnamed _) fun t? => ?_
  cases t? with
  | none => exact fail_reads _
  | some t =>
    refine .cond (.skip bump_unnamed fun range => reads_pure (by simp)) ?_
    refine .cond (delegation_reads reading .this (by simp) start) ?_
    refine .cond (delegation_reads reading .super (by simp) start) ?_
    refine .cond (creation_reads reading none start) ?_
    refine .cond ?_ (.cond (switchOf_reads reading (by simp)) ?_)
    · refine .bind (parenExpr_reads reading) fun inner => .skip (since_unnamed _) fun range => ?_
      exact reads_pure (by simp)
    refine .cond (arrayInit_reads reading.variableInit) (.cond ?_ (.cond ?_ (fail_reads _)))
    · refine .bind ident_reads fun name => .skip (sees_unnamed _) fun called => .cond ?_ ?_
      · refine .bind (args_reads reading) fun args => .skip (since_unnamed _) fun range => ?_
        exact reads_pure (by simp)
      · exact reads_pure (by simp)
    · exact .seq (typeRef_reads reading) fun type => afterType_reads type start

theorem afterDot_reads (reading : g.Reading) (e : Expr) (start : Nat) :
    ReadsFrom here (Spots.expr e) (g.afterDot e start) Spots.expr := by
  refine .skip (.discard (expect_unnamed _)) fun _ => .skip (sees_unnamed _) fun creates => ?_
  refine .cond (creation_reads reading (some e) start) (.skip (eat_unnamed _) fun this => .cond ?_ ?_)
  · exact .skip (since_unnamed _) fun range => reads_pure (by simp)
  refine .skip (sees_unnamed _) fun super => .cond (.skip bump_unnamed fun keyword => ?_) ?_
  · refine .skip (sees_unnamed _) fun called => .cond (.bind (args_reads reading) fun args => ?_) ?_
    · exact .skip (since_unnamed _) fun range => reads_pure (by simp)
    · exact .skip (since_unnamed _) fun range => reads_pure (by simp)
  refine .skip (eat_unnamed _) fun literal => .cond (.seq (typeOfChain_reads e) fun type => ?_) ?_
  · exact .skip (since_unnamed _) fun range => reads_pure (by simp)
  refine .skip (eat_unnamed _) fun generic => .cond ?_ ?_
  · refine .bind (typeList_reads reading) fun types => .skip (.discard (expect_unnamed _)) fun _ => ?_
    refine .bind ident_reads fun name => .bind (args_reads reading) fun args => ?_
    exact .skip (since_unnamed _) fun range => reads_pure (by simp)
  refine .bind ident_reads fun name => .skip (sees_unnamed _) fun called => .cond ?_ ?_
  · refine .bind (args_reads reading) fun args => .skip (since_unnamed _) fun range => ?_
    exact reads_pure (by simp)
  · exact .skip (since_unnamed _) fun range => reads_pure (by simp)

theorem suffix_reads (reading : g.Reading) (start : Nat) (r : Expr × Bool) :
    ReadsFrom here (Spots.expr r.1) (g.suffix start r) fun r' => Spots.expr (r'.getD r).1 := by
  obtain ⟨e, more⟩ := r
  cases more with
  | false => exact reads_pure (.refl _)
  | true =>
    refine .skip (sees_unnamed _) fun dot => .cond ?_ (.skip (look_unnamed _) fun brackets => .cond ?_ ?_)
    · exact .seq (afterDot_reads reading e start) fun e => reads_pure (.refl _)
    · refine .seq (typeOfChain_reads e) fun base => .seq (arrayOf_reads base) fun type => ?_
      exact .seq (afterType_reads type start) fun e => reads_pure (.refl _)
    refine .skip (eat_unnamed _) fun bracket => .cond ?_ (.skip (eat_unnamed _) fun increments => .cond ?_ ?_)
    · refine .bind reading.expr fun index => .skip (.discard (expect_unnamed _)) fun _ => ?_
      exact .skip (since_unnamed _) fun range => reads_pure (by simp)
    · exact .skip (since_unnamed _) fun range => reads_pure (by simp)
    refine .skip (eat_unnamed _) fun decrements => .cond ?_ (.skip (eat_unnamed _) fun colons => .cond ?_ ?_)
    · exact .skip (since_unnamed _) fun range => reads_pure (by simp)
    · refine .bind methodRefName_reads fun name => .skip (since_unnamed _) fun range => ?_
      exact reads_pure (by simp)
    · exact reads_pure (.refl _)

theorem postfixed_reads (reading : g.Reading) : Reads [] g.postfixed Spots.expr := by
  refine .skip (look_unnamed _) fun start => .seq (primary_reads reading) fun first => ?_
  refine .seq (w := fun r : Expr × Bool => Spots.expr r.1) ?_ fun r => reads_pure (.refl _)
  exact .iterate (.refl _) (suffix_reads reading start)

theorem castTypes_reads (reading : g.Reading) :
    Reads [] g.castTypes (·.elim [] fun r => Spots.typeRef r.1 ++ r.2.flatMap Spots.typeRef) := by
  refine .attemptSome (.skip (.discard (expect_unnamed _)) fun _ => .skip (look_unnamed _) fun primitive => ?_)
  refine .skip (look_unnamed _) fun named => .cond (reads_pure (.refl _)) ?_
  refine .bind (.attempt (typeRef_reads reading)) fun type => ?_
  cases type with
  | none => exact reads_pure (.refl _)
  | some type =>
    have more : Reads [] (many do if ← eat "&" then return some (← g.typeRef) else return none)
        fun ts => ts.flatMap Spots.typeRef := by
      refine .many (.skip (eat_unnamed _) fun joins => .cond ?_ (reads_pure (.refl _)))
      exact .bind (typeRef_reads reading) fun type => reads_pure (by simp)
    refine .bind (.attempt more) fun bounds => ?_
    cases bounds with
    | none => exact reads_pure (by simp)
    | some bounds =>
      refine .skip (eat_unnamed _) fun closed => .cond (reads_pure (by simp)) ?_
      exact .skip (look_unnamed _) fun operand => .cond (reads_pure (by simp)) (reads_pure (by simp))

theorem unaryExpr_reads (reading : g.Reading) : Reads [] g.unaryExpr Spots.expr := by
  refine .skip (look_unnamed _) fun start => .skip (look_unnamed _) fun op? => ?_
  cases op? with
  | some op =>
    refine .skip pass_unnamed fun _ => .bind reading.unary fun operand => .skip (since_unnamed _) fun range => ?_
    exact reads_pure (by simp)
  | none =>
    refine .skip (sees_unnamed _) fun opened => ?_
    refine .either (castTypes_reads reading) (reads_pure (.refl _)) fun types => ?_
    cases types with
    | none => exact postfixed_reads reading
    | some types =>
      refine .skip (look_unnamed _) fun arrow => .either (lambda_reads reading) reading.unary fun value => ?_
      exact .skip (since_unnamed _) fun range => reads_pure (by simp)

theorem bumpMany_unnamed (n : Nat) : Unnamed (bumpMany n) := by
  induction n with
  | zero => exact reads_pure (.refl _)
  | succ n ih => exact .skip pass_unnamed fun _ => ih

theorem operation_reads (reading : g.Reading) (least start : Nat) (left : Expr) :
    ReadsFrom here (Spots.expr left) (g.operation least start left) fun r => Spots.expr (r.getD left) := by
  refine .skip (sees_unnamed _) fun tests => .cond ?_ (.skip (look_unnamed _) fun op? => ?_)
  · refine .skip pass_unnamed fun _ => .skip (.discard (eat_unnamed _)) fun _ => ?_
    refine .bind (typeRef_reads reading) fun type => .skip (look_unnamed _) fun named => ?_
    refine .either (.found ident_reads) (reads_pure (.refl _)) fun binding => ?_
    exact .skip (since_unnamed _) fun range => reads_pure (by simp)
  · cases op? with
    | none => exact reads_pure (.refl _)
    | some op =>
      obtain ⟨op, width⟩ := op
      refine .cond (reads_pure (.refl _)) (.skip (bumpMany_unnamed width) fun _ => ?_)
      refine .bind (reading.binary _) fun right => .skip (since_unnamed _) fun range => ?_
      exact reads_pure (by simp)

theorem binaryExpr_reads (reading : g.Reading) (least : Nat) : Reads [] (g.binaryExpr least) Spots.expr := by
  refine .skip (look_unnamed _) fun start => .seq (unaryExpr_reads reading) fun first => ?_
  exact .iterate (.refl _) (operation_reads reading least start)

theorem ternaryExpr_reads (reading : g.Reading) : Reads [] g.ternaryExpr Spots.expr := by
  refine .skip (look_unnamed _) fun start => .bind (binaryExpr_reads reading 1) fun condition => ?_
  refine .skip (eat_unnamed _) fun asks => .cond (reads_pure (by simp)) (.bind reading.expr fun thenValue => ?_)
  refine .skip (.discard (expect_unnamed _)) fun _ => .skip (look_unnamed _) fun arrow => ?_
  refine .either (lambda_reads reading) reading.ternary fun elseValue => ?_
  exact .skip (since_unnamed _) fun range => reads_pure (by simp)

theorem fullExpr_reads (reading : g.Reading) : Reads [] g.fullExpr Spots.expr := by
  refine .skip (look_unnamed _) fun arrow => .cond (lambda_reads reading) ?_
  refine .skip (look_unnamed _) fun start => .bind (ternaryExpr_reads reading) fun target => ?_
  refine .skip (look_unnamed _) fun assigns => .cond ?_ (reads_pure (by simp))
  refine .skip pass_unnamed fun _ => .bind reading.expr fun value => .skip (since_unnamed _) fun range => ?_
  exact reads_pure (by simp)

theorem initializer_reads (reading : g.Reading) : Reads [] g.initializer Spots.expr :=
  .skip (sees_unnamed _) fun _ => .cond (arrayInit_reads reading.variableInit) (fullExpr_reads reading)

theorem annotationValue_reads (reading : g.Reading) : Reads [] g.annotationValue Spots.expr := by
  refine .skip (sees_unnamed _) fun annotated => .cond ?_ ?_
  · exact .bind (annotationHere_reads reading) fun a => reads_pure (by simp)
  refine .skip (sees_unnamed _) fun braced => .cond ?_ (ternaryExpr_reads reading)
  exact arrayInit_reads reading.elementValue

end JavaIndex.Grammar
