import JavaIndex.Parser.Exprs
import JavaIndex.Proofs.Parser.Progress.Types

/-! Expressions, blocks and `switch` bodies are not read without a token. -/
namespace JavaIndex.Grammar

open JavaIndex.Parser

variable {n : Nat} {g h : Grammar}

theorem block_advances (agrees : g.Agrees n h) : Advances (n + 1) always g.block h.block := by
  refine .skip (look_advances _) fun start => (expect_advances _).discard.next fun _ => ?_
  refine .skip (many_advances ?_) fun stmts => .skip (since_advances _) fun range => pure_advances rfl
  refine .skip (eat_advances _) fun closed => .cond (fun _ => pure_advances rfl) fun _ => ?_
  refine .skip (look_advances _) fun atEnd => .skipIf (fail_advances _) fun _ => ?_
  exact agrees.statement.then fun s => pure_advances rfl

theorem arrayValues_advances {value value' : Parser Expr} (reads : Advances n always value value') :
    Advances (n + 1) always (arrayValues value) (arrayValues value') := by
  refine (expect_advances _).discard.next fun _ => .skip (iterate_advances ?_ _) fun values => ?_
  · refine fun (values, more) => .skip (sees_advances _) fun closed => .cond (fun _ => pure_advances rfl) fun _ => ?_
    exact reads.then fun v => .skip (eat_advances _) fun more => pure_advances rfl
  · exact (expect_advances _).discard.then fun _ => pure_advances rfl

theorem arrayInit_advances {value value' : Parser Expr} (reads : Advances n always value value') :
    Advances (n + 1) always (arrayInit value) (arrayInit value') := by
  refine .skip (look_advances _) fun start => (arrayValues_advances reads).next fun values => ?_
  exact .skip (since_advances _) fun range => pure_advances rfl

theorem args_advances (agrees : g.Agrees n h) : Advances (n + 1) always g.args h.args :=
  parens_advances agrees.expr

theorem parenExpr_advances (agrees : g.Agrees n h) : Advances (n + 1) always g.parenExpr h.parenExpr := by
  refine (expect_advances _).discard.next fun _ => .skip agrees.expr fun e => ?_
  exact (expect_advances _).discard.then fun _ => pure_advances rfl

theorem lambdaParam_advances (agrees : g.Agrees n h) : Advances (n + 1) always g.lambdaParam h.lambdaParam := by
  refine .skip (look_advances _) fun bare => .cond (fun _ => ?_) fun _ => ?_
  · exact ident_advances.then fun name => pure_advances rfl
  refine .skip (modifiers_advances agrees) fun mods => (typeRef_advances agrees).next fun type => ?_
  refine .skip (eat_advances _) fun varargs => .either pure_moves pure_moves fun type => ?_
  exact ident_advances.then fun name => pure_advances rfl

theorem lambda_advances (agrees : g.Agrees n h) : Advances (n + 1) always g.lambda h.lambda := by
  refine .skip (look_advances _) fun start => .skip (look_advances _) fun bare => ?_
  have single : Advances (n + 1) never (do let name ← ident; pure [(⟨.none, none, name⟩ : LambdaParam)])
      (do let name ← ident; pure [⟨.none, none, name⟩]) :=
    ident_advances.then fun name => pure_advances rfl
  refine .stepsOr single (parens_advances (lambdaParam_advances agrees).lower).moves fun params => ?_
  refine (expect_advances _).discard.next fun _ => .skip (sees_advances _) fun braced => ?_
  refine .cond (fun _ => ?_) fun _ => ?_
  · exact .skip (block_advances agrees).lower fun body => .skip (since_advances _) fun range => pure_advances rfl
  · exact .skip agrees.expr fun body => .skip (since_advances _) fun range => pure_advances rfl

theorem caseLabel_advances (agrees : g.Agrees n h) : Advances n always g.caseLabel h.caseLabel := by
  refine .eaten (pure_advances rfl) (.found (attemptSome_advances rfl ?_) ?_ fun label => pure_advances rfl)
  · refine .skip (look_advances _) fun typed => .cond (fun _ => pure_advances rfl) fun _ => ?_
    refine .found (attempt_advances rfl (typeRef_advances agrees).lower) (pure_advances rfl) fun type => ?_
    refine .skip (look_advances _) fun binds => .cond (fun _ => ?_) fun _ => pure_advances rfl
    exact .skip ident_advances fun name => pure_advances rfl
  · exact agrees.ternary.then fun e => pure_advances rfl

theorem caseRule_advances (agrees : g.Agrees n h) : Advances n never g.caseRule h.caseRule := by
  refine .skip (sees_advances _) fun braced => .cond (fun _ => ?_) fun _ => ?_
  · exact .skip (block_advances agrees).lower fun b => pure_advances rfl
  refine .skip (sees_advances _) fun throws => .cond (fun _ => agrees.statement.moves) fun _ => ?_
  exact .skip agrees.expr fun e => (expect_advances _).discard.then fun _ => pure_advances rfl

theorem switchCase_advances (agrees : g.Agrees n h) : Advances (n + 1) always g.switchCase h.switchCase := by
  have constants : Advances (n + 1) always (do discard (expectAs "case" "`case` or `default`"); sepBy "," g.caseLabel)
      (do discard (expectAs "case" "`case` or `default`"); sepBy "," h.caseLabel) :=
    (expectAs_advances _ _).discard.next fun _ => (sepBy_advances _ (caseLabel_advances agrees)).moves
  have guard : Advances n never (do discard bump; some <$> g.expr) (do discard bump; some <$> h.expr) :=
    .skip pass_moves fun _ => .map agrees.expr.moves
  refine .eatenOrSteps (pure_advances rfl) constants fun labels => .skip (look_advances _) fun guarded => ?_
  refine .stepsOr guard (pure_advances rfl) fun guard => .skip (eat_advances _) fun arrow => ?_
  refine .cond (fun _ => ?_) fun _ => ?_
  · exact .skip (caseRule_advances agrees) fun body => pure_advances rfl
  · refine (expectAs_advances _ _).discard.then fun _ => ?_
    exact .skip (manyWhile_advances agrees.statement.anywhere) fun body => pure_advances rfl

theorem switchOf_advances (agrees : g.Agrees n h) (make : Expr → List SwitchCase → Span → α) :
    Advances (n + 1) always (g.switchOf make) (h.switchOf make) := by
  refine .skip (look_advances _) fun start => (expect_advances _).discard.next fun _ => ?_
  refine .skip (parenExpr_advances agrees).lower fun selector => .skip (expect_advances _).discard fun _ => ?_
  refine .skip (many_advances ?_) fun cases => .skip (since_advances _) fun range => pure_advances rfl
  refine .skip (eat_advances _) fun closed => .cond (fun _ => pure_advances rfl) fun _ => ?_
  refine .skip (look_advances _) fun atEnd => .skipIf (fail_advances _) fun _ => ?_
  exact (switchCase_advances agrees).lower.then fun c => pure_advances rfl

theorem arraySize_advances (agrees : g.Agrees n h) : Advances (n + 1) always g.arraySize h.arraySize := by
  refine (expect_advances _).discard.next fun _ => .skip (eat_advances _) fun empty => ?_
  refine .cond (fun _ => pure_advances rfl) fun _ => .skip agrees.expr fun e => ?_
  exact (expect_advances _).discard.then fun _ => pure_advances rfl

theorem creation_advances (agrees : g.Agrees n h) (qualifier : Option Expr) (start : Nat) :
    Advances (n + 1) always (g.creation qualifier start) (h.creation qualifier start) := by
  refine (expect_advances _).discard.next fun _ => .skip (sees_advances _) fun generic => ?_
  refine .skipIf (typeArgs_advances agrees).lower.discard.moves fun _ => ?_
  refine .skip (annotations_advances agrees).lower fun as => ?_
  refine .skip (plainType_advances agrees as).lower fun type => .skip (sees_advances _) fun sized => ?_
  refine .cond (fun _ => ?_) fun _ => ?_
  · refine .skip (manyWhile_advances (arraySize_advances agrees).lower.anywhere) fun sizes => ?_
    refine .skip (sees_advances _) fun filled => ?_
    have init : Advances n never (some <$> arrayValues g.variableInit) (some <$> arrayValues h.variableInit) :=
      .map (arrayValues_advances agrees.variableInit).lower.moves
    refine .either init (pure_advances rfl) fun init => ?_
    exact .skip (since_advances _) fun range => pure_advances rfl
  · refine .skip (args_advances agrees).lower fun args => .skip (sees_advances _) fun braced => ?_
    have body : Advances n never (some <$> g.classBody) (some <$> h.classBody) := .map agrees.classBody.moves
    refine .either body (pure_advances rfl) fun body => ?_
    exact .skip (since_advances _) fun range => pure_advances rfl

theorem methodRefName_advances : Advances n never methodRefName methodRefName :=
  .skip (sees_advances _) fun _ => .cond (fun _ => .skip bump_moves fun _ => pure_advances rfl)
    fun _ => ident_advances.moves

theorem afterType_advances (type : TypeRef) (start : Nat) :
    Advances n always (afterType type start) (afterType type start) := by
  refine .eaten ?_ (.eaten ?_ (fail_advances _))
  · exact .skip (expect_advances _).discard fun _ => .skip (since_advances _) fun range => pure_advances rfl
  · exact .skip methodRefName_advances fun name => .skip (since_advances _) fun range => pure_advances rfl

theorem typeOfChain_advances (e : Expr) : Advances n never (typeOfChain e) (typeOfChain e) where
  same _ _ _ := rfl
  further c x c' _ _ run := by
    unfold typeOfChain at run
    split at run
    · cases run
      exact ⟨0, nofun, Nat.zero_le _, rfl⟩
    · cases run
  shallow c x _ _ run := by
    unfold typeOfChain at run
    split at run
    · cases run
    · cases run
      exact nofun

theorem delegation_advances (agrees : g.Agrees n h) {here : Cursor → Prop} (some : ∀ c, here c → c.rest ≠ [])
    (kind : Delegate) (receiver : Span → Expr) (start : Nat) :
    AdvancesAt here (n + 1) always (g.delegation kind receiver start) (h.delegation kind receiver start) := by
  refine (bump_advances some).next fun keyword => .skip (sees_advances _) fun called => ?_
  refine .cond (fun _ => .skip (args_advances agrees).lower fun args => ?_) fun _ => pure_advances rfl
  exact .skip (since_advances _) fun range => pure_advances rfl

theorem primary_advances (agrees : g.Agrees n h) : Advances (n + 1) always g.primary h.primary := by
  refine .skip (look_advances _) fun start => .looked fun t? => ?_
  cases t? with
  | none => exact fail_advances _
  | some t =>
    have some : ∀ c : Cursor, True ∧ c.ahead? 0 = some t → c.rest ≠ [] := fun c seen => Cursor.some_of_ahead? seen.2
    refine .cond (fun _ => .then (bump_advances some) fun range => pure_advances rfl) fun _ => ?_
    refine .cond (fun _ => delegation_advances agrees some _ _ _) fun _ => ?_
    refine .cond (fun _ => delegation_advances agrees some _ _ _) fun _ => ?_
    refine .cond (fun _ => (creation_advances agrees _ _).anywhere) fun _ => ?_
    refine .cond (fun _ => .anywhere ?_) fun _ => ?_
    · refine (parenExpr_advances agrees).then fun inner => ?_
      exact .skip (since_advances _) fun range => pure_advances rfl
    refine .cond (fun _ => (switchOf_advances agrees _).anywhere) fun _ => ?_
    refine .cond (fun _ => (arrayInit_advances agrees.variableInit).anywhere) fun _ => ?_
    refine .cond (fun _ => .anywhere ?_) fun _ => ?_
    · refine ident_advances.next fun name => .skip (sees_advances _) fun called => ?_
      refine .cond (fun _ => .skip (args_advances agrees).lower fun args => ?_) fun _ => pure_advances rfl
      exact .skip (since_advances _) fun range => pure_advances rfl
    refine .cond (fun _ => .anywhere ?_) fun _ => fail_advances _
    exact (typeRef_advances agrees).then fun type => (afterType_advances type start).moves

theorem afterDot_advances (agrees : g.Agrees n h) (e : Expr) (start : Nat) :
    Advances (n + 1) always (g.afterDot e start) (h.afterDot e start) := by
  refine (expect_advances _).discard.next fun _ => .skip (sees_advances _) fun creates => ?_
  refine .cond (fun _ => (creation_advances agrees _ _).lower.moves) fun _ => .skip (eat_advances _) fun this => ?_
  refine .cond (fun _ => .skip (since_advances _) fun range => pure_advances rfl) fun _ => ?_
  refine .skip (sees_advances _) fun super => .cond (fun _ => .skip bump_moves fun keyword => ?_) fun _ => ?_
  · refine .skip (sees_advances _) fun called => .cond (fun _ => ?_) fun _ => ?_
    · refine .skip (args_advances agrees).lower fun args => ?_
      exact .skip (since_advances _) fun range => pure_advances rfl
    · exact .skip (since_advances _) fun range => pure_advances rfl
  refine .skip (eat_advances _) fun literal => .cond (fun _ => .skip (typeOfChain_advances e) fun type => ?_) fun _ => ?_
  · exact .skip (since_advances _) fun range => pure_advances rfl
  refine .skip (eat_advances _) fun generic => .cond (fun _ => ?_) fun _ => ?_
  · refine .skip (typeList_advances agrees).lower fun types => .skip (expect_advances _).discard fun _ => ?_
    refine .skip ident_advances fun name => .skip (args_advances agrees).lower fun args => ?_
    exact .skip (since_advances _) fun range => pure_advances rfl
  refine .skip ident_advances fun name => .skip (sees_advances _) fun called => .cond (fun _ => ?_) fun _ => ?_
  · refine .skip (args_advances agrees).lower fun args => ?_
    exact .skip (since_advances _) fun range => pure_advances rfl
  · exact .skip (since_advances _) fun range => pure_advances rfl

theorem suffix_advances (agrees : g.Agrees n h) (start : Nat) (r : Expr × Bool) :
    Advances (n + 1) Option.isSome (g.suffix start r) (h.suffix start r) := by
  obtain ⟨e, more⟩ := r
  cases more with
  | false => exact pure_advances rfl
  | true =>
    refine .skip (sees_advances _) fun dotted => .cond (fun _ => ?_) fun _ => ?_
    · exact (afterDot_advances agrees e start).then fun e => pure_advances rfl
    refine .skip (look_advances _) fun brackets => .cond (fun _ => ?_) fun _ => ?_
    · refine .skip (typeOfChain_advances e) fun base => .skip (arrayOf_advances base) fun type => ?_
      exact (afterType_advances type start).then fun e => pure_advances rfl
    refine .eatenNext ?_ (.eaten ?_ (.eaten ?_ (.eaten ?_ (pure_advances rfl))))
    · refine .skip agrees.expr fun i => (expect_advances _).discard.then fun _ => ?_
      exact .skip (since_advances _) fun range => pure_advances rfl
    · exact .skip (since_advances _) fun range => pure_advances rfl
    · exact .skip (since_advances _) fun range => pure_advances rfl
    · exact .skip methodRefName_advances fun name => .skip (since_advances _) fun range => pure_advances rfl

theorem postfixed_advances (agrees : g.Agrees n h) : Advances (n + 1) always g.postfixed h.postfixed := by
  refine .skip (look_advances _) fun start => (primary_advances agrees).next fun first => ?_
  refine .skip (iterate_advances (fun r => ?_) _) fun r => pure_advances rfl
  exact (suffix_advances agrees start r).lower

theorem castTypes_advances (agrees : g.Agrees n h) :
    Advances (n + 1) Option.isSome g.castTypes h.castTypes := by
  refine attemptSome_advances rfl ((expect_advances _).discard.next fun _ => ?_)
  refine .skip (look_advances _) fun primitive => .skip (look_advances _) fun named => ?_
  refine .cond (fun _ => pure_advances rfl) fun _ => ?_
  refine .found (attempt_advances rfl (typeRef_advances agrees).lower) (pure_advances rfl) fun type => ?_
  have bounds : Advances n never (many do if ← eat "&" then return some (← g.typeRef) else return none)
      (many do if ← eat "&" then return some (← h.typeRef) else return none) := by
    refine many_advances (.skip (eat_advances _) fun more => .cond (fun _ => ?_) fun _ => pure_advances rfl)
    exact (typeRef_advances agrees).lower.then fun type => pure_advances rfl
  refine .skip (attempt_moves bounds) fun bounds => ?_
  cases bounds with
  | none => exact pure_advances rfl
  | some bounds =>
    refine .skip (eat_advances _) fun closed => .cond (fun _ => pure_advances rfl) fun _ => ?_
    exact .skip (look_advances _) fun operand => .cond (fun _ => pure_advances rfl) fun _ => pure_advances rfl

theorem unaryExpr_advances (agrees : g.Agrees n h) : Advances (n + 1) always g.unaryExpr h.unaryExpr := by
  refine .skip (look_advances _) fun start => .looked fun op? => ?_
  cases op? with
  | some op =>
    have sign (c : Cursor) (seen : True ∧ unaryOp c = some op) : c.rest ≠ [] := by
      intro none
      simp [unaryOp, Cursor.spellsAt, Cursor.ahead?, none] at seen
    refine (bump_advances sign).discard.next fun _ => .skip agrees.unary fun operand => ?_
    exact .skip (since_advances _) fun range => pure_advances rfl
  | none =>
    refine .anywhere (.skip (sees_advances _) fun opened => ?_)
    refine .ifFoundNext (castTypes_advances agrees) (postfixed_advances agrees) fun types => ?_
    obtain ⟨type, bounds⟩ := types
    refine .skip (look_advances _) fun arrow => .either (lambda_advances agrees).lower.moves agrees.unary.moves ?_
    exact fun value => .skip (since_advances _) fun range => pure_advances rfl

theorem bumpMany_moves (k : Nat) : Advances n never (bumpMany k) (bumpMany k) := by
  induction k with
  | zero => exact pure_advances rfl
  | succ k ih => exact .skip pass_moves fun _ => ih

theorem operation_advances (agrees : g.Agrees n h) (least start : Nat) (left : Expr) :
    Advances n Option.isSome (g.operation least start left) (h.operation least start left) := by
  refine .skip (sees_advances _) fun compares => .cond (fun _ => ?_) fun _ => ?_
  · refine .skip pass_moves fun _ => .skip (eat_advances _).drop fun _ => ?_
    refine (typeRef_advances agrees).lower.then fun type => .skip (look_advances _) fun named => ?_
    have name : Advances n never (some <$> ident) (some <$> ident) := .map ident_advances.moves
    refine .either name (pure_advances rfl) fun binding => ?_
    exact .skip (since_advances _) fun range => pure_advances rfl
  · refine .skip (look_advances _) fun op? => ?_
    cases op? with
    | none => exact pure_advances rfl
    | some op =>
      obtain ⟨op, width⟩ := op
      refine .cond (fun _ => pure_advances rfl) fun _ => .skip (bumpMany_moves width) fun _ => ?_
      exact (agrees.binary _).then fun right => .skip (since_advances _) fun range => pure_advances rfl

theorem binaryExpr_advances (agrees : g.Agrees n h) (least : Nat) :
    Advances (n + 1) always (g.binaryExpr least) (h.binaryExpr least) := by
  refine .skip (look_advances _) fun start => (unaryExpr_advances agrees).next fun first => ?_
  exact iterate_advances (operation_advances agrees least start) first

theorem ternaryExpr_advances (agrees : g.Agrees n h) : Advances (n + 1) always g.ternaryExpr h.ternaryExpr := by
  refine .skip (look_advances _) fun start => (binaryExpr_advances agrees 1).next fun condition => ?_
  refine .skip (eat_advances _) fun chooses => .cond (fun _ => pure_advances rfl) fun _ => ?_
  refine .skip agrees.expr fun thenValue => .skip (expect_advances _).discard fun _ => ?_
  refine .skip (look_advances _) fun arrow => .either (lambda_advances agrees).lower.moves agrees.ternary.moves ?_
  exact fun elseValue => .skip (since_advances _) fun range => pure_advances rfl

theorem fullExpr_advances (agrees : g.Agrees n h) : Advances (n + 1) always g.fullExpr h.fullExpr := by
  refine .skip (look_advances _) fun arrow => .cond (fun _ => lambda_advances agrees) fun _ => ?_
  refine .skip (look_advances _) fun start => (ternaryExpr_advances agrees).next fun target => ?_
  refine .skip (look_advances _) fun assigns => .cond (fun _ => ?_) fun _ => pure_advances rfl
  refine .skip pass_moves fun _ => .skip agrees.expr fun value => ?_
  exact .skip (since_advances _) fun range => pure_advances rfl

theorem initializer_advances (agrees : g.Agrees n h) : Advances (n + 1) always g.initializer h.initializer :=
  .skip (sees_advances _) fun _ => .cond (fun _ => arrayInit_advances agrees.variableInit)
    fun _ => fullExpr_advances agrees

theorem annotationValue_advances (agrees : g.Agrees n h) :
    Advances (n + 1) always g.annotationValue h.annotationValue := by
  refine .skip (sees_advances _) fun annotated => .cond (fun _ => ?_) fun _ => ?_
  · exact (annotationHere_advances agrees).then fun a => pure_advances rfl
  refine .skip (sees_advances _) fun braced => .cond (fun _ => ?_) fun _ => ternaryExpr_advances agrees
  exact arrayInit_advances agrees.elementValue

end JavaIndex.Grammar
