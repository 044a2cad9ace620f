import JavaIndex.Parser.Exprs
import JavaIndex.Proofs.Parser.Types

/-! The words of expressions are words that were read. -/
namespace JavaIndex.Grammar

open JavaIndex.Parser
open JavaIndex.Nodes (words)

variable {g : Grammar}

theorem block_keeps (keeping : g.Keeping) : Keeps [] g.block (words Nodes.block) := by
  refine .skip (look_silent _) fun start => .skip (expect_silent _).discard fun _ => ?_
  refine Keeps.bind (w := fun ss => ss.flatMap (words Nodes.stmt)) (.many ?_) fun ss => ?_
  · refine .skip (eat_silent _) fun closed => ?_
    split
    · exact keeps_pure (.refl _)
    refine .skip (look_silent _) fun atEnd => .skipIf (fail_keeps _) fun _ => ?_
    exact keeping.statement.bind fun s => keeps_pure (.refl _)
  · exact .skip (since_silent _) fun range => keeps_pure fun i => by simp [words, Nodes.block]

theorem arrayValues_keeps {value : Parser Expr} (h : Keeps [] value (words Nodes.expr)) :
    Keeps [] (arrayValues value) fun es => es.flatMap (words Nodes.expr) := by
  refine .skip (expect_silent _).discard fun _ => ?_
  refine Keeps.seq (w := fun r : List Expr × Bool => r.1.flatMap (words Nodes.expr)) ?_ fun (es, _) => ?_
  · refine .iterate (.refl []) fun (es, more) => ?_
    refine .skip (sees_silent _) fun closed => ?_
    split
    · exact keeps_pure (.refl _)
    refine h.bind fun e => .skip (eat_silent _) fun more => keeps_pure fun i => ?_
    simp only [Option.getD_some, List.flatMap_cons, List.count_append]
    omega
  · refine .skip (expect_silent _).discard fun _ => keeps_pure fun i => ?_
    exact Nat.le_of_eq ((es.reverse_perm.flatMap_right _).count_eq i)

theorem arrayInit_keeps {value : Parser Expr} (h : Keeps [] value (words Nodes.expr)) :
    Keeps [] (arrayInit value) (words Nodes.expr) := by
  refine .skip (look_silent _) fun start => (arrayValues_keeps h).bind fun es => ?_
  exact .skip (since_silent _) fun range => keeps_pure fun i => by simp [words, Nodes.expr]

theorem args_keeps (keeping : g.Keeping) : Keeps [] g.args fun es => es.flatMap (words Nodes.expr) :=
  keeping.expr.parens

theorem parenExpr_keeps (keeping : g.Keeping) : Keeps [] g.parenExpr (words Nodes.expr) := by
  refine .skip (expect_silent _).discard fun _ => keeping.expr.bind fun e => ?_
  exact .skip (expect_silent _).discard fun _ => keeps_pure (.refl _)

theorem lambdaParam_keeps (keeping : g.Keeping) :
    Keeps [] g.lambdaParam (words fun p => Nodes.lambdaParams [p]) := by
  refine .skip (look_silent _) fun bare => ?_
  split
  · exact ident_keeps.bind fun name => keeps_pure fun i => by
      simp [words, Nodes.lambdaParams, Nodes.typeRef?, Nodes.modifiers, Modifiers.none, Nodes.annotations]
  refine (modifiers_keeps keeping).bind fun mods => (typeRef_keeps keeping).bind fun type => ?_
  refine .skip (eat_silent _) fun varargs => ?_
  refine .choose (w := fun t => words Nodes.modifiers mods ++ words Nodes.typeRef t) (keeps_pure fun i => ?_)
    (keeps_pure (.refl _)) fun type => ident_keeps.bind fun name => keeps_pure fun i => ?_
  · simp [words, Nodes.typeRef]
  · simp [words, Nodes.lambdaParams]

theorem lambda_keeps (keeping : g.Keeping) : Keeps [] g.lambda (words Nodes.expr) := by
  refine .skip (look_silent _) fun start => .skip (look_silent _) fun bare => ?_
  have single : Keeps [] (do let name ← ident; pure [⟨.none, none, name⟩])
      fun ps => ps.flatMap (words fun p => Nodes.lambdaParams [p]) :=
    ident_keeps.bind fun name => keeps_pure fun i => by
      simp [words, Nodes.lambdaParams, Nodes.typeRef?, Nodes.modifiers, Modifiers.none, Nodes.annotations]
  have params := (lambdaParam_keeps keeping).parens
  refine .stepsOr single params fun ps => .skip (expect_silent _).discard fun _ => ?_
  refine .skip (sees_silent _) fun braced => ?_
  split
  · refine (block_keeps keeping).bind fun body => .skip (since_silent _) fun range => ?_
    exact keeps_pure fun i => by simp [words, Nodes.expr]
  · refine keeping.expr.bind fun body => .skip (since_silent _) fun range => ?_
    exact keeps_pure fun i => by simp [words, Nodes.expr]

theorem caseLabel_keeps (keeping : g.Keeping) :
    Keeps [] g.caseLabel (words fun l => Nodes.caseLabels [l]) := by
  refine .skip (eat_silent _) fun default => ?_
  split
  · exact keeps_pure fun i => by simp [words, Nodes.caseLabels]
  refine Keeps.bind (w := optional (words fun l => Nodes.caseLabels [l])) (.attemptSome ?_) fun label => ?_
  · refine .skip (look_silent _) fun typed => ?_
    split
    · exact keeps_pure (.refl _)
    refine (typeRef_keeps keeping).attempt.bind fun type => ?_
    split
    · exact keeps_pure (.refl _)
    refine .skip (look_silent _) fun binds => ?_
    split
    · exact ident_keeps.bind fun name => keeps_pure fun i => by simp [words, Nodes.caseLabels]
    · exact keeps_pure fun i => by simp
  · split
    · exact keeps_pure (.refl _)
    · exact keeping.ternary.bind fun e => keeps_pure fun i => by simp [words, Nodes.caseLabels]

theorem caseRule_keeps (keeping : g.Keeping) : Keeps [] g.caseRule (words Nodes.stmt) := by
  refine .skip (sees_silent _) fun braced => ?_
  split
  · exact (block_keeps keeping).bind fun b => keeps_pure fun i => by simp [words]
  refine .skip (sees_silent _) fun throws => ?_
  split
  · exact keeping.statement
  refine keeping.expr.bind fun e => .skip (expect_silent _).discard fun _ => ?_
  exact keeps_pure fun i => by simp [words]

theorem switchCase_keeps (keeping : g.Keeping) :
    Keeps [] g.switchCase (words fun c => Nodes.switchCases [c]) := by
  refine .skip (eat_silent _) fun default => ?_
  have constants : Keeps [] (do discard (expectAs "case" "`case` or `default`"); sepBy "," g.caseLabel)
      fun ls => ls.flatMap (words fun l => Nodes.caseLabels [l]) :=
    .skip (expectAs_silent _ _).discard fun _ => (caseLabel_keeps keeping).sepBy _
  refine .orSteps (keeps_pure fun i => by simp [words, Nodes.caseLabels]) constants fun labels => ?_
  refine .skip (look_silent _) fun guarded => ?_
  have guard : Keeps [] (do discard bump; some <$> g.expr) (optional (words Nodes.expr)) :=
    .skip bump_silent.discard fun _ => keeping.expr.found
  refine .stepsOr guard (keeps_pure (.refl _)) fun guard => .skip (eat_silent _) fun arrow => ?_
  split
  · exact (caseRule_keeps keeping).bind fun body => keeps_pure fun i => by
      simp [words, Nodes.switchCases]
  · refine .skip (expectAs_silent _ _).discard fun _ => ?_
    exact (keeping.statement.manyWhile _).bind fun body => keeps_pure fun i => by
      simp [words, Nodes.switchCases]

theorem switchOf_keeps {α : Type} (keeping : g.Keeping) {make : Expr → List SwitchCase → Span → α}
    {w : α → List Ident} (made : ∀ e cs range, FewerWords (w (make e cs range))
      (words Nodes.expr e ++ cs.flatMap (words fun c => Nodes.switchCases [c]))) :
    Keeps [] (g.switchOf make) w := by
  refine .skip (look_silent _) fun start => .skip (expect_silent _).discard fun _ => ?_
  refine (parenExpr_keeps keeping).bind fun e => .skip (expect_silent _).discard fun _ => ?_
  refine Keeps.bind (w := fun cs => cs.flatMap (words fun c => Nodes.switchCases [c])) (.many ?_) fun cs => ?_
  · refine .skip (eat_silent _) fun closed => ?_
    split
    · exact keeps_pure (.refl _)
    refine .skip (look_silent _) fun atEnd => .skipIf (fail_keeps _) fun _ => ?_
    exact (switchCase_keeps keeping).bind fun c => keeps_pure (.refl _)
  · exact .skip (since_silent _) fun range => keeps_pure (made e cs range)

theorem arraySize_keeps (keeping : g.Keeping) :
    Keeps [] g.arraySize fun es => es.flatMap (words Nodes.expr) := by
  refine .skip (expect_silent _).discard fun _ => .skip (eat_silent _) fun empty => ?_
  split
  · exact keeps_pure (.refl _)
  · refine keeping.expr.bind fun e => .skip (expect_silent _).discard fun _ => ?_
    exact keeps_pure fun i => by simp

/-- The creation of an object holds the words of its parts, and perhaps fewer. -/
theorem count_create (qualifier : Option Expr) (type : TypeRef) (args : List Expr)
    (body : Option (List Member)) (range : Span) :
    FewerWords (words Nodes.expr (.create qualifier type args body range))
      (optional (words Nodes.expr) qualifier ++ Nodes.spelled type ++ args.flatMap (words Nodes.expr) ++
        optional (fun ms => ms.flatMap (words Nodes.member)) body) := by
  intro i
  have types := Nodes.count_typeRef type i
  rw [words, Nodes.expr.eq_def]
  cases type with
  | primitive | array =>
    simp only [words, Nodes.idents_append, Nodes.idents_hide, Nodes.idents_exprs, Nodes.idents_expr?,
      Nodes.idents_unnamedBody, List.count_append] at types ⊢
    omega
  | named segments _ =>
    have parts := Nodes.count_segments segments i
    simp only [Nodes.spelled, List.count_append, Nodes.idents_append, Nodes.idents_exprs, parts]
    split
    · simp only [Nodes.idents_append, Nodes.idents_hide, Nodes.idents_expr?, Nodes.idents_unnamedBody,
        List.count_append]
      omega
    · cases qualifier with
      | none =>
        simp only [Nodes.idents_append, Nodes.idents_mentions, Nodes.idents_unnamedBody, List.count_append]
        omega
      | some outer =>
        have names := congrArg (List.count i) (Nodes.split_path (segments.map TypeSegment.name))
        rw [List.count_append] at names
        simp only [Nodes.idents_append, Nodes.idents_hide, Nodes.idents_mentions, Nodes.idents_unnamedBody,
          List.count_append, optional_some, words]
        omega

theorem creation_keeps (keeping : g.Keeping) (qualifier : Option Expr) (start : Nat) :
    Keeps (optional (words Nodes.expr) qualifier) (g.creation qualifier start) (words Nodes.expr) := by
  refine .skip (expect_silent _).discard fun _ => .skip (sees_silent _) fun given => ?_
  refine .skipIf (typeArgs_keeps keeping).discard fun _ => (annotations_keeps keeping).bind fun as => ?_
  refine Keeps.seq (w := fun t => optional (words Nodes.expr) qualifier ++ Nodes.spelled t)
    ((plainType_keeps keeping as).frame _) fun type => ?_
  refine .skip (sees_silent _) fun isArray => ?_
  split
  · refine ((arraySize_keeps keeping).manyWhile _).bind fun sizes => .skip (sees_silent _) fun listed => ?_
    refine .either (arrayValues_keeps keeping.variableInit).found (keeps_pure (.refl _)) fun init => ?_
    refine .skip (since_silent _) fun range => keeps_pure fun i => ?_
    have := Nodes.count_typeRef type i
    simp only [words, Nodes.expr, Nodes.idents_append, Nodes.idents_exprs, Nodes.idents_exprList?,
      List.count_append] at this ⊢
    simp only [List.flatten_eq_flatMap, List.flatMap_assoc, id]
    omega
  · refine (args_keeps keeping).bind fun args => .skip (sees_silent _) fun bodied => ?_
    refine .either keeping.classBody.found (keeps_pure (.refl _)) fun body => ?_
    exact .skip (since_silent _) fun range => keeps_pure (count_create qualifier type args body range)

theorem afterType_keeps (type : TypeRef) (start : Nat) :
    Keeps (words Nodes.typeRef type) (afterType type start) (words Nodes.expr) := by
  refine .skip (eat_silent _) fun dot => ?_
  split
  · refine .skip (expect_silent _).discard fun _ => .skip (since_silent _) fun range => ?_
    exact keeps_pure fun i => by simp [words, Nodes.expr]
  refine .namedAfterColons (fun name => .skip (since_silent _) fun range => ?_) (fail_keeps _)
  exact keeps_pure fun i => by simp [words, Nodes.expr]

theorem typeOfChain_keeps (e : Expr) :
    Keeps (words Nodes.expr e) (typeOfChain e) (words Nodes.typeRef) where
  count c t c' run i := by
    unfold typeOfChain at run
    split at run
    · rename_i names chain
      cases run
      have := Nodes.count_typeRef (.named (names.map fun n => ⟨[], n, none⟩) e.range) i
      have all : Nodes.spelled (.named (names.map fun n => ⟨[], n, none⟩) e.range) = names := by
        simp [Nodes.spelled, Nodes.segmentWords, List.flatMap_map]
      rw [all] at this
      rw [words, words, Nodes.expr_of_chain e chain, Nodes.idents_mentions]
      exact Nat.add_le_add_right this _
    · cases run

theorem delegation_keeps (keeping : g.Keeping) (kind : Delegate) {receiver : Span → Expr}
    (empty : ∀ range, words Nodes.expr (receiver range) = []) (start : Nat) :
    KeepsAt (fun c => c.spellsAt 0 kind.word = true) [] (g.delegation kind receiver start)
      (words Nodes.expr) := by
  apply KeepsAt.delegate
  · intro keyword
    refine (args_keeps keeping).bind fun args => .skip (since_silent _) fun range => ?_
    exact keeps_pure fun i => by simp [words, Nodes.expr, Nodes.expr?, List.count_cons]
  · intro keyword
    exact keeps_pure fun i => by simp [empty]

theorem primary_keeps (keeping : g.Keeping) : Keeps [] g.primary (words Nodes.expr) := by
  refine .skip (look_silent _) fun start => .looked fun token? => ?_
  split
  · exact (fail_keeps _).anywhere
  rename_i t
  have here {text : String} (spelled : t.spells text = true) (c : Cursor)
      (found : c.ahead? 0 = some t) : c.spellsAt 0 text = true := by
    rw [Cursor.spellsAt, found]
    exact spelled
  split
  · exact (Keeps.skip bump_silent fun range => keeps_pure fun i => by simp [words, Nodes.expr]).anywhere
  split
  · rename_i spelled
    exact (delegation_keeps keeping .this (fun range => by simp [words, Nodes.expr, Nodes.expr?])
      start).narrow (here spelled)
  split
  · rename_i spelled
    exact (delegation_keeps keeping .super (fun range => by simp [words, Nodes.expr, Nodes.expr?])
      start).narrow (here spelled)
  apply Keeps.anywhere
  split
  · exact creation_keeps keeping none start
  split
  · refine (parenExpr_keeps keeping).bind fun inner => .skip (since_silent _) fun range => ?_
    exact keeps_pure fun i => by simp [words, Nodes.expr]
  split
  · exact switchOf_keeps keeping fun e cs range i => by simp [words, Nodes.expr]
  split
  · exact arrayInit_keeps keeping.variableInit
  split
  · refine ident_keeps.bind fun name => .skip (sees_silent _) fun called => ?_
    split
    · refine (args_keeps keeping).bind fun args => .skip (since_silent _) fun range => ?_
      refine keeps_pure fun i => ?_
      simp only [words, Nodes.expr, Nodes.typeRefs, Nodes.expr?, Nodes.idents_append, Nodes.idents_exprs,
        Nodes.idents_mentions, Nodes.idents_nil, List.count_append, List.count_nil]
      omega
    · exact keeps_pure fun i => by simp [words, Nodes.expr]
  split
  · exact (typeRef_keeps keeping).bind fun type => by simpa using afterType_keeps type start
  · exact fail_keeps _

theorem afterDot_keeps (keeping : g.Keeping) (e : Expr) (start : Nat) :
    Keeps (words Nodes.expr e) (g.afterDot e start) (words Nodes.expr) := by
  refine .skip (expect_silent _).discard fun _ => .skip (sees_silent _) fun creates => ?_
  split
  · exact creation_keeps keeping (some e) start
  refine .skip (eat_silent _) fun this => ?_
  split
  · exact .skip (since_silent _) fun range => keeps_pure fun i => by simp [words, Nodes.expr]
  refine .looked fun super => ?_
  split
  · rename_i found
    refine (KeepsAt.delegate .super ?_ ?_).narrow fun c here => here.trans found
    · intro keyword
      refine (args_keeps keeping).bind fun args => .skip (since_silent _) fun range => ?_
      exact keeps_pure fun i => by simp [words, Nodes.expr, List.count_cons]
    · intro keyword
      exact .skip (since_silent _) fun range => keeps_pure fun i => by simp [words, Nodes.expr]
  apply Keeps.anywhere
  refine .skip (eat_silent _) fun literal => ?_
  split
  · refine (typeOfChain_keeps e).seq fun type => .skip (since_silent _) fun range => ?_
    exact keeps_pure fun i => by simp [words, Nodes.expr]
  refine .skip (eat_silent _) fun generic => ?_
  split
  · refine (typeList_keeps keeping).bind fun types => .skip (expect_silent _).discard fun _ => ?_
    refine ident_keeps.bind fun name => (args_keeps keeping).bind fun args => ?_
    refine .skip (since_silent _) fun range => keeps_pure fun i => ?_
    simp only [words, Nodes.expr, Nodes.idents_append, Nodes.idents_typeRefs, Nodes.idents_expr?,
      optional_some, Nodes.idents_exprs, Nodes.idents_mentions, List.count_append]
    omega
  · refine ident_keeps.bind fun name => .skip (sees_silent _) fun called => ?_
    split
    · refine (args_keeps keeping).bind fun args => .skip (since_silent _) fun range => ?_
      refine keeps_pure fun i => ?_
      simp only [words, Nodes.expr, Nodes.typeRefs, Nodes.idents_append, Nodes.idents_expr?,
        optional_some, Nodes.idents_exprs, Nodes.idents_mentions, Nodes.idents_nil, List.count_append,
        List.count_nil]
      omega
    · exact .skip (since_silent _) fun range => keeps_pure fun i => by simp [words, Nodes.expr]

theorem suffix_keeps (keeping : g.Keeping) (start : Nat) (r : Expr × Bool) :
    Keeps (words Nodes.expr r.1) (g.suffix start r) fun r' => words Nodes.expr (r'.getD r).1 := by
  obtain ⟨e, more⟩ := r
  cases more with
  | false => exact keeps_pure (.refl _)
  | true =>
    refine .skip (sees_silent _) fun dot => ?_
    split
    · exact (afterDot_keeps keeping e start).seq fun e => keeps_pure (.refl _)
    refine .skip (look_silent _) fun brackets => ?_
    split
    · refine (typeOfChain_keeps e).seq fun base => (arrayOf_keeps base).seq fun type => ?_
      exact (afterType_keeps type start).seq fun e => keeps_pure (.refl _)
    refine .skip (eat_silent _) fun bracket => ?_
    split
    · refine keeping.expr.bind fun index => .skip (expect_silent _).discard fun _ => ?_
      exact .skip (since_silent _) fun range => keeps_pure fun i => by simp [words, Nodes.expr]
    refine .skip (eat_silent _) fun increments => ?_
    split
    · exact .skip (since_silent _) fun range => keeps_pure fun i => by simp [words, Nodes.expr]
    refine .skip (eat_silent _) fun decrements => ?_
    split
    · exact .skip (since_silent _) fun range => keeps_pure fun i => by simp [words, Nodes.expr]
    refine .namedAfterColons (fun name => .skip (since_silent _) fun range => ?_) (keeps_pure (.refl _))
    exact keeps_pure fun i => by simp [words, Nodes.expr]

theorem postfixed_keeps (keeping : g.Keeping) : Keeps [] g.postfixed (words Nodes.expr) := by
  refine .skip (look_silent _) fun start => (primary_keeps keeping).bind fun first => ?_
  refine Keeps.seq (w := fun r : Expr × Bool => words Nodes.expr r.1) ?_ fun r => keeps_pure (.refl _)
  exact .iterate (.refl _) (suffix_keeps keeping start)

theorem castTypes_keeps (keeping : g.Keeping) :
    Keeps [] g.castTypes (optional fun r => words Nodes.typeRef r.1 ++ r.2.flatMap (words Nodes.typeRef)) := by
  refine .attemptSome (.skip (expect_silent _).discard fun _ => .skip (look_silent _) fun primitive => ?_)
  refine .skip (look_silent _) fun named => ?_
  split
  · exact keeps_pure (.refl _)
  refine (typeRef_keeps keeping).attempt.bind fun type? => ?_
  split
  · exact keeps_pure (.refl _)
  have more : Keeps [] (many do if ← eat "&" then return some (← g.typeRef) else return none)
      fun ts => ts.flatMap (words Nodes.typeRef) := by
    refine .many (.skip (eat_silent _) fun joins => ?_)
    split
    · exact (typeRef_keeps keeping).bind fun type => keeps_pure (.refl _)
    · exact keeps_pure (.refl _)
  refine more.attempt.bind fun bounds? => ?_
  split
  · exact keeps_pure fun i => by simp
  refine .skip (eat_silent _) fun closed => ?_
  split
  · exact keeps_pure fun i => by simp
  refine .skip (look_silent _) fun converts => ?_
  split
  · exact keeps_pure (.refl _)
  · exact keeps_pure fun i => by simp

theorem unaryExpr_keeps (keeping : g.Keeping) : Keeps [] g.unaryExpr (words Nodes.expr) := by
  refine .skip (look_silent _) fun start => .skip (look_silent _) fun op? => ?_
  split
  · refine .skip bump_silent.discard fun _ => keeping.unary.bind fun operand => ?_
    exact .skip (since_silent _) fun range => keeps_pure fun i => by simp [words, Nodes.expr]
  · refine .skip (sees_silent _) fun paren => ?_
    refine .either (castTypes_keeps keeping) (keeps_pure (.refl _)) fun types? => ?_
    cases types? with
    | none => exact postfixed_keeps keeping
    | some types =>
      refine .skip (look_silent _) fun isLambda => ?_
      refine .either (lambda_keeps keeping) keeping.unary fun value => ?_
      exact .skip (since_silent _) fun range => keeps_pure fun i => by simp [words, Nodes.expr]

theorem bumpMany_silent (n : Nat) : Silent (bumpMany n) := by
  induction n with
  | zero => exact keeps_pure (.refl _)
  | succ n ih => exact .skip bump_silent.discard fun _ => ih

theorem operation_keeps (keeping : g.Keeping) (least start : Nat) (left : Expr) :
    Keeps (words Nodes.expr left) (g.operation least start left)
      fun r => words Nodes.expr (r.getD left) := by
  refine .skip (sees_silent _) fun tests => ?_
  split
  · refine .skip bump_silent.discard fun _ => .skip (eat_silent _).discard fun _ => ?_
    refine (typeRef_keeps keeping).bind fun type => .skip (look_silent _) fun binds => ?_
    refine .either ident_keeps.found (keeps_pure (.refl _)) fun binding => ?_
    refine .skip (since_silent _) fun range => keeps_pure fun i => ?_
    cases binding <;> simp [words, Nodes.expr]
  · refine .skip (look_silent _) fun op? => ?_
    split
    · exact keeps_pure (.refl _)
    split
    · exact keeps_pure (.refl _)
    refine .skip (bumpMany_silent _) fun _ => (keeping.binary _).bind fun right => ?_
    exact .skip (since_silent _) fun range => keeps_pure fun i => by simp [words, Nodes.expr]

theorem binaryExpr_keeps (keeping : g.Keeping) (least : Nat) :
    Keeps [] (g.binaryExpr least) (words Nodes.expr) := by
  refine .skip (look_silent _) fun start => (unaryExpr_keeps keeping).bind fun first => ?_
  exact .iterate (.refl _) (operation_keeps keeping least start)

theorem ternaryExpr_keeps (keeping : g.Keeping) : Keeps [] g.ternaryExpr (words Nodes.expr) := by
  refine .skip (look_silent _) fun start => (binaryExpr_keeps keeping 1).bind fun condition => ?_
  refine .skip (eat_silent _) fun asks => ?_
  split
  · exact keeps_pure (.refl _)
  refine keeping.expr.bind fun thenValue => .skip (expect_silent _).discard fun _ => ?_
  refine .skip (look_silent _) fun isLambda => ?_
  refine .either (lambda_keeps keeping) keeping.ternary fun elseValue => ?_
  exact .skip (since_silent _) fun range => keeps_pure fun i => by simp [words, Nodes.expr]

theorem fullExpr_keeps (keeping : g.Keeping) : Keeps [] g.fullExpr (words Nodes.expr) := by
  refine .skip (look_silent _) fun isLambda => ?_
  split
  · exact lambda_keeps keeping
  refine .skip (look_silent _) fun start => (ternaryExpr_keeps keeping).bind fun target => ?_
  refine .skip (look_silent _) fun assigns => ?_
  split
  · refine .skip bump_silent.discard fun _ => keeping.expr.bind fun value => ?_
    exact .skip (since_silent _) fun range => keeps_pure fun i => by simp [words, Nodes.expr]
  · exact keeps_pure (.refl _)

theorem initializer_keeps (keeping : g.Keeping) : Keeps [] g.initializer (words Nodes.expr) := by
  refine .skip (sees_silent _) fun braced => ?_
  split
  · exact arrayInit_keeps keeping.variableInit
  · exact fullExpr_keeps keeping

theorem annotationValue_keeps (keeping : g.Keeping) : Keeps [] g.annotationValue (words Nodes.expr) := by
  refine .skip (sees_silent _) fun annotated => ?_
  split
  · exact (annotationHere_keeps keeping).bind fun a => keeps_pure fun i => by simp [words, Nodes.expr]
  refine .skip (sees_silent _) fun braced => ?_
  split
  · exact arrayInit_keeps keeping.elementValue
  · exact ternaryExpr_keeps keeping

end JavaIndex.Grammar
