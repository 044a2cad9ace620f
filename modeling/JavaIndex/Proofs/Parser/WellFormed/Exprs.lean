import JavaIndex.Proofs.Parser.WellFormed.Types

/-! Expressions are read so that their operators are grouped: what stands between two operators is no operation
itself unless it is in parentheses. -/
namespace JavaIndex.Grammar

open JavaIndex.Parser Subtree

/-- An expression without an operator between operands at its root. -/
abbrev OperandFormed (names : String → Prop) (e : Expr) : Prop :=
  e.tightness? = none ∧ All names (Subtrees.expr e)

variable {names : String → Prop} {g : Grammar}

theorem block_gives (forming : g.Forming names) : Gives names g.block fun b => All names (Subtrees.block b) := by
  refine .skip (look_gives _) fun start => .skip (expect_gives _) fun _ => ?_
  refine .bind (.many (w := fun s => All names (Subtrees.stmt s)) ?_) fun ss held => ?_
  · refine .skip (eat_gives _) fun closed => .cond (gives_pure nofun) ?_
    refine .skip (look_gives _) fun atEnd => .skipIf (v := fun _ => True) (fail_gives _) fun _ => ?_
    exact .bind forming.statement fun s held => gives_pure (by simpa using held)
  · exact gives_since fun range => by simpa using held

theorem arrayValues_gives {value : Parser Expr} (h : Gives names value fun e => All names (Subtrees.expr e)) :
    Gives names (arrayValues value) fun es => ∀ e ∈ es, All names (Subtrees.expr e) := by
  refine .skip (expect_gives _) fun _ => ?_
  refine .bind (v := fun r => ∀ e ∈ r.1, All names (Subtrees.expr e)) (.iterate nofun ?_) fun (es, _) held => ?_
  · refine fun (es, more) held => .skip (sees_gives _) fun closed => .cond (gives_pure nofun) ?_
    refine .bind h fun e held' => .skip (eat_gives _) fun more => gives_pure ?_
    simpa using ⟨held', held⟩
  · exact .skip (expect_gives _) fun _ => gives_pure (by simpa using held)

theorem arrayInit_gives {value : Parser Expr} (h : Gives names value fun e => All names (Subtrees.expr e)) :
    Gives names (arrayInit value) (OperandFormed names) :=
  .skip (look_gives _) fun start => .bind (arrayValues_gives h) fun es held => gives_since fun range =>
    ⟨rfl, by simpa [Expr.Grouped] using held⟩

theorem args_gives (forming : g.Forming names) :
    Gives names g.args fun es => ∀ e ∈ es, All names (Subtrees.expr e) :=
  .parens forming.expr

theorem parenExpr_gives (forming : g.Forming names) :
    Gives names g.parenExpr fun e => All names (Subtrees.expr e) :=
  .skip (expect_gives _) fun _ => .bind forming.expr fun _ held => .skip (expect_gives _) fun _ => gives_pure held

theorem lambdaParam_gives (forming : g.Forming names) :
    Gives names g.lambdaParam fun p => All names (Subtrees.lambdaParam p) := by
  refine .skip (look_gives _) fun bare => .cond ?_ ?_
  · exact .skip ident_gives fun name => gives_pure (by simp [Modifiers.none])
  refine .bind (modifiers_gives forming) fun mods formed => .bind (typeRef_gives forming) fun type held => ?_
  rw [Subtrees.modifiers_eq, all_flatMap] at formed
  have some {t : TypeRef} (held : All names (Subtrees.typeRef t)) :
      Gives names (do return (⟨mods, .some t, ← ident⟩ : LambdaParam)) fun p => All names (Subtrees.lambdaParam p) :=
    .skip ident_gives fun name => gives_pure (by simpa using ⟨formed, held⟩)
  refine .skip (eat_gives _) fun varargs => .either (v := fun t => All names (Subtrees.typeRef t)) ?_ ?_ fun _ => some
  · exact gives_pure (all_array Nat.one_pos held _)
  · exact gives_pure held

theorem lambda_gives (forming : g.Forming names) : Gives names g.lambda (OperandFormed names) := by
  refine .skip (look_gives _) fun start => .skip (look_gives _) fun bare => ?_
  have single : Gives names (do let name ← ident; pure [(⟨.none, none, name⟩ : LambdaParam)])
      fun ps => ∀ p ∈ ps, All names (Subtrees.lambdaParam p) :=
    .skip ident_gives fun name => gives_pure (by simp [Modifiers.none])
  refine .stepsOr single (.parens (lambdaParam_gives forming)) fun ps formed => ?_
  refine .skip (expect_gives _) fun _ => .skip (sees_gives _) fun braced => .cond ?_ ?_
  · refine .bind (block_gives forming) fun body held => gives_since fun range => ⟨rfl, ?_⟩
    simpa [Expr.Grouped] using ⟨formed, held⟩
  · refine .bind forming.expr fun body held => gives_since fun range => ⟨rfl, ?_⟩
    simpa [Expr.Grouped] using ⟨formed, held⟩

theorem caseLabel_gives (forming : g.Forming names) :
    Gives names g.caseLabel fun l => All names (Subtrees.caseLabel l) := by
  refine .skip (eat_gives _) fun default => .cond (gives_pure (by simp)) ?_
  refine .bind (.attemptSome (w := fun l => All names (Subtrees.caseLabel l)) ?_) fun label found => ?_
  · refine .skip (look_gives _) fun typed => .cond (gives_pure nofun) ?_
    refine .bind (.attempt (typeRef_gives forming)) fun type held => ?_
    cases type with
    | none => exact gives_pure nofun
    | some type =>
      refine .skip (look_gives _) fun binds => .cond ?_ (gives_pure nofun)
      exact .skip ident_gives fun name => gives_pure (by simpa using held)
  · cases label with
    | some label => exact gives_pure (found label rfl)
    | none => exact .bind forming.ternary fun e held => gives_pure (by simpa only [Subtrees.caseLabel] using held)

theorem caseRule_gives (forming : g.Forming names) : Gives names g.caseRule fun s => All names (Subtrees.stmt s) := by
  refine .skip (sees_gives _) fun braced => .cond ?_ ?_
  · exact .bind (block_gives forming) fun b held => gives_pure (by simpa only [Subtrees.stmt] using held)
  refine .skip (sees_gives _) fun throws => .cond forming.statement ?_
  refine .bind forming.expr fun e held => .skip (expect_gives _) fun _ => ?_
  exact gives_pure (by simpa only [Subtrees.stmt] using held)

theorem switchCase_gives (forming : g.Forming names) :
    Gives names g.switchCase fun c => All names (Subtrees.switchCase c) := by
  have constants : Gives names (do discard (expectAs "case" "`case` or `default`"); sepBy "," g.caseLabel)
      fun ls => ∀ l ∈ ls, All names (Subtrees.caseLabel l) :=
    .skip (.discard (expectAs_gives _ _)) fun _ => .sepBy _ (caseLabel_gives forming)
  have guard : Gives names (do discard bump; some <$> g.expr) fun e? => ∀ e ∈ e?, All names (Subtrees.expr e) :=
    .skip pass_gives fun _ => .found forming.expr
  refine .skip (eat_gives _) fun default => ?_
  refine .orSteps (gives_pure (by simp)) constants fun labels formed => ?_
  refine .skip (look_gives _) fun guarded => .stepsOr guard (gives_pure nofun) fun guard held => ?_
  refine .skip (eat_gives _) fun arrow => .cond ?_ ?_
  · refine .bind (caseRule_gives forming) fun body held' => gives_pure ?_
    simp only [Subtrees.switchCase, Subtrees.caseLabels_eq, Subtrees.expr?_eq, all_append, all_flatMap, all_elim]
    exact ⟨formed, held, held'⟩
  · refine .skip (.discard (expectAs_gives _ _)) fun _ => .bind (.manyWhile _ forming.statement) fun body held' => ?_
    refine gives_pure ?_
    simp only [Subtrees.switchCase, Subtrees.caseLabels_eq, Subtrees.expr?_eq, Subtrees.stmts_eq, all_append,
      all_flatMap, all_elim]
    exact ⟨formed, held, held'⟩

theorem switchOf_gives {α : Type} (forming : g.Forming names) {make : Expr → List SwitchCase → Span → α}
    {w : α → Prop} (made : ∀ e cs range, All names (Subtrees.expr e) →
      (∀ c ∈ cs, All names (Subtrees.switchCase c)) → w (make e cs range)) :
    Gives names (g.switchOf make) w := by
  refine .skip (look_gives _) fun start => .skip (expect_gives _) fun _ => ?_
  refine .bind (parenExpr_gives forming) fun e held => .skip (expect_gives _) fun _ => ?_
  refine .bind (.many (w := fun c => All names (Subtrees.switchCase c)) ?_) fun cs held' => ?_
  · refine .skip (eat_gives _) fun closed => .cond (gives_pure nofun) ?_
    refine .skip (look_gives _) fun atEnd => .skipIf (v := fun _ => True) (fail_gives _) fun _ => ?_
    exact .bind (switchCase_gives forming) fun c held => gives_pure (by simpa only [Option.mem_some_iff, forall_eq'] using held)
  · exact gives_since fun range => made e cs range held held'

theorem arraySize_gives (forming : g.Forming names) :
    Gives names g.arraySize fun es => ∀ e ∈ es, All names (Subtrees.expr e) := by
  refine .skip (expect_gives _) fun _ => .skip (eat_gives _) fun empty => .cond (gives_pure nofun) ?_
  refine .bind forming.expr fun e held => .skip (expect_gives _) fun _ => gives_pure ?_
  exact List.forall_mem_singleton.mpr held

theorem creation_gives (forming : g.Forming names) {qualifier : Option Expr}
    (formed : ∀ e ∈ qualifier, All names (Subtrees.expr e)) (start : Nat) :
    Gives names (g.creation qualifier start) (OperandFormed names) := by
  have annotated : Gives names (g.annotations >>= g.plainType) fun t => All names (Subtrees.typeRef t) :=
    .bind (annotations_gives forming) fun _ => plainType_gives forming
  refine .skip (expect_gives _) fun _ => .skip (sees_gives _) fun generic => ?_
  refine .skipIf (.discard (typeArgs_gives forming)) fun _ => .steps annotated fun type typed => ?_
  refine .skip (sees_gives _) fun sized => .cond ?_ ?_
  · refine .bind (.manyWhile _ (arraySize_gives forming)) fun sizes held => .skip (sees_gives _) fun filled => ?_
    refine .either (.found (arrayValues_gives forming.variableInit)) (gives_pure (by simp)) fun init held' => ?_
    refine gives_since fun range => ⟨rfl, ?_⟩
    have each : ∀ e ∈ sizes.flatten, All names (Subtrees.expr e) := by
      intro e mem
      obtain ⟨es, hes, he⟩ := List.mem_flatten.mp mem
      exact held es hes e he
    rw [Subtrees.expr]
    simp only [Subtrees.exprs_eq, Subtrees.exprs?_eq, all_cons, all_append, all_flatMap, all_elim]
    exact ⟨trivial, typed, each, held'⟩
  · refine .bind (args_gives forming) fun args held => .skip (sees_gives _) fun braced => ?_
    refine .either (.found forming.classBody) (gives_pure (by simp)) fun body held' => ?_
    refine gives_since fun range => ⟨rfl, ?_⟩
    rw [Subtrees.expr]
    simp only [Subtrees.exprs_eq, Subtrees.expr?_eq, Subtrees.members?_eq, all_cons, all_append, all_flatMap, all_elim]
    exact ⟨trivial, formed, typed, held, held'⟩

theorem methodRefName_gives : Gives names methodRefName fun _ => True :=
  .skip (sees_gives _) fun _ => .cond (.skip bump_gives fun _ => gives_pure trivial) (ident_gives.imp fun _ _ => trivial)

theorem afterType_gives {type : TypeRef} (formed : All names (Subtrees.typeRef type)) (start : Nat) :
    Gives names (afterType type start) (OperandFormed names) := by
  refine .skip (eat_gives _) fun dot => .cond ?_ (.skip (eat_gives _) fun colons => .cond ?_ (fail_gives _))
  · exact .skip (expect_gives _) fun _ => gives_since fun range => ⟨rfl, by simpa [Expr.Grouped] using formed⟩
  · refine .skip methodRefName_gives fun name => gives_since fun range => ⟨rfl, ?_⟩
    simpa [Expr.Grouped] using formed

/-- The names of an expression that is nothing but names are names. -/
theorem names_of_chain {e : Expr} {path : List Ident} (formed : All names (Subtrees.expr e))
    (chain : e.nameChain? = some path) : path ≠ [] ∧ ∀ n ∈ path, names n.text := by
  fun_induction Expr.nameChain? e generalizing path with
  | case1 name =>
    cases chain
    simpa using formed
  | case2 target name range ih =>
    obtain ⟨before, left, rfl⟩ := Option.map_eq_some_iff.mp chain
    rw [Subtrees.expr, all_cons] at formed
    have all := ih formed.2 left
    simpa [or_imp, forall_and] using ⟨all.2, formed.1⟩
  | case3 => cases chain

theorem typeOfChain_gives {e : Expr} (formed : All names (Subtrees.expr e)) :
    Gives names (typeOfChain e) fun t => All names (Subtrees.typeRef t) where
  answers c type c' named run := by
    unfold typeOfChain at run
    split at run
    · rename_i path chain
      cases run
      obtain ⟨some, all⟩ := names_of_chain formed chain
      have writable : (WrittenType.named (path.map fun n => ⟨[], n, none⟩) e.range : TypeRef).Writable names :=
        .named (by simpa using some) (by simpa using all) (by simp)
      exact ⟨by simpa [List.flatMap_map] using writable, named⟩
    · cases run

theorem delegation_gives (forming : g.Forming names) (kind : Delegate) {receiver : Span → Expr}
    (formed : ∀ range, OperandFormed names (receiver range)) (start : Nat) :
    Gives names (g.delegation kind receiver start) (OperandFormed names) := by
  refine .skip bump_gives fun keyword => .skip (sees_gives _) fun called => .cond ?_ (gives_pure (formed keyword))
  refine .bind (args_gives forming) fun args held => gives_since fun range => ⟨rfl, ?_⟩
  simpa [Expr.Grouped] using held

theorem primary_gives (forming : g.Forming names) : Gives names g.primary (OperandFormed names) := by
  refine .skip (look_gives _) fun start => .skip (look_gives _) fun t? => ?_
  cases t? with
  | none => exact fail_gives _
  | some t =>
    refine .cond (.skip bump_gives fun range => gives_pure ⟨rfl, by simp [Expr.Grouped]⟩) ?_
    refine .cond (delegation_gives forming .this (fun _ => ⟨rfl, by simp [Expr.Grouped]⟩) start) ?_
    refine .cond (delegation_gives forming .super (fun _ => ⟨rfl, by simp [Expr.Grouped]⟩) start) ?_
    refine .cond (creation_gives forming (by simp) start) (.cond ?_ (.cond (switchOf_gives forming ?_) ?_))
    · refine .bind (parenExpr_gives forming) fun inner held => gives_since fun range => ⟨rfl, ?_⟩
      simpa [Expr.Grouped] using held
    · exact fun e cs range held held' => ⟨rfl, by simpa [Expr.Grouped] using ⟨held, held'⟩⟩
    refine .cond (arrayInit_gives forming.variableInit) (.cond ?_ (.cond ?_ (fail_gives _)))
    · refine .bind ident_gives fun name named => .skip (sees_gives _) fun called => .cond ?_ ?_
      · refine .bind (args_gives forming) fun args held => gives_since fun range => ⟨rfl, ?_⟩
        simpa [Expr.Grouped] using held
      · exact gives_pure ⟨rfl, by simpa using named⟩
    · exact .bind (typeRef_gives forming) fun type held => afterType_gives held start

theorem afterDot_gives (forming : g.Forming names) {e : Expr} (formed : All names (Subtrees.expr e)) (start : Nat) :
    Gives names (g.afterDot e start) (OperandFormed names) := by
  refine .skip (expect_gives _) fun _ => .skip (sees_gives _) fun creates => ?_
  refine .cond (creation_gives forming (by simpa using formed) start) (.skip (eat_gives _) fun this => .cond ?_ ?_)
  · exact gives_since fun range => ⟨rfl, by simpa [Expr.Grouped] using formed⟩
  refine .skip (sees_gives _) fun super => .cond (.skip bump_gives fun keyword => ?_) ?_
  · refine .skip (sees_gives _) fun called => .cond (.bind (args_gives forming) fun args held => ?_) ?_
    · exact gives_since fun range => ⟨rfl, by simpa [Expr.Grouped] using ⟨formed, held⟩⟩
    · exact gives_since fun range => ⟨rfl, by simpa [Expr.Grouped] using formed⟩
  refine .skip (eat_gives _) fun literal => .cond (.bind (typeOfChain_gives formed) fun type typed => ?_) ?_
  · exact gives_since fun range => ⟨rfl, by simpa [Expr.Grouped] using typed⟩
  refine .skip (eat_gives _) fun generic => .cond ?_ ?_
  · refine .bind (typeList_gives forming) fun types typed => .skip (expect_gives _) fun _ => ?_
    refine .skip ident_gives fun name => .bind (args_gives forming) fun args held => gives_since fun range => ⟨rfl, ?_⟩
    simpa [Expr.Grouped] using ⟨formed, typed, held⟩
  refine .bind ident_gives fun name named => .skip (sees_gives _) fun called => .cond ?_ ?_
  · refine .bind (args_gives forming) fun args held => gives_since fun range => ⟨rfl, ?_⟩
    simpa [Expr.Grouped] using ⟨formed, held⟩
  · exact gives_since fun range => ⟨rfl, by simpa using ⟨named, formed⟩⟩

theorem suffix_gives (forming : g.Forming names) (start : Nat) {r : Expr × Bool} (operand : OperandFormed names r.1) :
    Gives names (g.suffix start r) fun r' => ∀ r ∈ r', OperandFormed names r.1 := by
  obtain ⟨e, more⟩ := r
  have formed : All names (Subtrees.expr e) := operand.2
  cases more with
  | false => exact gives_pure nofun
  | true =>
    have applied {f : Span → Expr} (held : ∀ range, OperandFormed names (f range)) :
        Gives names (since start >>= fun range => pure (some (f range, true)))
          fun r' => ∀ r ∈ r', OperandFormed names r.1 :=
      gives_since fun range => by simpa using held range
    refine .skip (sees_gives _) fun dot => .cond ?_ (.skip (look_gives _) fun brackets => .cond ?_ ?_)
    · exact .bind (afterDot_gives forming formed start) fun e held => gives_pure (by simpa using held)
    · refine .bind (typeOfChain_gives formed) fun base held => .bind (arrayOf_gives held) fun type typed => ?_
      exact .bind (afterType_gives typed start) fun e held => gives_pure (by simpa using held)
    refine .skip (eat_gives _) fun bracket => .cond ?_ (.skip (eat_gives _) fun increments => .cond ?_ ?_)
    · refine .bind forming.expr fun index held => .skip (expect_gives _) fun _ => applied fun range => ⟨rfl, ?_⟩
      simpa [Expr.Grouped] using ⟨formed, held⟩
    · exact applied fun range => ⟨rfl, by simpa [Expr.Grouped] using formed⟩
    refine .skip (eat_gives _) fun decrements => .cond ?_ (.skip (eat_gives _) fun colons => .cond ?_ ?_)
    · exact applied fun range => ⟨rfl, by simpa [Expr.Grouped] using formed⟩
    · exact .skip methodRefName_gives fun name => applied fun range => ⟨rfl, by simpa [Expr.Grouped] using formed⟩
    · exact gives_pure nofun

theorem postfixed_gives (forming : g.Forming names) : Gives names g.postfixed (OperandFormed names) := by
  refine .skip (look_gives _) fun start => .bind (primary_gives forming) fun first held => ?_
  refine .bind (v := fun r : Expr × Bool => OperandFormed names r.1) ?_ fun r held => gives_pure held
  exact .iterate held fun r => suffix_gives forming start

theorem castTypes_gives (forming : g.Forming names) : Gives names g.castTypes fun r? => ∀ r ∈ r?,
    All names (Subtrees.typeRef r.1) ∧ ∀ t ∈ r.2, All names (Subtrees.typeRef t) := by
  refine .attemptSome (.skip (expect_gives _) fun _ => .skip (look_gives _) fun primitive => ?_)
  refine .skip (look_gives _) fun named => .cond (gives_pure nofun) ?_
  refine .bind (.attempt (typeRef_gives forming)) fun type typed => ?_
  cases type with
  | none => exact gives_pure nofun
  | some type =>
    have more : Gives names (many do if ← eat "&" then return some (← g.typeRef) else return none)
        fun ts => ∀ t ∈ ts, All names (Subtrees.typeRef t) := by
      refine .many (.skip (eat_gives _) fun joins => .cond ?_ (gives_pure nofun))
      exact .bind (typeRef_gives forming) fun type held => gives_pure (by simpa using held)
    refine .bind (.attempt more) fun bounds bounded => ?_
    cases bounds with
    | none => exact gives_pure nofun
    | some bounds =>
      refine .skip (eat_gives _) fun closed => .cond (gives_pure nofun) ?_
      refine .skip (look_gives _) fun operand => .cond (gives_pure ?_) (gives_pure nofun)
      simpa using ⟨typed type rfl, bounded bounds rfl⟩

theorem unaryExpr_gives (forming : g.Forming names) : Gives names g.unaryExpr (OperandFormed names) := by
  refine .skip (look_gives _) fun start => .skip (look_gives _) fun op? => ?_
  cases op? with
  | some op =>
    refine .skip pass_gives fun _ => .bind forming.unary fun operand held => gives_since fun range => ⟨rfl, ?_⟩
    simpa [Expr.Grouped] using held
  | none =>
    refine .skip (sees_gives _) fun opened => ?_
    refine .either (castTypes_gives forming) (gives_pure nofun) fun types typed => ?_
    cases types with
    | none => exact postfixed_gives forming
    | some types =>
      obtain ⟨first, bounds⟩ := typed types rfl
      have lambda : Gives names g.lambda fun e => All names (Subtrees.expr e) := (lambda_gives forming).imp fun _ => And.right
      refine .skip (look_gives _) fun arrow => .either lambda forming.unary fun value held => ?_
      exact gives_since fun range => ⟨rfl, by simpa [Expr.Grouped] using ⟨first, bounds, held⟩⟩

theorem typeTest_gives (forming : g.Forming names) : Gives names g.typeTest fun r => All names (Subtrees.typeRef r.1) := by
  refine .skip (.discard (eat_gives _)) fun _ => .bind (typeRef_gives forming) fun type held => ?_
  have binding : Gives names (some <$> ident) fun _ => True := .map (ident_gives.imp fun _ _ => trivial)
  exact .skip (look_gives _) fun named => .either binding (gives_pure trivial) fun _ _ => gives_pure held

/-- What has been read up to a cursor is well formed and grouped. -/
structure ClimbingFormed (names : String → Prop) (least : Nat) (e : Expr) (c : Cursor) : Prop extends
    Climbing least e c where
  formed : All names (Subtrees.expr e)
  named : c.Named names

theorem ClimbingFormed.step (forming : g.Forming names) {least : Nat} {left e : Expr} {c c' : Cursor}
    (climbing : ClimbingFormed names least left c) (step : Operation g least left c c' e) :
    ClimbingFormed names least e c' := by
  have formed := climbing.formed
  have below := climbing.toClimbing.step step fun least width right =>
    forming.climbed least (c.past width) right c' (climbing.named.past width)
  cases step with
  | instanceOf range word tight read =>
    have typed := (typeTest_gives forming).answers _ _ _ (climbing.named.past 1) read
    refine ⟨below.1, ?_, typed.2⟩
    rw [Subtrees.expr]
    simpa using ⟨below.2, formed, typed.1⟩
  | @binary op width right range sign tight read =>
    have held := (forming.binary _).answers _ _ _ (climbing.named.past width) read
    refine ⟨below.1, ?_, held.2⟩
    rw [Subtrees.expr]
    simpa using ⟨below.2, formed, held.1⟩

theorem binaryExpr_climbed (forming : g.Forming names) {least : Nat} {e : Expr} {c c' : Cursor}
    (named : c.Named names) (run : g.binaryExpr least c = .ok (e, c')) :
    Climbed least e c' ∧ All names (Subtrees.expr e) ∧ c'.Named names := by
  obtain ⟨start, c₁, seen, run⟩ := bind_ok run
  obtain ⟨rfl, rfl⟩ := look_ok seen
  obtain ⟨first, c₁, read, run⟩ := bind_ok run
  obtain ⟨⟨operand, formed⟩, named⟩ := (unaryExpr_gives forming).answers _ _ _ named read
  obtain ⟨c₂, climbing, last⟩ := iterate_ok (I := ClimbingFormed names least) ⟨.operand operand, formed, named⟩
    (fun _ _ _ _ climbing read => climbing.step forming (operation_some read)) run
  obtain ⟨rfl, stops⟩ := operation_none last
  exact ⟨⟨climbing.tight, stops⟩, climbing.formed, climbing.named⟩

theorem binaryExpr_gives (forming : g.Forming names) (least : Nat) :
    Gives names (g.binaryExpr least) fun e => All names (Subtrees.expr e) where
  answers _ _ _ named run := (binaryExpr_climbed forming named run).2

theorem ternaryExpr_gives (forming : g.Forming names) :
    Gives names g.ternaryExpr fun e => All names (Subtrees.expr e) := by
  refine .skip (look_gives _) fun start => .bind (binaryExpr_gives forming 1) fun condition tested => ?_
  refine .skip (eat_gives _) fun asks => .cond (gives_pure tested) (.bind forming.expr fun thenValue held => ?_)
  refine .skip (expect_gives _) fun _ => .skip (look_gives _) fun arrow => ?_
  refine .either ((lambda_gives forming).imp fun _ => And.right) forming.ternary fun elseValue held' => ?_
  exact gives_since fun range => by simpa [Expr.Grouped] using ⟨tested, held, held'⟩

theorem fullExpr_gives (forming : g.Forming names) : Gives names g.fullExpr fun e => All names (Subtrees.expr e) := by
  refine .skip (look_gives _) fun arrow => .cond ((lambda_gives forming).imp fun _ => And.right) ?_
  refine .skip (look_gives _) fun start => .bind (ternaryExpr_gives forming) fun target formed => ?_
  refine .skip (look_gives _) fun assigns => .cond ?_ (gives_pure formed)
  refine .skip pass_gives fun _ => .bind forming.expr fun value held => gives_since fun range => ?_
  simpa [Expr.Grouped] using ⟨formed, held⟩

theorem initializer_gives (forming : g.Forming names) :
    Gives names g.initializer fun e => All names (Subtrees.expr e) :=
  .skip (sees_gives _) fun _ => .cond ((arrayInit_gives forming.variableInit).imp fun _ => And.right)
    (fullExpr_gives forming)

theorem annotationValue_gives (forming : g.Forming names) :
    Gives names g.annotationValue fun e => All names (Subtrees.expr e) := by
  refine .skip (sees_gives _) fun annotated => .cond ?_ ?_
  · exact .bind (annotationHere_gives forming) fun a held => gives_pure (by simpa [Expr.Grouped] using held)
  refine .skip (sees_gives _) fun braced => .cond ?_ (ternaryExpr_gives forming)
  exact (arrayInit_gives forming.elementValue).imp fun _ => And.right

end JavaIndex.Grammar
