import JavaIndex.Parser.Exprs
import JavaIndex.Proofs.Parser.Printed.Types

/-! Expressions are read in a text as they are read at the tokens. Of two things the text has to tell: a
shift is made of angle brackets side by side, and an expression that turns out to be no type is blamed where
its first token stands. -/
namespace JavaIndex

namespace Printing

variable {w : Printing}

/-- An expression in its place, which is where a token begins. -/
def Begun (w : Printing) (e e' : Expr) : Prop := e' = w.layout.expr e ∧ w.begins e.range.start

theorem expr_range {e : Expr} (begins : w.begins e.range.start) :
    (w.layout.expr e).range = w.layout.span e.range := by
  cases e with
  | name n =>
    rw [Layout.expr]
    exact mark_eq begins
  | create qualifier type args body range =>
    rw [Layout.expr]
    exact mark_eq begins
  | annotated a =>
    cases a
    rw [Layout.expr, Layout.annotationUse]
    rfl
  | _ =>
    rw [Layout.expr]
    rfl

theorem afterParen?_eq (tokens : List Token) : ∀ depth,
    Cursor.afterParen? depth (tokens.map w.token) = (Cursor.afterParen? depth tokens).map (List.map w.token) := by
  induction tokens with
  | nil => exact fun _ => rfl
  | cons t rest ih =>
    intro depth
    have opens := token_spells (w := w) t "("
    have closes := token_spells (w := w) t ")"
    by_cases opened : t.spells "(" = true
    · simp only [List.map_cons, Cursor.afterParen?, opens, opened, if_true, ih]
    by_cases closed : t.spells ")" = true
    · match depth with
      | 0 | 1 | depth + 2 => simp [Cursor.afterParen?, opened, closed, ih]
    · simp only [List.map_cons, Cursor.afterParen?, opens, closes, opened, closed]
      exact ih depth

/-- Angle brackets stand side by side in the text if they do so in the program. -/
theorem Fits.adjacent {c : Cursor} (fits : w.Fits c) {n : Nat} (here : c.spellsAt n ">" = true)
    (next : c.spellsAt (n + 1) ">" = true) : (w.cursor c).adjacentAt n = c.adjacentAt n := by
  unfold Cursor.spellsAt at here next
  split at here
  · rename_i a first
    split at next
    · rename_i b second
      obtain ⟨inside, rfl⟩ := List.getElem?_eq_some_iff.mp first
      obtain ⟨inside', rfl⟩ := List.getElem?_eq_some_iff.mp second
      have split : c.rest = c.rest.take n ++ c.rest[n] :: c.rest[n + 1] :: c.rest.drop (n + 2) := by
        rw [List.getElem_cons_drop, List.getElem_cons_drop, List.take_append_drop]
      have same := fits.closing _ _ _ _ split here next
      unfold Cursor.adjacentAt
      rw [cursor_ahead?, cursor_ahead?, first, second]
      simp only [Option.map_some]
      rw [Bool.eq_iff_iff, beq_iff_eq, beq_iff_eq]
      exact same
    · cases next
  · cases here

end Printing

namespace Grammar

open JavaIndex.Printing (Follows Becomes Begun mark_eq)

variable {w : Printing} {g : Grammar}

/-- An expression that is made once its last token has been read. -/
theorem ended {start : Nat} (begins : w.begins start) {make make' : Span → Expr}
    (ranged : ∀ range, (make range).range = range)
    (made : ∀ range, w.begins range.start → make' (w.layout.span range) = w.layout.expr (make range)) :
    w.Follows (Begun w) (do return make (← Parser.since start))
      (do return make' (← Parser.since (w.layout.offset start))) := by
  refine (Follows.sinceStart start).seq ?_
  rintro range _ ⟨rfl, rfl⟩
  exact .answer ⟨made range begins, by rwa [ranged]⟩

theorem block_printed (printed : g.Printed w) :
    w.Follows (Becomes w.layout.block) g.block g.block := by
  refine Follows.start.seq ?_
  rintro start _ ⟨rfl, -⟩
  refine .past (.expect _) (.bind (F := List.map w.layout.stmt) (.many ?_) fun stmts => ?_)
  · refine (Follows.eat _).same fun closed => .cond (.pure rfl) ?_
    refine (Follows.look Printing.cursor_atEnd).same fun atEnd => .skipIf (.fail _) fun _ => ?_
    exact printed.statement.bind fun s => .pure rfl
  · exact (Follows.since start).bind fun range => .pure (by simp [Layout.block])

theorem arrayValues_printed {value : Parser Expr} (h : w.Follows (Becomes w.layout.expr) value value) :
    w.Follows (Becomes (List.map w.layout.expr)) (arrayValues value) (arrayValues value) := by
  refine .past (.expect _) ?_
  refine .bind (F := Prod.map (List.map w.layout.expr) id) (.iterateOn rfl fun (values, more) => ?_)
    fun (values, more) => .past (.expect _) (.pure (List.map_reverse ..).symm)
  refine (Follows.sees _).same fun closed => .cond (.pure rfl) ?_
  exact h.bind fun v => (Follows.eat _).same fun more => .pure rfl

theorem arrayInit_printed {value : Parser Expr} (h : w.Follows (Becomes w.layout.expr) value value) :
    w.Follows (Begun w) (arrayInit value) (arrayInit value) := by
  refine Follows.start.seq ?_
  rintro start _ ⟨rfl, begins⟩
  refine (arrayValues_printed h).bind fun values => ?_
  exact ended begins (fun _ => rfl) fun range _ => by simp [Layout.expr]

theorem args_printed (printed : g.Printed w) :
    w.Follows (Becomes (List.map w.layout.expr)) g.args g.args :=
  printed.expr.parens

theorem parenExpr_printed (printed : g.Printed w) :
    w.Follows (Becomes w.layout.expr) g.parenExpr g.parenExpr :=
  .past (.expect _) (printed.expr.bind fun _ => .past (.expect _) (.pure rfl))

theorem atLambda_printed (c : Cursor) : atLambda (w.cursor c) = atLambda c := by
  unfold atLambda
  rw [Printing.cursor_rest]
  cases same : c.rest with
  | nil => rfl
  | cons t rest =>
    rw [Printing.afterParen?_eq, List.map_cons]
    simp only [Printing.token_kind, Printing.token_spells, Printing.cursor_spellsAt]
    cases Cursor.afterParen? 0 (t :: rest) with
    | none => rfl
    | some after => cases after <;> rfl

theorem lambdaParam_printed (printed : g.Printed w) :
    w.Follows (Becomes w.layout.lambdaParam) g.lambdaParam g.lambdaParam := by
  refine (Follows.look fun c => by simp).same fun bare => .cond ?_ ?_
  · exact Follows.ident.bind fun name => .pure rfl
  · refine (modifiers_printed printed).bind fun mods => (typeRef_printed printed).bind fun type => ?_
    refine (Follows.eat _).same fun varargs => ?_
    refine .either (F := w.layout.typeRef) (.pure ?_) (.pure rfl) fun type => ?_
    · rw [typeRef_range, Layout.typeRef]
    · exact Follows.ident.bind fun name => .pure rfl

theorem lambda_printed (printed : g.Printed w) : w.Follows (Becomes w.layout.expr) g.lambda g.lambda := by
  refine Follows.start.seq ?_
  rintro start _ ⟨rfl, -⟩
  refine (Follows.look fun c => by simp).same fun bare => ?_
  have single : w.Follows (Becomes (List.map w.layout.lambdaParam))
      (do let name ← Parser.ident; pure [⟨.none, none, name⟩])
      (do let name ← Parser.ident; pure [⟨.none, none, name⟩]) := Follows.ident.bind fun name => .pure rfl
  refine .stepsOr single (lambdaParam_printed printed).parens fun params => .past (.expect _) ?_
  refine (Follows.sees _).same fun braced => .cond ?_ ?_
  · refine (block_printed printed).bind fun body => (Follows.since start).bind fun range => .pure ?_
    simp [Layout.expr]
  · refine printed.expr.bind fun body => (Follows.since start).bind fun range => .pure ?_
    simp [Layout.expr]

theorem caseLabel_printed (printed : g.Printed w) :
    w.Follows (Becomes w.layout.caseLabel) g.caseLabel g.caseLabel := by
  refine (Follows.eat _).same fun default => .cond (.pure rfl) ?_
  refine .bind (F := Option.map w.layout.caseLabel) (.attemptSome ?_) fun label => ?_
  · refine (Follows.look fun c => by simp).same fun typed => .cond (.pure rfl) ?_
    refine (typeRef_printed printed).attempt.bind fun type => ?_
    cases type with
    | none => exact .pure rfl
    | some type =>
      refine (Follows.look fun c => by simp).same fun binds => .cond ?_ (.pure rfl)
      exact Follows.ident.bind fun name => .pure rfl
  · cases label with
    | none => exact printed.ternary.bind fun e => .pure rfl
    | some label => exact .pure rfl

theorem caseRule_printed (printed : g.Printed w) :
    w.Follows (Becomes w.layout.stmt) g.caseRule g.caseRule := by
  refine (Follows.sees _).same fun braced => .cond ?_ ?_
  · exact (block_printed printed).bind fun b => .pure (by rw [Layout.stmt])
  refine (Follows.sees _).same fun throws => .cond printed.statement ?_
  exact printed.expr.bind fun e => .past (.expect _) (.pure (by rw [Layout.stmt]))

theorem switchCase_printed (printed : g.Printed w) :
    w.Follows (Becomes w.layout.switchCase) g.switchCase g.switchCase := by
  refine (Follows.eat _).same fun default => ?_
  have constants : w.Follows (Becomes (List.map w.layout.caseLabel))
      (do discard (Parser.expectAs "case" "`case` or `default`"); Parser.sepBy "," g.caseLabel)
      (do discard (Parser.expectAs "case" "`case` or `default`"); Parser.sepBy "," g.caseLabel) :=
    .past (.expectAs _ _) ((caseLabel_printed printed).sepBy _)
  refine .orSteps (.pure rfl) constants fun labels => ?_
  refine (Follows.look fun c => by simp).same fun guarded => ?_
  have guard : w.Follows (Becomes (Option.map w.layout.expr)) (do discard Parser.bump; some <$> g.expr)
      (do discard Parser.bump; some <$> g.expr) := .past .bump printed.expr.found
  refine .stepsOr guard (.pure rfl) fun guard => (Follows.eat _).same fun arrow => .cond ?_ ?_
  · exact (caseRule_printed printed).bind fun body => .pure (by simp [Layout.switchCase])
  · refine .past (.expectAs _ _) ?_
    refine (printed.statement.manyWhile fun c => by simp).bind fun body => .pure ?_
    simp [Layout.switchCase]

theorem switchOf_printed {α β : Type} (printed : g.Printed w) {make : Expr → List SwitchCase → Span → α}
    {make' : Expr → List SwitchCase → Span → β} {R : α → β → Prop}
    (made : ∀ e cases range, w.begins range.start → R (make e cases range)
      (make' (w.layout.expr e) (cases.map w.layout.switchCase) (w.layout.span range))) :
    w.Follows R (g.switchOf make) (g.switchOf make') := by
  refine Follows.start.seq ?_
  rintro start _ ⟨rfl, begins⟩
  refine .past (.expect _) ((parenExpr_printed printed).bind fun selector => .past (.expect _) ?_)
  refine .bind (F := List.map w.layout.switchCase) (.many ?_) fun cases => ?_
  · refine (Follows.eat _).same fun closed => .cond (.pure rfl) ?_
    refine (Follows.look Printing.cursor_atEnd).same fun atEnd => .skipIf (.fail _) fun _ => ?_
    exact (switchCase_printed printed).bind fun c => .pure rfl
  · refine (Follows.sinceStart start).seq ?_
    rintro range _ ⟨rfl, rfl⟩
    exact .answer (made selector cases range begins)

theorem arraySize_printed (printed : g.Printed w) :
    w.Follows (Becomes (List.map w.layout.expr)) g.arraySize g.arraySize := by
  refine .past (.expect _) ((Follows.eat _).same fun empty => .cond (.pure rfl) ?_)
  exact printed.expr.bind fun e => .past (.expect _) (.pure rfl)

theorem creation_printed (printed : g.Printed w) (qualifier : Option Expr) {start : Nat}
    (begins : w.begins start) : w.Follows (Begun w) (g.creation qualifier start)
      (g.creation (qualifier.map w.layout.expr) (w.layout.offset start)) := by
  refine .past (.expect _) ((Follows.sees _).same fun given => ?_)
  refine .skipIf (typeArgs_printed printed).discard fun _ => (annotations_printed printed).bind fun as => ?_
  refine (plainType_printed printed as).bind fun type => (Follows.sees _).same fun isArray => .cond ?_ ?_
  · refine ((arraySize_printed printed).manyWhile fun c => by simp).bind fun sizes => ?_
    refine (Follows.sees _).same fun listed => ?_
    refine .either (arrayValues_printed printed.variableInit).found (.pure rfl) fun init => ?_
    exact ended begins (fun _ => rfl) fun range _ => by simp [Layout.expr, List.map_flatten]
  · refine (args_printed printed).bind fun args => (Follows.sees _).same fun bodied => ?_
    refine .either printed.classBody.found (.pure rfl) fun body => ?_
    exact ended begins (fun _ => rfl) fun range begins => by simp [Layout.expr, mark_eq begins]

theorem methodRefName_printed : w.Follows (Becomes w.layout.ident) methodRefName methodRefName := by
  refine (Follows.sees _).same fun constructs => .cond ?_ .ident
  refine Follows.bumpExact.seq ?_
  rintro range _ ⟨rfl, begins⟩
  exact .pure (by rw [Layout.ident, mark_eq begins])

theorem afterType_printed (type : TypeRef) {start : Nat} (begins : w.begins start) :
    w.Follows (Begun w) (afterType type start)
      (afterType (w.layout.typeRef type) (w.layout.offset start)) := by
  refine (Follows.eat _).same fun dot => .cond ?_ ((Follows.eat _).same fun colons => .cond ?_ (.fail _))
  · refine .past (.expect _) ?_
    exact ended begins (fun _ => rfl) fun range _ => by rw [Layout.expr]
  · refine methodRefName_printed.bind fun name => ?_
    exact ended begins (fun _ => rfl) fun range _ => by rw [Layout.expr]

theorem typeOfChain_printed {e : Expr} (begins : w.begins e.range.start) :
    w.Follows (Becomes w.layout.typeRef) (typeOfChain e) (typeOfChain (w.layout.expr e)) where
  ok c t c' fits run := by
    unfold typeOfChain at run ⊢
    rw [w.layout.expr_nameChain?, Printing.expr_range begins]
    split at run
    · rename_i names chain
      cases run
      refine ⟨fits, _, rfl, ?_⟩
      rw [chain, Layout.typeRef, Layout.segments_eq, List.map_map]
      simp only [Option.map_some, List.map_map]
      rfl
    · cases run
  error c e' _ run := by
    unfold typeOfChain at run ⊢
    rw [w.layout.expr_nameChain?, Printing.expr_range begins]
    split at run
    · cases run
    · rename_i chain
      cases run
      refine ⟨begins, ?_⟩
      rw [chain]
      rfl

theorem delegation_printed (printed : g.Printed w) (kind : Delegate) {receiver : Span → Expr}
    (made : ∀ keyword, w.begins keyword.start → Begun w (receiver keyword) (receiver (w.layout.span keyword)))
    {start : Nat} (begins : w.begins start) :
    w.Follows (Begun w) (g.delegation kind receiver start)
      (g.delegation kind receiver (w.layout.offset start)) := by
  refine Follows.bumpExact.seq ?_
  rintro keyword _ ⟨rfl, exact⟩
  refine (Follows.sees _).same fun called => .cond ?_ (.answer (made keyword exact))
  refine (args_printed printed).bind fun args => ?_
  exact ended begins (fun _ => rfl) fun range _ => by simp [Layout.expr, Layout.expr?, mark_eq exact]

theorem primary_printed (printed : g.Printed w) : w.Follows (Begun w) g.primary g.primary := by
  refine Follows.start.seq ?_
  rintro start _ ⟨rfl, begins⟩
  have ahead : w.Follows (Becomes (Option.map w.token)) (Parser.look (·.ahead? 0)) (Parser.look (·.ahead? 0)) :=
    .looking fun c _ => Printing.cursor_ahead? c 0
  have receiver {e e' : Span → Expr} (same : ∀ k, e' (w.layout.span k) = w.layout.expr (e k))
      (ranged : ∀ k, (e k).range = k) (k : Span) (exact : w.begins k.start) :
      Begun w (e k) (e' (w.layout.span k)) := ⟨same k, by rwa [ranged]⟩
  refine ahead.bind fun token? => ?_
  cases token? with
  | none => exact .fail _
  | some t =>
    refine .cond ?_ (.cond ?_ (.cond ?_ (.cond ?_ (.cond ?_ (.cond ?_ (.cond ?_ (.cond ?_ (.cond ?_ (.fail _)))))))))
    · refine Follows.bumpExact.seq ?_
      rintro range _ ⟨rfl, exact⟩
      exact .answer ⟨by rw [Layout.expr]; rfl, exact⟩
    · exact delegation_printed printed .this
        (receiver (fun _ => by rw [Layout.expr, Layout.expr?]) fun _ => rfl) begins
    · exact delegation_printed printed .super
        (receiver (fun _ => by rw [Layout.expr, Layout.expr?]) fun _ => rfl) begins
    · exact creation_printed printed none begins
    · refine (parenExpr_printed printed).bind fun inner => ?_
      exact ended begins (fun _ => rfl) fun range _ => by rw [Layout.expr]
    · exact switchOf_printed printed fun e cases range exact => ⟨by simp [Layout.expr], exact⟩
    · exact arrayInit_printed printed.variableInit
    · refine Follows.identExact.seq ?_
      rintro name _ ⟨rfl, exact⟩
      refine (Follows.sees _).same fun called => .cond ?_ (.answer ⟨by rw [Layout.expr], exact⟩)
      refine (args_printed printed).bind fun args => ?_
      exact ended begins (fun _ => rfl) fun range _ => by simp [Layout.expr, Layout.expr?]
    · exact (typeRef_printed printed).bind fun type => afterType_printed type begins

theorem afterDot_printed (printed : g.Printed w) {e : Expr} (exact : w.begins e.range.start) {start : Nat}
    (begins : w.begins start) : w.Follows (Begun w) (g.afterDot e start)
      (g.afterDot (w.layout.expr e) (w.layout.offset start)) := by
  refine .past (.expect _) ((Follows.sees _).same fun creates => .cond ?_ ?_)
  · exact creation_printed printed (some e) begins
  refine (Follows.eat _).same fun this => .cond ?_ ?_
  · exact ended begins (fun _ => rfl) fun range _ => by rw [Layout.expr, Layout.expr?]
  refine (Follows.sees _).same fun super => .cond ?_ ?_
  · refine Follows.bumpExact.seq ?_
    rintro keyword _ ⟨rfl, here⟩
    refine (Follows.sees _).same fun called => .cond ?_ ?_
    · refine (args_printed printed).bind fun args => ?_
      exact ended begins (fun _ => rfl) fun range _ => by simp [Layout.expr, Layout.expr?, mark_eq here]
    · exact ended begins (fun _ => rfl) fun range _ => by rw [Layout.expr, Layout.expr?]
  refine (Follows.eat _).same fun literal => .cond ?_ ?_
  · refine (typeOfChain_printed exact).bind fun type => ?_
    exact ended begins (fun _ => rfl) fun range _ => by rw [Layout.expr]
  refine (Follows.eat _).same fun generic => .cond ?_ ?_
  · refine (typeList_printed printed).bind fun types => .past (.expect _) ?_
    refine Follows.ident.bind fun name => (args_printed printed).bind fun args => ?_
    exact ended begins (fun _ => rfl) fun range _ => by simp [Layout.expr, Layout.expr?]
  · refine Follows.ident.bind fun name => (Follows.sees _).same fun called => .cond ?_ ?_
    · refine (args_printed printed).bind fun args => ?_
      exact ended begins (fun _ => rfl) fun range _ => by simp [Layout.expr, Layout.expr?]
    · exact ended begins (fun _ => rfl) fun range _ => by rw [Layout.expr]

/-- An expression in its place, and whether more may follow. -/
inductive Going (w : Printing) : Expr × Bool → Expr × Bool → Prop
  | mk {e e' : Expr} (more : Bool) (begun : Begun w e e') : Going w (e, more) (e', more)

theorem suffix_printed (printed : g.Printed w) {start : Nat} (begins : w.begins start) (r r' : Expr × Bool)
    (going : Going w r r') : w.Follows (Follows.Step (Going w)) (g.suffix start r)
      (g.suffix (w.layout.offset start) r') := by
  obtain @⟨e, _, more, rfl, exact⟩ := going
  cases more with
  | false => exact .answer .stop
  | true =>
    have applied {make make' : Span → Expr} (ranged : ∀ range, (make range).range = range)
        (made : ∀ range, make' (w.layout.span range) = w.layout.expr (make range)) :
        w.Follows (Follows.Step (Going w)) (do return some (make (← Parser.since start), true))
          (do return some (make' (← Parser.since (w.layout.offset start)), true)) := by
      refine (Follows.sinceStart start).seq ?_
      rintro range _ ⟨rfl, rfl⟩
      exact .answer (.go ⟨true, made range, by rwa [ranged]⟩)
    refine (Follows.sees _).same fun dot => .cond ?_ ?_
    · exact (afterDot_printed printed exact begins).seq fun e e' made => .answer (.go ⟨true, made⟩)
    refine (Follows.look fun c => by simp).same fun dims => .cond ?_ ?_
    · refine (typeOfChain_printed exact).bind fun element => (arrayOf_printed element).bind fun type => ?_
      exact (afterType_printed type begins).seq fun e e' made => .answer (.go ⟨false, made⟩)
    refine (Follows.eat _).same fun index => .cond ?_ ?_
    · refine printed.expr.bind fun i => .past (.expect _) ?_
      exact applied (fun _ => rfl) fun range => by rw [Layout.expr]
    refine (Follows.eat _).same fun increment => .cond ?_ ((Follows.eat _).same fun decrement => .cond ?_ ?_)
    · exact applied (fun _ => rfl) fun range => by rw [Layout.expr]
    · exact applied (fun _ => rfl) fun range => by rw [Layout.expr]
    refine (Follows.eat _).same fun colons => .cond ?_ (.answer .stop)
    refine methodRefName_printed.bind fun name => ?_
    exact applied (fun _ => rfl) fun range => by rw [Layout.expr]

theorem postfixed_printed (printed : g.Printed w) :
    w.Follows (Becomes w.layout.expr) g.postfixed g.postfixed := by
  refine Follows.start.seq ?_
  rintro start _ ⟨rfl, begins⟩
  refine (primary_printed printed).seq fun first first' made => ?_
  refine (Follows.iterate (.mk true made) (suffix_printed printed begins)).seq ?_
  rintro _ _ ⟨more, rfl, -⟩
  exact .pure rfl

theorem atOperand_printed (primitive : Bool) (c : Cursor) :
    atOperand primitive (w.cursor c) = atOperand primitive c := by
  rw [atOperand, atOperand, Printing.cursor_rest]
  cases c.rest <;> rfl

theorem castTypes_printed (printed : g.Printed w) :
    w.Follows (Becomes (Option.map (Prod.map w.layout.typeRef (List.map w.layout.typeRef)))) g.castTypes
      g.castTypes := by
  refine .attemptSome (.past (.expect _) ((Follows.look fun c => by simp).same fun primitive => ?_))
  refine (Follows.look fun c => by simp).same fun named => .cond (.pure rfl) ?_
  refine (typeRef_printed printed).attempt.bind fun type => ?_
  cases type with
  | none => exact .pure rfl
  | some type =>
    have more : w.Follows (Becomes (List.map w.layout.typeRef))
        (Parser.many do if ← Parser.eat "&" then return some (← g.typeRef) else return none)
        (Parser.many do if ← Parser.eat "&" then return some (← g.typeRef) else return none) :=
      .many ((Follows.eat _).same fun also => .cond ((typeRef_printed printed).bind fun t => .pure rfl)
        (.pure rfl))
    refine more.attempt.bind fun bounds => ?_
    cases bounds with
    | none => exact .pure rfl
    | some bounds =>
      refine (Follows.eat _).same fun closed => .cond (.pure rfl) ?_
      exact (Follows.look (atOperand_printed primitive)).same fun operand => .cond (.pure rfl) (.pure rfl)

theorem unaryOp_printed (c : Cursor) : unaryOp (w.cursor c) = unaryOp c := by
  simp only [unaryOp, Printing.cursor_spellsAt]

theorem unaryExpr_printed (printed : g.Printed w) :
    w.Follows (Becomes w.layout.expr) g.unaryExpr g.unaryExpr := by
  refine Follows.start.seq ?_
  rintro start _ ⟨rfl, -⟩
  refine (Follows.look unaryOp_printed).same fun op? => ?_
  cases op? with
  | some op =>
    refine .past .bump (printed.unary.bind fun operand => (Follows.since start).bind fun range => .pure ?_)
    rw [Layout.expr]
  | none =>
    refine (Follows.sees _).same fun opened => ?_
    refine .either (castTypes_printed printed) (.pure rfl) fun types? => ?_
    cases types? with
    | none => exact postfixed_printed printed
    | some types =>
      refine (Follows.look atLambda_printed).same fun arrow => ?_
      refine .either (lambda_printed printed) printed.unary fun value => ?_
      refine (Follows.since start).bind fun range => .pure ?_
      simp [Layout.expr]

/-- A shift operator is seen in the text where it is seen in the program. -/
theorem binaryOp?_printed (c : Cursor) (fits : w.Fits c) : binaryOp? c = binaryOp? (w.cursor c) := by
  unfold binaryOp?
  simp only [Printing.cursor_spellsAt]
  by_cases first : c.spellsAt 0 ">" = true
  · rw [if_pos first, if_pos first]
    by_cases second : c.spellsAt 1 ">" = true
    · rw [fits.adjacent first second]
      by_cases third : c.spellsAt 2 ">" = true
      · rw [fits.adjacent second third]
      · simp [third]
    · simp [second]
  · rw [if_neg first, if_neg first]

theorem bumpMany_printed (n : Nat) : w.Follows Eq (bumpMany n) (bumpMany n) := by
  induction n with
  | zero => exact .answer rfl
  | succ n ih => exact .past .bump ih

theorem operation_printed (printed : g.Printed w) (least start : Nat) (left : Expr) :
    w.Follows (Becomes (Option.map w.layout.expr)) (g.operation least start left)
      (g.operation least (w.layout.offset start) (w.layout.expr left)) := by
  refine (Follows.sees _).same fun word => .cond ?_ ?_
  · refine .past .bump (.past (.eat _) ((typeRef_printed printed).bind fun type => ?_))
    refine (Follows.look fun c => by simp).same fun binds => ?_
    refine .either Follows.ident.found (.pure rfl) fun binding => (Follows.since start).bind fun range => .pure ?_
    rw [Option.map_some, Layout.expr]
  · refine (Follows.looking (R := Eq) binaryOp?_printed).same fun op? => ?_
    cases op? with
    | none => exact .pure rfl
    | some op =>
      refine .cond (.pure rfl) ((bumpMany_printed op.2).same fun _ => (printed.binary _).bind fun right => ?_)
      refine (Follows.since start).bind fun range => .pure ?_
      rw [Option.map_some, Layout.expr]

theorem binaryExpr_printed (printed : g.Printed w) (least : Nat) :
    w.Follows (Becomes w.layout.expr) (g.binaryExpr least) (g.binaryExpr least) := by
  refine Follows.start.seq ?_
  rintro start _ ⟨rfl, -⟩
  exact (unaryExpr_printed printed).bind fun first => .iterateOn rfl (operation_printed printed least start)

theorem ternaryExpr_printed (printed : g.Printed w) :
    w.Follows (Becomes w.layout.expr) g.ternaryExpr g.ternaryExpr := by
  refine Follows.start.seq ?_
  rintro start _ ⟨rfl, -⟩
  refine (binaryExpr_printed printed 1).bind fun condition => ?_
  refine (Follows.eat _).same fun asked => .cond (.pure rfl) ?_
  refine printed.expr.bind fun thenValue => .past (.expect _) ?_
  refine (Follows.look atLambda_printed).same fun arrow => ?_
  refine .either (lambda_printed printed) printed.ternary fun elseValue => ?_
  exact (Follows.since start).bind fun range => .pure (by rw [Layout.expr])

theorem fullExpr_printed (printed : g.Printed w) :
    w.Follows (Becomes w.layout.expr) g.fullExpr g.fullExpr := by
  refine (Follows.look atLambda_printed).same fun arrow => .cond (lambda_printed printed) ?_
  refine Follows.start.seq ?_
  rintro start _ ⟨rfl, -⟩
  refine (ternaryExpr_printed printed).bind fun target => ?_
  refine (Follows.look fun c => by simp).same fun assigns => .cond ?_ (.pure rfl)
  refine .past .bump (printed.expr.bind fun value => (Follows.since start).bind fun range => .pure ?_)
  rw [Layout.expr]

theorem begun {p q : Parser Expr} (h : w.Follows (Begun w) p q) : w.Follows (Becomes w.layout.expr) p q :=
  h.imp fun _ _ => And.left

theorem initializer_printed (printed : g.Printed w) :
    w.Follows (Becomes w.layout.expr) g.initializer g.initializer :=
  (Follows.sees _).same fun _ => .cond (begun (arrayInit_printed printed.variableInit))
    (fullExpr_printed printed)

theorem annotationValue_printed (printed : g.Printed w) :
    w.Follows (Becomes w.layout.expr) g.annotationValue g.annotationValue := by
  refine (Follows.sees _).same fun annotated => .cond ?_ ?_
  · exact (annotationHere_printed printed).bind fun a => .pure (by rw [Layout.expr])
  exact (Follows.sees _).same fun listed => .cond (begun (arrayInit_printed printed.elementValue))
    (ternaryExpr_printed printed)

end Grammar
end JavaIndex
