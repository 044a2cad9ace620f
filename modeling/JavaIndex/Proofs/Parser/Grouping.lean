import JavaIndex.Proofs.Parser.Progress.Unit
import JavaIndex.Proofs.Parser.WellFormed.Unit

/-! Operands and operators as they stand in a text, without regard for how tight an operator is. The tree that is
read from them tells them again from left to right. -/
namespace JavaIndex

/-- What stands in a row of operands and operators. -/
inductive Piece where
  | operand (e : Expr)
  | operator (op : BinaryOp)
  | typeTest (type : TypeRef) (binding : Option Ident)

namespace Piece

/-- The operator that a piece is. -/
def operator? : Piece → Option BinaryOp
  | .operator op => some op
  | _ => none

end Piece

namespace Expr

/-- The operands and operators of an expression from left to right. What is in parentheses is an operand. -/
def pieces : Expr → List Piece
  | .binary op left right _ => left.pieces ++ .operator op :: right.pieces
  | .instanceOf value type binding _ => value.pieces ++ [.typeTest type binding]
  | e => [.operand e]

theorem pieces_operand {e : Expr} (operand : e.tightness? = none) : e.pieces = [.operand e] := by
  cases e <;> first | rfl | cases operand

end Expr

namespace Grammar

open JavaIndex.Parser

/-- These operands and operators stand between two cursors. Each operand is read by itself at its own cursor. -/
inductive Row (c : Cursor) : List Piece → Cursor → Prop
  | operand {e c'} (read : (level c.rest.length).unaryExpr c = .ok (e, c')) : Row c [.operand e] c'
  | operator {ps c₁ op width e c'} (before : Row c ps c₁) (sign : c₁.Spells op width)
      (read : (level (c₁.past width).rest.length).unaryExpr (c₁.past width) = .ok (e, c')) :
      Row c (ps ++ [.operator op, .operand e]) c'
  | typeTest {ps c₁ type binding c'} (before : Row c ps c₁) (word : c₁.spellsAt 0 "instanceof" = true)
      (read : (level c₁.next.rest.length).typeTest c₁.next = .ok ((type, binding), c')) :
      Row c (ps ++ [.typeTest type binding]) c'

theorem typeTest_advances {n : Nat} {g h : Grammar} (agrees : g.Agrees n h) :
    Advances (n + 1) always g.typeTest h.typeTest := by
  refine .skip (eat_advances _).drop fun _ => (typeRef_advances agrees).then fun type => ?_
  have name : Advances (n + 1) never (some <$> ident) (some <$> ident) := .map ident_advances.moves
  exact .skip (look_advances _) fun named => .either name (pure_advances rfl) fun binding => pure_advances rfl

theorem typeTest_proceeds (c : Cursor) : Proceeds (fun n => (level n).typeTest) c :=
  .of_advances c fun n extra => typeTest_advances (level_agrees n extra)

variable {c c₁ c' : Cursor} {ps qs : List Piece}

theorem length_past (c : Cursor) (k : Nat) : (c.past k).rest.length = c.rest.length - k := by
  rw [Cursor.rest_past, List.length_drop]

theorem Row.shorter (row : Row c ps c') : c'.rest.length ≤ c.rest.length := by
  induction row with
  | operand read =>
    obtain ⟨k, -, -, rfl⟩ := (proceeding c).unaryExpr.further _ _ read
    rw [length_past]
    omega
  | @operator _ c₁ _ width _ _ before sign read ih =>
    obtain ⟨k, -, -, rfl⟩ := (proceeding (c₁.past width)).unaryExpr.further _ _ read
    simp only [length_past]
    omega
  | @typeTest _ c₁ _ _ _ before word read ih =>
    obtain ⟨k, -, -, rfl⟩ := (typeTest_proceeds c₁.next).further _ _ read
    have next : c₁.next.rest.length = c₁.rest.length - 1 := length_past c₁ 1
    rw [length_past]
    omega

/-- An operator and its operand, which is a row itself, go on with a row. -/
theorem Row.append {op : BinaryOp} {width : Nat} (left : Row c ps c₁) (sign : c₁.Spells op width)
    (right : Row (c₁.past width) qs c') : Row c (ps ++ .operator op :: qs) c' := by
  induction right with
  | operand read => exact .operator left sign read
  | operator before sign' read ih =>
    have row := Row.operator ih sign' read
    rwa [List.append_assoc, List.cons_append] at row
  | typeTest before word read ih =>
    have row := Row.typeTest ih word read
    rwa [List.append_assoc, List.cons_append] at row

/-- With levels for all tokens that are left, a rule answers what it answers with just as many levels. -/
theorem settled_of_le {α : Type} {p : Nat → Parser α} {n : Nat} (proceeds : Proceeds p c)
    (enough : c.rest.length ≤ n) : p n c = p c.rest.length c := by
  have same := proceeds.settled (n - c.rest.length)
  rwa [Nat.add_sub_cancel' enough] at same

theorem binaryExpr_row {n least : Nat} {e : Expr} (enough : c.rest.length ≤ n)
    (run : (level n).binaryExpr least c = .ok (e, c')) : Row c e.pieces c' := by
  induction n generalizing least c e c' with
  | zero =>
    obtain ⟨start, c₁, seen, run⟩ := bind_ok run
    obtain ⟨rfl, rfl⟩ := look_ok seen
    obtain ⟨first, c₁, read, run⟩ := bind_ok run
    rw [settled_of_le (proceeding c).unaryExpr enough] at read
    obtain ⟨k, positive, within, -⟩ := (proceeding c).unaryExpr.further _ _ read
    omega
  | succ n ih =>
    obtain ⟨start, c₁, seen, run⟩ := bind_ok run
    obtain ⟨rfl, rfl⟩ := look_ok seen
    obtain ⟨first, c₁, read, run⟩ := bind_ok run
    have operand := ((unaryExpr_gives (level_forming (fun _ => True) (n + 1))).answers _ _ _ (fun _ _ _ => trivial) read).1.1
    rw [settled_of_le (proceeding c).unaryExpr enough] at read
    obtain ⟨k, positive, within, same⟩ := (proceeding c).unaryExpr.further _ _ read
    have begins : Row c first.pieces c₁ ∧ c₁.rest.length ≤ n := by
      rw [Expr.pieces_operand operand, same, length_past]
      exact ⟨.operand (same ▸ read), by omega⟩
    have step (left : Expr) (c₂ : Cursor) (e : Expr) (c₃ : Cursor)
        (held : Row c left.pieces c₂ ∧ c₂.rest.length ≤ n)
        (step : (level (n + 1)).operation least c.start left c₂ = .ok (some e, c₃)) :
        Row c e.pieces c₃ ∧ c₃.rest.length ≤ n := by
      obtain ⟨row, short⟩ := held
      cases operation_some step with
      | instanceOf range word tight read =>
        have next : c₂.next.rest.length = c₂.rest.length - 1 := length_past c₂ 1
        rw [settled_of_le (typeTest_proceeds c₂.next) (by omega)] at read
        obtain ⟨k, -, -, same⟩ := (typeTest_proceeds c₂.next).further _ _ read
        refine ⟨.typeTest row word read, ?_⟩
        rw [same, length_past]
        omega
      | @binary op width right range sign tight read =>
        have short : (c₂.past width).rest.length ≤ n := by
          rw [length_past]
          omega
        have operand := ih short read
        exact ⟨row.append sign operand, Nat.le_trans operand.shorter short⟩
    obtain ⟨c₂, ⟨row, -⟩, last⟩ := iterate_ok begins step run
    obtain ⟨rfl, -⟩ := operation_none last
    exact row

end Grammar

theorem Subtree.grouped_of_wellFormed {names : String → Prop} {e : Expr} (formed : (Subtree.expr e).WellFormed names) :
    e.Grouped := by
  cases e <;> trivial

/-- What is read of operands and operators has these from left to right, up to the first that is no operator; every
operator in it stands between operands that are tighter, or as tight on its left; and closing angle brackets are one
operator if and only if nothing stands between them. -/
theorem Grammar.binaryExpr_grouped {n : Nat} {c c' : Cursor} {e : Expr} (enough : c.rest.length ≤ n)
    (run : (level n).binaryExpr 1 c = .ok (e, c')) :
    Row c e.pieces c' ∧ c'.Stops 1 ∧ (∀ e', .expr e' ∈ Subtrees.expr e → e'.Grouped) ∧
      ∀ c op width, binaryOp? c = some (op, width) ↔ c.Spells op width := by
  have named : c.Named fun _ => True := fun _ _ _ => trivial
  obtain ⟨climbed, formed, -⟩ := binaryExpr_climbed (level_forming _ n) named run
  refine ⟨binaryExpr_row enough run, climbed.stops, fun e' mem => ?_, fun _ _ _ => binaryOp?_eq_some⟩
  exact Subtree.grouped_of_wellFormed (formed _ mem)

/-- Closing angle brackets of shifts and of a comparison, a comparison of types between looser and tighter operators,
and an operation in parentheses. -/
theorem Grammar.binaryExpr_grouped_mixed :
    let source := "a + b * (c - d) >> e instanceof final T t == f > g >>> h;"
    let c : Cursor := ⟨(tokenize source).toOption.getD [], 0, source.utf8ByteSize⟩
    ∃ e c', (level 25).binaryExpr 1 c = .ok (e, c') ∧ c.rest.length ≤ 25 ∧ c'.rest.map Token.text = [";"] ∧
      e.pieces.filterMap Piece.operator? = [.add, .mul, .shr, .eq, .gt, .ushr] ∧ Row c e.pieces c' ∧ c'.Stops 1 ∧
      ∀ e', .expr e' ∈ Subtrees.expr e → e'.Grouped := by
  intro source c
  have enough : c.rest.length ≤ 25 := by decide +kernel
  have ran : ((level 25).binaryExpr 1 c).toOption.any (fun r => r.2.rest.map Token.text = [";"] ∧
      r.1.pieces.filterMap Piece.operator? = [.add, .mul, .shr, .eq, .gt, .ushr]) = true := by decide +kernel
  cases run : (level 25).binaryExpr 1 c with
  | error fault => simp [run, Except.toOption] at ran
  | ok r =>
    have seen : r.2.rest.map Token.text = [";"] ∧
        r.1.pieces.filterMap Piece.operator? = [.add, .mul, .shr, .eq, .gt, .ushr] := by
      simpa [run, Except.toOption] using ran
    have grouped := binaryExpr_grouped enough run
    exact ⟨r.1, r.2, rfl, enough, seen.1, seen.2, grouped.1, grouped.2.1, grouped.2.2.1⟩

end JavaIndex
