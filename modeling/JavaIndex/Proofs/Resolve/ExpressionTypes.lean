import JavaIndex.Proofs.Resolve.WrittenTypes
import Mathlib.Logic.Function.Iterate

/-! The types of expressions. A tree of operators over literals and variables of primitive types is given the type
that it has in Java, but for three things: a sign, a complement or a shift leaves a narrow number as narrow as it
was, and truth values that are combined bit by bit come out as `int`. What is taken from a created array has the
type that it has in a variable with as many brackets as there are sizes. -/
namespace JavaIndex

/-- The primitive types of values. -/
inductive Primitive where
  | boolean
  | byte
  | short
  | char
  | int
  | long
  | float
  | double
deriving DecidableEq, Repr

namespace Primitive

def word : Primitive → String
  | boolean => "boolean"
  | byte => "byte"
  | short => "short"
  | char => "char"
  | int => "int"
  | long => "long"
  | float => "float"
  | double => "double"

def type (p : Primitive) : JavaType := .primitive p.word

def isNumeric (p : Primitive) : Bool := p ≠ boolean

def isIntegral : Primitive → Bool
  | byte | short | char | int | long => true
  | boolean | float | double => false

/-- Unary numeric promotion. -/
def promoted : Primitive → Primitive
  | byte | short | char => int
  | p => p

/-- Binary numeric promotion. -/
def joint (p q : Primitive) : Primitive :=
  if p = double ∨ q = double then double
  else if p = float ∨ q = float then float
  else if p = long ∨ q = long then long
  else int

theorem promoted_promoted (p : Primitive) : p.promoted.promoted = p.promoted := by cases p <;> rfl

theorem promoted_eq_boolean {p : Primitive} : p.promoted = boolean ↔ p = boolean := by cases p <;> decide

theorem isNumeric_of_isIntegral {p : Primitive} (h : p.isIntegral = true) : p.isNumeric = true := by
  cases p <;> first | rfl | exact h

theorem joint_promoted (p q : Primitive) : p.promoted.joint q.promoted = p.joint q := by
  cases p <;> cases q <;> rfl

/-- Numbers that are promoted alike on their own are promoted alike together. -/
theorem joint_congr {p p' q q' : Primitive} (left : q.promoted = p.promoted) (right : q'.promoted = p'.promoted) :
    q.joint q' = p.joint p' := by
  rw [← joint_promoted q, left, right, joint_promoted]

end Primitive

/-! Operators. -/

open Primitive (boolean)

namespace UnaryOp

/-- A sign or a complement. -/
def isSign : UnaryOp → Bool
  | plus | minus | bitNot => true
  | _ => false

/-- An increment or a decrement. -/
def isStep : UnaryOp → Bool
  | preIncrement | preDecrement | postIncrement | postDecrement => true
  | _ => false

/-- The type of a Java expression with one operand of the given type, if there is such an expression. -/
def result? (op : UnaryOp) (p : Primitive) : Option Primitive :=
  match op with
  | not => if p = boolean then some boolean else none
  | plus | minus => if p.isNumeric then some p.promoted else none
  | bitNot => if p.isIntegral then some p.promoted else none
  | preIncrement | preDecrement | postIncrement | postDecrement => if p.isNumeric then some p else none

end UnaryOp

namespace BinaryOp

def isShift : BinaryOp → Bool
  | shl | shr | ushr => true
  | _ => false

def isBitwise : BinaryOp → Bool
  | bitOr | bitXor | bitAnd => true
  | _ => false

/-- The type of a Java expression with two operands of the given types, if there is such an expression. -/
def result? (op : BinaryOp) (p q : Primitive) : Option Primitive :=
  match op with
  | or | and => if p = boolean ∧ q = boolean then some boolean else none
  | eq | notEq => if p.isNumeric = q.isNumeric then some boolean else none
  | lt | gt | ltEq | gtEq => if p.isNumeric && q.isNumeric then some boolean else none
  | shl | shr | ushr => if p.isIntegral && q.isIntegral then some p.promoted else none
  | add | sub | mul | div | rem => if p.isNumeric && q.isNumeric then some (p.joint q) else none
  | bitOr | bitXor | bitAnd =>
    if p = boolean ∧ q = boolean then some boolean
    else if p.isIntegral && q.isIntegral then some (p.joint q)
    else none

end BinaryOp

/-- A tree of operators over literals and variables has this type in Java, if the variables have theirs. -/
inductive Expr.Has (vars : String → Option Primitive) : Expr → Primitive → Prop where
  | literal {kind : LiteralKind} {range : Span} {p : Primitive} (same : JavaType.ofLiteral kind = p.type) :
      Has vars (.literal kind range) p
  | named {name : Ident} {p : Primitive} (bound : vars name.text = some p) : Has vars (.name name) p
  | paren {e : Expr} {range : Span} {p : Primitive} (inner : Has vars e p) : Has vars (.paren e range) p
  | unary {op : UnaryOp} {e : Expr} {range : Span} {p r : Primitive} (operand : Has vars e p)
      (applied : op.result? p = some r) : Has vars (.unary op e range) r
  | binary {op : BinaryOp} {e e' : Expr} {range : Span} {p p' r : Primitive} (left : Has vars e p)
      (right : Has vars e' p') (applied : op.result? p p' = some r) : Has vars (.binary op e e' range) r

/-- What is answered for a tree that has a type in Java: the second type for the first. -/
inductive Expr.Answered : Expr → Primitive → Primitive → Prop where
  | exact (e : Expr) (p : Primitive) : Answered e p p
  /-- A sign or a complement that does not promote. -/
  | sign {op : UnaryOp} {e : Expr} {range : Span} {p q : Primitive} (signs : op.isSign = true)
      (promotes : q.promoted = p) : Answered (.unary op e range) p q
  /-- A shift that does not promote. -/
  | shift {op : BinaryOp} {e e' : Expr} {range : Span} {p q : Primitive} (shifts : op.isShift = true)
      (promotes : q.promoted = p) : Answered (.binary op e e' range) p q
  /-- Truth values, bit by bit. -/
  | bits {op : BinaryOp} {e e' : Expr} {range : Span} (bitwise : op.isBitwise = true) :
      Answered (.binary op e e' range) .boolean .int
  | paren {e : Expr} {range : Span} {p q : Primitive} (inner : Answered e p q) : Answered (.paren e range) p q
  /-- An increment or a decrement, which has the type of its operand. -/
  | step {op : UnaryOp} {e : Expr} {range : Span} {p q : Primitive} (steps : op.isStep = true)
      (operand : Answered e p q) : Answered (.unary op e range) p q

namespace Expr.Answered

variable {e : Expr} {p q : Primitive}

/-- The answer for a number is promoted as the number is. -/
theorem promoted (h : e.Answered p q) (numeric : p.isNumeric = true) : q.promoted = p.promoted := by
  induction h with
  | exact e p => rfl
  | sign _ promotes => rw [← promotes, Primitive.promoted_promoted]
  | shift _ promotes => rw [← promotes, Primitive.promoted_promoted]
  | bits _ => exact absurd numeric (by decide)
  | paren _ ih => exact ih numeric
  | step _ _ ih => exact ih numeric

/-- The answer for a truth value is one, or else `int`. -/
theorem ofBoolean (h : e.Answered p q) (truth : p = boolean) : q = boolean ∨ q = .int := by
  induction h with
  | exact e p => exact .inl truth
  | sign _ promotes => exact .inl (Primitive.promoted_eq_boolean.mp (promotes.trans truth))
  | shift _ promotes => exact .inl (Primitive.promoted_eq_boolean.mp (promotes.trans truth))
  | bits _ => exact .inr rfl
  | paren _ ih => exact ih truth
  | step _ _ ih => exact ih truth

end Expr.Answered

namespace JavaType

theorem ofUnary_type (op : UnaryOp) (p : Primitive) :
    ofUnary op p.type = (if op = .not then Primitive.boolean else p).type := by
  rw [ofUnary]
  split <;> rfl

theorem ofBinary_type (op : BinaryOp) (p q : Primitive) :
    ofBinary op p.type q.type =
      (if op.isBoolean then Primitive.boolean else if op.isShift then p else p.joint q).type := by
  have shift : ((op = .shl ∨ op = .shr) ∨ op = .ushr) ↔ op.isShift = true := by cases op <;> decide
  have noText : (p.type.sameErasure string || q.type.sameErasure string) = false := rfl
  simp only [ofBinary, noText, Bool.or_eq_true, decide_eq_true_eq, shift, Bool.and_false, Bool.false_eq_true, if_false]
  split
  · rfl
  · split
    · rfl
    · cases p <;> cases q <;> rfl

end JavaType

namespace Expr

variable {e e' : Expr} {range : Span} {p p' q q' r : Primitive}

/-- The answer for an operator on one operand is as near to the type as the operand's. -/
theorem Answered.unary {op : UnaryOp} (operand : e.Answered p q) (applied : op.result? p = some r) :
    (Expr.unary op e range).Answered r (if op = .not then Primitive.boolean else q) := by
  cases op with
  | not =>
    obtain ⟨-, ⟨⟩⟩ := Option.ite_none_right_eq_some.mp applied
    exact .exact _ _
  | plus | minus =>
    obtain ⟨numeric, ⟨⟩⟩ := Option.ite_none_right_eq_some.mp applied
    exact .sign rfl (operand.promoted numeric)
  | bitNot =>
    obtain ⟨integral, ⟨⟩⟩ := Option.ite_none_right_eq_some.mp applied
    exact .sign rfl (operand.promoted (Primitive.isNumeric_of_isIntegral integral))
  | preIncrement | preDecrement | postIncrement | postDecrement =>
    obtain ⟨-, ⟨⟩⟩ := Option.ite_none_right_eq_some.mp applied
    exact .step rfl operand

theorem Answered.joint (left : e.Answered p q) (right : e'.Answered p' q')
    (numbers : (p.isNumeric && p'.isNumeric) = true) : q.joint q' = p.joint p' :=
  Primitive.joint_congr (left.promoted (Bool.and_eq_true_iff.mp numbers).1)
    (right.promoted (Bool.and_eq_true_iff.mp numbers).2)

/-- The answer for an operator on two operands is as near to the type as the operands'. -/
theorem Answered.binary {op : BinaryOp} (left : e.Answered p q) (right : e'.Answered p' q')
    (applied : op.result? p p' = some r) :
    (Expr.binary op e e' range).Answered r
      (if op.isBoolean then Primitive.boolean else if op.isShift then q else q.joint q') := by
  cases op with
  | or | and | eq | notEq | lt | gt | ltEq | gtEq =>
    obtain ⟨-, ⟨⟩⟩ := Option.ite_none_right_eq_some.mp applied
    exact .exact _ _
  | shl | shr | ushr =>
    obtain ⟨integral, ⟨⟩⟩ := Option.ite_none_right_eq_some.mp applied
    have numeric := Primitive.isNumeric_of_isIntegral (Bool.and_eq_true_iff.mp integral).1
    exact .shift rfl (left.promoted numeric)
  | add | sub | mul | div | rem =>
    obtain ⟨numbers, ⟨⟩⟩ := Option.ite_none_right_eq_some.mp applied
    change (Expr.binary _ e e' range).Answered _ (q.joint q')
    rw [left.joint right numbers]
    exact .exact _ _
  | bitOr | bitXor | bitAnd =>
    change (Expr.binary _ e e' range).Answered _ (q.joint q')
    by_cases truth : p = boolean ∧ p' = boolean
    · obtain rfl : boolean = r := Option.some.inj ((if_pos truth).symm.trans applied)
      have int : q.joint q' = .int := by
        obtain rfl | rfl := left.ofBoolean truth.1 <;> obtain rfl | rfl := right.ofBoolean truth.2 <;> rfl
      rw [int]
      exact .bits rfl
    · obtain ⟨integral, ⟨⟩⟩ := Option.ite_none_right_eq_some.mp ((if_neg truth).symm.trans applied)
      have numbers := Bool.and_eq_true_iff.mp integral
      rw [left.joint right (Bool.and_eq_true_iff.mpr (numbers.imp Primitive.isNumeric_of_isIntegral
        Primitive.isNumeric_of_isIntegral))]
      exact .exact _ _

end Expr

namespace Environment

theorem chain_value {env : Environment} {place : Place} {name : String} {b : ValueBinding}
    (bound : env.value? place name = some b) : env.chain place [name] = [⟨some b.symbol, .value b.type⟩] := by
  simp only [chain, chainHead?, bound, memberChain, List.append_nil]

end Environment

namespace Resolve

theorem LooksUp.atPlace {α : Type} {f : Environment → Place → α} {k : Environment → Place → Resolve α}
    (h : ∀ env here, LooksUp (fun _ _ => f env here) (k env here)) :
    LooksUp f (do k (← environment) (← place)) :=
  fun s t => h t.environment ⟨t.scopes, s.imports⟩ s t

/-- What a chain of names selects: the value at its end, if each of the names selects something. -/
theorem LooksUp.nameChain (names : List Ident) :
    LooksUp (fun env place =>
        let selected := env.chain place (names.map Ident.text)
        if (names.drop selected.length).isEmpty then (selected.getLast?.map Selected.receiver).getD .unknown
        else .unknown)
      (Resolve.nameChain names) := by
  refine LooksUp.atPlace fun env here => (mentionAll _).seq ?_
  dsimp only
  cases names.drop (env.chain here (names.map Ident.text)).length with
  | nil => exact pure _
  | cons first rest => exact (unresolved _ _).answering fun _ => Receiver.unknown

/-- The variables have these types at a place. -/
def Bound (vars : String → Option Primitive) (env : Environment) (place : Place) : Prop :=
  ∀ name p, vars name = some p → ∃ b, env.value? place name = some b ∧ b.type = p.type

/-- What a tree of operators with a type in Java is given as a type, where its variables have theirs. -/
theorem denote_operators {vars : String → Option Primitive} {e : Expr} {p : Primitive} (typed : e.Has vars p)
    (s : Setting) (t : Progress) (bound : Bound vars t.environment ⟨t.scopes, s.imports⟩) :
    (∃ q, (denote e s t).1 = .value q.type ∧ e.Answered p q) ∧
      (denote e s t).2.environment = t.environment ∧ (denote e s t).2.scopes = t.scopes := by
  induction typed generalizing t with
  | literal same =>
    rw [denote, same]
    exact ⟨⟨_, rfl, .exact _ _⟩, rfl, rfl⟩
  | named known =>
    obtain ⟨b, found, type⟩ := bound _ _ known
    obtain ⟨answer, kept⟩ := LooksUp.nameChain [_] s t
    rw [denote]
    refine ⟨⟨_, answer.trans ?_, .exact _ _⟩, kept⟩
    simp only [List.map_cons, List.map_nil, Environment.chain_value found, ← type]
    rfl
  | paren _ ih =>
    obtain ⟨⟨q, answer, near⟩, kept⟩ := ih t bound
    rw [denote]
    exact ⟨⟨q, congrArg (fun a : Receiver => Receiver.value a.type) answer, near.paren⟩, kept⟩
  | @unary op _ _ _ _ _ applied ih =>
    obtain ⟨⟨q, answer, near⟩, kept⟩ := ih t bound
    rw [denote]
    refine ⟨⟨_, ?_, near.unary applied⟩, kept⟩
    rw [← JavaType.ofUnary_type]
    exact congrArg (fun a : Receiver => Receiver.value (.ofUnary op a.type)) answer
  | @binary op _ _ _ _ _ _ _ _ applied left right =>
    obtain ⟨⟨q, answer, near⟩, environment, scopes⟩ := left t bound
    obtain ⟨⟨q', answer', near'⟩, environment', scopes'⟩ := right _ (by rw [environment, scopes]; exact bound)
    rw [denote]
    refine ⟨⟨_, ?_, near.binary near' applied⟩, environment'.trans environment, scopes'.trans scopes⟩
    rw [← JavaType.ofBinary_type]
    exact congrArg₂ (fun a b : Receiver => Receiver.value (.ofBinary op a.type b.type)) answer answer'

/-! Created arrays. -/

/-- An expression with indices in brackets after it. -/
def indexed (e : Expr) (indices : List (Expr × Span)) : Expr :=
  indices.foldl (fun array index => .index array index.1 index.2) e

theorem denote_indexed (e : Expr) (indices : List (Expr × Span)) (s : Setting) (t : Progress) :
    (denote (indexed e indices) s t).1.type =
      JavaType.elementOfArray^[indices.length] (denote e s t).1.type := by
  induction indices generalizing e with
  | nil => rfl
  | cons index indices ih =>
    have taken : (denote (.index e index.1 index.2) s t).1.type = (denote e s t).1.type.elementOfArray := by
      rw [denote]
      rfl
    rw [List.length_cons, Function.iterate_succ_apply, ← taken]
    exact ih _

theorem elementOfArray_arrayOf (type : JavaType) (taken left : Nat) :
    JavaType.elementOfArray^[taken] (.arrayOf (left + taken) type) = .arrayOf left type := by
  induction taken with
  | zero => rfl
  | succ taken ih =>
    rw [Function.iterate_succ_apply]
    exact ih

/-- What is taken from an array right after its creation has the type that it has in a variable which is declared
with as many brackets as there are sizes, or one pair if there are none. -/
theorem denote_created (element : TypeRef) (sizes : List Expr) (init : Option (List Expr)) (range range' : Span)
    {indices : List (Expr × Span)} (fewer : indices.length < max sizes.length 1) (s : Setting) (t : Progress) :
    (denote (indexed (.createArray element sizes init range) indices) s t).1.type =
      (typeRef (.array element (max sizes.length 1 - indices.length) range') s t).1 := by
  have created : (denote (.createArray element sizes init range) s t).1.type =
      .arrayOf (max sizes.length 1) (typeRef element s t).1 := by
    rw [denote]
    rfl
  have declared : (typeRef (.array element (max sizes.length 1 - indices.length) range') s t).1 =
      .arrayOf (max sizes.length 1 - indices.length) (typeRef element s t).1 := by
    rw [typeRef]
    rfl
  have element := elementOfArray_arrayOf (typeRef element s t).1 indices.length (max sizes.length 1 - indices.length)
  rw [Nat.sub_add_cancel fewer.le] at element
  rw [denote_indexed, created, declared, element]

end Resolve

end JavaIndex
