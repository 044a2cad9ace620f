import JavaIndex.Proofs.Parser.Progress.Rules

/-! How operators group. An expression of operands and operators is read by climbing: what is read from some
tightness on leaves the first operator that is looser. From this it follows of every operator what may stand on
its sides. -/
namespace JavaIndex

namespace BinaryOp

/-- How the operator is written, closing angle brackets without anything between them. -/
def sign : BinaryOp → String
  | or => "||"
  | and => "&&"
  | bitOr => "|"
  | bitXor => "^"
  | bitAnd => "&"
  | eq => "=="
  | notEq => "!="
  | lt => "<"
  | gt => ">"
  | ltEq => "<="
  | gtEq => ">="
  | shl => "<<"
  | shr => ">>"
  | ushr => ">>>"
  | add => "+"
  | sub => "-"
  | mul => "*"
  | div => "/"
  | rem => "%"

/-- The operator is made of closing angle brackets, each of them a token. -/
def ofBrackets : BinaryOp → Bool
  | gt | shr | ushr => true
  | _ => false

end BinaryOp

theorem Token.spells_eq {t : Token} {text : String} (spelled : t.spells text = true) (other : String) :
    t.spells other = (text == other) := by
  have same := (Token.kind_of_spells spelled).2
  unfold Token.spells at spelled ⊢
  split at spelled
  · rw [same]
  · rw [same]
  · cases spelled

namespace Cursor

/-- A closing angle bracket follows the token some way ahead with nothing between them. -/
def JoinsAt (c : Cursor) (n : Nat) : Prop :=
  ∃ a b, c.ahead? n = some a ∧ c.ahead? (n + 1) = some b ∧ b.spells ">" = true ∧ a.range.stop = b.range.start

/-- The operator that comes next, and how many tokens it is. Two closing angle brackets with nothing between them
are one operator, and so are three. -/
inductive Spells (c : Cursor) : BinaryOp → Nat → Prop
  | sign {op} (single : op.ofBrackets = false) (here : c.spellsAt 0 op.sign = true) : Spells c op 1
  | gt (here : c.spellsAt 0 ">" = true) (apart : ¬ c.JoinsAt 0) : Spells c .gt 1
  | shr (here : c.spellsAt 0 ">" = true) (joined : c.JoinsAt 0) (apart : ¬ c.JoinsAt 1) : Spells c .shr 2
  | ushr (here : c.spellsAt 0 ">" = true) (joined : c.JoinsAt 0) (again : c.JoinsAt 1) : Spells c .ushr 3

variable {c : Cursor}

theorem spellsAt_eq {n : Nat} {text : String} (spelled : c.spellsAt n text = true) (other : String) :
    c.spellsAt n other = (text == other) := by
  unfold spellsAt at spelled ⊢
  cases here : c.ahead? n with
  | none => simp [here] at spelled
  | some t =>
    rw [here] at spelled
    exact Token.spells_eq spelled other

theorem joinsAt_iff (n : Nat) : (c.spellsAt (n + 1) ">" && c.adjacentAt n) = true ↔ c.JoinsAt n := by
  unfold spellsAt adjacentAt JoinsAt
  cases c.ahead? n <;> cases c.ahead? (n + 1) <;> simp

end Cursor

namespace Grammar

open JavaIndex.Parser

theorem simpleOps_sign : ∀ entry ∈ simpleOps, entry.1 = entry.2.sign ∧ entry.2.ofBrackets = false := by decide

theorem simpleOps_find {op : BinaryOp} (single : op.ofBrackets = false) :
    simpleOps.find? (fun (text, _) => op.sign == text) = some (op.sign, op) := by
  cases op <;> first | rfl | cases single

/-- The operator that is read is the one that is written. -/
theorem binaryOp?_eq_some {c : Cursor} {op : BinaryOp} {width : Nat} :
    binaryOp? c = some (op, width) ↔ c.Spells op width := by
  have second := c.joinsAt_iff 0
  have third := c.joinsAt_iff 1
  unfold binaryOp?
  constructor
  · intro found
    split at found
    · rename_i here
      split at found
      · rename_i joined
        split at found
        · rename_i again
          cases found
          exact .ushr here (second.mp joined) (third.mp again)
        · rename_i apart
          cases found
          exact .shr here (second.mp joined) (mt third.mpr apart)
      · rename_i apart
        cases found
        exact .gt here (mt second.mpr apart)
    · obtain ⟨⟨text, op'⟩, entry, same⟩ := Option.map_eq_some_iff.mp found
      cases same
      have here : c.spellsAt 0 text = true := by simpa using List.find?_some entry
      obtain ⟨same, single⟩ := simpleOps_sign (text, op) (List.mem_of_find?_eq_some entry)
      exact .sign single (same ▸ here)
  · intro spelled
    cases spelled with
    | sign single here =>
      have bracket : c.spellsAt 0 ">" = false := by
        rw [c.spellsAt_eq here]
        cases op <;> first | rfl | cases single
      have entries : (fun entry : String × BinaryOp => c.spellsAt 0 entry.1) = fun (text, _) => op.sign == text :=
        funext fun entry => c.spellsAt_eq here entry.1
      rw [if_neg (by simp [bracket]), entries, simpleOps_find single]
      rfl
    | gt here apart => rw [if_pos here, if_neg (mt second.mp apart)]
    | shr here joined apart => rw [if_pos here, if_pos (second.mpr joined), if_neg (mt third.mp apart)]
    | ushr here joined again => rw [if_pos here, if_pos (second.mpr joined), if_pos (third.mpr again)]

end Grammar

namespace Expr

/-- How tight the operator at the root of an expression is, an `instanceof` set aside. -/
def precedence? : Expr → Option Nat
  | .binary op _ _ _ => some (Grammar.precedence op)
  | _ => none

/-- How tight the operator at the root of an expression is. -/
def tightness? : Expr → Option Nat
  | .binary op _ _ _ => some (Grammar.precedence op)
  | .instanceOf _ _ _ _ => some Grammar.instanceOfPrecedence
  | _ => none

/-- An operator does not stand beside a looser one, nor to the left of one that is as tight. -/
def Grouped : Expr → Prop
  | .binary op left right _ =>
    (∀ p, left.precedence? = some p → Grammar.precedence op ≤ p) ∧
      ∀ p, right.tightness? = some p → Grammar.precedence op < p
  | .instanceOf value _ _ _ => ∀ p, value.precedence? = some p → Grammar.instanceOfPrecedence ≤ p
  | _ => True

theorem precedence?_of_tightness? {e : Expr} (operand : e.tightness? = none) : e.precedence? = none := by
  cases e <;> first | rfl | cases operand

end Expr

/-- No operator comes next that is as tight as asked. -/
structure Cursor.Stops (c : Cursor) (least : Nat) : Prop where
  operator : ∀ op width, c.Spells op width → Grammar.precedence op < least
  typeTest : c.spellsAt 0 "instanceof" = true → Grammar.instanceOfPrecedence < least

namespace Grammar

open JavaIndex.Parser

variable {g : Grammar} {least start : Nat} {left e : Expr} {c c' : Cursor}

/-- The type that a value is compared with, and the name it is then bound to. -/
def typeTest (g : Grammar) : Parser (TypeRef × Option Ident) := do
  discard (eat "final")
  let type ← g.typeRef
  let binding ← if ← look (·.identifierAt 0) then some <$> ident else pure none
  return (type, binding)

/-- What a step reads: a type to compare with, or an operator and its right operand. -/
inductive Operation (g : Grammar) (least : Nat) (left : Expr) (c c' : Cursor) : Expr → Prop
  | instanceOf {type binding} (range) (word : c.spellsAt 0 "instanceof" = true) (tight : least ≤ instanceOfPrecedence)
      (read : g.typeTest c.next = .ok ((type, binding), c')) :
      Operation g least left c c' (.instanceOf left type binding range)
  | binary {op width right} (range) (sign : c.Spells op width) (tight : least ≤ precedence op)
      (read : g.binary (precedence op + 1) (c.past width) = .ok (right, c')) :
      Operation g least left c c' (.binary op left right range)

theorem look_ok {α : Type} {f : Cursor → α} {x : α} (run : look f c = .ok (x, c')) : f c = x ∧ c = c' := by
  cases run
  exact ⟨rfl, rfl⟩

theorem bumpMany_run (width : Nat) (c : Cursor) : bumpMany width c = .ok ((), c.past width) := by
  induction width generalizing c with
  | zero => rfl
  | succ width ih => exact ih c.next

/-- A step that compares with a type reads just that. -/
theorem operation_eq : g.operation least start left = (do
    if (← sees "instanceof") && least ≤ instanceOfPrecedence then
      discard bump
      let (type, binding) ← g.typeTest
      return some (.instanceOf left type binding (← since start))
    else
      match ← look binaryOp? with
      | none => return none
      | some (op, width) =>
        if precedence op < least then return none
        bumpMany width
        let right ← g.binary (precedence op + 1)
        return some (.binary op left right (← since start))) := by
  have test (f : TypeRef × Option Ident → Parser (Option Expr)) : g.typeTest >>= f = (do
      discard (eat "final")
      let type ← g.typeRef
      let binding ← if ← look (·.identifierAt 0) then some <$> ident else pure none
      f (type, binding)) := by
    simp only [typeTest, bind_assoc]
    congr; funext _; congr; funext type; congr; funext named
    cases named <;> simp
  simp only [test]
  rfl

theorem operation_some (run : g.operation least start left c = .ok (some e, c')) :
    Operation g least left c c' e := by
  rw [operation_eq] at run
  obtain ⟨tests, c₁, seen, run⟩ := bind_ok run
  cases seen
  split at run
  · rename_i word
    rw [Bool.and_eq_true, decide_eq_true_eq] at word
    obtain ⟨_, c₁, passed, run⟩ := bind_ok run
    obtain ⟨_, passed, -⟩ := map_ok passed
    cases passed
    obtain ⟨⟨type, binding⟩, c₂, read, run⟩ := bind_ok run
    obtain ⟨_, c₃, ended, run⟩ := bind_ok run
    cases ended
    cases run
    exact .instanceOf _ word.1 word.2 read
  · obtain ⟨op?, c₁, seen, run⟩ := bind_ok run
    obtain ⟨rfl, rfl⟩ := look_ok seen
    cases sign : binaryOp? c with
    | none =>
      rw [sign] at run
      cases run
    | some found =>
      obtain ⟨op, width⟩ := found
      simp only [sign] at run
      split at run
      · cases run
      · rename_i tight
        obtain ⟨_, c₁, passed, run⟩ := bind_ok run
        rw [bumpMany_run] at passed
        cases passed
        obtain ⟨right, c₂, read, run⟩ := bind_ok run
        obtain ⟨_, c₃, ended, run⟩ := bind_ok run
        cases ended
        cases run
        exact .binary _ (binaryOp?_eq_some.mp sign) (Nat.le_of_not_lt tight) read

theorem operation_none (run : g.operation least start left c = .ok (none, c')) : c' = c ∧ c.Stops least := by
  rw [operation_eq] at run
  obtain ⟨tests, c₁, seen, run⟩ := bind_ok run
  cases seen
  split at run
  · obtain ⟨_, c₁, -, run⟩ := bind_ok run
    obtain ⟨⟨type, binding⟩, c₂, -, run⟩ := bind_ok run
    obtain ⟨_, c₃, -, run⟩ := bind_ok run
    cases run
  · rename_i loose
    have typeTest : c.spellsAt 0 "instanceof" = true → instanceOfPrecedence < least := by
      intro word
      simpa [word] using loose
    obtain ⟨op?, c₁, seen, run⟩ := bind_ok run
    obtain ⟨rfl, rfl⟩ := look_ok seen
    cases next : binaryOp? c with
    | none =>
      rw [next] at run
      cases run
      refine ⟨rfl, fun op width sign => ?_, typeTest⟩
      rw [binaryOp?_eq_some.mpr sign] at next
      cases next
    | some found =>
      obtain ⟨op, width⟩ := found
      simp only [next] at run
      split at run
      · rename_i loose
        cases run
        refine ⟨rfl, fun op' width' sign => ?_, typeTest⟩
        rw [binaryOp?_eq_some.mpr sign] at next
        cases next
        exact loose
      · obtain ⟨_, c₁, -, run⟩ := bind_ok run
        obtain ⟨_, c₂, -, run⟩ := bind_ok run
        obtain ⟨_, c₃, -, run⟩ := bind_ok run
        cases run

/-- What has been read so far is as tight as asked, and if its last operator is a binary one, no tighter operator
comes next. -/
structure Climbing (least : Nat) (e : Expr) (c : Cursor) : Prop where
  tight : ∀ p, e.tightness? = some p → least ≤ p
  next : ∀ p, e.precedence? = some p → c.Stops (p + 1)

theorem Climbing.operand (operand : e.tightness? = none) : Climbing least e c where
  tight p some := by
    rw [operand] at some
    cases some
  next p some := by
    rw [Expr.precedence?_of_tightness? operand] at some
    cases some

/-- What is read of an operand and from a tightness on leaves the first operator that is looser. -/
structure Climbed (least : Nat) (e : Expr) (c : Cursor) : Prop where
  tight : ∀ p, e.tightness? = some p → least ≤ p
  stops : c.Stops least

/-- A step groups what has been read with what it reads. -/
theorem Climbing.step (climbing : Climbing least left c) (step : Operation g least left c c' e)
    (below : ∀ least width right, g.binary least (c.past width) = .ok (right, c') → Climbed least right c') :
    Climbing least e c' ∧ e.Grouped := by
  cases step with
  | instanceOf range word tight read =>
    refine ⟨⟨?_, nofun⟩, fun p some => ?_⟩
    · rintro p ⟨⟩
      exact tight
    · exact Nat.le_of_lt_succ ((climbing.next p some).typeTest word)
  | @binary op width right range sign tight read =>
    have right := below _ _ _ read
    refine ⟨⟨?_, ?_⟩, fun p some => ?_, fun p some => right.tight p some⟩
    · rintro p ⟨⟩
      exact tight
    · rintro p ⟨⟩
      exact right.stops
    · exact Nat.le_of_lt_succ ((climbing.next p some).operator op width sign)

end Grammar
end JavaIndex
