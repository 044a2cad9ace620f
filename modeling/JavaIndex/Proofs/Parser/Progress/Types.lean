import JavaIndex.Proofs.Parser.Progress.Rules

/-! Names, annotations, modifiers and types are not read without a token. -/
namespace JavaIndex.Grammar

open JavaIndex.Parser

/-- The rules one level down do the same in both grammars as long as there are fewer than `n` tokens, and read one
of them at least. -/
structure Agrees (n : Nat) (g h : Grammar) : Prop where
  type : Advances n always g.type h.type
  elementValue : Advances n always g.elementValue h.elementValue
  variableInit : Advances n always g.variableInit h.variableInit
  expr : Advances n always g.expr h.expr
  ternary : Advances n always g.ternary h.ternary
  binary : ∀ least, Advances n always (g.binary least) (h.binary least)
  unary : Advances n always g.unary h.unary
  statement : Advances n always g.statement h.statement
  member : ∀ name isRecord, Advances n always (g.member name isRecord) (h.member name isRecord)
  classBody : Advances n always g.classBody h.classBody

variable {n : Nat} {g h : Grammar}

theorem qualifiedName_advances : Advances n always qualifiedName qualifiedName := by
  refine ident_advances.then fun first => .skip (manyWhile_advances ?_) fun rest => pure_advances rfl
  exact .skip pass_moves fun _ => ident_advances

theorem annotationArg_advances (agrees : g.Agrees n h) : Advances n always g.annotationArg h.annotationArg := by
  refine .skip (look_advances _) fun named => .cond (fun _ => ?_) fun _ => ?_
  · refine .skip ident_advances fun name => .skip pass_moves fun _ => ?_
    exact agrees.elementValue.then fun value => pure_advances rfl
  · exact agrees.elementValue.then fun value => pure_advances rfl

theorem annotationHere_advances (agrees : g.Agrees n h) :
    Advances (n + 1) always g.annotationHere h.annotationHere := by
  refine .skip (look_advances _) fun start => (expect_advances _).discard.next fun _ => ?_
  refine .skip qualifiedName_advances fun name => .skip (sees_advances _) fun given => ?_
  refine .either (parens_advances (annotationArg_advances agrees)).lower.moves (pure_advances rfl) fun args => ?_
  exact .skip (since_advances _) fun range => pure_advances rfl

theorem annotations_advances (agrees : g.Agrees n h) : Advances (n + 1) never g.annotations h.annotations :=
  manyWhile_advances (annotationHere_advances agrees).anywhere

theorem typeArg_advances (agrees : g.Agrees n h) : Advances n always g.typeArg h.typeArg := by
  refine .looked fun wild => .cond ?_ fun _ => ?_
  · rintro rfl
    refine .looked fun start => ?_
    have mark : ∀ c : Cursor, (True ∧ c.spellsAt 0 "?" = true) ∧ c.start = start → c.rest ≠ [] :=
      fun c seen => Cursor.some_of_spellsAt seen.1.2
    refine .then (bump_advances mark).discard fun _ => .skip (eat_advances _) fun upper => ?_
    refine .cond (fun _ => ?_) fun _ => .skip (eat_advances _) fun lower => .cond (fun _ => ?_) fun _ => ?_
    · exact .skip agrees.type fun type => .skip (since_advances _) fun range => pure_advances rfl
    · exact .skip agrees.type fun type => .skip (since_advances _) fun range => pure_advances rfl
    · exact .skip (since_advances _) fun range => pure_advances rfl
  · exact .anywhere (agrees.type.then fun type => pure_advances rfl)

theorem typeArgs_advances (agrees : g.Agrees n h) : Advances (n + 1) always g.typeArgs h.typeArgs := by
  refine (expect_advances _).discard.next fun _ => .skip (eat_advances _) fun empty => ?_
  refine .cond (fun _ => pure_advances rfl) fun _ => ?_
  refine .skip (sepBy_advances _ (typeArg_advances agrees)) fun args => ?_
  exact (expect_advances _).discard.then fun _ => pure_advances rfl

theorem typeSegment_advances (agrees : g.Agrees n h) (as : List Annotation) :
    Advances (n + 1) always (g.typeSegment as) (h.typeSegment as) := by
  refine ident_advances.next fun name => .skip (sees_advances _) fun given => ?_
  have args : Advances n never (some <$> g.typeArgs) (some <$> h.typeArgs) :=
    .map (typeArgs_advances agrees).lower.moves
  exact .either args (pure_advances rfl) fun args => pure_advances rfl

theorem plainType_advances (agrees : g.Agrees n h) (as : List Annotation) :
    Advances (n + 1) always (g.plainType as) (h.plainType as) := by
  refine .looked fun primitive => .cond ?_ fun _ => .skip (look_advances _) fun named => .cond (fun _ => ?_) ?_
  · rintro rfl
    refine .looked fun keyword => .then (bump_advances fun c seen => ?_) fun range => pure_advances rfl
    rcases (Bool.or_eq_true _ _).mp seen.1.2 with primitive | void
    · exact Cursor.some_of_primitiveAt primitive
    · exact Cursor.some_of_spellsAt void
  · refine .skip (look_advances _) fun start => (typeSegment_advances agrees as).next fun first => ?_
    have more : Advances n always (do discard bump; g.typeSegment []) (do discard bump; h.typeSegment []) :=
      .skip pass_moves fun _ => (typeSegment_advances agrees []).lower
    refine .skip (manyWhile_advances more.anywhere) fun rest => ?_
    exact .skip (since_advances _) fun range => pure_advances rfl
  · exact fun _ => fail_advances _

theorem arrayOf_advances (base : TypeRef) : Advances n never (arrayOf base) (arrayOf base) := by
  refine .skip emptyBrackets_advances fun dims => .cond (fun _ => pure_advances rfl) fun _ => ?_
  exact .skip (since_advances _) fun range => pure_advances rfl

theorem typeRef_advances (agrees : g.Agrees n h) : Advances (n + 1) always g.typeRef h.typeRef :=
  .skip (annotations_advances agrees) fun as => (plainType_advances agrees as).next fun base => arrayOf_advances base

theorem typeList_advances (agrees : g.Agrees n h) : Advances (n + 1) always g.typeList h.typeList :=
  sepBy_advances _ (typeRef_advances agrees)

theorem typeParam_advances (agrees : g.Agrees n h) : Advances (n + 1) always g.typeParam h.typeParam := by
  refine .skip (annotations_advances agrees) fun as => ident_advances.next fun name => ?_
  refine .skip (eat_advances _) fun bounded => ?_
  exact .either (sepBy_advances _ (typeRef_advances agrees).lower).moves (pure_advances rfl)
    fun bounds => pure_advances rfl

theorem typeParams_advances (agrees : g.Agrees n h) : Advances (n + 1) always g.typeParams h.typeParams := by
  refine (expect_advances _).discard.next fun _ => ?_
  refine .skip (sepBy_advances _ (typeParam_advances agrees).lower) fun params => ?_
  exact (expect_advances _).discard.then fun _ => pure_advances rfl

theorem optionalTypeParams_advances (agrees : g.Agrees n h) :
    Advances (n + 1) never g.optionalTypeParams h.optionalTypeParams :=
  .skip (sees_advances _) fun _ => .cond (fun _ => (typeParams_advances agrees).moves)
    fun _ => pure_advances rfl

theorem addModifier_advances (agrees : g.Agrees n h) (m : Modifiers) :
    Advances (n + 1) Option.isSome (g.addModifier m) (h.addModifier m) := by
  refine .skip (look_advances _) fun annotated => .cond (fun _ => ?_) fun _ => ?_
  · exact (annotationHere_advances agrees).then fun a => pure_advances rfl
  refine .looked fun closed => .cond ?_ fun _ => .anywhere ?_
  · rintro rfl
    refine .then (bump_advances fun c seen => ?_).discard fun _ => pure_advances rfl
    exact Cursor.some_of_wordAt (Bool.and_eq_true .. |>.mp seen.2).1
  refine .looked fun opened => .cond ?_ fun _ => .anywhere ?_
  · rintro rfl
    refine .then (bump_advances fun c seen => ?_).discard fun _ => ?_
    · rw [Bool.and_eq_true, Bool.and_eq_true] at seen
      exact Cursor.some_of_wordAt seen.2.1.1
    exact .skip pass_moves fun _ => .skip pass_moves fun _ => pure_advances rfl
  refine .looked fun word => ?_
  cases word with
  | none => exact pure_advances rfl
  | some word =>
    refine .then (bump_advances fun c seen => ?_).discard fun _ => pure_advances rfl
    obtain ⟨t, here, -⟩ := Option.bind_eq_some_iff.mp seen.2
    exact Cursor.some_of_ahead? here

theorem modifiers_advances (agrees : g.Agrees n h) : Advances (n + 1) never g.modifiers h.modifiers :=
  iterate_advances (addModifier_advances agrees) _

end JavaIndex.Grammar
