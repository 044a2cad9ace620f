import JavaIndex.Proofs.Parser.Printed.Rules

/-! Names, annotations, modifiers and types are read in a text as they are read at the tokens. -/
namespace JavaIndex.Grammar

open JavaIndex.Printing (Follows Becomes mark_eq)

/-- The rules one level down are followed in the text. -/
structure Printed (w : Printing) (g : Grammar) : Prop where
  type : w.Follows (Becomes w.layout.typeRef) g.type g.type
  elementValue : w.Follows (Becomes w.layout.expr) g.elementValue g.elementValue
  variableInit : w.Follows (Becomes w.layout.expr) g.variableInit g.variableInit
  expr : w.Follows (Becomes w.layout.expr) g.expr g.expr
  ternary : w.Follows (Becomes w.layout.expr) g.ternary g.ternary
  binary : ∀ least, w.Follows (Becomes w.layout.expr) (g.binary least) (g.binary least)
  unary : w.Follows (Becomes w.layout.expr) g.unary g.unary
  statement : w.Follows (Becomes w.layout.stmt) g.statement g.statement
  member : ∀ name isRecord,
    w.Follows (Becomes w.layout.member) (g.member name isRecord) (g.member name isRecord)
  classBody : w.Follows (Becomes (List.map w.layout.member)) g.classBody g.classBody

variable {w : Printing} {g : Grammar}

theorem qualifiedName_printed :
    w.Follows (Becomes (List.map w.layout.ident)) qualifiedName qualifiedName := by
  refine Follows.ident.bind fun first => ?_
  have more : w.Follows (Becomes w.layout.ident) (do discard Parser.bump; Parser.ident)
      (do discard Parser.bump; Parser.ident) := .past .bump .ident
  exact (more.manyWhile fun c => by simp).bind fun rest => .pure rfl

theorem annotationArg_printed (printed : g.Printed w) :
    w.Follows (Becomes w.layout.annotationArg) g.annotationArg g.annotationArg := by
  refine (Follows.look fun c => by simp).same fun named => .cond ?_ ?_
  · refine Follows.ident.bind fun name => .past .bump ?_
    exact printed.elementValue.bind fun value => .pure rfl
  · exact printed.elementValue.bind fun value => .pure rfl

theorem annotationHere_printed (printed : g.Printed w) :
    w.Follows (Becomes w.layout.annotationUse) g.annotationHere g.annotationHere := by
  refine Follows.start.seq ?_
  rintro start _ ⟨rfl, -⟩
  refine .past (.expect _) (qualifiedName_printed.bind fun name => (Follows.sees _).same fun given => ?_)
  refine .either (annotationArg_printed printed).parens (.pure rfl) fun args => ?_
  exact (Follows.since start).bind fun range => .pure (by simp [Layout.annotationUse])

theorem atAnnotationSign_printed (c : Cursor) : atAnnotationSign (w.cursor c) = atAnnotationSign c := by
  simp [atAnnotationSign]

theorem annotations_printed (printed : g.Printed w) :
    w.Follows (Becomes (List.map w.layout.annotationUse)) g.annotations g.annotations :=
  (annotationHere_printed printed).manyWhile atAnnotationSign_printed

theorem typeArg_printed (printed : g.Printed w) :
    w.Follows (Becomes w.layout.typeArg) g.typeArg g.typeArg := by
  refine (Follows.sees _).same fun wild => .cond ?_ ?_
  · refine Follows.start.seq ?_
    rintro start _ ⟨rfl, -⟩
    refine .past .bump ((Follows.eat _).same fun upper => .cond ?_ ?_)
    · refine printed.type.bind fun type => (Follows.since start).bind fun range => .pure ?_
      rw [Layout.typeArg]
    · refine (Follows.eat _).same fun lower => .cond ?_ ?_
      · refine printed.type.bind fun type => (Follows.since start).bind fun range => .pure ?_
        rw [Layout.typeArg]
      · exact (Follows.since start).bind fun range => .pure rfl
  · exact printed.type.bind fun type => .pure (by rw [Layout.typeArg])

theorem typeArgs_printed (printed : g.Printed w) :
    w.Follows (Becomes (List.map w.layout.typeArg)) g.typeArgs g.typeArgs := by
  refine .past (.expect _) ((Follows.eat _).same fun empty => .cond (.pure rfl) ?_)
  exact ((typeArg_printed printed).sepBy _).bind fun args => .past (.expect _) (.pure rfl)

theorem typeSegment_printed (printed : g.Printed w) (as : List Annotation) :
    w.Follows (Becomes w.layout.segment) (g.typeSegment as)
      (g.typeSegment (as.map w.layout.annotationUse)) := by
  refine Follows.ident.bind fun name => (Follows.sees _).same fun given => ?_
  refine .either (typeArgs_printed printed).found (.pure rfl) fun args => .pure ?_
  simp [Layout.segment]

theorem plainType_printed (printed : g.Printed w) (as : List Annotation) :
    w.Follows (Becomes w.layout.typeRef) (g.plainType as)
      (g.plainType (as.map w.layout.annotationUse)) := by
  refine (Follows.look fun c => by simp).same fun primitive => .cond ?_ ?_
  · have word (c : Cursor) : (((w.cursor c).ahead? 0).map Token.text).getD "" =
        ((c.ahead? 0).map Token.text).getD "" := by
      rw [Printing.cursor_ahead?, Option.map_map]
      rfl
    exact (Follows.look word).same fun keyword => Follows.bump.bind fun range => .pure rfl
  · refine (Follows.look fun c => by simp).same fun named => .cond ?_ (.fail _)
    refine Follows.start.seq ?_
    rintro start _ ⟨rfl, -⟩
    refine (typeSegment_printed printed as).bind fun first => ?_
    have more : w.Follows (Becomes w.layout.segment) (do discard Parser.bump; g.typeSegment [])
        (do discard Parser.bump; g.typeSegment []) := .past .bump (typeSegment_printed printed [])
    refine (more.manyWhile fun c => by simp).bind fun rest => (Follows.since start).bind fun range => .pure ?_
    rw [Layout.typeRef, Layout.segments_eq, List.map_cons]

@[simp] theorem typeRef_start (t : TypeRef) :
    (w.layout.typeRef t).range.start = w.layout.offset t.range.start := by
  cases t <;> rfl

@[simp] theorem typeRef_range (t : TypeRef) : (w.layout.typeRef t).range = w.layout.span t.range := by
  cases t <;> rfl

theorem arrayOf_printed (base : TypeRef) :
    w.Follows (Becomes w.layout.typeRef) (arrayOf base) (arrayOf (w.layout.typeRef base)) := by
  refine Follows.emptyBrackets.same fun dims => .cond (.pure rfl) ?_
  rw [typeRef_start]
  exact (Follows.since _).bind fun range => .pure (by rw [Layout.typeRef])

theorem typeRef_printed (printed : g.Printed w) :
    w.Follows (Becomes w.layout.typeRef) g.typeRef g.typeRef :=
  (annotations_printed printed).bind fun as => (plainType_printed printed as).bind fun base =>
    arrayOf_printed base

theorem typeList_printed (printed : g.Printed w) :
    w.Follows (Becomes (List.map w.layout.typeRef)) g.typeList g.typeList :=
  (typeRef_printed printed).sepBy _

theorem typeParam_printed (printed : g.Printed w) :
    w.Follows (Becomes w.layout.typeParam) g.typeParam g.typeParam := by
  refine (annotations_printed printed).bind fun as => Follows.ident.bind fun name => ?_
  refine (Follows.eat _).same fun bounded => ?_
  refine .either ((typeRef_printed printed).sepBy _) (.pure rfl) fun bounds => .pure ?_
  simp [Layout.typeParam]

theorem typeParams_printed (printed : g.Printed w) :
    w.Follows (Becomes (List.map w.layout.typeParam)) g.typeParams g.typeParams :=
  .past (.expect _) (((typeParam_printed printed).sepBy _).bind fun _ =>
    .past (.expect _) (.pure rfl))

theorem optionalTypeParams_printed (printed : g.Printed w) :
    w.Follows (Becomes (List.map w.layout.typeParam)) g.optionalTypeParams g.optionalTypeParams :=
  (Follows.sees _).same fun _ => .cond (typeParams_printed printed) (.pure rfl)

/-! What is seen some way ahead. -/

@[simp] theorem atRecord_printed (tokens : List Token) : atRecord (tokens.map w.token) = atRecord tokens := by
  match tokens with
  | [] | [_] | [_, _] => rfl
  | t :: name :: next :: rest => rfl

@[simp] theorem beginsTypeDecl_printed (tokens : List Token) :
    beginsTypeDecl (tokens.map w.token) = beginsTypeDecl tokens := by
  induction tokens with
  | nil => rfl
  | cons t rest ih =>
    have record := atRecord_printed (w := w) (t :: rest)
    rw [List.map_cons] at record ⊢
    rw [beginsTypeDecl, beginsTypeDecl, ih, record]
    cases rest <;> rfl

theorem atTypeDecl_printed (c : Cursor) : atTypeDecl (w.cursor c) = atTypeDecl c :=
  beginsTypeDecl_printed c.rest

theorem addModifier_printed (printed : g.Printed w) (m : Modifiers) :
    w.Follows (Becomes (Option.map w.layout.modifiers)) (g.addModifier m)
      (g.addModifier (w.layout.modifiers m)) := by
  obtain ⟨keywords, as⟩ := m
  refine (Follows.look atAnnotationSign_printed).same fun annotated => .cond ?_ ?_
  · exact (annotationHere_printed printed).bind fun a => .pure (by simp [Layout.modifiers])
  refine (Follows.look fun c => ?_).same fun closed => .cond ?_ ?_
  · rw [Printing.cursor_rest, ← List.map_tail, beginsTypeDecl_printed, Printing.cursor_wordAt]
  · exact .past .bump (.pure rfl)
  refine (Follows.look fun c => by simp).same fun unclosed => .cond ?_ ?_
  · exact .past .bump (.past .bump (.past .bump (.pure rfl)))
  refine (Follows.look fun c => ?_).same fun word? => ?_
  · rw [Printing.cursor_ahead?, Option.bind_map]
    rfl
  · cases word? with
    | none => exact .pure rfl
    | some word => exact .past .bump (.pure rfl)

theorem modifiers_printed (printed : g.Printed w) :
    w.Follows (Becomes w.layout.modifiers) g.modifiers g.modifiers :=
  .iterateOn rfl (addModifier_printed printed)

end JavaIndex.Grammar
