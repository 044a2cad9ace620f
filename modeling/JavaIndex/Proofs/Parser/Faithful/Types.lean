import JavaIndex.Parser.Types
import JavaIndex.Proofs.Parser.Faithful.Rules

/-! The identifiers of names, annotations, modifiers and types are read in their order. -/
namespace JavaIndex.Grammar

open JavaIndex.Parser

/-- The rules one level down answer with the identifiers that they read. -/
structure Reading (g : Grammar) : Prop where
  type : Reads [] g.type Spots.typeRef
  elementValue : Reads [] g.elementValue Spots.expr
  variableInit : Reads [] g.variableInit Spots.expr
  expr : Reads [] g.expr Spots.expr
  ternary : Reads [] g.ternary Spots.expr
  binary : ∀ least, Reads [] (g.binary least) Spots.expr
  unary : Reads [] g.unary Spots.expr
  statement : Reads [] g.statement Spots.stmt
  member : ∀ name isRecord, Reads [] (g.member name isRecord) Spots.member
  classBody : Reads [] g.classBody fun ms => ms.flatMap Spots.member

variable {g : Grammar} {here : Cursor → Prop}

theorem qualifiedName_reads : Reads [] qualifiedName Spots.names := by
  have more : Reads [] (do discard bump; ident) fun name => Spots.names [name] :=
    .skip pass_unnamed fun _ => ident_reads
  refine .bind ident_reads fun first => .bind (.manyWhile _ more) fun rest => reads_pure ?_
  simp [Spots.names_cons first rest]

theorem annotationArg_reads (reading : g.Reading) : Reads [] g.annotationArg Spots.annotationArg := by
  refine .skip (look_unnamed _) fun named => .cond ?_ ?_
  · refine .bind ident_reads fun name => .skip pass_unnamed fun _ => .bind reading.elementValue fun value => ?_
    exact reads_pure (by simp)
  · exact .bind reading.elementValue fun value => reads_pure (by simp)

theorem annotationHere_reads (reading : g.Reading) : Reads [] g.annotationHere Spots.annotation := by
  refine .skip (look_unnamed _) fun start => .skip (.discard (expect_unnamed _)) fun _ => ?_
  refine .bind qualifiedName_reads fun name => .skip (sees_unnamed _) fun given => ?_
  refine .either (.parens (annotationArg_reads reading)) (reads_pure (.refl _)) fun args => ?_
  exact .skip (since_unnamed _) fun range => reads_pure (by simp)

theorem annotations_reads (reading : g.Reading) : Reads [] g.annotations fun as => as.flatMap Spots.annotation :=
  .manyWhile _ (annotationHere_reads reading)

theorem typeArg_reads (reading : g.Reading) : Reads [] g.typeArg Spots.typeArg := by
  refine .skip (sees_unnamed _) fun wild => .cond ?_ ?_
  · refine .skip (look_unnamed _) fun start => .skip pass_unnamed fun _ => .skip (eat_unnamed _) fun upper => ?_
    refine .cond ?_ (.skip (eat_unnamed _) fun lower => .cond ?_ ?_)
    · refine .bind reading.type fun type => .skip (since_unnamed _) fun range => ?_
      exact reads_pure (by simp)
    · refine .bind reading.type fun type => .skip (since_unnamed _) fun range => ?_
      exact reads_pure (by simp)
    · exact .skip (since_unnamed _) fun range => reads_pure (by simp)
  · exact .bind reading.type fun type => reads_pure (by simp)

theorem typeArgs_reads (reading : g.Reading) : Reads [] g.typeArgs fun as => as.flatMap Spots.typeArg := by
  refine .skip (.discard (expect_unnamed _)) fun _ => .skip (eat_unnamed _) fun empty => ?_
  refine .cond (reads_pure (.refl _)) (.bind (.sepBy _ (typeArg_reads reading)) fun args => ?_)
  exact .skip (.discard (expect_unnamed _)) fun _ => reads_pure (by simp)

theorem typeSegment_reads (reading : g.Reading) (as : List Annotation) :
    ReadsFrom here (as.flatMap Spots.annotation) (g.typeSegment as) Spots.segment := by
  refine .bind ident_reads fun name => .skip (sees_unnamed _) fun given => ?_
  refine .either (.found (typeArgs_reads reading)) (reads_pure (.refl _)) fun args => ?_
  exact reads_pure (by simp)

theorem plainType_reads (reading : g.Reading) (as : List Annotation) :
    ReadsFrom here (as.flatMap Spots.annotation) (g.plainType as) Spots.typeRef := by
  refine .skip (look_unnamed _) fun primitive => .cond ?_ (.skip (look_unnamed _) fun named => .cond ?_ ?_)
  · refine .skip (look_unnamed _) fun keyword => .skip bump_unnamed fun range => ?_
    exact reads_pure (by simp)
  · refine .skip (look_unnamed _) fun start => .seq (typeSegment_reads reading as) fun first => ?_
    have more : Reads [] (do discard bump; g.typeSegment []) Spots.segment :=
      .skip pass_unnamed fun _ => typeSegment_reads reading []
    refine .bind (.manyWhile _ more) fun rest => .skip (since_unnamed _) fun range => ?_
    exact reads_pure (by simp)
  · exact fail_reads _

theorem arrayOf_reads (base : TypeRef) : ReadsFrom here (Spots.typeRef base) (arrayOf base) Spots.typeRef := by
  refine .skip emptyBrackets_unnamed fun dims => .cond (reads_pure (.refl _)) ?_
  exact .skip (since_unnamed _) fun range => reads_pure (by simp)

theorem typeRef_reads (reading : g.Reading) : Reads [] g.typeRef Spots.typeRef := by
  refine .bind (annotations_reads reading) fun as => .seq (plainType_reads reading as) fun base => ?_
  exact arrayOf_reads base

theorem typeList_reads (reading : g.Reading) : Reads [] g.typeList fun ts => ts.flatMap Spots.typeRef :=
  .sepBy _ (typeRef_reads reading)

theorem typeParam_reads (reading : g.Reading) : Reads [] g.typeParam Spots.typeParam := by
  refine .bind (annotations_reads reading) fun as => .bind ident_reads fun name => ?_
  refine .skip (eat_unnamed _) fun bounded => ?_
  refine .either (.sepBy _ (typeRef_reads reading)) (reads_pure (.refl _)) fun bounds => ?_
  exact reads_pure (by simp)

theorem typeParams_reads (reading : g.Reading) : Reads [] g.typeParams fun ps => ps.flatMap Spots.typeParam := by
  refine .skip (.discard (expect_unnamed _)) fun _ => .bind (.sepBy _ (typeParam_reads reading)) fun ps => ?_
  exact .skip (.discard (expect_unnamed _)) fun _ => reads_pure (by simp)

theorem optionalTypeParams_reads (reading : g.Reading) :
    Reads [] g.optionalTypeParams fun ps => ps.flatMap Spots.typeParam :=
  .skip (sees_unnamed _) fun _ => .cond (typeParams_reads reading) (reads_pure (.refl _))

theorem addModifier_reads (reading : g.Reading) (m : Modifiers) :
    ReadsFrom here (Spots.modifiers m) (g.addModifier m) fun r => Spots.modifiers (r.getD m) := by
  refine .skip (look_unnamed _) fun annotated => .cond ?_ ?_
  · exact .bind (annotationHere_reads reading) fun a => reads_pure (by simp)
  refine .skip (look_unnamed _) fun closed => .cond ?_ ?_
  · exact .skip pass_unnamed fun _ => reads_pure (by simp)
  refine .skip (look_unnamed _) fun opened => .cond ?_ ?_
  · refine .skip pass_unnamed fun _ => .skip pass_unnamed fun _ => .skip pass_unnamed fun _ => ?_
    exact reads_pure (.refl _)
  refine .skip (look_unnamed _) fun word => ?_
  cases word with
  | none => exact reads_pure (.refl _)
  | some word => exact .skip pass_unnamed fun _ => reads_pure (by simp)

theorem modifiers_reads (reading : g.Reading) : Reads [] g.modifiers Spots.modifiers :=
  .iterate (by simp [Modifiers.none]) (addModifier_reads reading)

end JavaIndex.Grammar
