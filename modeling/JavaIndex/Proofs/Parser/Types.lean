import JavaIndex.Parser.Types
import JavaIndex.Proofs.Parser.Words

/-! The words of names, annotations, modifiers and types are words that were read. -/
namespace JavaIndex.Grammar

open JavaIndex.Parser
open JavaIndex.Nodes (words)

/-- The rules one level down answer only words that they read. -/
structure Keeping (g : Grammar) : Prop where
  type : Keeps [] g.type (words Nodes.typeRef)
  elementValue : Keeps [] g.elementValue (words Nodes.expr)
  variableInit : Keeps [] g.variableInit (words Nodes.expr)
  expr : Keeps [] g.expr (words Nodes.expr)
  ternary : Keeps [] g.ternary (words Nodes.expr)
  binary : ∀ least, Keeps [] (g.binary least) (words Nodes.expr)
  unary : Keeps [] g.unary (words Nodes.expr)
  statement : Keeps [] g.statement (words Nodes.stmt)
  member : ∀ name isRecord, Keeps [] (g.member name isRecord) (words Nodes.member)
  classBody : Keeps [] g.classBody fun ms => ms.flatMap (words Nodes.member)

variable {g : Grammar}

theorem qualifiedName_keeps : Keeps [] qualifiedName id := by
  refine ident_keeps.bind fun first => ?_
  have more : Keeps [] (do discard bump; ident) fun name => [name] :=
    .skip bump_silent.discard fun _ => ident_keeps
  exact (more.manyWhile _).bind fun rest => keeps_pure fun i => by simp

theorem annotationArg_keeps (keeping : g.Keeping) :
    Keeps [] g.annotationArg (words fun a => Nodes.annotationArgs [a]) := by
  refine .skip (look_silent _) fun named => ?_
  split
  · refine ident_keeps.bind fun name => .skip bump_silent.discard fun _ => ?_
    exact keeping.elementValue.bind fun value => keeps_pure fun i => by
      simp [words, Nodes.annotationArgs]
  · exact keeping.elementValue.bind fun value => keeps_pure fun i => by
      simp [words, Nodes.annotationArgs]

theorem annotationHere_keeps (keeping : g.Keeping) :
    Keeps [] g.annotationHere (words Nodes.annotation) := by
  refine .skip (look_silent _) fun start => .skip (expect_silent _).discard fun _ => ?_
  refine qualifiedName_keeps.bind fun name => .skip (sees_silent _) fun given => ?_
  refine .either (annotationArg_keeps keeping).parens (keeps_pure (.refl _)) fun args => ?_
  exact .skip (since_silent _) fun range => keeps_pure fun i => by simp [words, Nodes.annotation]

theorem annotations_keeps (keeping : g.Keeping) :
    Keeps [] g.annotations fun as => as.flatMap (words Nodes.annotation) :=
  (annotationHere_keeps keeping).manyWhile _

theorem typeArg_keeps (keeping : g.Keeping) : Keeps [] g.typeArg (words Nodes.typeArg) := by
  refine .skip (sees_silent _) fun wild => ?_
  split
  · refine .skip (look_silent _) fun start => .skip bump_silent.discard fun _ => ?_
    refine .skip (eat_silent _) fun upper => ?_
    split
    · refine keeping.type.bind fun type => .skip (since_silent _) fun range => ?_
      exact keeps_pure fun i => by simp [words, Nodes.typeArg]
    · refine .skip (eat_silent _) fun lower => ?_
      split
      · refine keeping.type.bind fun type => .skip (since_silent _) fun range => ?_
        exact keeps_pure fun i => by simp [words, Nodes.typeArg]
      · exact .skip (since_silent _) fun range => keeps_pure fun i => by simp [words, Nodes.typeArg]
  · exact keeping.type.bind fun type => keeps_pure fun i => by simp [words, Nodes.typeArg]

theorem typeArgs_keeps (keeping : g.Keeping) :
    Keeps [] g.typeArgs fun as => as.flatMap (words Nodes.typeArg) := by
  refine .skip (expect_silent _).discard fun _ => .skip (eat_silent _) fun empty => ?_
  split
  · exact keeps_pure (.refl _)
  · refine ((typeArg_keeps keeping).sepBy _).bind fun args => ?_
    exact .skip (expect_silent _).discard fun _ => keeps_pure (.refl _)

theorem typeSegment_keeps (keeping : g.Keeping) (as : List Annotation) :
    Keeps (as.flatMap (words Nodes.annotation)) (g.typeSegment as) Nodes.segmentWords := by
  refine ident_keeps.bind fun name => .skip (sees_silent _) fun given => ?_
  have args := typeArgs_keeps keeping
  refine .either args.found (keeps_pure (.refl _)) fun args => keeps_pure fun i => ?_
  simp only [Nodes.segmentWords, List.count_append, List.count_cons, List.count_nil]
  omega

theorem plainType_keeps (keeping : g.Keeping) (as : List Annotation) :
    Keeps (as.flatMap (words Nodes.annotation)) (g.plainType as) Nodes.spelled := by
  refine .skip (look_silent _) fun primitive => ?_
  split
  · refine .skip (look_silent _) fun keyword => .skip bump_silent fun range => ?_
    exact keeps_pure fun i => by simp [Nodes.spelled]
  · refine .skip (look_silent _) fun named => ?_
    split
    · refine .skip (look_silent _) fun start => (typeSegment_keeps keeping as).seq fun first => ?_
      have more : Keeps [] (do discard bump; g.typeSegment []) Nodes.segmentWords :=
        .skip bump_silent.discard fun _ => typeSegment_keeps keeping []
      refine (more.manyWhile _).bind fun rest => .skip (since_silent _) fun range => ?_
      exact keeps_pure fun i => by simp [Nodes.spelled]
    · exact fail_keeps _

theorem arrayOf_keeps (base : TypeRef) :
    Keeps (words Nodes.typeRef base) (arrayOf base) (words Nodes.typeRef) := by
  refine .skip emptyBrackets_silent fun dims => ?_
  split
  · exact keeps_pure (.refl _)
  · exact .skip (since_silent _) fun range => keeps_pure fun i => by simp [words, Nodes.typeRef]

theorem typeRef_keeps (keeping : g.Keeping) : Keeps [] g.typeRef (words Nodes.typeRef) := by
  refine (annotations_keeps keeping).bind fun as => (plainType_keeps keeping as).seq fun base => ?_
  exact (arrayOf_keeps base).weaken (Nodes.count_typeRef base) fun _ => .refl _

theorem typeList_keeps (keeping : g.Keeping) :
    Keeps [] g.typeList fun ts => ts.flatMap (words Nodes.typeRef) :=
  (typeRef_keeps keeping).sepBy _

theorem typeParam_keeps (keeping : g.Keeping) :
    Keeps [] g.typeParam (words fun p => Nodes.typeParams [p]) := by
  refine (annotations_keeps keeping).bind fun as => ident_keeps.bind fun name => ?_
  refine .skip (eat_silent _) fun bounded => ?_
  refine .either ((typeRef_keeps keeping).sepBy _) (keeps_pure (.refl _)) fun bounds => ?_
  exact keeps_pure fun i => by simp [words, Nodes.typeParams]

theorem typeParams_keeps (keeping : g.Keeping) :
    Keeps [] g.typeParams fun ps => ps.flatMap (words fun p => Nodes.typeParams [p]) := by
  refine .skip (expect_silent _).discard fun _ => ?_
  refine ((typeParam_keeps keeping).sepBy _).bind fun ps => ?_
  exact .skip (expect_silent _).discard fun _ => keeps_pure (.refl _)

theorem optionalTypeParams_keeps (keeping : g.Keeping) :
    Keeps [] g.optionalTypeParams fun ps => ps.flatMap (words fun p => Nodes.typeParams [p]) := by
  refine .skip (sees_silent _) fun given => ?_
  split
  · exact typeParams_keeps keeping
  · exact keeps_pure (.refl _)

theorem addModifier_keeps (keeping : g.Keeping) (m : Modifiers) :
    Keeps (words Nodes.modifiers m) (g.addModifier m) fun r => words Nodes.modifiers (r.getD m) := by
  refine .skip (look_silent _) fun annotated => ?_
  split
  · exact (annotationHere_keeps keeping).bind fun a => keeps_pure fun i => by
      simp [words]
  refine .skip (look_silent _) fun closed => ?_
  split
  · exact .skip bump_silent.discard fun _ => keeps_pure fun i => by simp [words]
  refine .skip (look_silent _) fun unclosed => ?_
  split
  · refine .skip bump_silent.discard fun _ => .skip bump_silent.discard fun _ => ?_
    exact .skip bump_silent.discard fun _ => keeps_pure (.refl _)
  refine .skip (look_silent _) fun word? => ?_
  split
  · exact .skip bump_silent.discard fun _ => keeps_pure fun i => by simp [words]
  · exact keeps_pure (.refl _)

theorem modifiers_keeps (keeping : g.Keeping) : Keeps [] g.modifiers (words Nodes.modifiers) :=
  .iterate (fun i => by simp [words, Modifiers.none]) (addModifier_keeps keeping)

end JavaIndex.Grammar
