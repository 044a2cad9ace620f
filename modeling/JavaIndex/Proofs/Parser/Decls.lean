import JavaIndex.Parser.Decls
import JavaIndex.Proofs.Parser.Exprs

/-! The words of declarations are words that were read. -/
namespace JavaIndex.Grammar

open JavaIndex.Parser
open JavaIndex.Nodes (words)

variable {g : Grammar}

theorem param_keeps (keeping : g.Keeping) : Keeps [] g.param (words fun p => Nodes.methodParams [p]) := by
  refine .skip (look_silent _) fun start => (modifiers_keeps keeping).bind fun mods => ?_
  refine (typeRef_keeps keeping).bind fun type => .skip (eat_silent _) fun varargs => ?_
  refine ident_keeps.bind fun name => .skip emptyBrackets_silent fun dims => ?_
  refine .skip (since_silent _) fun range => keeps_pure fun i => ?_
  have := congrArg (List.count i) (Nodes.words_withDims type dims)
  simp only [words, Nodes.methodParams, Nodes.idents_append, Nodes.idents_declaration,
    List.append_nil, List.count_append] at this ⊢
  omega

theorem params_keeps (keeping : g.Keeping) :
    Keeps [] g.params fun ps => ps.flatMap (words fun p => Nodes.methodParams [p]) :=
  (param_keeps keeping).parens

theorem declarator_keeps (keeping : g.Keeping) (name : Ident) :
    Keeps [name] (g.declarator name) (words fun v => Nodes.varDeclarators [v]) := by
  refine .skip emptyBrackets_silent fun dims => .skip (eat_silent _) fun assigned => ?_
  refine .either (initializer_keeps keeping).found (keeps_pure (.refl _)) fun init => ?_
  exact keeps_pure fun i => by simp [words, Nodes.varDeclarators]

theorem declarators_keeps (keeping : g.Keeping) :
    Keeps [] g.declarators fun vs => vs.flatMap (words fun v => Nodes.varDeclarators [v]) := by
  refine .sepBy _ (ident_keeps.bind fun name => ?_)
  simpa using declarator_keeps keeping name

/-- The words of a method before its parameters. -/
def MethodHead.words (head : MethodHead) : List Ident :=
  Nodes.words Nodes.modifiers head.modifiers ++
    head.typeParams.flatMap (Nodes.words fun p => Nodes.typeParams [p]) ++
    optional (Nodes.words Nodes.typeRef) head.returns ++ [head.name]

theorem methodRest_keeps (keeping : g.Keeping) (head : MethodHead) (params : List Param) (compact : Bool) :
    Keeps (head.words ++ params.flatMap (words fun p => Nodes.methodParams [p]))
      (g.methodRest head params compact) (words Nodes.methodDecl) := by
  refine .skip emptyBrackets_silent.discard fun _ => .skip (eat_silent _) fun throws => ?_
  refine .either (typeList_keeps keeping) (keeps_pure (.refl _)) fun throwing => ?_
  refine .skip (eat_silent _) fun defaults => ?_
  refine .either keeping.elementValue.found (keeps_pure (.refl _)) fun defaultValue => ?_
  refine .skip (sees_silent _) fun braced => ?_
  have bodiless : Keeps [] (do discard (expectAs ";" "`;` or method body"); pure none)
      (optional (words Nodes.block)) :=
    .skip (expectAs_silent _ _).discard fun _ => keeps_pure (.refl _)
  refine .orSteps (block_keeps keeping).found bodiless fun body => .skip (since_silent _) fun range => ?_
  refine keeps_pure fun i => ?_
  simp only [MethodHead.words, words, Nodes.methodDecl, Nodes.idents_append, Nodes.idents_declaration,
    Nodes.idents_typeParams, Nodes.idents_typeRef?, Nodes.idents_methodParams, Nodes.idents_typeRefs,
    Nodes.idents_block?, Nodes.idents_expr?, List.count_append]
  omega

theorem enumConstant_keeps (keeping : g.Keeping) :
    Keeps [] g.enumConstant (words fun k => Nodes.enumConstants [k]) := by
  refine .skip (look_silent _) fun doc => (annotations_keeps keeping).bind fun as => ?_
  refine ident_keeps.bind fun name => .skip (sees_silent _) fun given => ?_
  refine .either (args_keeps keeping).found (keeps_pure (.refl _)) fun args => ?_
  refine .skip (sees_silent _) fun braced => ?_
  refine .either keeping.classBody.found (keeps_pure (.refl _)) fun body => keeps_pure fun i => ?_
  simp [words, Nodes.enumConstants]

theorem enumConstants_keeps (keeping : g.Keeping) :
    Keeps [] g.enumConstants fun ks => ks.flatMap (words fun k => Nodes.enumConstants [k]) := by
  refine Keeps.bind (w := fun r : List EnumConstant × Bool =>
    r.1.flatMap (words fun k => Nodes.enumConstants [k])) ?_ fun (ks, _) => ?_
  · refine .iterate (.refl []) fun (ks, more) => .skip (look_silent _) fun closed => ?_
    split
    · exact keeps_pure (.refl _)
    refine (enumConstant_keeps keeping).bind fun k => .skip (eat_silent _) fun more => ?_
    refine keeps_pure fun i => ?_
    simp only [Option.getD_some, List.flatMap_cons, List.count_append]
    omega
  · refine .skip (eat_silent _).discard fun _ => keeps_pure fun i => ?_
    exact Nat.le_of_eq ((ks.reverse_perm.flatMap_right _).count_eq i)

theorem semicolons_silent : Silent semicolons := (bump_silent.manyWhile _).discard

theorem members_keeps (keeping : g.Keeping) (shape : BodyShape) :
    Keeps [] (g.members shape) fun ms => ms.flatMap (words Nodes.member) := by
  refine .many (.skip semicolons_silent fun _ => .skip (eat_silent _) fun closed => ?_)
  split
  · exact keeps_pure (.refl _)
  refine .skip (look_silent _) fun atEnd => .skipIf (fail_keeps _) fun _ => ?_
  exact (keeping.member _ _).bind fun m => keeps_pure (.refl _)

theorem body_keeps (keeping : g.Keeping) (shape : BodyShape) :
    Keeps [] (g.body shape) fun r => r.1.flatMap (words fun k => Nodes.enumConstants [k]) ++
      r.2.flatMap (words Nodes.member) := by
  refine .skip (expect_silent _).discard fun _ => ?_
  refine .either (enumConstants_keeps keeping) (keeps_pure (.refl _)) fun ks => ?_
  exact (members_keeps keeping shape).bind fun ms => keeps_pure (.refl _)

theorem declKind_silent : Silent declKind := by
  refine .skip (eat_silent _) fun isClass => ?_
  split
  · exact keeps_pure (.refl _)
  refine .skip (eat_silent _) fun isInterface => ?_
  split
  · exact keeps_pure (.refl _)
  refine .skip (eat_silent _) fun isEnum => ?_
  split
  · exact keeps_pure (.refl _)
  refine .skip (look_silent _) fun isAnnotation => ?_
  split
  · exact .skip bump_silent.discard fun _ => .skip bump_silent.discard fun _ => keeps_pure (.refl _)
  refine .skip (look_silent _) fun isRecord => ?_
  split
  · exact .skip bump_silent.discard fun _ => keeps_pure (.refl _)
  · exact fail_keeps _

theorem typeDecl_keeps (keeping : g.Keeping) (mods : Modifiers) (doc : Option Comment) (start : Nat) :
    Keeps (words Nodes.modifiers mods) (g.typeDecl mods doc start) (words Nodes.typeDecl) := by
  refine .skip declKind_silent fun kind => ident_keeps.bind fun name => ?_
  refine (optionalTypeParams_keeps keeping).bind fun params => ?_
  refine .either (params_keeps keeping) (keeps_pure (.refl _)) fun components => ?_
  refine .skip (eat_silent _) fun extended => ?_
  refine .either (typeList_keeps keeping) (keeps_pure (.refl _)) fun extending => ?_
  refine .skip (eat_silent _) fun implemented => ?_
  refine .either (typeList_keeps keeping) (keeps_pure (.refl _)) fun implementing => ?_
  refine .skip (look_silent _) fun permitted => ?_
  have types : Keeps [] (do discard bump; g.typeList) fun ts => ts.flatMap (words Nodes.typeRef) :=
    .skip bump_silent.discard fun _ => typeList_keeps keeping
  refine .stepsOr types (keeps_pure (.refl _)) fun permitting => (body_keeps keeping _).bind fun r => ?_
  refine .skip (since_silent _) fun range => keeps_pure fun i => ?_
  have := Nodes.count_recordComponents components i
  simp only [words, Nodes.typeDecl, Nodes.idents_append, Nodes.idents_classNode, Nodes.idents_declaration,
    Nodes.idents_inside, Nodes.idents_typeParams, Nodes.idents_typeRefs, Nodes.idents_enumConstants,
    Nodes.idents_members, Nodes.idents_methodParams, List.count_append, List.count_nil] at this ⊢
  omega

theorem classMember_keeps (keeping : g.Keeping) (className : Option String) (isRecord : Bool) :
    Keeps [] (g.classMember className isRecord) (words Nodes.member) := by
  refine .skip (sees_silent _) fun braced => ?_
  split
  · exact (block_keeps keeping).bind fun b => keeps_pure fun i => by simp [words, Nodes.member]
  refine .skip (look_silent _) fun static => ?_
  split
  · refine .skip bump_silent.discard fun _ => (block_keeps keeping).bind fun b => keeps_pure fun i => ?_
    simp [words, Nodes.member]
  refine .skip (look_silent _) fun doc => .skip (look_silent _) fun start => ?_
  refine (modifiers_keeps keeping).bind fun mods => .skip (look_silent _) fun declares => ?_
  split
  · exact (typeDecl_keeps keeping mods doc start).seq fun d => keeps_pure fun i => by
      simp [words, Nodes.member]
  refine (optionalTypeParams_keeps keeping).bind fun typeParams => .skip (look_silent _) fun constructs => ?_
  have method (head : MethodHead) (ps : List Param) (compact : Bool) :
      Keeps (head.words ++ ps.flatMap (words fun p => Nodes.methodParams [p]))
        (do return .method (← g.methodRest head ps compact)) (words Nodes.member) :=
    (methodRest_keeps keeping head ps compact).seq fun m => keeps_pure fun i => by
      simp [words, Nodes.member]
  split
  · refine ident_keeps.bind fun name => (params_keeps keeping).bind fun ps => ?_
    exact (method ⟨mods, typeParams, none, name, doc, start⟩ ps false).weaken
      (fun i => by simp [MethodHead.words]) fun _ => .refl _
  refine .skip (look_silent _) fun compact => ?_
  split
  · refine ident_keeps.bind fun name => ?_
    exact (method ⟨mods, typeParams, none, name, doc, start⟩ [] true).weaken
      (fun i => by simp [MethodHead.words]) fun _ => .refl _
  refine (typeRef_keeps keeping).bind fun type => .skip (look_silent _) fun called => ?_
  split
  · refine ident_keeps.bind fun name => (params_keeps keeping).bind fun ps => ?_
    exact (method ⟨mods, typeParams, some type, name, doc, start⟩ ps false).weaken
      (fun i => by simp [MethodHead.words]) fun _ => .refl _
  refine (declarators_keeps keeping).bind fun vs => .skip (expect_silent _).discard fun _ => ?_
  refine .skip (since_silent _) fun range => keeps_pure fun i => ?_
  simp only [words, Nodes.member, Nodes.varDecl, Nodes.idents_append, Nodes.idents_varDeclarators,
    List.count_append]
  omega

end JavaIndex.Grammar
