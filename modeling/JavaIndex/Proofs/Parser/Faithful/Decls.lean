import JavaIndex.Parser.Decls
import JavaIndex.Proofs.Parser.Faithful.Exprs

/-! The identifiers of declarations are read in their order, and lie in the spans of these. -/
namespace JavaIndex.Grammar

open JavaIndex.Parser

variable {g : Grammar} {here : Cursor → Prop}

theorem param_reads (reading : g.Reading) : Reads [] g.param Spots.param := by
  refine .skip (look_unnamed _) fun start => .bind (modifiers_reads reading) fun mods => ?_
  refine .bind (typeRef_reads reading) fun type => .skip (eat_unnamed _) fun varargs => ?_
  refine .bind ident_reads fun name => .skip emptyBrackets_unnamed fun dims => ?_
  exact .skip (since_unnamed _) fun range => reads_pure (by simp)

theorem params_reads (reading : g.Reading) : Reads [] g.params fun ps => ps.flatMap Spots.param :=
  .parens (param_reads reading)

theorem declarator_reads (reading : g.Reading) (name : Ident) :
    ReadsFrom here (Spots.names [name]) (g.declarator name) Spots.declarator := by
  refine .skip emptyBrackets_unnamed fun dims => .skip (eat_unnamed _) fun given => ?_
  refine .either (.found (initializer_reads reading)) (reads_pure (.refl _)) fun init => ?_
  exact reads_pure (by simp)

theorem declarators_reads (reading : g.Reading) :
    Reads [] g.declarators fun vs => vs.flatMap Spots.declarator :=
  .sepBy _ (.bind ident_reads fun name => declarator_reads reading name)

theorem methodRest_reads (reading : g.Reading) (head : MethodHead) (params : List Param) (compact : Bool)
    {held : List Spot} (same : held = Spots.modifiers head.modifiers ++ (head.typeParams.flatMap Spots.typeParam ++
      (head.returns.elim [] Spots.typeRef ++ (Spots.names [head.name] ++ params.flatMap Spots.param)))) :
    ReadsFrom (·.start = head.start) held (g.methodRest head params compact) Spots.methodDecl := by
  have none : Reads [] (do discard (expectAs ";" "`;` or method body"); pure (none : Option Block))
      (·.elim [] Spots.block) :=
    .skip (.discard (expectAs_unnamed _ _)) fun _ => reads_pure (.refl _)
  refine .skip (.discard emptyBrackets_unnamed) fun _ => .skip (eat_unnamed _) fun throws => ?_
  refine .either (typeList_reads reading) (reads_pure (.refl _)) fun throwing => ?_
  refine .skip (eat_unnamed _) fun given => ?_
  refine .either (.found reading.elementValue) (reads_pure (.refl _)) fun defaultValue => ?_
  refine .skip (sees_unnamed _) fun braced => .orSteps (.found (block_reads reading)) none fun body => ?_
  exact .closed fun range => by simp [same]

theorem enumConstant_reads (reading : g.Reading) : Reads [] g.enumConstant Spots.enumConstant := by
  refine .skip (look_unnamed _) fun doc => .bind (annotations_reads reading) fun as => ?_
  refine .bind ident_reads fun name => .skip (sees_unnamed _) fun given => ?_
  refine .either (.found (args_reads reading)) (reads_pure (.refl _)) fun args => ?_
  refine .skip (sees_unnamed _) fun braced => .either (.found reading.classBody) (reads_pure (.refl _)) fun body => ?_
  exact reads_pure (by simp)

theorem enumConstants_reads (reading : g.Reading) :
    Reads [] g.enumConstants fun ks => ks.flatMap Spots.enumConstant := by
  refine .seq (w := fun r => r.1.reverse.flatMap Spots.enumConstant) (.iterate (.refl []) ?_) fun (ks, _) => ?_
  · refine fun (ks, more) => .skip (look_unnamed _) fun closed => .cond (reads_pure (.refl _)) ?_
    exact .bind (enumConstant_reads reading) fun k => .skip (eat_unnamed _) fun more => reads_pure (by simp)
  · exact .skip (.discard (eat_unnamed _)) fun _ => reads_pure (.refl _)

theorem semicolons_unnamed : Unnamed semicolons :=
  .discard (.fewer (.manyWhile _ bump_unnamed) fun _ => List.nil_sublist _)

theorem members_reads (reading : g.Reading) (shape : BodyShape) :
    Reads [] (g.members shape) fun ms => ms.flatMap Spots.member := by
  refine .many (.skip semicolons_unnamed fun _ => .skip (eat_unnamed _) fun closed => ?_)
  refine .cond (reads_pure (.refl _)) (.skip (look_unnamed _) fun atEnd => .skipIf (fail_reads _) fun _ => ?_)
  exact .bind (reading.member _ _) fun m => reads_pure (by simp)

theorem body_reads (reading : g.Reading) (shape : BodyShape) :
    Reads [] (g.body shape) fun r => r.1.flatMap Spots.enumConstant ++ r.2.flatMap Spots.member := by
  refine .skip (.discard (expect_unnamed _)) fun _ => ?_
  refine .either (enumConstants_reads reading) (reads_pure (.refl _)) fun constants => ?_
  exact .bind (members_reads reading shape) fun members => reads_pure (by simp)

theorem declKind_unnamed : Unnamed declKind := by
  refine .skip (eat_unnamed _) fun isClass => .cond (reads_pure (.refl _)) ?_
  refine .skip (eat_unnamed _) fun isInterface => .cond (reads_pure (.refl _)) ?_
  refine .skip (eat_unnamed _) fun isEnum => .cond (reads_pure (.refl _)) ?_
  refine .skip (look_unnamed _) fun isAnnotation => .cond ?_ (.skip (look_unnamed _) fun isRecord => .cond ?_ ?_)
  · exact .skip pass_unnamed fun _ => .skip pass_unnamed fun _ => reads_pure (.refl _)
  · exact .skip pass_unnamed fun _ => reads_pure (.refl _)
  · exact fail_reads _

theorem typeDecl_reads (reading : g.Reading) (mods : Modifiers) (doc : Option Comment) (start : Nat) :
    ReadsFrom (·.start = start) (Spots.modifiers mods) (g.typeDecl mods doc start) Spots.typeDecl := by
  have types := typeList_reads reading
  have permits : Reads [] (do discard bump; g.typeList) fun ts => ts.flatMap Spots.typeRef :=
    .skip pass_unnamed fun _ => types
  refine .skip declKind_unnamed fun kind => .bind ident_reads fun name => ?_
  refine .bind (optionalTypeParams_reads reading) fun typeParams => ?_
  refine .either (params_reads reading) (reads_pure (.refl _)) fun components => ?_
  refine .skip (eat_unnamed _) fun extends? => .either types (reads_pure (.refl _)) fun extending => ?_
  refine .skip (eat_unnamed _) fun implements? => .either types (reads_pure (.refl _)) fun implementing => ?_
  refine .skip (look_unnamed _) fun permits? => .stepsOr permits (reads_pure (.refl _)) fun permitting => ?_
  refine .bind (body_reads reading _) fun (constants, members) => ?_
  exact .closed fun range => by simp

theorem classMember_reads (reading : g.Reading) (className : Option String) (isRecord : Bool) :
    Reads [] (g.classMember className isRecord) Spots.member := by
  have block := block_reads reading
  refine .skip (sees_unnamed _) fun braced => .cond ?_ (.skip (look_unnamed _) fun static => .cond ?_ ?_)
  · exact .bind block fun b => reads_pure (by simp)
  · exact .skip pass_unnamed fun _ => .bind block fun b => reads_pure (by simp)
  refine .skip (look_unnamed _) fun doc => .started fun start => ?_
  refine .bind (modifiers_reads reading) fun mods => .skip (look_unnamed _) fun isType => .cond ?_ ?_
  · exact .seq (typeDecl_reads reading mods doc start) fun d => reads_pure (by simp)
  refine .bind (optionalTypeParams_reads reading) fun typeParams => ?_
  refine .skip (look_unnamed _) fun constructs => .cond ?_ (.skip (look_unnamed _) fun compact => .cond ?_ ?_)
  · refine .bind ident_reads fun name => .bind (params_reads reading) fun params => ?_
    refine .seq (methodRest_reads reading ⟨mods, typeParams, none, name, doc, start⟩ params false (by simp)) ?_
    exact fun m => reads_pure (by simp)
  · refine .bind ident_reads fun name => ?_
    refine .seq (methodRest_reads reading ⟨mods, typeParams, none, name, doc, start⟩ [] true (by simp)) ?_
    exact fun m => reads_pure (by simp)
  refine .bind (typeRef_reads reading) fun type => .skip (look_unnamed _) fun isMethod => .cond ?_ ?_
  · refine .bind ident_reads fun name => .bind (params_reads reading) fun params => ?_
    refine .seq (methodRest_reads reading ⟨mods, typeParams, some type, name, doc, start⟩ params false (by simp)) ?_
    exact fun m => reads_pure (by simp)
  · -- the type variables of a field are read and forgotten
    have kept := (List.sublist_append_left (Spots.modifiers mods) (typeParams.flatMap Spots.typeParam)).append
      (List.Sublist.refl (Spots.typeRef type))
    refine .leaving _ kept (.bind (declarators_reads reading) fun vars => ?_)
    refine .skip (.discard (expect_unnamed _)) fun _ => .closed fun range => ?_
    simp

end JavaIndex.Grammar
