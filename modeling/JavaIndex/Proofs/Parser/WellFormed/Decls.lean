import JavaIndex.Parser.Decls
import JavaIndex.Proofs.Parser.WellFormed.Exprs

/-! The types and the expressions of declarations are well formed. -/
namespace JavaIndex

theorem Subtree.all_withDims {names : String → Prop} {t : TypeRef} (formed : All names (Subtrees.typeRef t))
    (dims : Nat) : All names (Subtrees.typeRef (t.withDims dims)) := by
  unfold WrittenType.withDims
  split
  · exact formed
  · rename_i some
    exact all_array (Nat.pos_of_ne_zero some) formed _

namespace Grammar

open JavaIndex.Parser Subtree

variable {names : String → Prop} {g : Grammar}

theorem param_gives (forming : g.Forming names) : Gives names g.param fun p => All names (Subtrees.param p) := by
  refine .skip (look_gives _) fun start => .bind (modifiers_gives forming) fun mods formed => ?_
  refine .bind (typeRef_gives forming) fun type typed => .skip (eat_gives _) fun varargs => ?_
  refine .skip ident_gives fun name => .skip emptyBrackets_gives fun dims => gives_since fun range => ?_
  rw [Subtrees.param, all_append]
  exact ⟨formed, all_withDims typed dims⟩

theorem params_gives (forming : g.Forming names) :
    Gives names g.params fun ps => ∀ p ∈ ps, All names (Subtrees.param p) :=
  .parens (param_gives forming)

theorem declarator_gives (forming : g.Forming names) (name : Ident) :
    Gives names (g.declarator name) fun v => All names (Subtrees.declarator v) := by
  refine .skip emptyBrackets_gives fun dims => .skip (eat_gives _) fun given => ?_
  refine .either (.found (initializer_gives forming)) (gives_pure nofun) fun init held => gives_pure ?_
  rw [Subtrees.declarator, Subtrees.expr?_eq, all_elim]
  exact held

theorem declarators_gives (forming : g.Forming names) :
    Gives names g.declarators fun vs => ∀ v ∈ vs, All names (Subtrees.declarator v) :=
  .sepBy _ (.skip ident_gives (declarator_gives forming))

theorem methodRest_gives (forming : g.Forming names) {head : MethodHead} {params : List Param} (compact : Bool)
    (modified : All names (Subtrees.modifiers head.modifiers))
    (generic : ∀ p ∈ head.typeParams, All names (Subtrees.typeParam p))
    (returned : ∀ t ∈ head.returns, All names (Subtrees.typeRef t))
    (given : ∀ p ∈ params, All names (Subtrees.param p)) :
    Gives names (g.methodRest head params compact) fun m => All names (Subtrees.methodDecl m) := by
  have none : Gives names (do discard (expectAs ";" "`;` or method body"); pure (none : Option Block))
      fun b? => ∀ b ∈ b?, All names (Subtrees.block b) :=
    .skip (.discard (expectAs_gives _ _)) fun _ => gives_pure nofun
  refine .skip (.discard emptyBrackets_gives) fun _ => .skip (eat_gives _) fun throws => ?_
  refine .either (typeList_gives forming) (gives_pure nofun) fun throwing thrown => ?_
  refine .skip (eat_gives _) fun defaults => ?_
  refine .either (.found forming.elementValue) (gives_pure nofun) fun defaultValue valued => ?_
  refine .skip (sees_gives _) fun braced => .orSteps (.found (block_gives forming)) none fun body held => ?_
  refine gives_since fun range => ?_
  simp only [Subtrees.methodDecl, Subtrees.typeParams_eq, Subtrees.typeRef?_eq, Subtrees.params_eq,
    Subtrees.typeRefs_eq, Subtrees.expr?_eq, Subtrees.block?_eq, all_append, all_flatMap, all_elim]
  exact ⟨modified, generic, returned, given, thrown, valued, held⟩

theorem enumConstant_gives (forming : g.Forming names) :
    Gives names g.enumConstant fun k => All names (Subtrees.enumConstant k) := by
  refine .skip (look_gives _) fun doc => .bind (annotations_gives forming) fun as formed => ?_
  refine .skip ident_gives fun name => .skip (sees_gives _) fun given => ?_
  refine .either (.found (args_gives forming)) (gives_pure nofun) fun args held => ?_
  refine .skip (sees_gives _) fun braced => ?_
  refine .either (.found forming.classBody) (gives_pure nofun) fun body held' => gives_pure ?_
  simp only [Subtrees.enumConstant, Subtrees.annotations_eq, Subtrees.exprs?_eq, Subtrees.members?_eq, all_append,
    all_flatMap, all_elim]
  exact ⟨formed, held, held'⟩

theorem enumConstants_gives (forming : g.Forming names) :
    Gives names g.enumConstants fun ks => ∀ k ∈ ks, All names (Subtrees.enumConstant k) := by
  refine .bind (v := fun r => ∀ k ∈ r.1, All names (Subtrees.enumConstant k)) (.iterate nofun ?_) fun (ks, _) held => ?_
  · refine fun (ks, more) held => .skip (look_gives _) fun closed => .cond (gives_pure nofun) ?_
    refine .bind (enumConstant_gives forming) fun k held' => .skip (eat_gives _) fun more => gives_pure ?_
    simpa only [Option.mem_some_iff, forall_eq', List.forall_mem_cons] using ⟨held', held⟩
  · exact .skip (.discard (eat_gives _)) fun _ => gives_pure (by simpa only [List.mem_reverse] using held)

theorem semicolons_gives : Gives names semicolons fun _ => True := .discard (.manyWhile _ bump_gives)

theorem members_gives (forming : g.Forming names) (shape : BodyShape) :
    Gives names (g.members shape) fun ms => ∀ m ∈ ms, All names (Subtrees.member m) := by
  refine .many (.skip semicolons_gives fun _ => .skip (eat_gives _) fun closed => .cond (gives_pure nofun) ?_)
  refine .skip (look_gives _) fun atEnd => .skipIf (v := fun _ => True) (fail_gives _) fun _ => ?_
  refine .bind (forming.member _ _) fun m held => gives_pure ?_
  simpa only [Option.mem_some_iff, forall_eq'] using held

theorem body_gives (forming : g.Forming names) (shape : BodyShape) : Gives names (g.body shape) fun r =>
    (∀ k ∈ r.1, All names (Subtrees.enumConstant k)) ∧ ∀ m ∈ r.2, All names (Subtrees.member m) := by
  refine .skip (expect_gives _) fun _ => ?_
  refine .either (enumConstants_gives forming) (gives_pure nofun) fun constants formed => ?_
  exact .bind (members_gives forming shape) fun members held => gives_pure ⟨formed, held⟩

theorem declKind_gives : Gives names declKind fun _ => True := by
  refine .skip (eat_gives _) fun isClass => .cond (gives_pure trivial) ?_
  refine .skip (eat_gives _) fun isInterface => .cond (gives_pure trivial) ?_
  refine .skip (eat_gives _) fun isEnum => .cond (gives_pure trivial) ?_
  refine .skip (look_gives _) fun isAnnotation => .cond ?_ (.skip (look_gives _) fun isRecord => .cond ?_ ?_)
  · exact .skip pass_gives fun _ => .skip pass_gives fun _ => gives_pure trivial
  · exact .skip pass_gives fun _ => gives_pure trivial
  · exact fail_gives _

theorem typeDecl_gives (forming : g.Forming names) {mods : Modifiers} (modified : All names (Subtrees.modifiers mods))
    (doc : Option Comment) (start : Nat) :
    Gives names (g.typeDecl mods doc start) fun d => All names (Subtrees.typeDecl d) := by
  have types := typeList_gives forming
  have permits : Gives names (do discard bump; g.typeList) fun ts => ∀ t ∈ ts, All names (Subtrees.typeRef t) :=
    .skip pass_gives fun _ => types
  refine .skip declKind_gives fun kind => .skip ident_gives fun name => ?_
  refine .bind (optionalTypeParams_gives forming) fun typeParams generic => ?_
  refine .either (params_gives forming) (gives_pure nofun) fun components given => ?_
  refine .skip (eat_gives _) fun extends? => .either types (gives_pure nofun) fun extending extended => ?_
  refine .skip (eat_gives _) fun implements? => .either types (gives_pure nofun) fun implementing implemented => ?_
  refine .skip (look_gives _) fun permits? => .stepsOr permits (gives_pure nofun) fun permitting permitted => ?_
  refine .bind (body_gives forming _) fun (constants, members) held => gives_since fun range => ?_
  simp only [Subtrees.typeDecl, Subtrees.typeParams_eq, Subtrees.params_eq, Subtrees.typeRefs_eq,
    Subtrees.enumConstants_eq, Subtrees.members_eq, all_append, all_flatMap]
  exact ⟨modified, generic, given, extended, implemented, permitted, held⟩

theorem classMember_gives (forming : g.Forming names) (className : Option String) (isRecord : Bool) :
    Gives names (g.classMember className isRecord) fun m => All names (Subtrees.member m) := by
  have block := block_gives forming
  have method {p : Parser MethodDecl} (h : Gives names p fun m => All names (Subtrees.methodDecl m)) :
      Gives names (do return Member.method (← p)) fun m => All names (Subtrees.member m) :=
    .bind h fun m held => gives_pure (by simpa only [Subtrees.member] using held)
  refine .skip (sees_gives _) fun braced => .cond ?_ (.skip (look_gives _) fun static => .cond ?_ ?_)
  · exact .bind block fun b held => gives_pure (by simpa only [Subtrees.member] using held)
  · refine .skip pass_gives fun _ => .bind block fun b held => gives_pure ?_
    simpa only [Subtrees.member] using held
  refine .skip (look_gives _) fun doc => .skip (look_gives _) fun start => ?_
  refine .bind (modifiers_gives forming) fun mods modified => .skip (look_gives _) fun isType => .cond ?_ ?_
  · refine .bind (typeDecl_gives forming modified doc start) fun d held => gives_pure ?_
    simpa only [Subtrees.member] using held
  refine .bind (optionalTypeParams_gives forming) fun typeParams generic => ?_
  refine .skip (look_gives _) fun constructs => .cond ?_ (.skip (look_gives _) fun compact => .cond ?_ ?_)
  · refine .skip ident_gives fun name => .bind (params_gives forming) fun params given => ?_
    exact method (methodRest_gives forming false modified generic nofun given)
  · exact .skip ident_gives fun name => method (methodRest_gives forming true modified generic nofun nofun)
  refine .bind (typeRef_gives forming) fun type typed => .skip (look_gives _) fun isMethod => .cond ?_ ?_
  · refine .skip ident_gives fun name => .bind (params_gives forming) fun params given => ?_
    exact method (methodRest_gives forming false modified generic (by simpa using typed) given)
  · refine .bind (declarators_gives forming) fun vars held => .skip (expect_gives _) fun _ => gives_since fun range => ?_
    simp only [Subtrees.member, Subtrees.varDecl, Subtrees.declarators_eq, all_append, all_flatMap]
    exact ⟨modified, typed, held⟩

end Grammar
end JavaIndex
