import JavaIndex.Parser.Decls
import JavaIndex.Proofs.Parser.Progress.Exprs

/-! Declarations are not read without a token. -/
namespace JavaIndex.Grammar

open JavaIndex.Parser

variable {n : Nat} {g h : Grammar}

theorem param_advances (agrees : g.Agrees n h) : Advances (n + 1) always g.param h.param := by
  refine .skip (look_advances _) fun start => .skip (modifiers_advances agrees) fun mods => ?_
  refine (typeRef_advances agrees).next fun type => .skip (eat_advances _) fun varargs => ?_
  refine .skip ident_advances fun name => .skip emptyBrackets_advances fun dims => ?_
  exact .skip (since_advances _) fun range => pure_advances rfl

theorem params_advances (agrees : g.Agrees n h) : Advances (n + 1) always g.params h.params :=
  parens_advances (param_advances agrees).lower

theorem declarator_advances (agrees : g.Agrees n h) (name : Ident) :
    Advances (n + 1) never (g.declarator name) (h.declarator name) := by
  refine .skip emptyBrackets_advances fun dims => .skip (eat_advances _) fun given => ?_
  have init : Advances (n + 1) never (some <$> g.initializer) (some <$> h.initializer) :=
    .map (initializer_advances agrees).moves
  exact .either init (pure_advances rfl) fun init => pure_advances rfl

theorem declarators_advances (agrees : g.Agrees n h) : Advances (n + 1) always g.declarators h.declarators :=
  sepBy_advances _ (ident_advances.then fun name => declarator_advances agrees name)

theorem methodRest_advances (agrees : g.Agrees n h) (head : MethodHead) (params : List Param) (compact : Bool) :
    Advances n never (g.methodRest head params compact) (h.methodRest head params compact) := by
  have value : Advances n never (some <$> g.elementValue) (some <$> h.elementValue) :=
    .map agrees.elementValue.moves
  have body : Advances n never (some <$> g.block) (some <$> h.block) := .map (block_advances agrees).lower.moves
  have none : Advances n never (do discard (expectAs ";" "`;` or method body"); pure (none : Option Block))
      (do discard (expectAs ";" "`;` or method body"); pure none) :=
    (expectAs_advances _ _).discard.then fun _ => pure_advances rfl
  refine .skip emptyBrackets_advances.drop fun _ => ?_
  refine .skip (eat_advances _) fun throws => ?_
  refine .either (typeList_advances agrees).lower.moves (pure_advances rfl) fun throwing => ?_
  refine .skip (eat_advances _) fun given => .either value (pure_advances rfl) fun defaultValue => ?_
  refine .skip (sees_advances _) fun braced => .orSteps body none fun body => ?_
  exact .skip (since_advances _) fun range => pure_advances rfl

theorem enumConstant_advances (agrees : g.Agrees n h) :
    Advances (n + 1) always g.enumConstant h.enumConstant := by
  have args : Advances n never (some <$> g.args) (some <$> h.args) := .map (args_advances agrees).lower.moves
  have body : Advances n never (some <$> g.classBody) (some <$> h.classBody) := .map agrees.classBody.moves
  refine .skip (look_advances _) fun doc => .skip (annotations_advances agrees) fun as => ?_
  refine ident_advances.next fun name => .skip (sees_advances _) fun given => ?_
  refine .either args (pure_advances rfl) fun args => .skip (sees_advances _) fun braced => ?_
  exact .either body (pure_advances rfl) fun body => pure_advances rfl

theorem enumConstants_advances (agrees : g.Agrees n h) :
    Advances (n + 1) never g.enumConstants h.enumConstants := by
  refine .skip (iterate_advances ?_ _) fun found => ?_
  · refine fun (found, more) => .skip (look_advances _) fun closed => .cond (fun _ => pure_advances rfl) fun _ => ?_
    exact (enumConstant_advances agrees).then fun c => .skip (eat_advances _) fun more => pure_advances rfl
  · exact .skip (eat_advances _).drop fun _ => pure_advances rfl

theorem semicolons_advances : Advances n never semicolons semicolons := by
  refine AdvancesAt.map (manyWhile_advances (bump_advances fun c seen => ?_))
  exact Cursor.some_of_spellsAt seen

theorem members_advances (agrees : g.Agrees n h) (shape : BodyShape) :
    Advances n never (g.members shape) (h.members shape) := by
  refine many_advances (.skip semicolons_advances fun _ => .skip (eat_advances _) fun closed => ?_)
  refine .cond (fun _ => pure_advances rfl) fun _ => ?_
  refine .skip (look_advances _) fun atEnd => .skipIf (fail_advances _) fun _ => ?_
  exact (agrees.member _ _).then fun m => pure_advances rfl

theorem body_advances (agrees : g.Agrees n h) (shape : BodyShape) :
    Advances (n + 1) always (g.body shape) (h.body shape) := by
  refine (expect_advances _).discard.next fun _ => ?_
  refine .either (enumConstants_advances agrees).lower (pure_advances rfl) fun constants => ?_
  exact .skip (members_advances agrees shape) fun members => pure_advances rfl

theorem declKind_advances : Advances n never declKind declKind := by
  refine .skip (eat_advances _) fun isClass => .cond (fun _ => pure_advances rfl) fun _ => ?_
  refine .skip (eat_advances _) fun isInterface => .cond (fun _ => pure_advances rfl) fun _ => ?_
  refine .skip (eat_advances _) fun isEnum => .cond (fun _ => pure_advances rfl) fun _ => ?_
  refine .skip (look_advances _) fun isAnnotation => .cond (fun _ => ?_) fun _ => ?_
  · exact .skip pass_moves fun _ => .skip pass_moves fun _ => pure_advances rfl
  refine .skip (look_advances _) fun isRecord => .cond (fun _ => ?_) fun _ => fail_advances _
  exact .skip pass_moves fun _ => pure_advances rfl

theorem typeDecl_advances (agrees : g.Agrees n h) (mods : Modifiers) (doc : Option Comment) (start : Nat) :
    Advances (n + 1) always (g.typeDecl mods doc start) (h.typeDecl mods doc start) := by
  have types : Advances n never g.typeList h.typeList := (typeList_advances agrees).lower.moves
  have permits : Advances n never (do discard bump; g.typeList) (do discard bump; h.typeList) :=
    .skip pass_moves fun _ => types
  refine .skip declKind_advances fun kind => ident_advances.next fun name => ?_
  refine .skip (optionalTypeParams_advances agrees).lower fun typeParams => ?_
  refine .either (params_advances agrees).lower.moves (pure_advances rfl) fun components => ?_
  refine .skip (eat_advances _) fun extends? => .either types (pure_advances rfl) fun extending => ?_
  refine .skip (eat_advances _) fun implements? => .either types (pure_advances rfl) fun implementing => ?_
  refine .skip (look_advances _) fun permits? => .stepsOr permits (pure_advances rfl) fun permitting => ?_
  refine .skip (body_advances agrees _).lower fun (constants, members) => ?_
  exact .skip (since_advances _) fun range => pure_advances rfl

theorem classMember_advances (agrees : g.Agrees n h) (className : Option String) (isRecord : Bool) :
    Advances (n + 1) always (g.classMember className isRecord) (h.classMember className isRecord) := by
  refine .skip (sees_advances _) fun braced => .cond (fun _ => ?_) fun _ => ?_
  · exact (block_advances agrees).then fun b => pure_advances rfl
  refine .skip (look_advances _) fun static => .cond (fun _ => .skip pass_moves fun _ => ?_) fun _ => ?_
  · exact (block_advances agrees).then fun b => pure_advances rfl
  refine .skip (look_advances _) fun doc => .skip (look_advances _) fun start => ?_
  refine .skip (modifiers_advances agrees) fun mods => .skip (look_advances _) fun isType => ?_
  refine .cond (fun _ => (typeDecl_advances agrees mods doc start).then fun d => pure_advances rfl) fun _ => ?_
  refine .skip (optionalTypeParams_advances agrees) fun typeParams => ?_
  refine .skip (look_advances _) fun constructs => .cond (fun _ => ident_advances.next fun name => ?_) fun _ => ?_
  · refine .skip (params_advances agrees).lower fun params => ?_
    exact .skip (methodRest_advances agrees _ _ _) fun m => pure_advances rfl
  refine .skip (look_advances _) fun compact => .cond (fun _ => ident_advances.next fun name => ?_) fun _ => ?_
  · exact .skip (methodRest_advances agrees _ _ _) fun m => pure_advances rfl
  refine (typeRef_advances agrees).next fun type => .skip (look_advances _) fun isMethod => ?_
  refine .cond (fun _ => .skip ident_advances fun name => ?_) fun _ => ?_
  · refine .skip (params_advances agrees).lower fun params => ?_
    exact .skip (methodRest_advances agrees _ _ _) fun m => pure_advances rfl
  · refine .skip (declarators_advances agrees).lower fun vars => .skip (expect_advances _).discard fun _ => ?_
    exact .skip (since_advances _) fun range => pure_advances rfl

end JavaIndex.Grammar
