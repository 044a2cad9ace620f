import JavaIndex.Proofs.Environment.Facades
import JavaIndex.Proofs.Tree.Layout

/-! What a tree says of a program does not depend on where its parts stand: names keep their words, and as a
tree shows the same to others in every layout, written types denote the same types and declarations are
described alike. -/
namespace JavaIndex
namespace Layout

variable (l : Layout)

/-! Names. -/

@[simp] theorem ident_text (i : Ident) : (l.ident i).text = i.text := rfl

@[simp] theorem ident_range (i : Ident) : (l.ident i).range = l.mark i.range := rfl

@[simp] theorem texts (names : List Ident) :
    (names.map l.ident).map Ident.text = names.map Ident.text := by
  rw [List.map_map]
  rfl

@[simp] theorem dotted (names : List Ident) : Ident.dotted (names.map l.ident) = Ident.dotted names := by
  rw [Ident.dotted, Ident.dotted, texts]

@[simp] theorem segments_names (ss : List (TypeSegment Annotation)) :
    (ss.map l.segment).map TypeSegment.name = (ss.map TypeSegment.name).map l.ident := by
  rw [List.map_map, List.map_map]
  rfl

theorem expr_nameChain? : ∀ e : Expr, (l.expr e).nameChain? = e.nameChain?.map fun names => names.map l.ident
  | .name _ => rfl
  | .field target name range => by
    rw [expr, Expr.nameChain?, Expr.nameChain?, expr_nameChain? target, Option.map_map, Option.map_map]
    congr 1
    funext names
    simp
  | .literal _ _ | .call _ _ _ _ _ | .delegate _ _ _ _ _ | .create _ _ _ _ _ | .createArray _ _ _ _
  | .arrayInit _ _ | .index _ _ _ | .unary _ _ _ | .binary _ _ _ _ | .assign _ _ _
  | .conditional _ _ _ _ | .cast _ _ _ _ | .instanceOf _ _ _ _ | .lambda _ _ _ | .blockLambda _ _ _
  | .methodRef _ _ _ | .typeMethodRef _ _ _ | .this _ _ | .super _ _ | .classLiteral _ _ | .paren _ _
  | .switching _ _ _ | .annotated _ => rfl

/-! Written types. -/

@[simp] theorem typeRef_isVar (t : TypeRef) : (l.typeRef t).isVar = t.isVar := by
  cases t with
  | primitive _ _ => rfl
  | array _ _ _ => rfl
  | named segments _ =>
    cases segments with
    | nil => rfl
    | cons s rest =>
      obtain ⟨as, name, args⟩ := s
      cases rest with
      | nil => cases args <;> rfl
      | cons next rest =>
        cases next
        cases args <;> rfl

/-! Heads of declarations. -/

@[simp] theorem typeDecl_eq (d : TypeDecl) : l.typeDecl d =
    ⟨d.kind, l.modifiers d.modifiers, l.ident d.name, d.typeParams.map l.typeParam,
      d.extending.map l.typeRef, d.implementing.map l.typeRef, d.permitting.map l.typeRef,
      d.components.map l.param, d.constants.map l.enumConstant, d.members.map l.member, l.doc d.doc,
      l.span d.range⟩ := by
  cases d
  simp [typeDecl]

@[simp] theorem methodDecl_eq (m : MethodDecl) : l.methodDecl m =
    ⟨l.modifiers m.modifiers, m.typeParams.map l.typeParam, m.returns.map l.typeRef, l.ident m.name,
      m.params.map l.param, m.throwing.map l.typeRef, m.body.map l.block, m.defaultValue.map l.expr,
      m.compact, l.doc m.doc, l.span m.range⟩ := by
  cases m
  simp [methodDecl]

@[simp] theorem modifiers_has (m : Modifiers) (word : Modifier) :
    (l.modifiers m).has word = m.has word := by
  cases m
  rfl

@[simp] theorem modifiers_isStatic (m : Modifiers) : (l.modifiers m).isStatic = m.isStatic :=
  l.modifiers_has m .static

@[simp] theorem methodDecl_isConstructor (m : MethodDecl) :
    (l.methodDecl m).isConstructor = m.isConstructor := by
  simp [MethodDecl.isConstructor]

/-- The parts of a body, as they are laid out. -/
def classBody (b : ClassBody) : ClassBody :=
  ⟨b.kind, b.constants.map l.enumConstant, b.components.map l.param, b.members.map l.member⟩

theorem classBody_ofDecl (d : TypeDecl) : ClassBody.ofDecl (l.typeDecl d) = l.classBody (.ofDecl d) := by
  rw [typeDecl_eq]
  rfl

theorem classBody_unnamed (members : List Member) :
    ClassBody.unnamed (l.members members) = l.classBody (.unnamed members) := by
  rw [members_eq]
  rfl

/-! Layouts of one tree have one facade. -/

mutual

theorem facade_typeRef : ∀ t : TypeRef, Facade.typeRef (l.typeRef t) = Facade.typeRef t
  | .primitive _ _ => rfl
  | .array element _ _ => by rw [typeRef, Facade.typeRef, facade_typeRef element, Facade.typeRef]
  | .named ss _ => by rw [typeRef, Facade.typeRef, facade_segments ss, Facade.typeRef]

theorem facade_segments : ∀ ss : List (TypeSegment Annotation), Facade.segments (l.segments ss) = Facade.segments ss
  | [] => rfl
  | ⟨_, _, args⟩ :: rest => by
    rw [segments, Facade.segments, facade_typeArgList args, facade_segments rest]
    rfl

theorem facade_typeArgList : ∀ args : Option (List (TypeArg Annotation)),
    Facade.typeArgList (l.typeArgList args) = Facade.typeArgList args
  | none => rfl
  | some args => by rw [typeArgList, Facade.typeArgList, facade_typeArgs args, Facade.typeArgList]

theorem facade_typeArgs : ∀ args : List (TypeArg Annotation),
    Facade.typeArgs (l.typeArgs args) = Facade.typeArgs args
  | [] => rfl
  | arg :: rest => by rw [typeArgs, Facade.typeArgs, facade_typeArg arg, facade_typeArgs rest, Facade.typeArgs]

theorem facade_typeArg : ∀ arg : TypeArg Annotation, Facade.typeArg (l.typeArg arg) = Facade.typeArg arg
  | .type t => by rw [typeArg, Facade.typeArg, facade_typeRef t, Facade.typeArg]
  | .wildcard _ => rfl
  | .bounded _ t _ => by rw [typeArg, Facade.typeArg, facade_typeRef t, Facade.typeArg]

end

/-- Parts that have one facade each have one facade together. -/
theorem facade_map {α : Type} {facade laid : α → α} (each : ∀ a, facade (laid a) = facade a) (as : List α) :
    (as.map laid).map facade = as.map facade := by
  rw [List.map_map]
  exact List.map_congr_left fun a _ => each a

theorem facade_ident (i : Ident) : Facade.ident (l.ident i) = Facade.ident i := rfl

theorem facade_modifiers (m : Modifiers) : Facade.modifiers (l.modifiers m) = Facade.modifiers m := by
  cases m
  rfl

theorem facade_typeParam (p : TypeParam) : Facade.typeParam (l.typeParam p) = Facade.typeParam p := by
  simp only [Facade.typeParam, typeParam, typeRefs_eq, facade_ident, facade_map l.facade_typeRef]

theorem facade_component (p : Param) : Facade.component (l.param p) = Facade.component p := by
  simp only [Facade.component, param, facade_ident, facade_modifiers, facade_typeRef]

theorem facade_param (p : Param) : Facade.param (l.param p) = Facade.param p := by
  rw [Facade.param, facade_component, Facade.param]

theorem facade_declarator (v : Declarator) : Facade.declarator (l.declarator v) = Facade.declarator v := rfl

theorem facade_varDecl (d : VarDecl) : Facade.varDecl (l.varDecl d) = Facade.varDecl d := by
  cases d
  simp only [varDecl, declarators_eq, Facade.varDecl, facade_modifiers, facade_typeRef,
    facade_map l.facade_declarator]

theorem facade_enumConstant (k : EnumConstant) : Facade.enumConstant (l.enumConstant k) = Facade.enumConstant k := rfl

theorem facade_methodDecl (m : MethodDecl) : Facade.methodDecl (l.methodDecl m) = Facade.methodDecl m := by
  have returns : (m.returns.map l.typeRef).map Facade.typeRef = m.returns.map Facade.typeRef := by
    rw [Option.map_map]
    exact Option.map_congr fun t _ => l.facade_typeRef t
  simp only [Facade.methodDecl, methodDecl_eq, facade_ident, facade_modifiers, facade_map l.facade_typeParam,
    facade_map l.facade_param, returns]

mutual

theorem facade_typeDecl : ∀ d : TypeDecl, Facade.typeDecl (l.typeDecl d) = Facade.typeDecl d
  | ⟨_, _, _, _, _, _, _, _, _, body, _, _⟩ => by
    simp only [typeDecl, typeParams_eq, typeRefs_eq, params_eq, enumConstants_eq, Facade.typeDecl, facade_ident,
      facade_modifiers, facade_map l.facade_typeParam, facade_map l.facade_typeRef, facade_map l.facade_component,
      facade_map l.facade_enumConstant, facade_members body]

theorem facade_members : ∀ ms : List Member, Facade.members (l.members ms) = Facade.members ms
  | [] => rfl
  | .field _ _ _ :: rest => by rw [members, member, Facade.members, facade_varDecl, facade_members rest, Facade.members]
  | .method _ :: rest => by rw [members, member, Facade.members, facade_methodDecl, facade_members rest, Facade.members]
  | .initializer _ _ :: rest => by rw [members, member, Facade.members, facade_members rest, Facade.members]
  | .type d :: rest => by
    rw [members, member, Facade.members, facade_typeDecl d, facade_members rest, Facade.members]

end

theorem facade_unit (u : CompilationUnit) : Facade.unit (l.unit u) = Facade.unit u := by
  have package : (u.package.map l.packageDecl).map Facade.packageDecl = u.package.map Facade.packageDecl := by
    rw [Option.map_map]
    refine Option.map_congr fun p _ => ?_
    simp only [Function.comp_apply, Facade.packageDecl, packageDecl, facade_map l.facade_ident]
  have imported (i : ImportDecl) : Facade.importDecl (l.importDecl i) = Facade.importDecl i := by
    simp only [Facade.importDecl, importDecl, facade_map l.facade_ident]
  simp only [Facade.unit, unit, typeDecls_eq, package, facade_map imported, facade_map l.facade_typeDecl]

/-! What the declarations mean. -/

section

variable (env : Environment) (place : Place)

theorem convert_typeRef (t : TypeRef) : env.convert place (l.typeRef t) = env.convert place t := by
  rw [← Facade.convert_typeRef, facade_typeRef, Facade.convert_typeRef]

theorem convertParam_param (p : Param) : env.convertParam place (l.param p) = env.convertParam place p := by
  rw [← Facade.convertParam_param, facade_param, Facade.convertParam_param]

/-- The components of a record with their types, as they are laid out. -/
def componentTypes (components : List (Ident × JavaType)) : List (Ident × JavaType) :=
  components.map fun c => (l.ident c.1, c.2)

theorem componentTypes_params (components : List Param) :
    env.componentTypes place (components.map l.param) = l.componentTypes (env.componentTypes place components) := by
  unfold Environment.componentTypes componentTypes
  rw [List.map_map, List.map_map]
  apply List.map_congr_left
  intro p _
  simp only [Function.comp_apply, convertParam_param]
  rfl

theorem supertypesOf_typeDecl (d : TypeDecl) (c : ClassInfo) :
    env.supertypesOf place (l.typeDecl d) c = env.supertypesOf place d c := by
  rw [← Facade.supertypesOf_typeDecl, facade_typeDecl, Facade.supertypesOf_typeDecl]

theorem callableTypes_methodDecl (components : List (Ident × JavaType)) (m : MethodDecl) :
    env.callableTypes place (l.componentTypes components) (l.methodDecl m) =
      env.callableTypes place components m := by
  have own : Facade.componentTypes (l.componentTypes components) = Facade.componentTypes components := by
    rw [Facade.componentTypes, Facade.componentTypes, componentTypes, List.map_map]
    rfl
  rw [← Facade.callableTypes_methodDecl, own, facade_methodDecl, Facade.callableTypes_methodDecl]

end

theorem pushTypeParams_typeParams (ss : Scopes) (params : List TypeParam)
    {symbol? symbol?' : TypeParam → Option Symbol} (alike : ∀ p, symbol?' (l.typeParam p) = symbol? p) :
    ss.pushTypeParams (params.map l.typeParam) symbol?' = ss.pushTypeParams params symbol? := by
  unfold Scopes.pushTypeParams
  rw [List.foldl_map]
  congr 1
  funext inner p
  rw [alike]
  rfl

/-! The whole file. -/

theorem packageName_unit (u : CompilationUnit) : (l.unit u).packageName = u.packageName := by
  rw [← Facade.packageName_unit, facade_unit, Facade.packageName_unit]

theorem imports_unit (u : CompilationUnit) (implicit : List String) :
    Imports.ofUnit (l.unit u) implicit = Imports.ofUnit u implicit := by
  rw [← Facade.imports_unit, facade_unit, Facade.imports_unit]

end Layout
end JavaIndex
