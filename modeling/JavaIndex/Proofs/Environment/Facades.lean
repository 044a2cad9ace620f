import JavaIndex.Environment.Outline

/-! What a tree shows to other files. Its facade keeps what its declarations are called and the types in their
heads. Bodies, initial values and defaults are left out, and so are arguments of constants, annotations, what
methods throw, the names of their parameters, comments and places; a block that initializes leaves no
trace. Written types and heads of declarations mean to others what their facades mean. -/
namespace JavaIndex
namespace Facade

def ident (i : Ident) : Ident := ⟨i.text, .zero⟩

mutual

def typeRef : TypeRef → TypeRef
  | .primitive keyword _ => .primitive keyword .zero
  | .named ss _ => .named (segments ss) .zero
  | .array element dims _ => .array (typeRef element) dims .zero

def segments : List (TypeSegment Annotation) → List (TypeSegment Annotation)
  | [] => []
  | ⟨_, name, args⟩ :: rest => ⟨[], ident name, typeArgList args⟩ :: segments rest

def typeArgList : Option (List (TypeArg Annotation)) → Option (List (TypeArg Annotation))
  | none => none
  | some args => some (typeArgs args)

def typeArgs : List (TypeArg Annotation) → List (TypeArg Annotation)
  | [] => []
  | arg :: rest => typeArg arg :: typeArgs rest

def typeArg : TypeArg Annotation → TypeArg Annotation
  | .type t => .type (typeRef t)
  | .wildcard _ => .wildcard .zero
  | .bounded bound t _ => .bounded bound (typeRef t) .zero

end

def modifiers (m : Modifiers) : Modifiers := ⟨m.keywords, []⟩

def typeParam (p : TypeParam) : TypeParam := ⟨[], ident p.name, p.bounds.map typeRef⟩

/-- A component of a record, which is known by its name. -/
def component (p : Param) : Param :=
  ⟨modifiers p.modifiers, typeRef p.type, p.varargs, ident p.name, .zero⟩

/-- A parameter of a method, whose name is nobody else's concern. -/
def param (p : Param) : Param := { component p with name := ⟨"", .zero⟩ }

def declarator (v : Declarator) : Declarator := ⟨ident v.name, v.extraDims, none⟩

def varDecl (d : VarDecl) : VarDecl := ⟨modifiers d.modifiers, typeRef d.type, d.declarators.map declarator⟩

def methodDecl (m : MethodDecl) : MethodDecl :=
  ⟨modifiers m.modifiers, m.typeParams.map typeParam, m.returns.map typeRef, ident m.name, m.params.map param,
    [], none, none, m.compact, none, .zero⟩

def enumConstant (k : EnumConstant) : EnumConstant := ⟨[], ident k.name, none, none, none⟩

mutual

def typeDecl : TypeDecl → TypeDecl
  | ⟨kind, mods, name, params, extending, implementing, permitting, components, constants, body, _, _⟩ =>
    ⟨kind, modifiers mods, ident name, params.map typeParam, extending.map typeRef, implementing.map typeRef,
      permitting.map typeRef, components.map component, constants.map enumConstant, members body, none, .zero⟩

def members : List Member → List Member
  | [] => []
  | .field d _ _ :: rest => .field (varDecl d) none .zero :: members rest
  | .method m :: rest => .method (methodDecl m) :: members rest
  | .initializer _ _ :: rest => members rest
  | .type d :: rest => .type (typeDecl d) :: members rest

end

def packageDecl (p : PackageDecl) : PackageDecl := ⟨[], p.name.map ident, .zero⟩

def importDecl (i : ImportDecl) : ImportDecl := ⟨i.isStatic, i.path.map ident, i.onDemand, .zero⟩

/-- The whole file. -/
def unit (u : CompilationUnit) : CompilationUnit :=
  ⟨u.package.map packageDecl, u.imports.map importDecl, u.types.map typeDecl⟩

/-! Names. -/

@[simp] theorem ident_text (i : Ident) : (ident i).text = i.text := rfl

@[simp] theorem texts (names : List Ident) : (names.map ident).map Ident.text = names.map Ident.text := by
  rw [List.map_map]
  rfl

@[simp] theorem dotted (names : List Ident) : Ident.dotted (names.map ident) = Ident.dotted names := by
  rw [Ident.dotted, Ident.dotted, texts]

/-! Written types. -/

theorem segments_names (ss : List (TypeSegment Annotation)) :
    (segments ss).map (fun s => s.name.text) = ss.map fun s => s.name.text := by
  induction ss with
  | nil => rfl
  | cons s ss ih =>
    cases s
    rw [segments, List.map_cons, List.map_cons, ih, ident_text]

section

variable (env : Environment) (place : Place)

mutual

theorem convert_typeRef : ∀ t : TypeRef, env.convert place (typeRef t) = env.convert place t
  | .primitive _ _ => rfl
  | .array element _ _ => by
    rw [typeRef, Environment.convert, convert_typeRef element, Environment.convert]
  | .named ss _ => by
    rw [typeRef, Environment.convert, Environment.convert, lastArgs_segments ss, segments_names]

theorem lastArgs_segments : ∀ ss : List (TypeSegment Annotation),
    env.lastArgs place (segments ss) = env.lastArgs place ss
  | [] => rfl
  | [⟨_, _, args⟩] => by
    rw [segments, segments, Environment.lastArgs, Environment.lastArgs, convertArgList_args args]
  | ⟨_, _, _⟩ :: ⟨as, name, args⟩ :: rest => by
    have later := lastArgs_segments (⟨as, name, args⟩ :: rest)
    rw [segments] at later
    rw [segments, segments, Environment.lastArgs, Environment.lastArgs, later]

theorem convertArgList_args : ∀ args : Option (List (TypeArg Annotation)),
    env.convertArgList place (typeArgList args) = env.convertArgList place args
  | none => rfl
  | some args => by
    rw [typeArgList, Environment.convertArgList, Environment.convertArgList, convertArgs_args args]

theorem convertArgs_args : ∀ args : List (TypeArg Annotation),
    env.convertArgs place (typeArgs args) = env.convertArgs place args
  | [] => rfl
  | arg :: rest => by
    rw [typeArgs, Environment.convertArgs, Environment.convertArgs, convertArg_arg arg,
      convertArgs_args rest]

theorem convertArg_arg : ∀ arg : TypeArg Annotation,
    env.convertArg place (typeArg arg) = env.convertArg place arg
  | .type t => by rw [typeArg, Environment.convertArg, convert_typeRef t, Environment.convertArg]
  | .wildcard _ => rfl
  | .bounded .upper t _ => by
    rw [typeArg, Environment.convertArg, convert_typeRef t, Environment.convertArg]
  | .bounded .lower _ _ => rfl

end

theorem convert_types (types : List TypeRef) :
    (types.map typeRef).map (env.convert place) = types.map (env.convert place) := by
  rw [List.map_map]
  exact List.map_congr_left fun t _ => convert_typeRef env place t

/-! Heads of declarations. -/

theorem convertParam_component (p : Param) :
    env.convertParam place (component p) = env.convertParam place p :=
  congrArg (JavaType.arrayOf (if p.varargs then 1 else 0)) (convert_typeRef env place p.type)

theorem convertParam_param (p : Param) : env.convertParam place (param p) = env.convertParam place p :=
  convertParam_component env place p

/-- The components of a record with their types, without their places. -/
def componentTypes (components : List (Ident × JavaType)) : List (Ident × JavaType) :=
  components.map fun c => (ident c.1, c.2)

theorem componentTypes_components (components : List Param) :
    env.componentTypes place (components.map component) =
      componentTypes (env.componentTypes place components) := by
  unfold Environment.componentTypes componentTypes
  rw [List.map_map, List.map_map]
  apply List.map_congr_left
  intro p _
  exact congrArg (Prod.mk (ident p.name)) (convertParam_component env place p)

@[simp] theorem typeDecl_kind (d : TypeDecl) : (typeDecl d).kind = d.kind := by
  cases d
  rfl

@[simp] theorem typeDecl_name (d : TypeDecl) : (typeDecl d).name = ident d.name := by
  cases d
  rfl

@[simp] theorem typeDecl_typeParams (d : TypeDecl) : (typeDecl d).typeParams = d.typeParams.map typeParam := by
  cases d
  rfl

theorem supertypesOf_typeDecl (d : TypeDecl) (c : ClassInfo) :
    env.supertypesOf place (typeDecl d) c = env.supertypesOf place d c := by
  have known (types : List TypeRef) :
      env.knownTypes place (types.map typeRef) = env.knownTypes place types := by
    rw [Environment.knownTypes, Environment.knownTypes, convert_types]
  cases d
  simp only [Environment.supertypesOf, typeDecl, known]

@[simp] theorem methodDecl_isConstructor (m : MethodDecl) :
    (methodDecl m).isConstructor = m.isConstructor := by
  simp [MethodDecl.isConstructor, methodDecl]

@[simp] theorem methodDecl_isVarargs (m : MethodDecl) : (methodDecl m).isVarargs = m.isVarargs := by
  simp only [MethodDecl.isVarargs, methodDecl, List.getLast?_map, Option.map_map]
  rfl

theorem callableTypes_methodDecl (components : List (Ident × JavaType)) (m : MethodDecl) :
    env.callableTypes place (componentTypes components) (methodDecl m) =
      env.callableTypes place components m := by
  have params : (m.params.map param).map (env.convertParam place) = m.params.map (env.convertParam place) := by
    rw [List.map_map]
    exact List.map_congr_left fun p _ => convertParam_param env place p
  have own : (componentTypes components).map Prod.snd = components.map Prod.snd := by
    rw [componentTypes, List.map_map]
    rfl
  have returns : (m.returns.map typeRef).map (env.convert place) = m.returns.map (env.convert place) := by
    rw [Option.map_map]
    exact Option.map_congr fun t _ => convert_typeRef env place t
  simp only [Environment.callableTypes, methodDecl_isConstructor, methodDecl_isVarargs]
  simp only [methodDecl, params, own, returns]
  rfl

theorem pushTypeParams_typeParams (ss : Scopes) (params : List TypeParam) (symbol? : String → Option Symbol) :
    (ss.pushTypeParams (params.map typeParam) fun p => symbol? p.name.text) =
      ss.pushTypeParams params fun p => symbol? p.name.text := by
  unfold Scopes.pushTypeParams
  rw [List.foldl_map]
  rfl

end

/-! The whole file. -/

theorem packageName_unit (u : CompilationUnit) : (unit u).packageName = u.packageName := by
  obtain ⟨package, imports, types⟩ := u
  cases package with
  | none => rfl
  | some p => exact dotted p.name

theorem imports_unit (u : CompilationUnit) (implicit : List String) :
    Imports.ofUnit (unit u) implicit = Imports.ofUnit u implicit := by
  have single : Imports.singleOf? ∘ importDecl = Imports.singleOf? := by
    funext i
    simp only [Function.comp_apply, Imports.singleOf?, importDecl, dotted, List.getLast?_map, Option.map_map]
    rfl
  have onDemand (isStatic : Bool) : Imports.onDemandOf? isStatic ∘ importDecl = Imports.onDemandOf? isStatic := by
    funext i
    simp only [Function.comp_apply, Imports.onDemandOf?, importDecl, dotted]
  have staticSingle : Imports.staticSingleOf? ∘ importDecl = Imports.staticSingleOf? := by
    funext i
    simp only [Function.comp_apply, Imports.staticSingleOf?, importDecl, ← List.map_reverse]
    cases i.path.reverse with
    | nil => rfl
    | cons member outer =>
      cases outer with
      | nil => rfl
      | cons owner outer =>
        have whole := dotted (owner :: outer).reverse
        rw [List.map_reverse, List.map_cons] at whole
        simp only [List.map_cons, ident_text, whole]
  unfold Imports.ofUnit
  rw [packageName_unit]
  simp only [unit, List.filterMap_map, single, onDemand, staticSingle]

end Facade
end JavaIndex
