import JavaIndex.Tree.Basic

/-! All identifiers of a tree in the order of the source, each with the spans of the declarations around it. -/
namespace JavaIndex

/-- An identifier that stands in a tree, with the spans of the types, methods and fields that it is part of. -/
structure Spot where
  ident : Ident
  around : List Span

namespace Spot

/-- The same identifier as part of one more declaration. -/
def within (range : Span) (s : Spot) : Spot := { s with around := range :: s.around }

/-- No declaration ends before the identifier or begins after it. -/
def Inside (s : Spot) : Prop :=
  ∀ range ∈ s.around, range.start ≤ s.ident.range.start ∧ s.ident.range.stop ≤ range.stop

end Spot

namespace Spots

/-- Identifiers by themselves. -/
def names (is : List Ident) : List Spot := is.map fun i => ⟨i, []⟩

/-- What is part of a declaration with this span. -/
def inside (range : Span) (spots : List Spot) : List Spot := spots.map (Spot.within range)

mutual

def typeRef : TypeRef → List Spot
  | .primitive _ _ => []
  | .named ss _ => segments ss
  | .array element _ _ => typeRef element

def typeRefs : List TypeRef → List Spot
  | [] => []
  | t :: rest => typeRef t ++ typeRefs rest

def typeRef? : Option TypeRef → List Spot
  | none => []
  | some t => typeRef t

def segment : TypeSegment Annotation → List Spot
  | ⟨as, name, args⟩ => annotations as ++ (names [name] ++ typeArgs? args)

def segments : List (TypeSegment Annotation) → List Spot
  | [] => []
  | s :: rest => segment s ++ segments rest

def typeArg : TypeArg Annotation → List Spot
  | .type t => typeRef t
  | .wildcard _ => []
  | .bounded _ t _ => typeRef t

def typeArgs : List (TypeArg Annotation) → List Spot
  | [] => []
  | a :: rest => typeArg a ++ typeArgs rest

def typeArgs? : Option (List (TypeArg Annotation)) → List Spot
  | none => []
  | some as => typeArgs as

def annotation : Annotation → List Spot
  | ⟨name, args, _⟩ => names name ++ annotationArgs args

def annotations : List Annotation → List Spot
  | [] => []
  | a :: rest => annotation a ++ annotations rest

def annotationArg : AnnotationArg → List Spot
  | ⟨name, value⟩ => names name.toList ++ expr value

def annotationArgs : List AnnotationArg → List Spot
  | [] => []
  | a :: rest => annotationArg a ++ annotationArgs rest

def modifiers : Modifiers → List Spot
  | ⟨_, as⟩ => annotations as

def expr : Expr → List Spot
  | .literal _ _ => []
  | .name name => names [name]
  | .field target name _ => expr target ++ names [name]
  | .call target types name as _ => expr? target ++ (typeRefs types ++ (names [name] ++ exprs as))
  | .delegate _ _ qualifier as _ => expr? qualifier ++ exprs as
  | .create qualifier type as body _ => expr? qualifier ++ (typeRef type ++ (exprs as ++ members? body))
  | .createArray element sizes init _ => typeRef element ++ (exprs sizes ++ exprs? init)
  | .arrayInit elements _ => exprs elements
  | .index array index _ => expr array ++ expr index
  | .unary _ operand _ => expr operand
  | .binary _ left right _ => expr left ++ expr right
  | .assign target value _ => expr target ++ expr value
  | .conditional condition thenValue elseValue _ => expr condition ++ (expr thenValue ++ expr elseValue)
  | .cast type bounds value _ => typeRef type ++ (typeRefs bounds ++ expr value)
  | .instanceOf value type binding _ => expr value ++ (typeRef type ++ names binding.toList)
  | .lambda params body _ => lambdaParams params ++ expr body
  | .blockLambda params body _ => lambdaParams params ++ block body
  | .methodRef target name _ => expr target ++ names [name]
  | .typeMethodRef target name _ => typeRef target ++ names [name]
  | .this qualifier _ => expr? qualifier
  | .super qualifier _ => expr? qualifier
  | .classLiteral type _ => typeRef type
  | .paren inner _ => expr inner
  | .switching selector cases _ => expr selector ++ switchCases cases
  | .annotated a => annotation a

def exprs : List Expr → List Spot
  | [] => []
  | e :: rest => expr e ++ exprs rest

def expr? : Option Expr → List Spot
  | none => []
  | some e => expr e

def exprs? : Option (List Expr) → List Spot
  | none => []
  | some es => exprs es

def lambdaParam : LambdaParam → List Spot
  | ⟨mods, type, name⟩ => modifiers mods ++ (typeRef? type ++ names [name])

def lambdaParams : List LambdaParam → List Spot
  | [] => []
  | p :: rest => lambdaParam p ++ lambdaParams rest

def block : Block → List Spot
  | ⟨body, _⟩ => stmts body

def block? : Option Block → List Spot
  | none => []
  | some b => block b

def stmt : Stmt → List Spot
  | .locals decl => varDecl decl
  | .localType decl => typeDecl decl
  | .expr value => expr value
  | .block body => block body
  | .ifThen condition thenBranch => expr condition ++ stmt thenBranch
  | .ifElse condition thenBranch elseBranch => expr condition ++ (stmt thenBranch ++ stmt elseBranch)
  | .whileLoop condition body => expr condition ++ stmt body
  | .doLoop body condition => stmt body ++ expr condition
  | .forLoop init condition update body => stmts init ++ (expr? condition ++ (exprs update ++ stmt body))
  | .forEach decl iterable body => varDecl decl ++ (expr iterable ++ stmt body)
  | .returning value => expr? value
  | .throwing value => expr value
  | .yielding value => expr value
  | .breaking label => names label.toList
  | .continuing label => names label.toList
  | .trying resources body catches closing =>
    stmts resources ++ (block body ++ (catchClauses catches ++ block? closing))
  | .switching selector cases _ => expr selector ++ switchCases cases
  | .synchronized lock body => expr lock ++ block body
  | .labeled label body => names [label] ++ stmt body
  | .asserting condition message => expr condition ++ expr? message
  | .empty => []

def stmts : List Stmt → List Spot
  | [] => []
  | s :: rest => stmt s ++ stmts rest

def varDecl : VarDecl → List Spot
  | ⟨mods, type, vars⟩ => modifiers mods ++ (typeRef type ++ declarators vars)

def declarator : Declarator → List Spot
  | ⟨name, _, init⟩ => names [name] ++ expr? init

def declarators : List Declarator → List Spot
  | [] => []
  | v :: rest => declarator v ++ declarators rest

def catchClause : CatchClause → List Spot
  | ⟨mods, types, name, body⟩ => modifiers mods ++ (typeRefs types ++ (names [name] ++ block body))

def catchClauses : List CatchClause → List Spot
  | [] => []
  | c :: rest => catchClause c ++ catchClauses rest

def switchCase : SwitchCase → List Spot
  | .group labels guard body => caseLabels labels ++ (expr? guard ++ stmts body)
  | .rule labels guard body => caseLabels labels ++ (expr? guard ++ stmt body)

def switchCases : List SwitchCase → List Spot
  | [] => []
  | c :: rest => switchCase c ++ switchCases rest

def caseLabel : CaseLabel → List Spot
  | .default => []
  | .expr value => expr value
  | .pattern type name => typeRef type ++ names [name]

def caseLabels : List CaseLabel → List Spot
  | [] => []
  | l :: rest => caseLabel l ++ caseLabels rest

/-- A declaration of a type. Everything in it is part of it, its modifiers too. -/
def typeDecl : TypeDecl → List Spot
  | ⟨_, mods, name, tps, extending, implementing, permitting, components, constants, body, _, range⟩ =>
    inside range (modifiers mods ++ (names [name] ++ (typeParams tps ++ (params components ++
      (typeRefs extending ++ (typeRefs implementing ++ (typeRefs permitting ++
        (enumConstants constants ++ members body))))))))

def typeParam : TypeParam → List Spot
  | ⟨as, name, bounds⟩ => annotations as ++ (names [name] ++ typeRefs bounds)

def typeParams : List TypeParam → List Spot
  | [] => []
  | p :: rest => typeParam p ++ typeParams rest

def enumConstant : EnumConstant → List Spot
  | ⟨as, name, args, body, _⟩ => annotations as ++ (names [name] ++ (exprs? args ++ members? body))

def enumConstants : List EnumConstant → List Spot
  | [] => []
  | k :: rest => enumConstant k ++ enumConstants rest

def param : Param → List Spot
  | ⟨mods, type, _, name, _⟩ => modifiers mods ++ (typeRef type ++ names [name])

def params : List Param → List Spot
  | [] => []
  | p :: rest => param p ++ params rest

def member : Member → List Spot
  | .field decl _ range => inside range (varDecl decl)
  | .method m => methodDecl m
  | .initializer _ body => block body
  | .type d => typeDecl d

def members : List Member → List Spot
  | [] => []
  | m :: rest => member m ++ members rest

def members? : Option (List Member) → List Spot
  | none => []
  | some ms => members ms

def methodDecl : MethodDecl → List Spot
  | ⟨mods, tps, returns, name, ps, throwing, body, defaultValue, _, _, range⟩ =>
    inside range (modifiers mods ++ (typeParams tps ++ (typeRef? returns ++ (names [name] ++
      (params ps ++ (typeRefs throwing ++ (expr? defaultValue ++ block? body)))))))

end

attribute [simp] typeRef segment typeArg annotation annotationArg expr lambdaParam block stmt varDecl declarator
  catchClause switchCase caseLabel typeDecl typeParam enumConstant param member methodDecl

def importDecl (i : ImportDecl) : List Spot := names i.path

def packageDecl (p : PackageDecl) : List Spot := annotations p.annotations ++ names p.name

/-- A whole file. -/
def unit (u : CompilationUnit) : List Spot :=
  u.package.elim [] packageDecl ++ (u.imports.flatMap importDecl ++ u.types.flatMap typeDecl)

/-! What lists hold is what their members hold. -/

theorem eq_flatMap {α β : Type} {parts : List α → List β} {part : α → List β} (xs : List α)
    (none : parts [] = []) (first : ∀ x xs, parts (x :: xs) = part x ++ parts xs) : parts xs = xs.flatMap part := by
  induction xs with
  | nil => simpa using none
  | cons x xs ih => rw [first, ih, List.flatMap_cons]

@[simp] theorem typeRefs_eq (ts : List TypeRef) : typeRefs ts = ts.flatMap typeRef :=
  eq_flatMap ts (by rw [typeRefs]) fun t ts => by rw [typeRefs]

@[simp] theorem segments_eq (ss : List (TypeSegment Annotation)) : segments ss = ss.flatMap segment :=
  eq_flatMap ss (by rw [segments]) fun s ss => by rw [segments]

@[simp] theorem typeArgs_eq (as : List (TypeArg Annotation)) : typeArgs as = as.flatMap typeArg :=
  eq_flatMap as (by rw [typeArgs]) fun a as => by rw [typeArgs]

@[simp] theorem annotations_eq (as : List Annotation) : annotations as = as.flatMap annotation :=
  eq_flatMap as (by rw [annotations]) fun a as => by rw [annotations]

@[simp] theorem annotationArgs_eq (as : List AnnotationArg) : annotationArgs as = as.flatMap annotationArg :=
  eq_flatMap as (by rw [annotationArgs]) fun a as => by rw [annotationArgs]

@[simp] theorem exprs_eq (es : List Expr) : exprs es = es.flatMap expr :=
  eq_flatMap es (by rw [exprs]) fun e es => by rw [exprs]

@[simp] theorem lambdaParams_eq (ps : List LambdaParam) : lambdaParams ps = ps.flatMap lambdaParam :=
  eq_flatMap ps (by rw [lambdaParams]) fun p ps => by rw [lambdaParams]

@[simp] theorem stmts_eq (ss : List Stmt) : stmts ss = ss.flatMap stmt :=
  eq_flatMap ss (by rw [stmts]) fun s ss => by rw [stmts]

@[simp] theorem declarators_eq (vs : List Declarator) : declarators vs = vs.flatMap declarator :=
  eq_flatMap vs (by rw [declarators]) fun v vs => by rw [declarators]

@[simp] theorem catchClauses_eq (cs : List CatchClause) : catchClauses cs = cs.flatMap catchClause :=
  eq_flatMap cs (by rw [catchClauses]) fun c cs => by rw [catchClauses]

@[simp] theorem switchCases_eq (cs : List SwitchCase) : switchCases cs = cs.flatMap switchCase :=
  eq_flatMap cs (by rw [switchCases]) fun c cs => by rw [switchCases]

@[simp] theorem caseLabels_eq (ls : List CaseLabel) : caseLabels ls = ls.flatMap caseLabel :=
  eq_flatMap ls (by rw [caseLabels]) fun l ls => by rw [caseLabels]

@[simp] theorem typeParams_eq (ps : List TypeParam) : typeParams ps = ps.flatMap typeParam :=
  eq_flatMap ps (by rw [typeParams]) fun p ps => by rw [typeParams]

@[simp] theorem enumConstants_eq (ks : List EnumConstant) : enumConstants ks = ks.flatMap enumConstant :=
  eq_flatMap ks (by rw [enumConstants]) fun k ks => by rw [enumConstants]

@[simp] theorem params_eq (ps : List Param) : params ps = ps.flatMap param :=
  eq_flatMap ps (by rw [params]) fun p ps => by rw [params]

@[simp] theorem members_eq (ms : List Member) : members ms = ms.flatMap member :=
  eq_flatMap ms (by rw [members]) fun m ms => by rw [members]

@[simp] theorem modifiers_eq (m : Modifiers) : modifiers m = m.annotations.flatMap annotation := by
  cases m
  simp [modifiers]

@[simp] theorem names_nil : names [] = [] := rfl

theorem names_cons (i : Ident) (is : List Ident) : names (i :: is) = names [i] ++ names is := rfl

@[simp] theorem flatMap_names (is : List Ident) : (is.flatMap fun i => names [i]) = names is := by
  induction is with
  | nil => rfl
  | cons i is ih => rw [List.flatMap_cons, ih, names_cons i is]

/-! What may be missing holds nothing then. -/

@[simp] theorem names_toList (i : Option Ident) : names i.toList = i.elim [] fun i => names [i] := by
  cases i <;> rfl

@[simp] theorem typeRef?_eq (t : Option TypeRef) : typeRef? t = t.elim [] typeRef := by
  cases t <;> simp [typeRef?]

@[simp] theorem typeArgs?_eq (as : Option (List (TypeArg Annotation))) :
    typeArgs? as = as.elim [] (·.flatMap typeArg) := by
  cases as <;> simp [typeArgs?]

@[simp] theorem expr?_eq (e : Option Expr) : expr? e = e.elim [] expr := by
  cases e <;> simp [expr?]

@[simp] theorem exprs?_eq (es : Option (List Expr)) : exprs? es = es.elim [] (·.flatMap expr) := by
  cases es <;> simp [exprs?]

@[simp] theorem block?_eq (b : Option Block) : block? b = b.elim [] block := by
  cases b <;> simp [block?]

@[simp] theorem members?_eq (ms : Option (List Member)) : members? ms = ms.elim [] (·.flatMap member) := by
  cases ms <;> simp [members?]

@[simp] theorem typeRef_withDims (t : TypeRef) (dims : Nat) : typeRef (t.withDims dims) = typeRef t := by
  unfold WrittenType.withDims
  split
  · rfl
  · rw [typeRef]

/-- An expression that is nothing but names holds just these. -/
theorem expr_of_chain {e : Expr} {path : List Ident} (chain : e.nameChain? = some path) :
    expr e = names path := by
  fun_induction Expr.nameChain? e generalizing path with
  | case1 name =>
    cases chain
    rw [expr]
  | case2 target name range ih =>
    obtain ⟨before, left, rfl⟩ := Option.map_eq_some_iff.mp chain
    rw [expr, ih left, names, names, names, List.map_append]
  | case3 => cases chain

end Spots
end JavaIndex
