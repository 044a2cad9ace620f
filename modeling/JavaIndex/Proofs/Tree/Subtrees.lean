import JavaIndex.Proofs.Tree.Spots

/-! The types and the expressions of a tree, each of them with all that stand inside it. -/
namespace JavaIndex

/-- A type or an expression of a tree. -/
inductive Subtree where
  | type (type : TypeRef)
  | expr (value : Expr)

namespace Subtrees

mutual

def typeRef : TypeRef → List Subtree
  | .primitive keyword range => [.type (.primitive keyword range)]
  | .named ss range => .type (.named ss range) :: segments ss
  | .array element dims range => .type (.array element dims range) :: typeRef element

def typeRefs : List TypeRef → List Subtree
  | [] => []
  | t :: rest => typeRef t ++ typeRefs rest

def typeRef? : Option TypeRef → List Subtree
  | none => []
  | some t => typeRef t

def segment : TypeSegment Annotation → List Subtree
  | ⟨as, _, args⟩ => annotations as ++ typeArgs? args

def segments : List (TypeSegment Annotation) → List Subtree
  | [] => []
  | s :: rest => segment s ++ segments rest

def typeArg : TypeArg Annotation → List Subtree
  | .type t => typeRef t
  | .wildcard _ => []
  | .bounded _ t _ => typeRef t

def typeArgs : List (TypeArg Annotation) → List Subtree
  | [] => []
  | a :: rest => typeArg a ++ typeArgs rest

def typeArgs? : Option (List (TypeArg Annotation)) → List Subtree
  | none => []
  | some as => typeArgs as

def annotation : Annotation → List Subtree
  | ⟨_, args, _⟩ => annotationArgs args

def annotations : List Annotation → List Subtree
  | [] => []
  | a :: rest => annotation a ++ annotations rest

def annotationArg : AnnotationArg → List Subtree
  | ⟨_, value⟩ => expr value

def annotationArgs : List AnnotationArg → List Subtree
  | [] => []
  | a :: rest => annotationArg a ++ annotationArgs rest

def modifiers : Modifiers → List Subtree
  | ⟨_, as⟩ => annotations as

def expr (e : Expr) : List Subtree :=
  .expr e :: match e with
  | .literal _ _ => []
  | .name _ => []
  | .field target _ _ => expr target
  | .call target types _ as _ => expr? target ++ (typeRefs types ++ exprs as)
  | .delegate _ _ qualifier as _ => expr? qualifier ++ exprs as
  | .create qualifier type as body _ => expr? qualifier ++ (typeRef type ++ (exprs as ++ members? body))
  | .createArray element sizes init _ => typeRef element ++ (exprs sizes ++ exprs? init)
  | .arrayInit elements _ => exprs elements
  | .index array index _ => expr array ++ expr index
  | .unary _ operand _ => expr operand
  | .binary _ left right _ => expr left ++ expr right
  | .assign target value _ => expr target ++ expr value
  | .conditional condition thenValue elseValue _ => expr condition ++ (expr thenValue ++ expr elseValue)
  | .cast type bounds value _ => typeRef type ++ (typeRefs bounds ++ expr value)
  | .instanceOf value type _ _ => expr value ++ typeRef type
  | .lambda params body _ => lambdaParams params ++ expr body
  | .blockLambda params body _ => lambdaParams params ++ block body
  | .methodRef target _ _ => expr target
  | .typeMethodRef target _ _ => typeRef target
  | .this qualifier _ => expr? qualifier
  | .super qualifier _ => expr? qualifier
  | .classLiteral type _ => typeRef type
  | .paren inner _ => expr inner
  | .switching selector cases _ => expr selector ++ switchCases cases
  | .annotated a => annotation a

def exprs : List Expr → List Subtree
  | [] => []
  | e :: rest => expr e ++ exprs rest

def expr? : Option Expr → List Subtree
  | none => []
  | some e => expr e

def exprs? : Option (List Expr) → List Subtree
  | none => []
  | some es => exprs es

def lambdaParam : LambdaParam → List Subtree
  | ⟨mods, type, _⟩ => modifiers mods ++ typeRef? type

def lambdaParams : List LambdaParam → List Subtree
  | [] => []
  | p :: rest => lambdaParam p ++ lambdaParams rest

def block : Block → List Subtree
  | ⟨body, _⟩ => stmts body

def block? : Option Block → List Subtree
  | none => []
  | some b => block b

def stmt : Stmt → List Subtree
  | .locals decl => varDecl decl
  | .localType decl => typeDecl decl
  | .expr value => expr value
  | .block body => block body
  | .ifThen condition thenBranch => expr condition ++ stmt thenBranch
  | .ifElse condition thenBranch elseBranch => expr condition ++ (stmt thenBranch ++ stmt elseBranch)
  | .whileLoop condition body => expr condition ++ stmt body
  | .doLoop body condition => stmt body ++ expr condition
  | .forLoop init condition update body => stmts init ++ (expr? condition ++ (exprs update ++ stmt body))
  | .forEach decl iterable body => varDecl decl ++ (expr iterable ++ stmt body)
  | .returning value => expr? value
  | .throwing value => expr value
  | .yielding value => expr value
  | .breaking _ => []
  | .continuing _ => []
  | .trying resources body catches closing =>
    stmts resources ++ (block body ++ (catchClauses catches ++ block? closing))
  | .switching selector cases _ => expr selector ++ switchCases cases
  | .synchronized lock body => expr lock ++ block body
  | .labeled _ body => stmt body
  | .asserting condition message => expr condition ++ expr? message
  | .empty => []

def stmts : List Stmt → List Subtree
  | [] => []
  | s :: rest => stmt s ++ stmts rest

def varDecl : VarDecl → List Subtree
  | ⟨mods, type, vars⟩ => modifiers mods ++ (typeRef type ++ declarators vars)

def declarator : Declarator → List Subtree
  | ⟨_, _, init⟩ => expr? init

def declarators : List Declarator → List Subtree
  | [] => []
  | v :: rest => declarator v ++ declarators rest

def catchClause : CatchClause → List Subtree
  | ⟨mods, types, _, body⟩ => modifiers mods ++ (typeRefs types ++ block body)

def catchClauses : List CatchClause → List Subtree
  | [] => []
  | c :: rest => catchClause c ++ catchClauses rest

def switchCase : SwitchCase → List Subtree
  | .group labels guard body => caseLabels labels ++ (expr? guard ++ stmts body)
  | .rule labels guard body => caseLabels labels ++ (expr? guard ++ stmt body)

def switchCases : List SwitchCase → List Subtree
  | [] => []
  | c :: rest => switchCase c ++ switchCases rest

def caseLabel : CaseLabel → List Subtree
  | .default => []
  | .expr value => expr value
  | .pattern type _ => typeRef type

def caseLabels : List CaseLabel → List Subtree
  | [] => []
  | l :: rest => caseLabel l ++ caseLabels rest

def typeDecl : TypeDecl → List Subtree
  | ⟨_, mods, _, tps, extending, implementing, permitting, components, constants, body, _, _⟩ =>
    modifiers mods ++ (typeParams tps ++ (params components ++ (typeRefs extending ++ (typeRefs implementing ++
      (typeRefs permitting ++ (enumConstants constants ++ members body))))))

def typeParam : TypeParam → List Subtree
  | ⟨as, _, bounds⟩ => annotations as ++ typeRefs bounds

def typeParams : List TypeParam → List Subtree
  | [] => []
  | p :: rest => typeParam p ++ typeParams rest

def enumConstant : EnumConstant → List Subtree
  | ⟨as, _, args, body, _⟩ => annotations as ++ (exprs? args ++ members? body)

def enumConstants : List EnumConstant → List Subtree
  | [] => []
  | k :: rest => enumConstant k ++ enumConstants rest

def param : Param → List Subtree
  | ⟨mods, type, _, _, _⟩ => modifiers mods ++ typeRef type

def params : List Param → List Subtree
  | [] => []
  | p :: rest => param p ++ params rest

def member : Member → List Subtree
  | .field decl _ _ => varDecl decl
  | .method m => methodDecl m
  | .initializer _ body => block body
  | .type d => typeDecl d

def members : List Member → List Subtree
  | [] => []
  | m :: rest => member m ++ members rest

def members? : Option (List Member) → List Subtree
  | none => []
  | some ms => members ms

def methodDecl : MethodDecl → List Subtree
  | ⟨mods, tps, returns, _, ps, throwing, body, defaultValue, _, _, _⟩ =>
    modifiers mods ++ (typeParams tps ++ (typeRef? returns ++ (params ps ++ (typeRefs throwing ++
      (expr? defaultValue ++ block? body)))))

end

attribute [simp] typeRef segment typeArg annotation annotationArg expr lambdaParam block stmt varDecl declarator
  catchClause switchCase caseLabel typeDecl typeParam enumConstant param member methodDecl

/-- A whole file. -/
def unit (u : CompilationUnit) : List Subtree :=
  (u.package.elim [] fun p => annotations p.annotations) ++ u.types.flatMap typeDecl

/-! What lists hold is what their members hold. -/

@[simp] theorem typeRefs_eq (ts : List TypeRef) : typeRefs ts = ts.flatMap typeRef :=
  Spots.eq_flatMap ts (by rw [typeRefs]) fun t ts => by rw [typeRefs]

@[simp] theorem segments_eq (ss : List (TypeSegment Annotation)) : segments ss = ss.flatMap segment :=
  Spots.eq_flatMap ss (by rw [segments]) fun s ss => by rw [segments]

@[simp] theorem typeArgs_eq (as : List (TypeArg Annotation)) : typeArgs as = as.flatMap typeArg :=
  Spots.eq_flatMap as (by rw [typeArgs]) fun a as => by rw [typeArgs]

@[simp] theorem annotations_eq (as : List Annotation) : annotations as = as.flatMap annotation :=
  Spots.eq_flatMap as (by rw [annotations]) fun a as => by rw [annotations]

@[simp] theorem annotationArgs_eq (as : List AnnotationArg) : annotationArgs as = as.flatMap annotationArg :=
  Spots.eq_flatMap as (by rw [annotationArgs]) fun a as => by rw [annotationArgs]

@[simp] theorem exprs_eq (es : List Expr) : exprs es = es.flatMap expr :=
  Spots.eq_flatMap es (by rw [exprs]) fun e es => by rw [exprs]

@[simp] theorem lambdaParams_eq (ps : List LambdaParam) : lambdaParams ps = ps.flatMap lambdaParam :=
  Spots.eq_flatMap ps (by rw [lambdaParams]) fun p ps => by rw [lambdaParams]

@[simp] theorem stmts_eq (ss : List Stmt) : stmts ss = ss.flatMap stmt :=
  Spots.eq_flatMap ss (by rw [stmts]) fun s ss => by rw [stmts]

@[simp] theorem declarators_eq (vs : List Declarator) : declarators vs = vs.flatMap declarator :=
  Spots.eq_flatMap vs (by rw [declarators]) fun v vs => by rw [declarators]

@[simp] theorem catchClauses_eq (cs : List CatchClause) : catchClauses cs = cs.flatMap catchClause :=
  Spots.eq_flatMap cs (by rw [catchClauses]) fun c cs => by rw [catchClauses]

@[simp] theorem switchCases_eq (cs : List SwitchCase) : switchCases cs = cs.flatMap switchCase :=
  Spots.eq_flatMap cs (by rw [switchCases]) fun c cs => by rw [switchCases]

@[simp] theorem caseLabels_eq (ls : List CaseLabel) : caseLabels ls = ls.flatMap caseLabel :=
  Spots.eq_flatMap ls (by rw [caseLabels]) fun l ls => by rw [caseLabels]

@[simp] theorem typeParams_eq (ps : List TypeParam) : typeParams ps = ps.flatMap typeParam :=
  Spots.eq_flatMap ps (by rw [typeParams]) fun p ps => by rw [typeParams]

@[simp] theorem enumConstants_eq (ks : List EnumConstant) : enumConstants ks = ks.flatMap enumConstant :=
  Spots.eq_flatMap ks (by rw [enumConstants]) fun k ks => by rw [enumConstants]

@[simp] theorem params_eq (ps : List Param) : params ps = ps.flatMap param :=
  Spots.eq_flatMap ps (by rw [params]) fun p ps => by rw [params]

@[simp] theorem members_eq (ms : List Member) : members ms = ms.flatMap member :=
  Spots.eq_flatMap ms (by rw [members]) fun m ms => by rw [members]

@[simp] theorem modifiers_eq (m : Modifiers) : modifiers m = m.annotations.flatMap annotation := by
  cases m
  simp [modifiers]

/-! What may be missing holds nothing then. -/

@[simp] theorem typeRef?_eq (t : Option TypeRef) : typeRef? t = t.elim [] typeRef := by
  cases t <;> simp [typeRef?]

@[simp] theorem typeArgs?_eq (as : Option (List (TypeArg Annotation))) :
    typeArgs? as = as.elim [] (·.flatMap typeArg) := by
  cases as <;> simp [typeArgs?]

@[simp] theorem expr?_eq (e : Option Expr) : expr? e = e.elim [] expr := by
  cases e <;> simp only [expr?, Option.elim]

@[simp] theorem exprs?_eq (es : Option (List Expr)) : exprs? es = es.elim [] (·.flatMap expr) := by
  cases es <;> simp [exprs?]

@[simp] theorem block?_eq (b : Option Block) : block? b = b.elim [] block := by
  cases b <;> simp only [block?, Option.elim]

@[simp] theorem members?_eq (ms : Option (List Member)) : members? ms = ms.elim [] (·.flatMap member) := by
  cases ms <;> simp [members?]

end Subtrees
end JavaIndex
