import JavaIndex.Tree.Basic

/-! One program in several texts. A layout says where the parts of a tree stand in a text and which
comments stand there; what the tree says of the program stays the same. -/
namespace JavaIndex

/-- How the parts of a tree are laid out in a text. -/
structure Layout where
  offset : Nat → Nat
  /-- Where the stretches begin that the index shows. -/
  start : Nat → Nat
  doc : Option Comment → Option Comment
  mono : ∀ a b, a ≤ b → offset a ≤ offset b
  origin : offset 0 = 0
  undocumented : doc none = none

namespace Layout

/-- Everything stays where it is. -/
def same : Layout := ⟨id, id, id, fun _ _ order => order, rfl, rfl⟩

def span (l : Layout) (s : Span) : Span := ⟨l.offset s.start, l.offset s.stop⟩

/-- A stretch that the index shows. -/
def mark (l : Layout) (s : Span) : Span := ⟨l.start s.start, l.offset s.stop⟩

def ident (l : Layout) (i : Ident) : Ident := ⟨i.text, l.mark i.range⟩

mutual

def typeRef (l : Layout) : TypeRef → TypeRef
  | .primitive keyword range => .primitive keyword (l.span range)
  | .named segments range => .named (l.segments segments) (l.span range)
  | .array element dims range => .array (l.typeRef element) dims (l.span range)

def typeRefs (l : Layout) : List TypeRef → List TypeRef
  | [] => []
  | t :: rest => l.typeRef t :: l.typeRefs rest

def typeRef? (l : Layout) : Option TypeRef → Option TypeRef
  | none => none
  | some t => some (l.typeRef t)

def segments (l : Layout) : List (TypeSegment Annotation) → List (TypeSegment Annotation)
  | [] => []
  | ⟨as, name, args⟩ :: rest =>
    ⟨l.annotations as, l.ident name, l.typeArgList args⟩ :: l.segments rest

def typeArgList (l : Layout) : Option (List (TypeArg Annotation)) → Option (List (TypeArg Annotation))
  | none => none
  | some args => some (l.typeArgs args)

def typeArgs (l : Layout) : List (TypeArg Annotation) → List (TypeArg Annotation)
  | [] => []
  | arg :: rest => l.typeArg arg :: l.typeArgs rest

def typeArg (l : Layout) : TypeArg Annotation → TypeArg Annotation
  | .type t => .type (l.typeRef t)
  | .wildcard range => .wildcard (l.span range)
  | .bounded bound t range => .bounded bound (l.typeRef t) (l.span range)

def annotations (l : Layout) : List Annotation → List Annotation
  | [] => []
  | a :: rest => l.annotationUse a :: l.annotations rest

def annotationUse (l : Layout) : Annotation → Annotation
  | ⟨name, args, range⟩ => ⟨name.map l.ident, l.annotationArgs args, l.span range⟩

def annotationArgs (l : Layout) : List AnnotationArg → List AnnotationArg
  | [] => []
  | ⟨name, value⟩ :: rest => ⟨name.map l.ident, l.expr value⟩ :: l.annotationArgs rest

def modifiers (l : Layout) : Modifiers → Modifiers
  | ⟨keywords, as⟩ => ⟨keywords, l.annotations as⟩

def exprs (l : Layout) : List Expr → List Expr
  | [] => []
  | e :: rest => l.expr e :: l.exprs rest

def exprList? (l : Layout) : Option (List Expr) → Option (List Expr)
  | none => none
  | some es => some (l.exprs es)

def expr? (l : Layout) : Option Expr → Option Expr
  | none => none
  | some e => some (l.expr e)

def expr (l : Layout) : Expr → Expr
  | .literal kind range => .literal kind (l.span range)
  | .name name => .name (l.ident name)
  | .field target name range => .field (l.expr target) (l.ident name) (l.span range)
  | .call target types name args range =>
    .call (l.expr? target) (l.typeRefs types) (l.ident name) (l.exprs args) (l.span range)
  | .delegate kind keyword qualifier args range =>
    .delegate kind (l.mark keyword) (l.expr? qualifier) (l.exprs args) (l.span range)
  | .create qualifier type args body range =>
    .create (l.expr? qualifier) (l.typeRef type) (l.exprs args) (l.unnamedBody body)
      (l.mark range)
  | .createArray element sizes init range =>
    .createArray (l.typeRef element) (l.exprs sizes) (l.exprList? init) (l.span range)
  | .arrayInit elements range => .arrayInit (l.exprs elements) (l.span range)
  | .index array index range => .index (l.expr array) (l.expr index) (l.span range)
  | .unary op operand range => .unary op (l.expr operand) (l.span range)
  | .binary op left right range => .binary op (l.expr left) (l.expr right) (l.span range)
  | .assign target value range => .assign (l.expr target) (l.expr value) (l.span range)
  | .conditional condition thenValue elseValue range =>
    .conditional (l.expr condition) (l.expr thenValue) (l.expr elseValue) (l.span range)
  | .cast type bounds value range =>
    .cast (l.typeRef type) (l.typeRefs bounds) (l.expr value) (l.span range)
  | .instanceOf value type binding range =>
    .instanceOf (l.expr value) (l.typeRef type) (binding.map l.ident) (l.span range)
  | .lambda params body range => .lambda (l.lambdaParams params) (l.expr body) (l.span range)
  | .blockLambda params body range =>
    .blockLambda (l.lambdaParams params) (l.block body) (l.span range)
  | .methodRef target name range => .methodRef (l.expr target) (l.ident name) (l.span range)
  | .typeMethodRef target name range =>
    .typeMethodRef (l.typeRef target) (l.ident name) (l.span range)
  | .this qualifier range => .this (l.expr? qualifier) (l.span range)
  | .super qualifier range => .super (l.expr? qualifier) (l.span range)
  | .classLiteral type range => .classLiteral (l.typeRef type) (l.span range)
  | .paren inner range => .paren (l.expr inner) (l.span range)
  | .switching selector cases range =>
    .switching (l.expr selector) (l.switchCases cases) (l.span range)
  | .annotated a => .annotated (l.annotationUse a)

def lambdaParams (l : Layout) : List LambdaParam → List LambdaParam
  | [] => []
  | ⟨mods, type, name⟩ :: rest =>
    ⟨l.modifiers mods, l.typeRef? type, l.ident name⟩ :: l.lambdaParams rest

def unnamedBody (l : Layout) : Option (List Member) → Option (List Member)
  | none => none
  | some body => some (l.members body)

def block (l : Layout) : Block → Block
  | ⟨body, range⟩ => ⟨l.stmts body, l.span range⟩

def block? (l : Layout) : Option Block → Option Block
  | none => none
  | some b => some (l.block b)

def stmts (l : Layout) : List Stmt → List Stmt
  | [] => []
  | s :: rest => l.stmt s :: l.stmts rest

def stmt (l : Layout) : Stmt → Stmt
  | .locals decl => .locals (l.varDecl decl)
  | .localType decl => .localType (l.typeDecl decl)
  | .expr value => .expr (l.expr value)
  | .block body => .block (l.block body)
  | .ifThen condition thenBranch => .ifThen (l.expr condition) (l.stmt thenBranch)
  | .ifElse condition thenBranch elseBranch =>
    .ifElse (l.expr condition) (l.stmt thenBranch) (l.stmt elseBranch)
  | .whileLoop condition body => .whileLoop (l.expr condition) (l.stmt body)
  | .doLoop body condition => .doLoop (l.stmt body) (l.expr condition)
  | .forLoop init condition update body =>
    .forLoop (l.stmts init) (l.expr? condition) (l.exprs update) (l.stmt body)
  | .forEach decl iterable body => .forEach (l.varDecl decl) (l.expr iterable) (l.stmt body)
  | .returning value => .returning (l.expr? value)
  | .throwing value => .throwing (l.expr value)
  | .yielding value => .yielding (l.expr value)
  | .breaking label => .breaking (label.map l.ident)
  | .continuing label => .continuing (label.map l.ident)
  | .trying resources body catches closing =>
    .trying (l.stmts resources) (l.block body) (l.catchClauses catches) (l.block? closing)
  | .switching selector cases range =>
    .switching (l.expr selector) (l.switchCases cases) (l.span range)
  | .synchronized lock body => .synchronized (l.expr lock) (l.block body)
  | .labeled label body => .labeled (l.ident label) (l.stmt body)
  | .asserting condition message => .asserting (l.expr condition) (l.expr? message)
  | .empty => .empty

def varDecl (l : Layout) : VarDecl → VarDecl
  | ⟨mods, type, declarators⟩ => ⟨l.modifiers mods, l.typeRef type, l.declarators declarators⟩

def declarators (l : Layout) : List Declarator → List Declarator
  | [] => []
  | ⟨name, dims, init⟩ :: rest => ⟨l.ident name, dims, l.expr? init⟩ :: l.declarators rest

def catchClauses (l : Layout) : List CatchClause → List CatchClause
  | [] => []
  | ⟨mods, types, name, body⟩ :: rest =>
    ⟨l.modifiers mods, l.typeRefs types, l.ident name, l.block body⟩ :: l.catchClauses rest

def switchCases (l : Layout) : List SwitchCase → List SwitchCase
  | [] => []
  | .group labels guard body :: rest =>
    .group (l.caseLabels labels) (l.expr? guard) (l.stmts body) :: l.switchCases rest
  | .rule labels guard body :: rest =>
    .rule (l.caseLabels labels) (l.expr? guard) (l.stmt body) :: l.switchCases rest

def caseLabels (l : Layout) : List CaseLabel → List CaseLabel
  | [] => []
  | .default :: rest => .default :: l.caseLabels rest
  | .expr value :: rest => .expr (l.expr value) :: l.caseLabels rest
  | .pattern type name :: rest => .pattern (l.typeRef type) (l.ident name) :: l.caseLabels rest

def typeDecl (l : Layout) : TypeDecl → TypeDecl
  | ⟨kind, mods, name, params, extending, implementing, permitting, components, constants, body, doc,
      range⟩ =>
    ⟨kind, l.modifiers mods, l.ident name, l.typeParams params, l.typeRefs extending,
      l.typeRefs implementing, l.typeRefs permitting, l.params components, l.enumConstants constants,
      l.members body, l.doc doc, l.span range⟩

def typeParams (l : Layout) : List TypeParam → List TypeParam
  | [] => []
  | ⟨as, name, bounds⟩ :: rest =>
    ⟨l.annotations as, l.ident name, l.typeRefs bounds⟩ :: l.typeParams rest

def enumConstants (l : Layout) : List EnumConstant → List EnumConstant
  | [] => []
  | ⟨as, name, args, body, doc⟩ :: rest =>
    ⟨l.annotations as, l.ident name, l.exprList? args, l.unnamedBody body, l.doc doc⟩ ::
      l.enumConstants rest

def params (l : Layout) : List Param → List Param
  | [] => []
  | ⟨mods, type, varargs, name, range⟩ :: rest =>
    ⟨l.modifiers mods, l.typeRef type, varargs, l.ident name, l.span range⟩ :: l.params rest

def members (l : Layout) : List Member → List Member
  | [] => []
  | m :: rest => l.member m :: l.members rest

def member (l : Layout) : Member → Member
  | .field decl doc range => .field (l.varDecl decl) (l.doc doc) (l.span range)
  | .method m => .method (l.methodDecl m)
  | .initializer isStatic body => .initializer isStatic (l.block body)
  | .type d => .type (l.typeDecl d)

def methodDecl (l : Layout) : MethodDecl → MethodDecl
  | ⟨mods, params, returns, name, parameters, throwing, body, defaultValue, compact, doc, range⟩ =>
    ⟨l.modifiers mods, l.typeParams params, l.typeRef? returns, l.ident name, l.params parameters,
      l.typeRefs throwing, l.block? body, l.expr? defaultValue, compact, l.doc doc, l.span range⟩

end

def packageDecl (l : Layout) (p : PackageDecl) : PackageDecl :=
  ⟨l.annotations p.annotations, p.name.map l.ident, l.span p.range⟩

def importDecl (l : Layout) (i : ImportDecl) : ImportDecl :=
  ⟨i.isStatic, i.path.map l.ident, i.onDemand, l.span i.range⟩

def typeDecls (l : Layout) : List TypeDecl → List TypeDecl
  | [] => []
  | d :: rest => l.typeDecl d :: typeDecls l rest

/-- The whole file. -/
def unit (l : Layout) (u : CompilationUnit) : CompilationUnit :=
  ⟨u.package.map l.packageDecl, u.imports.map l.importDecl, l.typeDecls u.types⟩

/-! The parts of a list one by one. -/

def segment (l : Layout) (s : TypeSegment Annotation) : TypeSegment Annotation :=
  ⟨l.annotations s.annotations, l.ident s.name, l.typeArgList s.args⟩

def annotationArg (l : Layout) (a : AnnotationArg) : AnnotationArg :=
  ⟨a.name.map l.ident, l.expr a.value⟩

def lambdaParam (l : Layout) (p : LambdaParam) : LambdaParam :=
  ⟨l.modifiers p.modifiers, l.typeRef? p.type, l.ident p.name⟩

def declarator (l : Layout) (v : Declarator) : Declarator :=
  ⟨l.ident v.name, v.extraDims, l.expr? v.init⟩

def catchClause (l : Layout) (c : CatchClause) : CatchClause :=
  ⟨l.modifiers c.modifiers, l.typeRefs c.types, l.ident c.name, l.block c.body⟩

def typeParam (l : Layout) (p : TypeParam) : TypeParam :=
  ⟨l.annotations p.annotations, l.ident p.name, l.typeRefs p.bounds⟩

def enumConstant (l : Layout) (k : EnumConstant) : EnumConstant :=
  ⟨l.annotations k.annotations, l.ident k.name, l.exprList? k.args, l.unnamedBody k.body, l.doc k.doc⟩

def param (l : Layout) (p : Param) : Param :=
  ⟨l.modifiers p.modifiers, l.typeRef p.type, p.varargs, l.ident p.name, l.span p.range⟩

def switchCase (l : Layout) : SwitchCase → SwitchCase
  | .group labels guard body => .group (l.caseLabels labels) (l.expr? guard) (l.stmts body)
  | .rule labels guard body => .rule (l.caseLabels labels) (l.expr? guard) (l.stmt body)

def caseLabel (l : Layout) : CaseLabel → CaseLabel
  | .default => .default
  | .expr value => .expr (l.expr value)
  | .pattern type name => .pattern (l.typeRef type) (l.ident name)

theorem eq_map {α β : Type} {f : List α → List β} {g : α → β} (none : f [] = [])
    (first : ∀ x xs, f (x :: xs) = g x :: f xs) (xs : List α) : f xs = xs.map g := by
  induction xs with
  | nil => exact none
  | cons x xs ih => rw [first, ih, List.map_cons]

section

variable (l : Layout)

@[simp] theorem typeRefs_eq (ts : List TypeRef) : l.typeRefs ts = ts.map l.typeRef :=
  eq_map (by rw [typeRefs]) (fun _ _ => by rw [typeRefs]) ts

@[simp] theorem typeArgs_eq (args : List (TypeArg Annotation)) : l.typeArgs args = args.map l.typeArg :=
  eq_map (by rw [typeArgs]) (fun _ _ => by rw [typeArgs]) args

@[simp] theorem annotations_eq (as : List Annotation) : l.annotations as = as.map l.annotationUse :=
  eq_map (by rw [annotations]) (fun _ _ => by rw [annotations]) as

@[simp] theorem exprs_eq (es : List Expr) : l.exprs es = es.map l.expr :=
  eq_map (by rw [exprs]) (fun _ _ => by rw [exprs]) es

@[simp] theorem stmts_eq (ss : List Stmt) : l.stmts ss = ss.map l.stmt :=
  eq_map (by rw [stmts]) (fun _ _ => by rw [stmts]) ss

@[simp] theorem members_eq (ms : List Member) : l.members ms = ms.map l.member :=
  eq_map (by rw [members]) (fun _ _ => by rw [members]) ms

@[simp] theorem segments_eq (ss : List (TypeSegment Annotation)) : l.segments ss = ss.map l.segment :=
  eq_map (by rw [segments]) (fun x _ => by cases x; rw [segments]; rfl) ss

@[simp] theorem annotationArgs_eq (args : List AnnotationArg) :
    l.annotationArgs args = args.map l.annotationArg :=
  eq_map (by rw [annotationArgs]) (fun x _ => by cases x; rw [annotationArgs]; rfl) args

@[simp] theorem lambdaParams_eq (ps : List LambdaParam) : l.lambdaParams ps = ps.map l.lambdaParam :=
  eq_map (by rw [lambdaParams]) (fun x _ => by cases x; rw [lambdaParams]; rfl) ps

@[simp] theorem declarators_eq (vs : List Declarator) : l.declarators vs = vs.map l.declarator :=
  eq_map (by rw [declarators]) (fun x _ => by cases x; rw [declarators]; rfl) vs

@[simp] theorem catchClauses_eq (cs : List CatchClause) : l.catchClauses cs = cs.map l.catchClause :=
  eq_map (by rw [catchClauses]) (fun x _ => by cases x; rw [catchClauses]; rfl) cs

@[simp] theorem typeParams_eq (ps : List TypeParam) : l.typeParams ps = ps.map l.typeParam :=
  eq_map (by rw [typeParams]) (fun x _ => by cases x; rw [typeParams]; rfl) ps

@[simp] theorem enumConstants_eq (ks : List EnumConstant) : l.enumConstants ks = ks.map l.enumConstant :=
  eq_map (by rw [enumConstants]) (fun x _ => by cases x; rw [enumConstants]; rfl) ks

@[simp] theorem params_eq (ps : List Param) : l.params ps = ps.map l.param :=
  eq_map (by rw [params]) (fun x _ => by cases x; rw [params]; rfl) ps

@[simp] theorem switchCases_eq (cs : List SwitchCase) : l.switchCases cs = cs.map l.switchCase :=
  eq_map (by rw [switchCases]) (fun c _ => by cases c <;> rw [switchCases] <;> rfl) cs

@[simp] theorem caseLabels_eq (ls : List CaseLabel) : l.caseLabels ls = ls.map l.caseLabel :=
  eq_map (by rw [caseLabels]) (fun c _ => by cases c <;> rw [caseLabels] <;> rfl) ls

@[simp] theorem typeDecls_eq (ds : List TypeDecl) : l.typeDecls ds = ds.map l.typeDecl :=
  eq_map (by rw [typeDecls]) (fun _ _ => by rw [typeDecls]) ds

@[simp] theorem typeRef?_eq (x : Option TypeRef) : l.typeRef? x = x.map l.typeRef := by
  cases x with
  | none => rw [typeRef?]; rfl
  | some x => rw [typeRef?, Option.map_some]

@[simp] theorem typeArgList_eq (x : Option (List (TypeArg Annotation))) :
    l.typeArgList x = x.map fun args => args.map l.typeArg := by
  cases x with
  | none => rw [typeArgList]; rfl
  | some x => rw [typeArgList, Option.map_some, typeArgs_eq]

@[simp] theorem exprList?_eq (x : Option (List Expr)) :
    l.exprList? x = x.map fun es => es.map l.expr := by
  cases x with
  | none => rw [exprList?]; rfl
  | some x => rw [exprList?, Option.map_some, exprs_eq]

@[simp] theorem expr?_eq (x : Option Expr) : l.expr? x = x.map l.expr := by
  cases x with
  | none => rw [expr?]; rfl
  | some x => rw [expr?, Option.map_some]

@[simp] theorem unnamedBody_eq (x : Option (List Member)) :
    l.unnamedBody x = x.map fun ms => ms.map l.member := by
  cases x with
  | none => rw [unnamedBody]; rfl
  | some x => rw [unnamedBody, Option.map_some, members_eq]

@[simp] theorem block?_eq (x : Option Block) : l.block? x = x.map l.block := by
  cases x with
  | none => rw [block?]; rfl
  | some x => rw [block?, Option.map_some]

end

/-! The layout that changes nothing. -/

@[simp] theorem span_same (s : Span) : same.span s = s := rfl

@[simp] theorem mark_same (s : Span) : same.mark s = s := rfl

@[simp] theorem ident_same (i : Ident) : same.ident i = i := rfl

@[simp] theorem doc_same (doc : Option Comment) : same.doc doc = doc := rfl

@[simp] theorem idents_same (names : List Ident) : names.map same.ident = names := List.map_id names

@[simp] theorem ident?_same (name : Option Ident) : name.map same.ident = name := by
  cases name <;> rfl

mutual

theorem typeRef_same : ∀ t : TypeRef, same.typeRef t = t
  | .primitive _ _ => rfl
  | .named segments range => by rw [typeRef, segments_same segments, span_same]
  | .array element dims range => by rw [typeRef, typeRef_same element, span_same]

theorem typeRefs_same : ∀ ts : List TypeRef, same.typeRefs ts = ts
  | [] => rfl
  | t :: rest => by rw [typeRefs, typeRef_same t, typeRefs_same rest]

theorem typeRef?_same : ∀ t : Option TypeRef, same.typeRef? t = t
  | none => rfl
  | some t => by rw [typeRef?, typeRef_same t]

theorem segments_same : ∀ ss : List (TypeSegment Annotation), same.segments ss = ss
  | [] => rfl
  | ⟨as, name, args⟩ :: rest => by
    rw [segments, annotations_same as, ident_same, typeArgList_same args, segments_same rest]

theorem typeArgList_same : ∀ args : Option (List (TypeArg Annotation)), same.typeArgList args = args
  | none => rfl
  | some args => by rw [typeArgList, typeArgs_same args]

theorem typeArgs_same : ∀ args : List (TypeArg Annotation), same.typeArgs args = args
  | [] => rfl
  | arg :: rest => by rw [typeArgs, typeArg_same arg, typeArgs_same rest]

theorem typeArg_same : ∀ arg : TypeArg Annotation, same.typeArg arg = arg
  | .type t => by rw [typeArg, typeRef_same t]
  | .wildcard _ => rfl
  | .bounded bound t range => by rw [typeArg, typeRef_same t, span_same]

theorem annotations_same : ∀ as : List Annotation, same.annotations as = as
  | [] => rfl
  | a :: rest => by rw [annotations, annotationUse_same a, annotations_same rest]

theorem annotationUse_same : ∀ a : Annotation, same.annotationUse a = a
  | ⟨name, args, range⟩ => by rw [annotationUse, idents_same, annotationArgs_same args, span_same]

theorem annotationArgs_same : ∀ args : List AnnotationArg, same.annotationArgs args = args
  | [] => rfl
  | ⟨name, value⟩ :: rest => by
    rw [annotationArgs, ident?_same, expr_same value, annotationArgs_same rest]

theorem modifiers_same : ∀ m : Modifiers, same.modifiers m = m
  | ⟨keywords, as⟩ => by rw [modifiers, annotations_same as]

theorem exprs_same : ∀ es : List Expr, same.exprs es = es
  | [] => rfl
  | e :: rest => by rw [exprs, expr_same e, exprs_same rest]

theorem exprList?_same : ∀ es : Option (List Expr), same.exprList? es = es
  | none => rfl
  | some es => by rw [exprList?, exprs_same es]

theorem expr?_same : ∀ e : Option Expr, same.expr? e = e
  | none => rfl
  | some e => by rw [expr?, expr_same e]

theorem expr_same : ∀ e : Expr, same.expr e = e
  | .literal _ _ => rfl
  | .name _ => rfl
  | .field target name range => by rw [expr, expr_same target, ident_same, span_same]
  | .call target types name args range => by
    rw [expr, expr?_same target, typeRefs_same types, ident_same, exprs_same args, span_same]
  | .delegate kind keyword qualifier args range => by
    rw [expr, mark_same, expr?_same qualifier, exprs_same args, span_same]
  | .create qualifier type args body range => by
    rw [expr, expr?_same qualifier, typeRef_same type, exprs_same args, unnamedBody_same body,
      mark_same]
  | .createArray element sizes init range => by
    rw [expr, typeRef_same element, exprs_same sizes, exprList?_same init, span_same]
  | .arrayInit elements range => by rw [expr, exprs_same elements, span_same]
  | .index array index range => by rw [expr, expr_same array, expr_same index, span_same]
  | .unary op operand range => by rw [expr, expr_same operand, span_same]
  | .binary op left right range => by rw [expr, expr_same left, expr_same right, span_same]
  | .assign target value range => by rw [expr, expr_same target, expr_same value, span_same]
  | .conditional condition thenValue elseValue range => by
    rw [expr, expr_same condition, expr_same thenValue, expr_same elseValue, span_same]
  | .cast type bounds value range => by
    rw [expr, typeRef_same type, typeRefs_same bounds, expr_same value, span_same]
  | .instanceOf value type binding range => by
    rw [expr, expr_same value, typeRef_same type, ident?_same, span_same]
  | .lambda params body range => by rw [expr, lambdaParams_same params, expr_same body, span_same]
  | .blockLambda params body range => by
    rw [expr, lambdaParams_same params, block_same body, span_same]
  | .methodRef target name range => by rw [expr, expr_same target, ident_same, span_same]
  | .typeMethodRef target name range => by rw [expr, typeRef_same target, ident_same, span_same]
  | .this qualifier range => by rw [expr, expr?_same qualifier, span_same]
  | .super qualifier range => by rw [expr, expr?_same qualifier, span_same]
  | .classLiteral type range => by rw [expr, typeRef_same type, span_same]
  | .paren inner range => by rw [expr, expr_same inner, span_same]
  | .switching selector cases range => by
    rw [expr, expr_same selector, switchCases_same cases, span_same]
  | .annotated a => by rw [expr, annotationUse_same a]

theorem lambdaParams_same : ∀ ps : List LambdaParam, same.lambdaParams ps = ps
  | [] => rfl
  | ⟨mods, type, name⟩ :: rest => by
    rw [lambdaParams, modifiers_same mods, typeRef?_same type, ident_same, lambdaParams_same rest]

theorem unnamedBody_same : ∀ body : Option (List Member), same.unnamedBody body = body
  | none => rfl
  | some body => by rw [unnamedBody, members_same body]

theorem block_same : ∀ b : Block, same.block b = b
  | ⟨body, range⟩ => by rw [block, stmts_same body, span_same]

theorem block?_same : ∀ b : Option Block, same.block? b = b
  | none => rfl
  | some b => by rw [block?, block_same b]

theorem stmts_same : ∀ ss : List Stmt, same.stmts ss = ss
  | [] => rfl
  | s :: rest => by rw [stmts, stmt_same s, stmts_same rest]

theorem stmt_same : ∀ s : Stmt, same.stmt s = s
  | .locals decl => by rw [stmt, varDecl_same decl]
  | .localType decl => by rw [stmt, typeDecl_same decl]
  | .expr value => by rw [stmt, expr_same value]
  | .block body => by rw [stmt, block_same body]
  | .ifThen condition thenBranch => by rw [stmt, expr_same condition, stmt_same thenBranch]
  | .ifElse condition thenBranch elseBranch => by
    rw [stmt, expr_same condition, stmt_same thenBranch, stmt_same elseBranch]
  | .whileLoop condition body => by rw [stmt, expr_same condition, stmt_same body]
  | .doLoop body condition => by rw [stmt, stmt_same body, expr_same condition]
  | .forLoop init condition update body => by
    rw [stmt, stmts_same init, expr?_same condition, exprs_same update, stmt_same body]
  | .forEach decl iterable body => by
    rw [stmt, varDecl_same decl, expr_same iterable, stmt_same body]
  | .returning value => by rw [stmt, expr?_same value]
  | .throwing value => by rw [stmt, expr_same value]
  | .yielding value => by rw [stmt, expr_same value]
  | .breaking label => by rw [stmt, ident?_same]
  | .continuing label => by rw [stmt, ident?_same]
  | .trying resources body catches closing => by
    rw [stmt, stmts_same resources, block_same body, catchClauses_same catches, block?_same closing]
  | .switching selector cases range => by
    rw [stmt, expr_same selector, switchCases_same cases, span_same]
  | .synchronized lock body => by rw [stmt, expr_same lock, block_same body]
  | .labeled label body => by rw [stmt, ident_same, stmt_same body]
  | .asserting condition message => by rw [stmt, expr_same condition, expr?_same message]
  | .empty => rfl

theorem varDecl_same : ∀ d : VarDecl, same.varDecl d = d
  | ⟨mods, type, declarators⟩ => by
    rw [varDecl, modifiers_same mods, typeRef_same type, declarators_same declarators]

theorem declarators_same : ∀ vs : List Declarator, same.declarators vs = vs
  | [] => rfl
  | ⟨name, dims, init⟩ :: rest => by
    rw [declarators, ident_same, expr?_same init, declarators_same rest]

theorem catchClauses_same : ∀ cs : List CatchClause, same.catchClauses cs = cs
  | [] => rfl
  | ⟨mods, types, name, body⟩ :: rest => by
    rw [catchClauses, modifiers_same mods, typeRefs_same types, ident_same, block_same body,
      catchClauses_same rest]

theorem switchCases_same : ∀ cs : List SwitchCase, same.switchCases cs = cs
  | [] => rfl
  | .group labels guard body :: rest => by
    rw [switchCases, caseLabels_same labels, expr?_same guard, stmts_same body, switchCases_same rest]
  | .rule labels guard body :: rest => by
    rw [switchCases, caseLabels_same labels, expr?_same guard, stmt_same body, switchCases_same rest]

theorem caseLabels_same : ∀ ls : List CaseLabel, same.caseLabels ls = ls
  | [] => rfl
  | .default :: rest => by rw [caseLabels, caseLabels_same rest]
  | .expr value :: rest => by rw [caseLabels, expr_same value, caseLabels_same rest]
  | .pattern type name :: rest => by
    rw [caseLabels, typeRef_same type, ident_same, caseLabels_same rest]

theorem typeDecl_same : ∀ d : TypeDecl, same.typeDecl d = d
  | ⟨kind, mods, name, params, extending, implementing, permitting, components, constants, body, doc,
      range⟩ => by
    rw [typeDecl, modifiers_same mods, ident_same, typeParams_same params, typeRefs_same extending,
      typeRefs_same implementing, typeRefs_same permitting, params_same components,
      enumConstants_same constants, members_same body, doc_same, span_same]

theorem typeParams_same : ∀ ps : List TypeParam, same.typeParams ps = ps
  | [] => rfl
  | ⟨as, name, bounds⟩ :: rest => by
    rw [typeParams, annotations_same as, ident_same, typeRefs_same bounds, typeParams_same rest]

theorem enumConstants_same : ∀ ks : List EnumConstant, same.enumConstants ks = ks
  | [] => rfl
  | ⟨as, name, args, body, doc⟩ :: rest => by
    rw [enumConstants, annotations_same as, ident_same, exprList?_same args, unnamedBody_same body,
      doc_same, enumConstants_same rest]

theorem params_same : ∀ ps : List Param, same.params ps = ps
  | [] => rfl
  | ⟨mods, type, varargs, name, range⟩ :: rest => by
    rw [params, modifiers_same mods, typeRef_same type, ident_same, span_same, params_same rest]

theorem members_same : ∀ ms : List Member, same.members ms = ms
  | [] => rfl
  | m :: rest => by rw [members, member_same m, members_same rest]

theorem member_same : ∀ m : Member, same.member m = m
  | .field decl doc range => by rw [member, varDecl_same decl, doc_same, span_same]
  | .method m => by rw [member, methodDecl_same m]
  | .initializer isStatic body => by rw [member, block_same body]
  | .type d => by rw [member, typeDecl_same d]

theorem methodDecl_same : ∀ m : MethodDecl, same.methodDecl m = m
  | ⟨mods, params, returns, name, parameters, throwing, body, defaultValue, compact, doc, range⟩ => by
    rw [methodDecl, modifiers_same mods, typeParams_same params, typeRef?_same returns, ident_same,
      params_same parameters, typeRefs_same throwing, block?_same body, expr?_same defaultValue,
      doc_same, span_same]

end

theorem unit_same (u : CompilationUnit) : same.unit u = u := by
  have package : u.package.map same.packageDecl = u.package := by
    cases u.package with
    | none => rfl
    | some p => rw [Option.map_some, packageDecl, annotations_same, idents_same, span_same]
  have imports : u.imports.map same.importDecl = u.imports := by
    apply List.map_id''
    intro i
    rw [importDecl, idents_same, span_same]
  have types : ∀ ds : List TypeDecl, same.typeDecls ds = ds := by
    intro ds
    induction ds with
    | nil => rfl
    | cons d ds ih => rw [typeDecls, typeDecl_same, ih]
  rw [unit, package, imports, types]

end Layout
end JavaIndex
