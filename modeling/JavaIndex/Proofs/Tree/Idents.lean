import JavaIndex.Proofs.Tree.Nodes
import Mathlib.Data.List.Basic
import Mathlib.Data.List.Count

/-! The identifiers that a tree holds, part by part: those of a list are those of its members in order,
and marking or surrounding nodes changes none. -/
namespace JavaIndex

/-- The words of an answer that may be missing. -/
def optional {α : Type} (words : α → List Ident) : Option α → List Ident
  | none => []
  | some x => words x

@[simp] theorem optional_none {α : Type} (words : α → List Ident) : optional words none = [] := rfl

@[simp] theorem optional_some {α : Type} (words : α → List Ident) (x : α) :
    optional words (some x) = words x := rfl

/-- No word is there more often than in the other list. -/
def FewerWords (xs ys : List Ident) : Prop := ∀ i, xs.count i ≤ ys.count i

theorem FewerWords.refl (xs : List Ident) : FewerWords xs xs := fun _ => Nat.le_refl _

theorem FewerWords.trans {xs ys zs : List Ident} (first : FewerWords xs ys) (second : FewerWords ys zs) :
    FewerWords xs zs :=
  fun i => Nat.le_trans (first i) (second i)

theorem FewerWords.append {xs ys xs' ys' : List Ident} (first : FewerWords xs ys)
    (second : FewerWords xs' ys') : FewerWords (xs ++ xs') (ys ++ ys') := by
  intro i
  rw [List.count_append, List.count_append]
  exact Nat.add_le_add (first i) (second i)

theorem FewerWords.mem {xs ys : List Ident} (fewer : FewerWords xs ys) {i : Ident} (hi : i ∈ xs) : i ∈ ys :=
  List.count_pos_iff.mp (Nat.lt_of_lt_of_le (List.count_pos_iff.mpr hi) (fewer i))

namespace Nodes

/-! Marking and putting together. -/

@[simp] theorem idents_nil : idents [] = [] := rfl

@[simp] theorem idents_append (xs ys : List Node) : idents (xs ++ ys) = idents xs ++ idents ys :=
  List.filterMap_append ..

@[simp] theorem idents_hide (ns : List Node) : idents (hide ns) = idents ns :=
  List.filterMap_map ..

@[simp] theorem idents_inside (b : ClassSyntax) (ns : List Node) : idents (inside b ns) = idents ns :=
  List.filterMap_map ..

@[simp] theorem idents_mentions (names : List Ident) : idents (mentions names) = names := by
  unfold idents mentions
  rw [List.filterMap_map]
  exact List.filterMap_some

@[simp] theorem idents_declaration (name : Ident) : idents (declaration name) = [name] := rfl

@[simp] theorem idents_classNode (b : ClassSyntax) : idents (classNode b) = [] := rfl

/-- The words of what stands at one place. -/
def words {α : Type} (parts : α → List Node) (x : α) : List Ident := idents (parts x)

/-! Lists and what may be missing. -/

theorem idents_flatMap {α : Type} {parts : List α → List Node} {part : α → List Node} (xs : List α)
    (none : parts [] = []) (first : ∀ x xs, parts (x :: xs) = part x ++ parts xs) :
    idents (parts xs) = xs.flatMap (words part) := by
  induction xs with
  | nil => rw [none]; rfl
  | cons x xs ih => rw [first, idents_append, ih]; rfl

@[simp] theorem idents_typeRefs (ts : List TypeRef) : idents (typeRefs ts) = ts.flatMap (words typeRef) :=
  idents_flatMap ts (by rw [typeRefs]) fun t ts => by rw [typeRefs]

@[simp] theorem idents_typeRef? (t : Option TypeRef) :
    idents (typeRef? t) = optional (words typeRef) t := by
  cases t <;> simp [typeRef?, words]

@[simp] theorem idents_typeArgs (as : List (TypeArg Annotation)) :
    idents (typeArgs as) = as.flatMap (words typeArg) :=
  idents_flatMap as (by rw [typeArgs]) fun a as => by rw [typeArgs]

@[simp] theorem idents_typeArgList (as : Option (List (TypeArg Annotation))) :
    idents (typeArgList as) = optional (fun as => as.flatMap (words typeArg)) as := by
  cases as <;> simp [typeArgList]

@[simp] theorem idents_annotations (as : List Annotation) :
    idents (annotations as) = as.flatMap (words annotation) :=
  idents_flatMap as (by rw [annotations]) fun a as => by rw [annotations]

@[simp] theorem idents_modifiers (m : Modifiers) :
    idents (modifiers m) = m.annotations.flatMap (words annotation) := by
  cases m
  simp [modifiers]

@[simp] theorem idents_annotationArgs (as : List AnnotationArg) :
    idents (annotationArgs as) = as.flatMap (words fun a => annotationArgs [a]) :=
  idents_flatMap as (by rw [annotationArgs]) fun a as => by cases a; simp [annotationArgs]

@[simp] theorem idents_exprs (es : List Expr) : idents (exprs es) = es.flatMap (words expr) :=
  idents_flatMap es (by rw [exprs]) fun e es => by rw [exprs]

@[simp] theorem idents_exprList? (es : Option (List Expr)) :
    idents (exprList? es) = optional (fun es => es.flatMap (words expr)) es := by
  cases es <;> simp [exprList?]

@[simp] theorem idents_expr? (e : Option Expr) : idents (expr? e) = optional (words expr) e := by
  cases e <;> simp [expr?, words]

@[simp] theorem idents_lambdaParams (ps : List LambdaParam) :
    idents (lambdaParams ps) = ps.flatMap (words fun p => lambdaParams [p]) :=
  idents_flatMap ps (by rw [lambdaParams]) fun p ps => by cases p; simp [lambdaParams]

@[simp] theorem idents_stmts (ss : List Stmt) : idents (stmts ss) = ss.flatMap (words stmt) :=
  idents_flatMap ss (by rw [stmts]) fun s ss => by rw [stmts]

@[simp] theorem idents_block? (b : Option Block) : idents (block? b) = optional (words block) b := by
  cases b <;> simp [block?, words]

@[simp] theorem idents_varDeclarators (vs : List Declarator) :
    idents (varDeclarators vs) = vs.flatMap (words fun v => varDeclarators [v]) :=
  idents_flatMap vs (by rw [varDeclarators]) fun v vs => by cases v; simp [varDeclarators]

@[simp] theorem idents_catchClauses (cs : List CatchClause) :
    idents (catchClauses cs) = cs.flatMap (words fun c => catchClauses [c]) :=
  idents_flatMap cs (by rw [catchClauses]) fun c cs => by cases c; simp [catchClauses]

@[simp] theorem idents_switchCases (cs : List SwitchCase) :
    idents (switchCases cs) = cs.flatMap (words fun c => switchCases [c]) :=
  idents_flatMap cs (by rw [switchCases]) fun c cs => by cases c <;> simp [switchCases]

@[simp] theorem idents_caseLabels (ls : List CaseLabel) :
    idents (caseLabels ls) = ls.flatMap (words fun l => caseLabels [l]) :=
  idents_flatMap ls (by rw [caseLabels]) fun l ls => by cases l <;> simp [caseLabels]

@[simp] theorem idents_typeParams (ps : List TypeParam) :
    idents (typeParams ps) = ps.flatMap (words fun p => typeParams [p]) :=
  idents_flatMap ps (by rw [typeParams]) fun p ps => by cases p; simp [typeParams]

@[simp] theorem idents_enumConstants (ks : List EnumConstant) :
    idents (enumConstants ks) = ks.flatMap (words fun k => enumConstants [k]) :=
  idents_flatMap ks (by rw [enumConstants]) fun k ks => by cases k; simp [enumConstants]

@[simp] theorem idents_recordComponents (ps : List Param) :
    idents (recordComponents ps) = ps.flatMap (words fun p => recordComponents [p]) :=
  idents_flatMap ps (by rw [recordComponents]) fun p ps => by cases p; simp [recordComponents]

@[simp] theorem idents_members (ms : List Member) :
    idents (members ms) = ms.flatMap (words member) :=
  idents_flatMap ms (by rw [members]) fun m ms => by rw [members]

@[simp] theorem idents_methodParams (ps : List Param) :
    idents (methodParams ps) = ps.flatMap (words fun p => methodParams [p]) :=
  idents_flatMap ps (by rw [methodParams]) fun p ps => by cases p; simp [methodParams]

@[simp] theorem idents_unnamedBody (body : Option (List Member)) :
    idents (unnamedBody body) = optional (fun ms => ms.flatMap (words member)) body := by
  cases body <;> simp [unnamedBody]

@[simp] theorem idents_importDecls (is : List ImportDecl) :
    idents (importDecls is) = is.flatMap (words fun i => mentions i.path) :=
  idents_flatMap is rfl fun _ _ => rfl

@[simp] theorem idents_topTypes (ds : List TypeDecl) :
    idents (topTypes ds) = ds.flatMap (words typeDecl) :=
  idents_flatMap ds rfl fun _ _ => rfl

/-! Statements that hold one thing hold its nodes. -/

@[simp] theorem stmt_expr (e : Expr) : stmt (.expr e) = expr e := by rw [stmt]

@[simp] theorem stmt_block (b : Block) : stmt (.block b) = block b := by rw [stmt]

/-! Types. -/

/-- The words of one name of a type. -/
def segmentWords (s : TypeSegment Annotation) : List Ident :=
  s.name :: (s.annotations.flatMap (words annotation) ++
    optional (fun as => as.flatMap (words typeArg)) s.args)

/-- The words of a type, of which the name `var` is one. -/
def spelled : TypeRef → List Ident
  | .primitive _ _ => []
  | .array element _ _ => spelled element
  | .named segments _ => segments.flatMap segmentWords

/-- The last name and those before it. -/
theorem split_path (names : List Ident) : names.dropLast ++ names.getLast?.toList = names := by
  cases last : names.getLast? with
  | none =>
    rw [List.getLast?_eq_none_iff] at last
    subst last
    rfl
  | some name => exact List.dropLast_append_getLast? name last

theorem count_segments (segments : List (TypeSegment Annotation)) (i : Ident) :
    (segments.flatMap segmentWords).count i = (segments.map TypeSegment.name).count i +
      (idents (segmentAnnotations segments)).count i + (idents (segmentArgs segments)).count i := by
  induction segments with
  | nil => simp [segmentAnnotations, segmentArgs]
  | cons s segments ih =>
    obtain ⟨as, name, args⟩ := s
    simp only [List.flatMap_cons, List.count_append, ih, segmentWords, segmentAnnotations, segmentArgs,
      List.map_cons, idents_append, idents_annotations, idents_typeArgList, List.count_cons]
    omega

theorem count_typeRef (t : TypeRef) (i : Ident) : (words typeRef t).count i ≤ (spelled t).count i := by
  match t with
  | .named segments range =>
    have := count_segments segments i
    rw [words, typeRef, spelled]
    split <;> simp only [idents_hide, idents_append, idents_mentions, List.count_append] <;> omega
  | .primitive _ _ => simp [words, typeRef]
  | .array element _ _ =>
    rw [spelled, words, typeRef]
    exact count_typeRef element i

@[simp] theorem words_withDims (t : TypeRef) (dims : Nat) :
    words typeRef (t.withDims dims) = words typeRef t := by
  unfold WrittenType.withDims
  split
  · rfl
  · simp [words, typeRef]

/-- A chain of names holds nothing but its names. -/
theorem expr_of_chain : ∀ (e : Expr) {names : List Ident}, e.nameChain? = some names →
    expr e = mentions names
  | .name name, names, h => by
    cases Option.some.inj h
    rfl
  | .field target name range, names, h => by
    obtain ⟨before, hbefore, rfl⟩ := Option.map_eq_some_iff.mp h
    rw [expr, expr_of_chain target hbefore, mentions, mentions, mentions, List.map_append]
  | .literal _ _, _, h | .call _ _ _ _ _, _, h | .delegate _ _ _ _ _, _, h | .create _ _ _ _ _, _, h
  | .createArray _ _ _ _, _, h | .arrayInit _ _, _, h | .index _ _ _, _, h | .unary _ _ _, _, h
  | .binary _ _ _ _, _, h | .assign _ _ _, _, h | .conditional _ _ _ _, _, h | .cast _ _ _ _, _, h
  | .instanceOf _ _ _ _, _, h | .lambda _ _ _, _, h | .blockLambda _ _ _, _, h
  | .methodRef _ _ _, _, h | .typeMethodRef _ _ _, _, h | .this _ _, _, h | .super _ _, _, h
  | .classLiteral _ _, _, h | .paren _ _, _, h | .switching _ _ _, _, h | .annotated _, _, h => by
    cases h

/-- The components of a record hold the words that parameters hold. -/
theorem count_recordComponents (ps : List Param) (i : Ident) :
    (idents (recordComponents ps)).count i = (idents (methodParams ps)).count i := by
  induction ps with
  | nil => rw [recordComponents, methodParams]
  | cons p ps ih =>
    cases p
    simp only [recordComponents, methodParams, idents_append, List.count_append, ih]
    omega

end Nodes
end JavaIndex
