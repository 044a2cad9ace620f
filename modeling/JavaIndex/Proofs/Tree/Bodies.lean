import JavaIndex.Proofs.Resolve.Plan

/-! The bodies of a tree: of methods and initializers, and the initial values of fields and constants. What a body
declares is declared by whatever its class stands in. -/
namespace JavaIndex

/-- What a constant of an enum creates. -/
def EnumConstant.created (k : EnumConstant) : List Node := Nodes.exprList? k.args ++ Nodes.unnamedBody k.body

/-- All of a method but its annotations and its name. -/
def MethodDecl.inside (m : MethodDecl) : List Node :=
  Nodes.typeParams m.typeParams ++ (Nodes.typeRef? m.returns ++ (Nodes.methodParams m.params ++
    (Nodes.typeRefs m.throwing ++ (Nodes.block? m.body ++ Nodes.expr? m.defaultValue))))

/-- The initial values of some variables. -/
def Declarator.bodies (ds : List Declarator) : List (List Node) := ds.map fun v => Nodes.expr? v.init

/-- The bodies of a member. A field has one for each of its initial values. -/
def Member.bodies : Member → List (List Node)
  | .field d _ _ => Declarator.bodies d.declarators
  | .method m => [m.inside]
  | .initializer _ body => [Nodes.block body]
  | .type _ => []

/-- The bodies of a class. Those of the types declared in it are not among them. -/
def ClassSyntax.bodies (b : ClassSyntax) : List (List Node) :=
  b.body.constants.map EnumConstant.created ++ b.body.members.flatMap Member.bodies

def Part.bodies : Part → List (List Node)
  | .ofClass b => b.bodies
  | .mention _ | .declaration _ => []

namespace Nodes

/-- The bodies of all classes among some nodes. -/
def bodies (ns : List Node) : List (List Node) := ns.flatMap fun n => n.part.bodies

variable {ns ms : List Node} {bs cs : List (List Node)}

theorem declared_append (ns ms : List Node) : declared (ns ++ ms) = declared ns ++ declared ms :=
  List.filterMap_append

theorem declared_map_within (b : ClassSyntax) (ns : List Node) :
    declared (ns.map (Node.within b)) = declared ns := by
  rw [declared, List.filterMap_map]
  rfl

theorem declared_hide (ns : List Node) : declared (hide ns) = declared ns := by
  rw [declared, hide, List.filterMap_map]
  rfl

theorem bodies_append (ns ms : List Node) : bodies (ns ++ ms) = bodies ns ++ bodies ms := List.flatMap_append

theorem bodies_hide (ns : List Node) : bodies (hide ns) = bodies ns := by
  rw [bodies, hide, List.flatMap_map]
  rfl

theorem bodies_inside (b : ClassSyntax) (ns : List Node) : bodies (inside b ns) = bodies ns := by
  rw [bodies, inside, List.flatMap_map]
  rfl

theorem bodies_classNode (b : ClassSyntax) (ns : List Node) : bodies (classNode b ++ ns) = b.bodies ++ bodies ns := by
  rw [bodies_append]
  simp [bodies, classNode, Node.ofPart, Part.bodies]

/-- The nodes neither declare anything nor have bodies. -/
def Silent (ns : List Node) : Prop := ∀ n ∈ ns, n.declared? = none ∧ n.part.bodies = []

theorem silent_nil : Silent [] := nofun

theorem silent_mentions (names : List Ident) : Silent (mentions names) := by
  intro n hn
  obtain ⟨i, -, rfl⟩ := List.mem_map.mp hn
  exact ⟨rfl, rfl⟩

theorem declared_of_silent (silent : Silent ns) : declared ns = [] :=
  List.filterMap_eq_nil_iff.mpr fun n hn => (silent n hn).1

/-- What these bodies declare is declared by the nodes, and so is what the bodies of the classes among them
declare. -/
def Hold (ns : List Node) (bodies : List (List Node)) : Prop :=
  ∀ body ∈ bodies ++ Nodes.bodies ns, declared body ⊆ declared ns

namespace Hold

theorem nil : Hold [] [] := by simp [Hold, bodies]

theorem silent (silent : Silent ns) : Hold ns [] := by
  have none : bodies ns = [] := List.flatMap_eq_nil_iff.mpr fun n hn => (silent n hn).2
  simp [Hold, none]

theorem mentions (names : List Ident) : Hold (Nodes.mentions names) [] := silent (silent_mentions names)

theorem declaration (name : Ident) : Hold (Nodes.declaration name) [] := by
  simp [Hold, bodies, Nodes.declaration, Node.ofPart, Part.bodies]

theorem append (first : Hold ns bs) (second : Hold ms cs) : Hold (ns ++ ms) (bs ++ cs) := by
  intro body hbody
  have here : declared ns ⊆ declared (ns ++ ms) := by
    rw [declared_append]
    exact List.subset_append_left _ _
  have there : declared ms ⊆ declared (ns ++ ms) := by
    rw [declared_append]
    exact List.subset_append_right _ _
  rw [bodies_append, List.mem_append, List.mem_append, List.mem_append] at hbody
  rcases hbody with (h | h) | (h | h)
  · exact List.Subset.trans (first body (List.mem_append_left _ h)) here
  · exact List.Subset.trans (second body (List.mem_append_left _ h)) there
  · exact List.Subset.trans (first body (List.mem_append_right _ h)) here
  · exact List.Subset.trans (second body (List.mem_append_right _ h)) there

theorem hide (h : Hold ns bs) : Hold (Nodes.hide ns) bs := by
  rw [Hold, bodies_hide, declared_hide]
  exact h

theorem inside (h : Hold ns bs) (b : ClassSyntax) : Hold (Nodes.inside b ns) bs := by
  rw [Hold, bodies_inside, Nodes.inside, declared_map_within]
  exact h

/-- The nodes themselves may be a body. -/
theorem self (h : Hold ns []) : Hold ns [ns] := by
  intro body hbody
  obtain rfl | hbody := List.mem_cons.mp hbody
  · exact List.Subset.refl _
  · exact h body hbody

/-- The bodies of the members are those of their class. -/
theorem ofClass {b : ClassSyntax} (h : Hold ns b.bodies) : Hold (classNode b ++ ns) [] := by
  intro body hbody
  rw [List.nil_append, bodies_classNode] at hbody
  exact h body hbody

end Hold

/-! Every part of a tree holds its bodies. -/

mutual

theorem hold_typeRef : ∀ type : TypeRef, Hold (typeRef type) []
  | .primitive _ _ => .nil
  | .array element _ _ => hold_typeRef element
  | .named segments range => by
    unfold typeRef
    split
    · exact ((hold_segmentAnnotations segments).append (hold_segmentArgs segments)).hide
    · exact (Hold.mentions _).append ((hold_segmentAnnotations segments).append (hold_segmentArgs segments))

theorem hold_typeRefs : ∀ types : List TypeRef, Hold (typeRefs types) []
  | [] => .nil
  | t :: rest => (hold_typeRef t).append (hold_typeRefs rest)

theorem hold_typeRef? : ∀ type : Option TypeRef, Hold (typeRef? type) []
  | none => .nil
  | some t => hold_typeRef t

theorem hold_segmentAnnotations : ∀ segments : List (TypeSegment Annotation), Hold (segmentAnnotations segments) []
  | [] => .nil
  | ⟨as, _, _⟩ :: rest => (hold_annotations as).append (hold_segmentAnnotations rest)

theorem hold_segmentArgs : ∀ segments : List (TypeSegment Annotation), Hold (segmentArgs segments) []
  | [] => .nil
  | ⟨_, _, args⟩ :: rest => (hold_typeArgList args).append (hold_segmentArgs rest)

theorem hold_typeArgList : ∀ args : Option (List (TypeArg Annotation)), Hold (typeArgList args) []
  | none => .nil
  | some args => hold_typeArgs args

theorem hold_typeArgs : ∀ args : List (TypeArg Annotation), Hold (typeArgs args) []
  | [] => .nil
  | arg :: rest => (hold_typeArg arg).append (hold_typeArgs rest)

theorem hold_typeArg : ∀ arg : TypeArg Annotation, Hold (typeArg arg) []
  | .type t => hold_typeRef t
  | .wildcard _ => .nil
  | .bounded _ t _ => hold_typeRef t

theorem hold_annotations : ∀ as : List Annotation, Hold (annotations as) []
  | [] => .nil
  | a :: rest => (hold_annotationUse a).append (hold_annotations rest)

theorem hold_annotationUse : ∀ a : Annotation, Hold (Nodes.annotation a) []
  | ⟨name, args, _⟩ => (Hold.mentions name).append (hold_annotationArgs args)

theorem hold_annotationArgs : ∀ args : List AnnotationArg, Hold (annotationArgs args) []
  | [] => .nil
  | ⟨_, value⟩ :: rest => (Hold.mentions _).append ((hold_expr value).append (hold_annotationArgs rest))

theorem hold_modifiers : ∀ mods : Modifiers, Hold (modifiers mods) []
  | ⟨_, as⟩ => hold_annotations as

theorem hold_exprs : ∀ es : List Expr, Hold (exprs es) []
  | [] => .nil
  | e :: rest => (hold_expr e).append (hold_exprs rest)

theorem hold_exprList? : ∀ es : Option (List Expr), Hold (exprList? es) []
  | none => .nil
  | some es => hold_exprs es

theorem hold_expr? : ∀ e : Option Expr, Hold (expr? e) []
  | none => .nil
  | some e => hold_expr e

theorem hold_expr : ∀ e : Expr, Hold (expr e) []
  | .literal _ _ => .nil
  | .name _ => Hold.mentions _
  | .field target _ _ => (hold_expr target).append (Hold.mentions _)
  | .call target types _ args _ =>
    (hold_typeRefs types).append ((hold_expr? target).append ((hold_exprs args).append (Hold.mentions _)))
  | .delegate _ _ qualifier args _ => (hold_expr? qualifier).append ((hold_exprs args).append (Hold.mentions _))
  | .create qualifier (.primitive _ _) args body _ =>
    (hold_exprs args).append (Hold.nil.append ((hold_expr? qualifier).append (hold_unnamedBody body)).hide)
  | .create qualifier (.array element _ _) args body _ =>
    (hold_exprs args).append
      ((hold_typeRef element).append ((hold_expr? qualifier).append (hold_unnamedBody body)).hide)
  | .create none (.named segments _) args body _ => by
    unfold expr
    dsimp only
    split
    · exact (hold_exprs args).append (Hold.nil.append (hold_unnamedBody body)).hide
    · exact (hold_exprs args).append (((Hold.mentions _).append
        ((hold_segmentAnnotations segments).append (hold_segmentArgs segments))).append (hold_unnamedBody body))
  | .create (some outer) (.named segments _) args body _ => by
    unfold expr
    dsimp only
    split
    · exact (hold_exprs args).append ((hold_expr outer).append (hold_unnamedBody body)).hide
    · exact (hold_exprs args).append ((hold_expr outer).append (((Hold.mentions _).append
        ((hold_segmentAnnotations segments).append (hold_segmentArgs segments))).hide.append
          ((Hold.mentions _).append (hold_unnamedBody body))))
  | .createArray element sizes init _ =>
    (hold_typeRef element).append ((hold_exprs sizes).append (hold_exprList? init))
  | .arrayInit elements _ => hold_exprs elements
  | .index array index _ => (hold_expr array).append (hold_expr index)
  | .unary _ operand _ => hold_expr operand
  | .binary _ left right _ => (hold_expr left).append (hold_expr right)
  | .assign target value _ => (hold_expr target).append (hold_expr value)
  | .conditional condition thenValue elseValue _ =>
    (hold_expr condition).append ((hold_expr thenValue).append (hold_expr elseValue))
  | .cast type bounds value _ => (hold_typeRef type).append ((hold_typeRefs bounds).append (hold_expr value))
  | .instanceOf value type none _ => (hold_expr value).append ((hold_typeRef type).append .nil)
  | .instanceOf value type (some name) _ => (hold_expr value).append ((hold_typeRef type).append (.declaration name))
  | .lambda params body _ => (hold_lambdaParams params).append (hold_expr body)
  | .blockLambda params body _ => (hold_lambdaParams params).append (hold_block body)
  | .methodRef target _ _ => (hold_expr target).append (Hold.mentions _)
  | .typeMethodRef target _ _ => (hold_typeRef target).append (Hold.mentions _)
  | .this qualifier _ => hold_expr? qualifier
  | .super qualifier _ => hold_expr? qualifier
  | .classLiteral type _ => hold_typeRef type
  | .paren inner _ => hold_expr inner
  | .switching selector cases _ => (hold_expr selector).append (hold_switchCases cases)
  | .annotated a => hold_annotationUse a

theorem hold_lambdaParams : ∀ ps : List LambdaParam, Hold (lambdaParams ps) []
  | [] => .nil
  | ⟨mods, type, name⟩ :: rest =>
    (hold_modifiers mods).append ((hold_typeRef? type).append ((Hold.declaration name).append (hold_lambdaParams rest)))

theorem hold_unnamedBody : ∀ body : Option (List Member), Hold (unnamedBody body) []
  | none => .nil
  | some body => ((hold_members body).inside (.unnamed body)).ofClass (b := .unnamed body)

theorem hold_block : ∀ b : Block, Hold (block b) []
  | ⟨body, _⟩ => hold_stmts body

theorem hold_block? : ∀ b : Option Block, Hold (block? b) []
  | none => .nil
  | some b => hold_block b

theorem hold_stmts : ∀ ss : List Stmt, Hold (stmts ss) []
  | [] => .nil
  | s :: rest => (hold_stmt s).append (hold_stmts rest)

theorem hold_stmt : ∀ s : Stmt, Hold (stmt s) []
  | .locals decl => hold_varDecl decl
  | .localType decl => hold_typeDecl decl
  | .expr value => hold_expr value
  | .block body => hold_block body
  | .ifThen condition thenBranch => (hold_expr condition).append (hold_stmt thenBranch)
  | .ifElse condition thenBranch elseBranch =>
    (hold_expr condition).append ((hold_stmt thenBranch).append (hold_stmt elseBranch))
  | .whileLoop condition body => (hold_expr condition).append (hold_stmt body)
  | .doLoop body condition => (hold_stmt body).append (hold_expr condition)
  | .forLoop init condition update body =>
    (hold_stmts init).append ((hold_expr? condition).append ((hold_exprs update).append (hold_stmt body)))
  | .forEach decl iterable body => (hold_expr iterable).append ((hold_varDecl decl).append (hold_stmt body))
  | .returning value => hold_expr? value
  | .throwing value => hold_expr value
  | .yielding value => hold_expr value
  | .breaking _ => .nil
  | .continuing _ => .nil
  | .trying resources body catches closing =>
    ((hold_stmts resources).append (hold_block body)).append ((hold_catchClauses catches).append (hold_block? closing))
  | .switching selector cases _ => (hold_expr selector).append (hold_switchCases cases)
  | .synchronized lock body => (hold_expr lock).append (hold_block body)
  | .labeled _ body => hold_stmt body
  | .asserting condition message => (hold_expr condition).append (hold_expr? message)
  | .empty => .nil

theorem hold_varDecl : ∀ d : VarDecl, Hold (varDecl d) []
  | ⟨mods, type, declarators⟩ =>
    (hold_modifiers mods).append ((hold_typeRef type).append (hold_varDeclarators declarators))

theorem hold_varDeclarators : ∀ ds : List Declarator, Hold (varDeclarators ds) []
  | [] => .nil
  | ⟨name, _, init⟩ :: rest => ((Hold.declaration name).append (hold_expr? init)).append (hold_varDeclarators rest)

theorem hold_catchClauses : ∀ cs : List CatchClause, Hold (catchClauses cs) []
  | [] => .nil
  | ⟨mods, types, name, body⟩ :: rest =>
    ((hold_modifiers mods).append ((hold_typeRefs types).append
      ((Hold.declaration name).append (hold_block body)))).append (hold_catchClauses rest)

theorem hold_switchCases : ∀ cases : List SwitchCase, Hold (switchCases cases) []
  | [] => .nil
  | .group labels guard body :: rest =>
    ((hold_caseLabels labels).append ((hold_expr? guard).append (hold_stmts body))).append (hold_switchCases rest)
  | .rule labels guard body :: rest =>
    ((hold_caseLabels labels).append ((hold_expr? guard).append (hold_stmt body))).append (hold_switchCases rest)

theorem hold_caseLabels : ∀ labels : List CaseLabel, Hold (caseLabels labels) []
  | [] => .nil
  | .default :: rest => hold_caseLabels rest
  | .expr value :: rest => (hold_expr value).append (hold_caseLabels rest)
  | .pattern type name :: rest => (hold_typeRef type).append ((Hold.declaration name).append (hold_caseLabels rest))

theorem hold_typeDecl : ∀ d : TypeDecl, Hold (typeDecl d) []
  | ⟨kind, mods, name, params, extending, implementing, permitting, components, constants, body, doc, range⟩ => by
    let b : ClassSyntax := .declared ⟨kind, mods, name, params, extending, implementing, permitting, components,
      constants, body, doc, range⟩
    have members : Hold _ b.bodies := (hold_typeParams params).append ((hold_typeRefs extending).append
      ((hold_typeRefs implementing).append ((hold_typeRefs permitting).append
        ((hold_enumConstants constants).append ((hold_recordComponents components).append (hold_members body))))))
    exact ((hold_modifiers mods).append ((Hold.declaration name).append (members.inside b))).ofClass

theorem hold_typeParams : ∀ ps : List TypeParam, Hold (typeParams ps) []
  | [] => .nil
  | ⟨as, name, bounds⟩ :: rest =>
    (hold_annotations as).append ((Hold.declaration name).append ((hold_typeRefs bounds).append (hold_typeParams rest)))

theorem hold_enumConstants : ∀ ks : List EnumConstant, Hold (enumConstants ks) (ks.map EnumConstant.created)
  | [] => .nil
  | ⟨as, name, args, body, _⟩ :: rest =>
    (hold_annotations as).append (((Hold.declaration name).append
      ((hold_exprList? args).append (hold_unnamedBody body)).self).append (hold_enumConstants rest))

theorem hold_recordComponents : ∀ ps : List Param, Hold (recordComponents ps) []
  | [] => .nil
  | ⟨mods, type, _, name, _⟩ :: rest =>
    (hold_modifiers mods).append ((Hold.declaration name).append
      ((hold_typeRef type).append (hold_recordComponents rest)))

theorem hold_members : ∀ ms : List Member, Hold (members ms) (ms.flatMap Member.bodies)
  | [] => .nil
  | m :: rest => (hold_member m).append (hold_members rest)

theorem hold_member : ∀ m : Member, Hold (member m) m.bodies
  | .field ⟨mods, type, declarators⟩ _ _ =>
    (hold_modifiers mods).append ((hold_typeRef type).append (hold_fields declarators))
  | .method m => hold_methodDecl m
  | .initializer _ body => (hold_block body).self
  | .type d => hold_typeDecl d

/-- The initial values of fields are bodies. -/
theorem hold_fields : ∀ ds : List Declarator, Hold (varDeclarators ds) (Declarator.bodies ds)
  | [] => .nil
  | ⟨name, _, init⟩ :: rest => ((Hold.declaration name).append (hold_expr? init).self).append (hold_fields rest)

theorem hold_methodDecl : ∀ m : MethodDecl, Hold (methodDecl m) [m.inside]
  | ⟨mods, params, returns, name, parameters, throwing, body, defaultValue, _, _, _⟩ =>
    (hold_modifiers mods).append ((Hold.declaration name).append ((hold_typeParams params).append
      ((hold_typeRef? returns).append ((hold_methodParams parameters).append ((hold_typeRefs throwing).append
        ((hold_block? body).append (hold_expr? defaultValue)))))).self)

theorem hold_methodParams : ∀ ps : List Param, Hold (methodParams ps) []
  | [] => .nil
  | ⟨mods, type, _, name, _⟩ :: rest =>
    (hold_modifiers mods).append ((hold_typeRef type).append
      ((Hold.declaration name).append (hold_methodParams rest)))

end

end Nodes
end JavaIndex
