import JavaIndex.Proofs.Resolve.BalanceSteps
import JavaIndex.Resolve.Unit

/-! The discipline of scopes on the way through a whole tree, by induction on the tree. A part of a tree may bind
names where it stands, as a declaration does in its block. A construct with a scope of its own does not: the names
that are declared in it mean nothing after it. -/
namespace JavaIndex

namespace Resolve

/-- The body of a declared type, with what its head mentions. -/
def typeBody (c : ClassInfo) (vars : List (String × Symbol)) (d : TypeDecl) : Resolve Unit :=
  enclosedBy (some c.symbol) (inClass c vars do
    typeParams (boundTypeParams vars d.typeParams) d.typeParams
    discard (typeRefs d.extending)
    discard (typeRefs d.implementing)
    discard (typeRefs d.permitting)
    enumConstants c d.constants
    recordComponents c d.components
    members (.start c) d.members)

/-- A declared type that is not found is passed over. Otherwise it is defined, and its body follows. -/
theorem typeDecl_eq (find : Resolve (Option (ClassInfo × List (String × Symbol)))) (d : TypeDecl) :
    typeDecl find d = (do
      match ← find with
      | none => return
      | some (c, vars) =>
        modifiers d.modifiers
        define d.name c.symbol (Signature.typeDecl (← read).source d) d.doc []
        typeBody c vars d) := by
  cases d
  rfl

end Resolve

namespace Moves

variable {α : Type} {r : Progress → Progress → Prop} [Progress.Frame r]

theorem typeOf {x : Resolve Receiver} (h : Moves r x) : Moves r (Resolve.typeOf x) := h.answering

theorem valueOf {x : Resolve JavaType} (h : Moves r x) : Moves r (Resolve.valueOf x) := h.answering

/-! Constructs with scopes of their own. -/

theorem inScopeIf {x : Resolve α} (own : Bool) (h : Resolve.Balanced x) :
    Resolve.Balanced (Resolve.inScopeIf own x) := by
  cases own with
  | true => exact inScope .block h
  | false => exact h

/-- A branch of a statement. -/
theorem branch {body : Stmt} (h : Resolve.Balanced (Resolve.stmt body)) :
    Moves r (Resolve.inScope .block (Resolve.stmt body)) :=
  inScope .block h

theorem forLoop {init : List Stmt} {condition : Option Expr} {update : List Expr} {body : Stmt}
    (first : Resolve.Balanced (Resolve.stmts init)) (test : Resolve.Balanced (Resolve.exprType? condition))
    (next : Resolve.Balanced (Resolve.exprs update)) (inner : Resolve.Balanced (Resolve.stmt body)) :
    Moves r (Resolve.stmt (.forLoop init condition update body)) :=
  inScope .block (first.seq (test.discard.seq (next.discard.seq (branch inner))))

theorem forEach {decl : VarDecl} {iterable : Expr} {body : Stmt}
    (elements : Resolve.Balanced (Resolve.denote iterable))
    (element : ∀ type, Resolve.Balanced (Resolve.varDecl type decl))
    (inner : Resolve.Balanced (Resolve.stmt body)) : Moves r (Resolve.stmt (.forEach decl iterable body)) :=
  inScope .block (elements.typeOf.bind fun _ => (element _).seq (branch inner))

theorem trying {resources : List Stmt} {body : Block} {catches : List CatchClause} {closing : Option Block}
    (opened : Resolve.Balanced (Resolve.stmts resources)) (inner : Resolve.Balanced (Resolve.blockBody body))
    (caught : Moves r (Resolve.catchClauses catches)) (last : Moves r (Resolve.blockBody? closing)) :
    Moves r (Resolve.stmt (.trying resources body catches closing)) :=
  (inScope .block (opened.seq inner)).seq (caught.seq last)

theorem lambda {params : List LambdaParam} {body : Expr} {range : Span}
    (bound : Resolve.Balanced (Resolve.lambdaParams params)) (inner : Resolve.Balanced (Resolve.denote body)) :
    Moves r (Resolve.denote (.lambda params body range)) :=
  (inScope .block (bound.seq inner.discard)).answering.valueOf

theorem blockLambda {params : List LambdaParam} {body : Block} {range : Span}
    (bound : Resolve.Balanced (Resolve.lambdaParams params)) (inner : Resolve.Balanced (Resolve.blockBody body)) :
    Moves r (Resolve.denote (.blockLambda params body range)) :=
  (inScope .block (bound.seq inner)).answering.valueOf

theorem initializer {names : MemberNames} {isStatic : Bool} {body : Block}
    (inner : Resolve.Balanced (Resolve.blockBody body)) :
    Moves r (Resolve.member names (.initializer isStatic body)) :=
  inBody none inner

theorem typeBody (c : ClassInfo) (vars : List (String × Symbol)) {d : TypeDecl}
    (params : ∀ symbols, Resolve.Balanced (Resolve.typeParams symbols d.typeParams))
    (extending : Resolve.Balanced (Resolve.typeRefs d.extending))
    (implementing : Resolve.Balanced (Resolve.typeRefs d.implementing))
    (permitting : Resolve.Balanced (Resolve.typeRefs d.permitting))
    (constants : Resolve.Balanced (Resolve.enumConstants c d.constants))
    (components : Resolve.Balanced (Resolve.recordComponents c d.components))
    (members : Resolve.Balanced (Resolve.members (.start c) d.members)) :
    Moves r (Resolve.typeBody c vars d) :=
  enclosedBy (some c.symbol) (inClass c vars ((params _).seq (extending.discard.seq (implementing.discard.seq
    (permitting.discard.seq (constants.seq (components.seq members)))))))

end Moves

namespace Visit

open Moves

mutual

theorem typeRef : ∀ type : TypeRef, Resolve.Balanced (Resolve.typeRef type)
  | .primitive _ _ => pure _
  | .array element _ _ => (typeRef element).answering
  | .named segments _ => by
    unfold Resolve.typeRef
    split
    · exact pure _
    · exact (namedType _ true (segmentAnnotations segments) (segmentArgs segments)).answering

theorem typeRefs : ∀ types : List TypeRef, Resolve.Balanced (Resolve.typeRefs types)
  | [] => pure _
  | t :: rest => (typeRef t).both (typeRefs rest)

theorem typeRef? : ∀ type : Option TypeRef, Resolve.Balanced (Resolve.typeRef? type)
  | none => pure _
  | some t => typeRef t

theorem segmentAnnotations : ∀ segments : List (TypeSegment Annotation),
    Resolve.Balanced (Resolve.segmentAnnotations segments)
  | [] => pure ()
  | ⟨as, _, _⟩ :: rest => (annotations as).seq (segmentAnnotations rest)

theorem segmentArgs : ∀ segments : List (TypeSegment Annotation), Resolve.Balanced (Resolve.segmentArgs segments)
  | [] => pure _
  | ⟨_, _, args⟩ :: rest => (typeArgList args).both (segmentArgs rest)

theorem typeArgList : ∀ args : Option (List (TypeArg Annotation)), Resolve.Balanced (Resolve.typeArgList args)
  | none => pure _
  | some args => typeArgs args

theorem typeArgs : ∀ args : List (TypeArg Annotation), Resolve.Balanced (Resolve.typeArgs args)
  | [] => pure _
  | arg :: rest => (typeArg arg).both (typeArgs rest)

theorem typeArg : ∀ arg : TypeArg Annotation, Resolve.Balanced (Resolve.typeArg arg)
  | .type t => typeRef t
  | .wildcard _ => pure _
  | .bounded _ t _ => (typeRef t).answering

theorem annotations : ∀ as : List Annotation, Resolve.Balanced (Resolve.annotations as)
  | [] => pure ()
  | a :: rest => (annotationUse a).seq (annotations rest)

theorem annotationUse : ∀ a : Annotation, Resolve.Balanced (Resolve.annotationUse a)
  | ⟨name, args, _⟩ => (annotationType name).bind fun c => annotationArgs c args

theorem annotationArgs (c : Option ClassInfo) : ∀ args : List AnnotationArg,
    Resolve.Balanced (Resolve.annotationArgs c args)
  | [] => pure ()
  | ⟨name, value⟩ :: rest =>
    (annotationElement c name).seq ((denote value).discard.seq (annotationArgs c rest))

theorem modifiers : ∀ mods : Modifiers, Resolve.Balanced (Resolve.modifiers mods)
  | ⟨_, as⟩ => annotations as

theorem exprs : ∀ es : List Expr, Resolve.Balanced (Resolve.exprs es)
  | [] => pure _
  | e :: rest => (denote e).typeOf.both (exprs rest)

theorem exprList? : ∀ es : Option (List Expr), Resolve.Balanced (Resolve.exprList? es)
  | none => pure _
  | some es => exprs es

theorem exprType? : ∀ e : Option Expr, Resolve.Balanced (Resolve.exprType? e)
  | none => pure _
  | some e => (denote e).typeOf

theorem denote? : ∀ e : Option Expr, Resolve.Balanced (Resolve.denote? e)
  | none => pure _
  | some e => (denote e).answering

theorem denote : ∀ e : Expr, Resolve.Balanced (Resolve.denote e)
  | .literal _ _ => pure _
  | .name name => nameChain [name]
  | .field target name _ => by
    change Resolve.Balanced (match target.nameChain? with
      | some names => Resolve.nameChain (names ++ [name])
      | none => Resolve.valueOf (do Resolve.selectMember (← Resolve.denote target) name))
    split
    · exact nameChain _
    · exact ((denote target).bind fun receiver => selectMember receiver name).valueOf
  | .call target types name args _ =>
    ((typeRefs types).discard.seq ((denote? target).bind fun receiver =>
      (calledMethods receiver name.text).bind fun candidates =>
        (exprs args).bind fun types => callMethod name candidates types)).valueOf
  | .delegate kind keyword qualifier args _ =>
    ((denote? qualifier).discard.seq ((exprs args).bind fun types =>
      (callDelegate kind keyword types).answering)).valueOf
  | .create _ (.primitive _ _) args _ _ => ((exprs args).bind fun _ => pure _).valueOf
  | .create _ (.array element _ _) args _ _ => ((exprs args).bind fun _ => (typeRef element).answering).valueOf
  | .create qualifier (.named segments _) args body range => by
    apply valueOf
    apply (exprs args).bind
    intro types
    dsimp only
    split
    · exact pure _
    · rename_i name last
      have finish (created : NamedType) : Resolve.Balanced (do
          Resolve.callConstructor name created types
          Resolve.createdBody created range body) :=
        (callConstructor name created types).seq (createdBody created range body)
      apply (denote? qualifier).bind
      intro outer
      cases outer with
      | some outer => exact (innerClass outer name).bind finish
      | none => exact (namedType _ false (segmentAnnotations segments) (segmentArgs segments)).bind finish
  | .createArray element sizes init _ =>
    ((typeRef element).bind fun _ => (exprs sizes).discard.seq (exprList? init).discard.answering).valueOf
  | .arrayInit elements _ => (exprs elements).discard.answering.valueOf
  | .index array index _ => ((denote array).typeOf.bind fun _ => (denote index).discard.answering).valueOf
  | .unary _ operand _ => (denote operand).typeOf.answering.valueOf
  | .binary _ left right _ => ((denote left).typeOf.both (denote right).typeOf).valueOf
  | .assign target value _ => ((denote target).typeOf.bind fun _ => (denote value).discard.answering).valueOf
  | .conditional condition thenValue elseValue _ =>
    ((denote condition).discard.seq ((denote thenValue).typeOf.both (denote elseValue).typeOf)).valueOf
  | .cast type bounds value _ =>
    ((typeRef type).bind fun _ => (typeRefs bounds).discard.seq (denote value).discard.answering).valueOf
  | .instanceOf value type binding _ => by
    apply valueOf
    apply (denote value).discard.seq
    apply (typeRef type).bind
    intro checked
    cases binding with
    | none => exact pure _
    | some name => exact (declareLocal name .localVariable checked _).answering
  | .lambda params body _ => lambda (lambdaParams params) (denote body)
  | .blockLambda params body _ => blockLambda (lambdaParams params) (blockBody body)
  | .methodRef target name _ =>
    ((denote target).bind fun receiver => (mentionMethod receiver name).answering).valueOf
  | .typeMethodRef target name _ =>
    ((typeRef target).bind fun type => (receiverOfType type).bind fun receiver =>
      (mentionMethod receiver name).answering).valueOf
  | .this qualifier _ => by
    apply valueOf
    apply (denote? qualifier).bind
    intro found
    cases found with
    | none => exact thisType
    | some outer => exact pure _
  | .super qualifier _ => (denote? qualifier).bind superOf
  | .classLiteral type _ => (typeRef type).discard.answering.valueOf
  | .paren inner _ => (denote inner).typeOf.valueOf
  | .switching selector cases _ =>
    ((denote selector).typeOf.bind fun type => (inScopeIf _ (switchCases type _ cases)).answering).valueOf
  | .annotated a => (annotationUse a).answering.valueOf

theorem lambdaParams : ∀ params : List LambdaParam, Resolve.Balanced (Resolve.lambdaParams params)
  | [] => pure ()
  | ⟨mods, type, name⟩ :: rest =>
    (modifiers mods).seq ((typeRef? type).bind fun _ => setting.bind fun _ =>
      (declareLocal name .parameter _ _).seq (lambdaParams rest))

theorem createdBody {r : Progress → Progress → Prop} [Progress.Frame r] (created : NamedType) (span : Span) :
    ∀ body : Option (List Member), Moves r (Resolve.createdBody created span body)
  | none => pure _
  | some body => by
    apply (unnamedClass created.info created.type body span).bind
    intro found
    cases found with
    | none => exact pure _
    | some c => exact (enclosedBy (some c.symbol) (inClass c [] (members (.start c) body))).answering

theorem blockBody {r : Progress → Progress → Prop} [Progress.Frame r] : ∀ b : Block,
    Moves r (Resolve.blockBody b)
  | ⟨body, _⟩ => inScope .block (stmts body)

theorem blockBody? {r : Progress → Progress → Prop} [Progress.Frame r] : ∀ b : Option Block,
    Moves r (Resolve.blockBody? b)
  | none => pure ()
  | some b => blockBody b

theorem stmts : ∀ ss : List Stmt, Resolve.Balanced (Resolve.stmts ss)
  | [] => pure ()
  | s :: rest => (stmt s).seq (stmts rest)

theorem stmt : ∀ s : Stmt, Resolve.Balanced (Resolve.stmt s)
  | .locals decl => varDecl none decl
  | .localType decl => typeDecl (localClass decl) decl
  | .expr value => (denote value).discard
  | .block body => blockBody body
  | .ifThen condition thenBranch => (denote condition).discard.seq (branch (stmt thenBranch))
  | .ifElse condition thenBranch elseBranch =>
    (denote condition).discard.seq ((branch (stmt thenBranch)).seq (branch (stmt elseBranch)))
  | .whileLoop condition body => (denote condition).discard.seq (branch (stmt body))
  | .doLoop body condition => (branch (stmt body)).seq (denote condition).discard
  | .forLoop init condition update body => forLoop (stmts init) (exprType? condition) (exprs update) (stmt body)
  | .forEach decl iterable body => forEach (denote iterable) (fun type => varDecl type decl) (stmt body)
  | .returning value => (exprType? value).discard
  | .throwing value => (denote value).discard
  | .yielding value => (denote value).discard
  | .breaking _ => pure ()
  | .continuing _ => pure ()
  | .trying resources body catches closing =>
    trying (stmts resources) (blockBody body) (catchClauses catches) (blockBody? closing)
  | .switching selector cases _ =>
    (denote selector).typeOf.bind fun type => inScopeIf _ (switchCases type _ cases)
  | .synchronized lock body => (denote lock).discard.seq (blockBody body)
  | .labeled _ body => stmt body
  | .asserting condition message => (denote condition).discard.seq (exprType? message).discard
  | .empty => pure ()

theorem varDecl (element : Option JavaType) : ∀ d : VarDecl, Resolve.Balanced (Resolve.varDecl element d)
  | ⟨mods, type, declarators⟩ =>
    (modifiers mods).seq ((typeRef type).bind fun _ => varDeclarators mods type _ _ declarators)

theorem varDeclarators (mods : Modifiers) (type : TypeRef) (declared : Option JavaType) (inferred : Bool) :
    ∀ ds : List Declarator, Resolve.Balanced (Resolve.varDeclarators mods type declared inferred ds)
  | [] => pure ()
  | ⟨name, _, init⟩ :: rest =>
    setting.bind fun _ => (declareVariable name _ _ (exprType? init)).seq
      (varDeclarators mods type declared inferred rest)

theorem catchClauses {r : Progress → Progress → Prop} [Progress.Frame r] : ∀ cs : List CatchClause,
    Moves r (Resolve.catchClauses cs)
  | [] => pure ()
  | ⟨mods, types, name, body⟩ :: rest =>
    (inScope .block ((modifiers mods).seq ((typeRefs types).bind fun _ =>
      (declareLocal name .localVariable _ _).seq (blockBody body)))).seq (catchClauses rest)

theorem switchCases (selector : JavaType) (own : Bool) : ∀ cases : List SwitchCase,
    Resolve.Balanced (Resolve.switchCases selector own cases)
  | [] => pure ()
  | .group labels guard body :: rest =>
    (inScopeIf own ((caseLabels selector labels).seq ((exprType? guard).discard.seq (stmts body)))).seq
      (switchCases selector own rest)
  | .rule labels guard body :: rest =>
    (inScopeIf own ((caseLabels selector labels).seq ((exprType? guard).discard.seq (stmt body)))).seq
      (switchCases selector own rest)

theorem caseLabels (selector : JavaType) : ∀ labels : List CaseLabel,
    Resolve.Balanced (Resolve.caseLabels selector labels)
  | [] => pure ()
  | .default :: rest => caseLabels selector rest
  | .expr value :: rest => (caseLabel selector value (denote value).discard).seq (caseLabels selector rest)
  | .pattern type name :: rest =>
    (typeRef type).bind fun _ => (declareLocal name .localVariable _ _).seq (caseLabels selector rest)

theorem typeDecl {find : Resolve (Option (ClassInfo × List (String × Symbol)))} (found : Resolve.Balanced find) :
    ∀ d : TypeDecl, Resolve.Balanced (Resolve.typeDecl find d)
  | ⟨kind, mods, name, params, extending, implementing, permitting, components, constants, body, doc,
      range⟩ => by
    rw [Resolve.typeDecl_eq]
    apply found.bind
    intro known
    cases known with
    | none => exact pure ()
    | some known =>
      apply (modifiers mods).seq
      apply setting.bind
      intro s
      apply (define name known.1.symbol _ doc []).seq
      exact typeBody known.1 known.2 (fun symbols => typeParams symbols params) (typeRefs extending)
        (typeRefs implementing) (typeRefs permitting) (enumConstants known.1 constants)
        (recordComponents known.1 components) (members (.start known.1) body)

theorem typeParams : ∀ (symbols : List (Option Symbol)) (ps : List TypeParam),
    Resolve.Balanced (Resolve.typeParams symbols ps)
  | [], [] => pure ()
  | _ :: _, [] => pure ()
  | [], _ :: _ => pure ()
  | none :: symbols, ⟨_, _, _⟩ :: rest => typeParams symbols rest
  | some symbol :: symbols, ⟨as, name, bounds⟩ :: rest =>
    (annotations as).seq ((define name symbol _ none []).seq ((typeRefs bounds).discard.seq
      (typeParams symbols rest)))

theorem enumConstants (c : ClassInfo) : ∀ ks : List EnumConstant, Resolve.Balanced (Resolve.enumConstants c ks)
  | [] => pure ()
  | ⟨as, name, args, body, doc⟩ :: rest => by
    apply (annotations as).seq
    apply (nameOrReport name _).bind
    intro found
    cases found with
    | none => exact enumConstants c rest
    | some symbol =>
      apply (define name symbol _ doc []).seq
      have arguments := (exprList? args).discard
      have made : Resolve.Balanced (Resolve.createdBody ⟨c.selfType, some c⟩ name.range body) :=
        createdBody _ name.range body
      exact (inBody (some symbol) (arguments.seq made.discard)).seq (enumConstants c rest)

theorem recordComponents (c : ClassInfo) : ∀ ps : List Param, Resolve.Balanced (Resolve.recordComponents c ps)
  | [] => pure ()
  | ⟨mods, type, _, name, _⟩ :: rest => by
    apply (modifiers mods).seq
    apply (nameOrReport name _).bind
    intro found
    have later := (typeRef type).discard.seq (recordComponents c rest)
    cases found with
    | none => exact later
    | some symbol => exact setting.bind fun _ => (define name symbol _ none []).seq later

theorem members (names : MemberNames) : ∀ ms : List Member, Resolve.Balanced (Resolve.members names ms)
  | [] => pure ()
  | m :: rest => (member names m).seq (members (names.after m) rest)

theorem member (names : MemberNames) : ∀ m : Member, Resolve.Balanced (Resolve.member names m)
  | .field ⟨mods, type, declarators⟩ doc _ =>
    (modifiers mods).seq ((typeRef type).discard.seq (fieldDeclarators names mods type doc declarators))
  | .method m => methodDecl names.info _ m
  | .initializer _ body => initializer (blockBody body)
  | .type d => typeDecl (knownClass d _) d

theorem fieldDeclarators (names : MemberNames) (mods : Modifiers) (type : TypeRef) (doc : Option Comment) :
    ∀ ds : List Declarator, Resolve.Balanced (Resolve.fieldDeclarators names mods type doc ds)
  | [] => pure ()
  | ⟨name, _, init⟩ :: rest => by
    apply (nameOrReport name _).bind
    intro found
    have later := fieldDeclarators names mods type doc rest
    cases found with
    | none => exact later
    | some symbol =>
      exact setting.bind fun _ => (define name symbol _ doc []).seq ((fieldInit symbol init).seq later)

theorem fieldInit {r : Progress → Progress → Prop} [Progress.Frame r] (symbol : Symbol) : ∀ init : Option Expr,
    Moves r (Resolve.fieldInit symbol init)
  | none => pure ()
  | some e => inBody (some symbol) (denote e).discard

theorem methodDecl (c : ClassInfo) (symbol : Except NamingError Symbol) : ∀ m : MethodDecl,
    Resolve.Balanced (Resolve.methodDecl c symbol m)
  | ⟨mods, params, returns, name, parameters, throwing, body, defaultValue, compact, doc, range⟩ => by
    apply (nameOrReport name symbol).bind
    intro found
    cases found with
    | none => exact pure ()
    | some method =>
      apply (modifiers mods).seq
      apply (overriddenBy c method _).bind
      intro overrides
      apply setting.bind
      intro s
      apply (define name method _ doc overrides).seq
      apply inBody (some method)
      apply (methodTypeParams method params).bind
      intro symbols
      exact (typeParams symbols params).seq ((typeRef? returns).discard.seq ((methodParams parameters).seq
        ((typeRefs throwing).discard.seq ((blockBody? body).seq (exprType? defaultValue).discard))))

theorem methodParams : ∀ ps : List Param, Resolve.Balanced (Resolve.methodParams ps)
  | [] => pure ()
  | ⟨mods, type, _, name, _⟩ :: rest =>
    (modifiers mods).seq ((typeRef type).bind fun _ => setting.bind fun _ =>
      (declareLocal name .parameter _ _).seq (methodParams rest))

end

/-! What binds nothing where it stands. -/

/-- Where there is an arrow, each case of a `switch` has a scope of its own. -/
theorem switchCases_own (selector : JavaType) (cases : List SwitchCase) :
    Resolve.Sealed (Resolve.switchCases selector true cases) := by
  induction cases with
  | nil => exact pure ()
  | cons c rest ih =>
    cases c with
    | group labels guard body =>
      have inner := (caseLabels selector labels).seq ((exprType? guard).discard.seq (stmts body))
      exact (inScope .block inner).seq ih
    | rule labels guard body =>
      have inner := (caseLabels selector labels).seq ((exprType? guard).discard.seq (stmt body))
      exact (inScope .block inner).seq ih

theorem typeBody (c : ClassInfo) (vars : List (String × Symbol)) (d : TypeDecl) :
    Resolve.Sealed (Resolve.typeBody c vars d) :=
  .typeBody c vars (fun symbols => typeParams symbols d.typeParams) (typeRefs d.extending)
    (typeRefs d.implementing) (typeRefs d.permitting) (enumConstants c d.constants)
    (recordComponents c d.components) (members (.start c) d.members)

/-- The cases of a `switch`, in one scope or in many. -/
theorem switchBlock (selector : JavaType) (cases : List SwitchCase) :
    Resolve.Sealed (Resolve.switchScope cases
      (Resolve.switchCases selector (cases.any Resolve.hasArrow) cases)) := by
  unfold Resolve.switchScope
  cases cases.any Resolve.hasArrow with
  | true => exact switchCases_own selector cases
  | false => exact inScope .block (switchCases selector false cases)

theorem topTypes (package : String) (ds : List TypeDecl) : Resolve.Balanced (Resolve.topTypes package ds) := by
  induction ds with
  | nil => exact pure ()
  | cons d rest ih => exact (typeDecl (knownClass d _) d).seq ih

theorem importDecls (is : List ImportDecl) : Resolve.Balanced (Resolve.importDecls is) := by
  induction is with
  | nil => exact pure ()
  | cons i rest ih => exact (importDecl i).seq ih

/-- At the end of a file everything is closed. -/
theorem unit (u : CompilationUnit) : Resolve.Sealed (Resolve.unit u) := by
  apply environment.bind
  intro env
  have rest := (importDecls u.imports).seq (topTypes u.packageName u.types)
  apply withScopes fun _ => rfl
  cases u.package with
  | none => exact rest
  | some p => exact (annotations p.annotations).seq rest

end Visit

open Resolve in
/-- A part of a tree closes all that it opens and binds names at most in the scope in which it stands; a construct
with a scope of its own binds nothing there. -/
theorem scope_discipline :
    ((∀ e, Balanced (denote e)) ∧
      (∀ s, Balanced (stmt s)) ∧
      (∀ b, Balanced (blockBody b)) ∧
      (∀ names m, Balanced (member names m)) ∧
      (∀ d, Balanced (typeDecl (localClass d) d)) ∧
      (∀ d name, Balanced (typeDecl (knownClass d name) d))) ∧
    (∀ b, Sealed (blockBody b)) ∧
    (∀ s, Sealed (inScope .block (stmt s))) ∧
    (∀ init condition update body, Sealed (stmt (.forLoop init condition update body))) ∧
    (∀ decl iterable body, Sealed (stmt (.forEach decl iterable body))) ∧
    (∀ resources body catches closing, Sealed (stmt (.trying resources body catches closing))) ∧
    (∀ cs, Sealed (catchClauses cs)) ∧
    (∀ selector cases, Sealed (switchScope cases (switchCases selector (cases.any hasArrow) cases))) ∧
    (∀ params body range, Sealed (denote (.lambda params body range))) ∧
    (∀ params body range, Sealed (denote (.blockLambda params body range))) ∧
    (∀ names isStatic body, Sealed (member names (.initializer isStatic body))) ∧
    (∀ symbol init, Sealed (fieldInit symbol init)) ∧
    (∀ c vars d, Sealed (typeBody c vars d)) ∧
    (∀ created span body, Sealed (createdBody created span body)) := by
  refine ⟨⟨Visit.denote, Visit.stmt, Visit.blockBody, Visit.member, ?_, ?_⟩,
    Visit.blockBody, ?_, ?_, ?_, ?_, Visit.catchClauses, Visit.switchBlock, ?_, ?_, ?_, Visit.fieldInit,
    Visit.typeBody, Visit.createdBody⟩
  · exact fun d => Visit.typeDecl (Moves.localClass d) d
  · exact fun d name => Visit.typeDecl (Moves.knownClass d name) d
  · exact fun s => .branch (Visit.stmt s)
  · exact fun init condition update body =>
      .forLoop (Visit.stmts init) (Visit.exprType? condition) (Visit.exprs update) (Visit.stmt body)
  · exact fun decl iterable body =>
      .forEach (Visit.denote iterable) (fun type => Visit.varDecl type decl) (Visit.stmt body)
  · exact fun resources body catches closing =>
      .trying (Visit.stmts resources) (Visit.blockBody body) (Visit.catchClauses catches)
        (Visit.blockBody? closing)
  · exact fun params body _ => .lambda (Visit.lambdaParams params) (Visit.denote body)
  · exact fun params body _ => .blockLambda (Visit.lambdaParams params) (Visit.blockBody body)
  · exact fun _ _ body => .initializer (Visit.blockBody body)

end JavaIndex
