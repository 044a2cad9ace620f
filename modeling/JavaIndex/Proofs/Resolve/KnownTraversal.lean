import JavaIndex.Proofs.Resolve.KnownClasses
import JavaIndex.Resolve.Unit

/-! The way through a whole tree, by induction on the tree: wherever all that the resolver comes by is known, it
is so after each part of the tree too, and all mentions in that part are nested. -/
namespace JavaIndex

variable {given : Symbol → Prop}

namespace Upholds

variable {α : Type}

theorem typeOf {x : Resolve Receiver} (h : Upholds given x fun r => r.Known given) :
    KeepsKnown given (Resolve.typeOf x) :=
  h.bindPure fun _ _ => trivial

theorem valueOf {x : Resolve JavaType} (h : KeepsKnown given x) :
    Upholds given (Resolve.valueOf x) fun r => r.Known given :=
  h.bindPure fun _ _ => fun _ h => nomatch h

/-- An answer made of two answers. -/
theorem both {β γ : Type} {x : Resolve α} {y : Resolve β} {f : α → β → γ} (first : KeepsKnown given x)
    (second : KeepsKnown given y) :
    KeepsKnown given (x >>= fun a => y >>= fun b => Pure.pure (f a b)) :=
  first.bind fun _ _ => second.bindPure fun _ _ => trivial

/-- An answer that does not matter. -/
theorem answering {β : Type} {x : Resolve α} {f : α → β} (h : KeepsKnown given x) :
    KeepsKnown given (x >>= fun a => Pure.pure (f a)) :=
  h.bindPure fun _ _ => trivial

theorem switchScope {cases : List SwitchCase} {x : Resolve α} (h : KeepsKnown given x) :
    KeepsKnown given (Resolve.switchScope cases x) :=
  inScopeIf _ h

end Upholds

namespace KnownTraversal

open Upholds

mutual

theorem typeRef {given : Symbol → Prop} : ∀ type : TypeRef, KeepsKnown given (Resolve.typeRef type)
  | .primitive _ _ => pure trivial
  | .array element _ _ => (typeRef element).answering
  | .named segments _ => by
    unfold Resolve.typeRef
    split
    · exact pure trivial
    · exact (namedType _ true (segmentAnnotations segments) (segmentArgs segments)).trivially.answering

theorem typeRefs {given : Symbol → Prop} : ∀ types : List TypeRef, KeepsKnown given (Resolve.typeRefs types)
  | [] => pure trivial
  | t :: rest => (typeRef t).both (typeRefs rest)

theorem typeRef? {given : Symbol → Prop} : ∀ type : Option TypeRef, KeepsKnown given (Resolve.typeRef? type)
  | none => pure trivial
  | some t => typeRef t

theorem segmentAnnotations {given : Symbol → Prop} : ∀ segments : List (TypeSegment Annotation),
    KeepsKnown given (Resolve.segmentAnnotations segments)
  | [] => pure trivial
  | ⟨as, _, _⟩ :: rest => (annotations as).seq (segmentAnnotations rest)

theorem segmentArgs {given : Symbol → Prop} : ∀ segments : List (TypeSegment Annotation),
    KeepsKnown given (Resolve.segmentArgs segments)
  | [] => pure trivial
  | ⟨_, _, args⟩ :: rest => (typeArgList args).both (segmentArgs rest)

theorem typeArgList {given : Symbol → Prop} : ∀ args : Option (List (TypeArg Annotation)),
    KeepsKnown given (Resolve.typeArgList args)
  | none => pure trivial
  | some args => typeArgs args

theorem typeArgs {given : Symbol → Prop} : ∀ args : List (TypeArg Annotation),
    KeepsKnown given (Resolve.typeArgs args)
  | [] => pure trivial
  | arg :: rest => (typeArg arg).both (typeArgs rest)

theorem typeArg {given : Symbol → Prop} : ∀ arg : TypeArg Annotation, KeepsKnown given (Resolve.typeArg arg)
  | .type t => typeRef t
  | .wildcard _ => pure trivial
  | .bounded _ t _ => (typeRef t).answering

theorem annotations {given : Symbol → Prop} : ∀ as : List Annotation,
    KeepsKnown given (Resolve.annotations as)
  | [] => pure trivial
  | a :: rest => (annotationUse a).seq (annotations rest)

theorem annotationUse {given : Symbol → Prop} : ∀ a : Annotation,
    KeepsKnown given (Resolve.annotationUse a)
  | ⟨name, args, _⟩ => (annotationType name).bind fun _ known => annotationArgs args known

theorem annotationArgs {given : Symbol → Prop} {c : Option ClassInfo} : ∀ args : List AnnotationArg,
    (∀ c', c = some c' → c'.Known given) → KeepsKnown given (Resolve.annotationArgs c args)
  | [], _ => pure trivial
  | ⟨name, value⟩ :: rest, known =>
    (annotationElement known name).seq ((denote value).discard.seq (annotationArgs rest known))

theorem modifiers {given : Symbol → Prop} : ∀ mods : Modifiers, KeepsKnown given (Resolve.modifiers mods)
  | ⟨_, as⟩ => annotations as

theorem exprs {given : Symbol → Prop} : ∀ es : List Expr, KeepsKnown given (Resolve.exprs es)
  | [] => pure trivial
  | e :: rest => (denote e).typeOf.both (exprs rest)

theorem exprList? {given : Symbol → Prop} : ∀ es : Option (List Expr), KeepsKnown given (Resolve.exprList? es)
  | none => pure trivial
  | some es => exprs es

theorem exprType? {given : Symbol → Prop} : ∀ e : Option Expr, KeepsKnown given (Resolve.exprType? e)
  | none => pure trivial
  | some e => (denote e).typeOf

theorem denote? {given : Symbol → Prop} : ∀ e : Option Expr,
    Upholds given (Resolve.denote? e) fun found => ∀ r, found = some r → r.Known given
  | none => pure fun _ h => nomatch h
  | some e => (denote e).bindPure fun _ known _ same => Option.some.inj same ▸ known

theorem denote {given : Symbol → Prop} : ∀ e : Expr,
    Upholds given (Resolve.denote e) fun r => r.Known given
  | .literal _ _ => pure fun _ h => nomatch h
  | .name name => nameChain [name]
  | .field target name _ => by
    change Upholds given (match target.nameChain? with
      | some names => Resolve.nameChain (names ++ [name])
      | none => Resolve.valueOf (do Resolve.selectMember (← Resolve.denote target) name)) _
    split
    · exact nameChain _
    · exact ((denote target).bind fun r _ => selectMember r name).valueOf
  | .call target types name args _ =>
    ((typeRefs types).discard.seq ((denote? target).bind fun r _ =>
      (calledMethods r name.text).bind fun _ known =>
        (exprs args).bind fun types _ => callMethod name known types)).valueOf
  | .delegate kind keyword qualifier args _ =>
    ((denote? qualifier).discard.seq ((exprs args).bind fun types _ =>
      (callDelegate kind keyword types).answering)).valueOf
  | .create _ (.primitive _ _) args _ _ => ((exprs args).bind fun _ _ => pure trivial).valueOf
  | .create _ (.array element _ _) args _ _ =>
    ((exprs args).bind fun _ _ => (typeRef element).answering).valueOf
  | .create qualifier (.named segments _) args body range => by
    refine ((exprs args).bind fun types _ => ?_).valueOf
    dsimp only
    split
    · exact pure trivial
    · rename_i name last
      have finish (created : NamedType) (known : created.Known given) :=
        (callConstructor name known types).seq (createdBody created range body)
      refine (denote? qualifier).bind fun outer _ => ?_
      cases outer with
      | some outer => exact (innerClass outer name).bind finish
      | none => exact (namedType _ false (segmentAnnotations segments) (segmentArgs segments)).bind finish
  | .createArray element sizes init _ =>
    ((typeRef element).bind fun _ _ => (exprs sizes).discard.seq (exprList? init).discard.answering).valueOf
  | .arrayInit elements _ => (exprs elements).discard.answering.valueOf
  | .index array index _ =>
    ((denote array).typeOf.bind fun _ _ => (denote index).discard.answering).valueOf
  | .unary _ operand _ => (denote operand).typeOf.answering.valueOf
  | .binary _ left right _ => ((denote left).typeOf.both (denote right).typeOf).valueOf
  | .assign target value _ =>
    ((denote target).typeOf.bind fun _ _ => (denote value).discard.answering).valueOf
  | .conditional condition thenValue elseValue _ =>
    ((denote condition).discard.seq ((denote thenValue).typeOf.both (denote elseValue).typeOf)).valueOf
  | .cast type bounds value _ =>
    ((typeRef type).bind fun _ _ => (typeRefs bounds).discard.seq (denote value).discard.answering).valueOf
  | .instanceOf value type binding _ => by
    refine ((denote value).discard.seq ((typeRef type).bind fun checked _ => ?_)).valueOf
    cases binding with
    | none => exact pure trivial
    | some name => exact (declareLocal name (by decide) checked _).answering
  | .lambda params body _ =>
    (inScope .block ((lambdaParams params).seq (denote body).discard)).answering.valueOf
  | .blockLambda params body _ =>
    (inScope .block ((lambdaParams params).seq (blockBody body))).answering.valueOf
  | .methodRef target name _ =>
    ((denote target).bind fun _ known => (mentionMethod known name).answering).valueOf
  | .typeMethodRef target name _ =>
    ((typeRef target).bind fun type _ => (receiverOfType type).bind fun _ known =>
      (mentionMethod known name).answering).valueOf
  | .this qualifier _ => by
    refine ((denote? qualifier).bind fun found _ => ?_).valueOf
    cases found with
    | none => exact thisType
    | some outer => exact pure trivial
  | .super qualifier _ => (denote? qualifier).bind fun _ known => superOf known
  | .classLiteral type _ => (typeRef type).discard.answering.valueOf
  | .paren inner _ => (denote inner).typeOf.valueOf
  | .switching selector cases _ =>
    ((denote selector).typeOf.bind fun type _ =>
      (switchScope (switchCases type _ cases)).answering).valueOf
  | .annotated a => (annotationUse a).answering.valueOf

theorem lambdaParams {given : Symbol → Prop} : ∀ params : List LambdaParam,
    KeepsKnown given (Resolve.lambdaParams params)
  | [] => pure trivial
  | ⟨mods, type, name⟩ :: rest =>
    (modifiers mods).seq ((typeRef? type).bind fun _ _ => setting.bind fun _ _ =>
      (declareLocal name (by decide) _ _).seq (lambdaParams rest))

theorem createdBody {given : Symbol → Prop} (created : NamedType) (span : Span) :
    ∀ body : Option (List Member), KeepsKnown given (Resolve.createdBody created span body)
  | none => pure trivial
  | some body => by
    refine (unnamedClass created.info created.type body span).bind fun found described => ?_
    cases found with
    | none => exact pure trivial
    | some c =>
      obtain ⟨ofClass, unnamed⟩ := described c rfl
      exact (inUnnamed unnamed (inClass ofClass (by simp) (members (.start c) ofClass body))).answering

theorem blockBody {given : Symbol → Prop} : ∀ b : Block, KeepsKnown given (Resolve.blockBody b)
  | ⟨body, _⟩ => inScope .block (stmts body)

theorem blockBody? {given : Symbol → Prop} : ∀ b : Option Block, KeepsKnown given (Resolve.blockBody? b)
  | none => pure trivial
  | some b => blockBody b

theorem stmts {given : Symbol → Prop} : ∀ ss : List Stmt, KeepsKnown given (Resolve.stmts ss)
  | [] => pure trivial
  | s :: rest => (stmt s).seq (stmts rest)

theorem stmt {given : Symbol → Prop} : ∀ s : Stmt, KeepsKnown given (Resolve.stmt s)
  | .locals decl => varDecl none decl
  | .localType decl => typeDecl (localClass decl) decl
  | .expr value => (denote value).discard
  | .block body => blockBody body
  | .ifThen condition thenBranch => (denote condition).discard.seq (inScope .block (stmt thenBranch))
  | .ifElse condition thenBranch elseBranch =>
    (denote condition).discard.seq ((inScope .block (stmt thenBranch)).seq
      (inScope .block (stmt elseBranch)))
  | .whileLoop condition body => (denote condition).discard.seq (inScope .block (stmt body))
  | .doLoop body condition => (inScope .block (stmt body)).seq (denote condition).discard
  | .forLoop init condition update body =>
    inScope .block ((stmts init).seq ((exprType? condition).discard.seq ((exprs update).discard.seq
      (inScope .block (stmt body)))))
  | .forEach decl iterable body =>
    inScope .block ((denote iterable).typeOf.bind fun _ _ =>
      (varDecl _ decl).seq (inScope .block (stmt body)))
  | .returning value => (exprType? value).discard
  | .throwing value => (denote value).discard
  | .yielding value => (denote value).discard
  | .breaking _ => pure trivial
  | .continuing _ => pure trivial
  | .trying resources body catches closing =>
    (inScope .block ((stmts resources).seq (blockBody body))).seq
      ((catchClauses catches).seq (blockBody? closing))
  | .switching selector cases _ =>
    (denote selector).typeOf.bind fun type _ => switchScope (switchCases type _ cases)
  | .synchronized lock body => (denote lock).discard.seq (blockBody body)
  | .labeled _ body => stmt body
  | .asserting condition message => (denote condition).discard.seq (exprType? message).discard
  | .empty => pure trivial

theorem varDecl {given : Symbol → Prop} (element : Option JavaType) : ∀ d : VarDecl,
    KeepsKnown given (Resolve.varDecl element d)
  | ⟨mods, type, declarators⟩ =>
    (modifiers mods).seq ((typeRef type).bind fun _ _ => varDeclarators mods type _ _ declarators)

theorem varDeclarators {given : Symbol → Prop} (mods : Modifiers) (type : TypeRef) (declared : Option JavaType)
    (inferred : Bool) : ∀ ds : List Declarator,
    KeepsKnown given (Resolve.varDeclarators mods type declared inferred ds)
  | [] => pure trivial
  | ⟨name, _, init⟩ :: rest =>
    setting.bind fun _ _ => (declareVariable name _ _ (exprType? init)).seq
      (varDeclarators mods type declared inferred rest)

theorem catchClauses {given : Symbol → Prop} : ∀ cs : List CatchClause,
    KeepsKnown given (Resolve.catchClauses cs)
  | [] => pure trivial
  | ⟨mods, types, name, body⟩ :: rest =>
    (inScope .block ((modifiers mods).seq ((typeRefs types).bind fun _ _ =>
      (declareLocal name (by decide) _ _).seq (blockBody body)))).seq (catchClauses rest)

theorem switchCases {given : Symbol → Prop} (selector : JavaType) (own : Bool) : ∀ cases : List SwitchCase,
    KeepsKnown given (Resolve.switchCases selector own cases)
  | [] => pure trivial
  | .group labels guard body :: rest =>
    (inScopeIf own ((caseLabels selector labels).seq ((exprType? guard).discard.seq (stmts body)))).seq
      (switchCases selector own rest)
  | .rule labels guard body :: rest =>
    (inScopeIf own ((caseLabels selector labels).seq ((exprType? guard).discard.seq (stmt body)))).seq
      (switchCases selector own rest)

theorem caseLabels {given : Symbol → Prop} (selector : JavaType) : ∀ labels : List CaseLabel,
    KeepsKnown given (Resolve.caseLabels selector labels)
  | [] => pure trivial
  | .default :: rest => caseLabels selector rest
  | .expr value :: rest => (caseLabel selector value (denote value).discard).seq (caseLabels selector rest)
  | .pattern type name :: rest =>
    (typeRef type).bind fun _ _ => (declareLocal name (by decide) _ _).seq (caseLabels selector rest)

theorem typeDecl {given : Symbol → Prop} {find : Resolve (Option (ClassInfo × List (String × Symbol)))}
    (found : Upholds given find fun found => ∀ r, found = some r → KnownWithVars given r) : ∀ d : TypeDecl,
    KeepsKnown given (Resolve.typeDecl find d)
  | ⟨kind, mods, name, params, extending, implementing, permitting, components, constants, body, doc,
      range⟩ => by
    refine found.bind fun r known => ?_
    cases r with
    | none => exact pure trivial
    | some r =>
      obtain ⟨c, vars⟩ := r
      obtain ⟨ofClass, varsKnown⟩ := known _ rfl
      refine (modifiers mods).seq (setting.bind fun s _ => ?_)
      refine declared name ofClass.symbol _ doc [] (inClass ofClass varsKnown ?_)
      exact (typeParams _ params (boundTypeParams varsKnown params)).seq ((typeRefs extending).discard.seq
        ((typeRefs implementing).discard.seq ((typeRefs permitting).discard.seq
          ((enumConstants ofClass constants).seq ((recordComponents ofClass components).seq
            (members (.start c) ofClass body))))))

theorem typeParams {given : Symbol → Prop} : ∀ (symbols : List (Option Symbol)) (ps : List TypeParam),
    (∀ symbol ∈ symbols, ∀ s, symbol = some s → s.Known given) →
      KeepsKnown given (Resolve.typeParams symbols ps)
  | [], [], _ => pure trivial
  | _ :: _, [], _ => pure trivial
  | [], _ :: _, _ => pure trivial
  | none :: symbols, ⟨_, _, _⟩ :: rest, known =>
    typeParams symbols rest fun x hx => known x (List.mem_cons_of_mem _ hx)
  | some symbol :: symbols, ⟨as, name, bounds⟩ :: rest, known =>
    (annotations as).seq ((define name (known _ List.mem_cons_self symbol rfl) _ none []).seq
      ((typeRefs bounds).discard.seq
        (typeParams symbols rest fun x hx => known x (List.mem_cons_of_mem _ hx))))

theorem enumConstants {given : Symbol → Prop} {c : ClassInfo} (known : c.Known given) :
    ∀ ks : List EnumConstant, KeepsKnown given (Resolve.enumConstants c ks)
  | [] => pure trivial
  | ⟨as, name, args, body, doc⟩ :: rest => by
    refine (annotations as).seq ((nameOrReport name (field known _ _)).bind fun symbol named => ?_)
    cases symbol with
    | none => exact enumConstants known rest
    | some symbol =>
      have arguments : KeepsKnown given (Resolve.exprList? args) := exprList? args
      have inner := inBody (some symbol) (arguments.discard.seq
        (createdBody ⟨c.selfType, some c⟩ name.range body).discard)
      exact grouped ((declared name (named symbol rfl) _ doc [] inner).seq (enumConstants known rest))

theorem recordComponents {given : Symbol → Prop} {c : ClassInfo} (known : c.Known given) :
    ∀ ps : List Param, KeepsKnown given (Resolve.recordComponents c ps)
  | [] => pure trivial
  | ⟨mods, type, _, name, _⟩ :: rest => by
    refine (modifiers mods).seq ((nameOrReport name (field known _ _)).bind fun symbol named => ?_)
    have typed : KeepsKnown given (Resolve.typeRef type) := typeRef type
    have later := typed.discard.seq (recordComponents known rest)
    cases symbol with
    | none => exact later
    | some symbol => exact setting.bind fun _ _ => (define name (named symbol rfl) _ none []).seq later

theorem members {given : Symbol → Prop} (names : MemberNames) (known : names.info.Known given) :
    ∀ ms : List Member, KeepsKnown given (Resolve.members names ms)
  | [] => pure trivial
  | m :: rest => by
    have same : (names.after m).info = names.info := by cases m <;> rfl
    exact (member names known m).seq (members (names.after m) (same ▸ known) rest)

theorem member {given : Symbol → Prop} (names : MemberNames) (known : names.info.Known given) : ∀ m : Member,
    KeepsKnown given (Resolve.member names m)
  | .field ⟨mods, type, declarators⟩ doc _ =>
    (modifiers mods).seq ((typeRef type).discard.seq (fieldDeclarators names known mods type doc declarators))
  | .method m => methodDecl names.info _ (callable known m) m
  | .initializer _ body => inBody none (blockBody body)
  | .type d => typeDecl (knownClass d _) d

theorem fieldDeclarators {given : Symbol → Prop} (names : MemberNames) (known : names.info.Known given)
    (mods : Modifiers) (type : TypeRef) (doc : Option Comment) : ∀ ds : List Declarator,
    KeepsKnown given (Resolve.fieldDeclarators names mods type doc ds)
  | [] => pure trivial
  | ⟨name, _, init⟩ :: rest => by
    refine (nameOrReport name (field known names.seen _)).bind fun symbol named => ?_
    have later := fieldDeclarators names known mods type doc rest
    cases symbol with
    | none => exact later
    | some symbol =>
      exact setting.bind fun _ _ => grouped ((fieldInit name (named symbol rfl) _ doc init).seq later)

theorem fieldInit {given : Symbol → Prop} (name : Ident) {symbol : Symbol} (known : symbol.Known given)
    (signature : String) (doc : Option Comment) : ∀ init : Option Expr,
    KeepsKnown given (Resolve.define name symbol signature doc [] >>= fun _ => Resolve.fieldInit symbol init)
  | none => define name known signature doc []
  | some e => declared name known signature doc [] (inBody (some symbol) (denote e).discard)

theorem methodDecl {given : Symbol → Prop} (c : ClassInfo) (symbol : Except NamingError Symbol)
    (known : ∀ s, symbol = .ok s → s.Known given) : ∀ m : MethodDecl,
    KeepsKnown given (Resolve.methodDecl c symbol m)
  | ⟨mods, params, returns, name, parameters, throwing, body, defaultValue, compact, doc, range⟩ => by
    refine (nameOrReport name known).bind fun named made => ?_
    cases named with
    | none => exact pure trivial
    | some method =>
      refine (modifiers mods).seq ((overriddenBy c method _).bind fun overrides _ => setting.bind fun s _ => ?_)
      refine declared name (made method rfl) _ doc overrides (inBody (some method) ?_)
      refine (methodTypeParams method params).bind fun symbols bound => ?_
      exact (typeParams symbols params bound).seq ((typeRef? returns).discard.seq
        ((methodParams parameters).seq ((typeRefs throwing).discard.seq
          ((blockBody? body).seq (exprType? defaultValue).discard))))

theorem methodParams {given : Symbol → Prop} : ∀ ps : List Param, KeepsKnown given (Resolve.methodParams ps)
  | [] => pure trivial
  | ⟨mods, type, _, name, _⟩ :: rest =>
    (modifiers mods).seq ((typeRef type).bind fun _ _ => setting.bind fun _ _ =>
      (declareLocal name (by decide) _ _).seq (methodParams rest))

end

theorem topTypes (package : String) (ds : List TypeDecl) : KeepsKnown given (Resolve.topTypes package ds) := by
  induction ds with
  | nil => exact pure trivial
  | cons d rest ih => exact (typeDecl (knownClass d _) d).seq ih

theorem importDecls (is : List ImportDecl) : KeepsKnown given (Resolve.importDecls is) := by
  induction is with
  | nil => exact pure trivial
  | cons i rest ih => exact (importDecl i).seq ih

theorem unit (u : CompilationUnit) : KeepsKnown given (Resolve.unit u) := by
  have imported : KeepsKnown given (Resolve.importDecls u.imports) := importDecls u.imports
  have rest := imported.seq (topTypes u.packageName u.types)
  refine environment.bind fun env _ => withScopes (fun _ known => known.push .package _) ?_
  cases u.package with
  | none => exact rest
  | some p => exact (annotations p.annotations).seq rest

end KnownTraversal
end JavaIndex
