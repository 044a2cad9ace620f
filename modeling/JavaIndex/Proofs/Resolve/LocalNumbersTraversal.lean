import JavaIndex.Proofs.Resolve.LocalNumbersSteps
import JavaIndex.Proofs.Resolve.Units

/-! The way through a whole tree once more, for the numbers of local declarations: each part of the tree tells apart
what it defines, as long as numbers go on, and each of the bodies in it does so in any case. -/
namespace JavaIndex

variable {w : World} {since : Moment} {ns ms : List Node}

theorem SegmentSound.unasked {t : Moment} (lax : w.lax) (g : Segment) : SegmentSound w t g :=
  ⟨fun _ _ => .unasked lax, fun c _ => .unasked lax c⟩

namespace Tallies

section

variable (loose : w.Loose)

include loose

theorem namedType {names : List Ident} {mentionClass : Bool} {annotations : Resolve Unit}
    {args : Resolve (List JavaType)} (onNames : Tallies w since ns [] annotations)
    (inBrackets : Tallies w since ms [] args) :
    Tallies w since (Nodes.mentions names ++ (ns ++ ms)) []
      (Resolve.namedType names mentionClass annotations args) := by
  rw [Resolve.namedType_eq]
  have path : Walks w since (Nodes.mentions names) (Resolve.typePath names)
      fun path t => ∀ g ∈ path, SegmentSound w t g := Walks.mentioning (Walks.typePath loose.grounded)
  refine after (Nodes.silent_mentions names) path fun path t le _ => (onNames.from_later le).seq fun u le' => ?_
  have mentioned (names : List Ident) (path : List Segment) : Tallies w u [] [] (Resolve.mentionPath names path) :=
    still (Walks.mentionPath names fun g _ => .unasked loose.lax g)
  have rest (v : Moment) (le'' : u ≤ v) : Tallies w v ms [] args := inBrackets.from_later ((le.trans le').trans le'')
  cases mentionClass with
  | true => exact (mentioned names path).seq fun v le'' => (rest v le'').answering
  | false => exact (mentioned _ (Resolve.withoutClass path)).seq fun v le'' => (rest v le'').answering

/-- A case of a `switch` may name a constant, which is then all that it holds. -/
theorem caseLabel (selector : JavaType) (label : Expr) {x : Resolve Unit}
    (h : Tallies w since (Nodes.expr label) [] x) :
    Tallies w since (Nodes.expr label) [] (Resolve.caseLabel selector label x) := by
  refine bind_nil (Walks.enumConstant loose.grounded selector label) fun found t le named => ?_
  split
  · rename_i name symbol
    obtain ⟨-, rfl⟩ := named _ rfl
    exact mentioning (Walks.silently (Walks.mentions_silent [name]) fun _ =>
      Walks.reference name.range (.unasked loose.lax))
  · exact h.from_later le

end

end Tallies

namespace LocalTraversal

open Tallies

mutual

theorem typeRef {w : World} (loose : w.Loose) {since : Moment} : ∀ type : TypeRef,
    Tallies w since (Nodes.typeRef type) [] (Resolve.typeRef type)
  | .primitive _ _ => Tallies.pure _
  | .array element _ _ => (typeRef loose element).answering
  | .named segments range => by
    have hold := Nodes.hold_typeRef (.named segments range)
    unfold Resolve.typeRef Nodes.typeRef at *
    split
    · rename_i isVar
      rw [if_pos isVar] at hold
      exact idle hold _
    · exact (Tallies.namedType loose (segmentAnnotations loose segments) (segmentArgs loose segments)).answering

theorem typeRefs {w : World} (loose : w.Loose) {since : Moment} : ∀ types : List TypeRef,
    Tallies w since (Nodes.typeRefs types) [] (Resolve.typeRefs types)
  | [] => Tallies.pure _
  | t :: rest => (typeRef loose t).both fun _ _ => typeRefs loose rest

theorem typeRef? {w : World} (loose : w.Loose) {since : Moment} : ∀ type : Option TypeRef,
    Tallies w since (Nodes.typeRef? type) [] (Resolve.typeRef? type)
  | none => Tallies.pure _
  | some t => typeRef loose t

theorem segmentAnnotations {w : World} (loose : w.Loose) {since : Moment} :
    ∀ segments : List (TypeSegment Annotation),
    Tallies w since (Nodes.segmentAnnotations segments) [] (Resolve.segmentAnnotations segments)
  | [] => Tallies.pure _
  | ⟨as, _, _⟩ :: rest => (annotations loose as).seq fun _ _ => segmentAnnotations loose rest

theorem segmentArgs {w : World} (loose : w.Loose) {since : Moment} : ∀ segments : List (TypeSegment Annotation),
    Tallies w since (Nodes.segmentArgs segments) [] (Resolve.segmentArgs segments)
  | [] => Tallies.pure _
  | ⟨_, _, args⟩ :: rest => (typeArgList loose args).both fun _ _ => segmentArgs loose rest

theorem typeArgList {w : World} (loose : w.Loose) {since : Moment} : ∀ args : Option (List (TypeArg Annotation)),
    Tallies w since (Nodes.typeArgList args) [] (Resolve.typeArgList args)
  | none => Tallies.pure _
  | some args => typeArgs loose args

theorem typeArgs {w : World} (loose : w.Loose) {since : Moment} : ∀ args : List (TypeArg Annotation),
    Tallies w since (Nodes.typeArgs args) [] (Resolve.typeArgs args)
  | [] => Tallies.pure _
  | arg :: rest => (typeArg loose arg).both fun _ _ => typeArgs loose rest

theorem typeArg {w : World} (loose : w.Loose) {since : Moment} : ∀ arg : TypeArg Annotation,
    Tallies w since (Nodes.typeArg arg) [] (Resolve.typeArg arg)
  | .type t => typeRef loose t
  | .wildcard _ => Tallies.pure _
  | .bounded _ t _ => (typeRef loose t).answering

theorem annotations {w : World} (loose : w.Loose) {since : Moment} : ∀ as : List Annotation,
    Tallies w since (Nodes.annotations as) [] (Resolve.annotations as)
  | [] => Tallies.pure _
  | a :: rest => (annotationUse loose a).seq fun _ _ => annotations loose rest

theorem annotationUse {w : World} (loose : w.Loose) {since : Moment} : ∀ a : Annotation,
    Tallies w since (Nodes.annotation a) [] (Resolve.annotationUse a)
  | ⟨name, args, _⟩ =>
    (mentioning (Walks.annotationType loose.grounded name)).bind fun _ _ _ => annotationArgs loose args

theorem annotationArgs {w : World} (loose : w.Loose) {since : Moment} {c : Option ClassInfo} :
    ∀ args : List AnnotationArg,
    Tallies w since (Nodes.annotationArgs args) [] (Resolve.annotationArgs c args)
  | [] => Tallies.pure _
  | ⟨name, value⟩ :: rest =>
    (mentioning (Walks.mentioning fun _ => Walks.annotationElement name fun c _ => .unasked loose.lax c)).seq
      fun _ _ => (denote loose value).discard.seq fun _ _ => annotationArgs loose rest

theorem modifiers {w : World} (loose : w.Loose) {since : Moment} : ∀ mods : Modifiers,
    Tallies w since (Nodes.modifiers mods) [] (Resolve.modifiers mods)
  | ⟨_, as⟩ => annotations loose as

theorem exprs {w : World} (loose : w.Loose) {since : Moment} : ∀ es : List Expr,
    Tallies w since (Nodes.exprs es) [] (Resolve.exprs es)
  | [] => Tallies.pure _
  | e :: rest => (denote loose e).typeOf.both fun _ _ => exprs loose rest

theorem exprList? {w : World} (loose : w.Loose) {since : Moment} : ∀ es : Option (List Expr),
    Tallies w since (Nodes.exprList? es) [] (Resolve.exprList? es)
  | none => Tallies.pure _
  | some es => exprs loose es

theorem exprType? {w : World} (loose : w.Loose) {since : Moment} : ∀ e : Option Expr,
    Tallies w since (Nodes.expr? e) [] (Resolve.exprType? e)
  | none => Tallies.pure _
  | some e => (denote loose e).typeOf

theorem denote? {w : World} (loose : w.Loose) {since : Moment} : ∀ e : Option Expr,
    Tallies w since (Nodes.expr? e) [] (Resolve.denote? e)
  | none => Tallies.pure _
  | some e => (denote loose e).answering

theorem denote {w : World} (loose : w.Loose) {since : Moment} : ∀ e : Expr,
    Tallies w since (Nodes.expr e) [] (Resolve.denote e)
  | .literal _ _ => Tallies.pure _
  | .name name => mentioning (Walks.nameChain loose.grounded [name])
  | .field target name range => by
    cases chain : target.nameChain? with
    | some names =>
      have whole : (Expr.field target name range).nameChain? = some (names ++ [name]) := by
        rw [Expr.nameChain?, chain]
        rfl
      rw [Nodes.expr_of_chain _ whole]
      simp only [Resolve.denote, chain]
      exact mentioning (Walks.nameChain loose.grounded (names ++ [name]))
    | none =>
      simp only [Resolve.denote, chain]
      exact ((denote loose target).bind fun r _ _ =>
        mentioning (Walks.mentioning fun _ => Walks.selectMember loose.grounded r name)).valueOf
  | .call target types name args _ =>
    ((typeRefs loose types).discard.seq fun _ _ => (denote? loose target).bind fun r _ _ =>
      bind_nil (Walks.calledMethods loose.grounded r name.text) fun _ _ _ _ =>
        (exprs loose args).bind fun types _ _ => mentioning (Walks.mentioning fun _ =>
          Walks.callMethod name types fun _ _ => .unasked loose.lax)).valueOf
  | .delegate kind keyword qualifier args _ =>
    ((denote? loose qualifier).discard.seq fun _ _ => (exprs loose args).bind fun types _ _ =>
      (mentioning (Walks.mentioning fun _ => Walks.callDelegate loose.grounded kind keyword types)).answering).valueOf
  | .create qualifier (.primitive keyword typeRange) args body range =>
    ((exprs loose args).bind fun _ _ _ => passing
      ((Nodes.hold_expr? qualifier).append (Nodes.hold_unnamedBody body)).hide (Tallies.pure _)).valueOf
  | .create qualifier (.array element dims typeRange) args body range =>
    ((exprs loose args).bind fun _ _ _ => passing
      ((Nodes.hold_expr? qualifier).append (Nodes.hold_unnamedBody body)).hide
        (typeRef loose element).answering).valueOf
  | .create none (.named [] typeRange) args body range =>
    ((exprs loose args).bind fun _ _ _ => idle (Nodes.Hold.nil.append (Nodes.hold_unnamedBody body)).hide _).valueOf
  | .create (some outer) (.named [] typeRange) args body range =>
    ((exprs loose args).bind fun _ _ _ =>
      idle ((Nodes.hold_expr outer).append (Nodes.hold_unnamedBody body)).hide _).valueOf
  | .create none (.named (first :: rest) typeRange) args body range => by
    obtain ⟨name, last⟩ : ∃ name, ((first :: rest).map TypeSegment.name).getLast? = some name :=
      ⟨_, List.getLast?_eq_some_getLast (by simp)⟩
    simp only [Nodes.expr, Resolve.denote, last, List.isEmpty_cons, Bool.false_eq_true, if_false]
    refine ((exprs loose args).bind fun types t _ => ?_).valueOf
    change Tallies w t _ _ (Resolve.namedType ((first :: rest).map TypeSegment.name) false
      (Resolve.segmentAnnotations (first :: rest)) (Resolve.segmentArgs (first :: rest)) >>= fun created =>
        Resolve.callConstructor name created types >>= fun _ => Resolve.createdBody created range body)
    exact (Tallies.namedType loose (segmentAnnotations loose (first :: rest))
      (segmentArgs loose (first :: rest))).bind fun created u _ =>
        (still (Walks.callConstructor name types fun c _ => .unasked loose.lax c)).seq fun _ _ =>
          createdBody loose created range body
  | .create (some outer) (.named (first :: rest) typeRange) args body range => by
    obtain ⟨name, last⟩ : ∃ name, ((first :: rest).map TypeSegment.name).getLast? = some name :=
      ⟨_, List.getLast?_eq_some_getLast (by simp)⟩
    simp only [Nodes.expr, Resolve.denote, last, List.isEmpty_cons, Bool.false_eq_true, if_false]
    refine ((exprs loose args).bind fun types t _ => ?_).valueOf
    change Tallies w t _ _ (Resolve.denote outer >>= fun r => Resolve.innerClass r name >>= fun created =>
      Resolve.callConstructor name created types >>= fun _ => Resolve.createdBody created range body)
    refine (denote loose outer).bind fun r u _ => skipping ((Nodes.Hold.mentions _).append
      ((Nodes.hold_segmentAnnotations (first :: rest)).append (Nodes.hold_segmentArgs (first :: rest)))).hide ?_
    exact (mentioning (Walks.mentioning fun _ => Walks.innerClass loose.grounded r name)).bind fun created _ _ =>
      (still (Walks.callConstructor name types fun c _ => .unasked loose.lax c)).seq fun _ _ =>
        createdBody loose created range body
  | .createArray element sizes init _ =>
    ((typeRef loose element).bind fun _ _ _ => (exprs loose sizes).discard.seq fun _ _ =>
      (exprList? loose init).discard.answering).valueOf
  | .arrayInit elements _ => (exprs loose elements).discard.answering.valueOf
  | .index array index _ =>
    ((denote loose array).typeOf.bind fun _ _ _ => (denote loose index).discard.answering).valueOf
  | .unary _ operand _ => (denote loose operand).typeOf.answering.valueOf
  | .binary _ left right _ =>
    ((denote loose left).typeOf.both fun _ _ => (denote loose right).typeOf).valueOf
  | .assign target value _ =>
    ((denote loose target).typeOf.bind fun _ _ _ => (denote loose value).discard.answering).valueOf
  | .conditional condition thenValue elseValue _ =>
    ((denote loose condition).discard.seq fun _ _ =>
      (denote loose thenValue).typeOf.both fun _ _ => (denote loose elseValue).typeOf).valueOf
  | .cast type bounds value _ =>
    ((typeRef loose type).bind fun _ _ _ => (typeRefs loose bounds).discard.seq fun _ _ =>
      (denote loose value).discard.answering).valueOf
  | .instanceOf value type binding _ => by
    refine ((denote loose value).discard.seq fun _ _ => (typeRef loose type).bind fun checked _ _ => ?_).valueOf
    cases binding with
    | none => exact Tallies.pure _
    | some name => exact (declareLocal loose name _ checked _).answering
  | .lambda params body _ =>
    (inScope loose ((lambdaParams loose params).seq fun _ _ => (denote loose body).discard)).answering.valueOf
  | .blockLambda params body _ =>
    (inScope loose ((lambdaParams loose params).seq fun _ _ => blockBody loose body)).answering.valueOf
  | .methodRef target name _ =>
    ((denote loose target).bind fun r _ _ => (mentioning (Walks.mentioning fun _ =>
      Walks.mentionMethod loose.grounded name (.unasked loose.lax r))).answering).valueOf
  | .typeMethodRef target name _ =>
    ((typeRef loose target).bind fun type _ _ =>
      bind_nil (Walks.receiverOfType loose.grounded fun _ _ => .inl loose.lax) fun r _ _ _ =>
        (mentioning (Walks.mentioning fun _ =>
          Walks.mentionMethod loose.grounded name (.unasked loose.lax r))).answering).valueOf
  | .this qualifier _ => by
    refine ((denote? loose qualifier).bind_last fun found _ _ => ?_).valueOf
    cases found with
    | none => exact still Walks.thisType
    | some outer => exact Tallies.pure _
  | .super qualifier _ => (denote? loose qualifier).bind_last fun found _ _ =>
    still (Walks.superOf found fun r _ => .unasked loose.lax r)
  | .classLiteral type _ => (typeRef loose type).discard.answering.valueOf
  | .paren inner _ => (denote loose inner).typeOf.valueOf
  | .switching selector cases _ =>
    ((denote loose selector).typeOf.bind fun type _ _ =>
      (Tallies.switchScope loose (switchCases loose type _ cases)).answering).valueOf
  | .annotated a => (annotationUse loose a).answering.valueOf

theorem lambdaParams {w : World} (loose : w.Loose) {since : Moment} : ∀ params : List LambdaParam,
    Tallies w since (Nodes.lambdaParams params) [] (Resolve.lambdaParams params)
  | [] => Tallies.pure _
  | ⟨mods, type, name⟩ :: rest =>
    (modifiers loose mods).seq fun _ _ => (typeRef? loose type).bind fun _ _ _ =>
      bind_nil Walks.readSetting fun _ _ _ _ => (declareLocal loose name _ _ _).seq fun _ _ => lambdaParams loose rest

theorem createdBody {w : World} (loose : w.Loose) {since : Moment} (created : NamedType) (span : Span) :
    ∀ body : Option (List Member),
    Tallies w since (Nodes.unnamedBody body) [] (Resolve.createdBody created span body)
  | none => Tallies.pure _
  | some body => Tallies.createdBody loose fun _ _ _ backed feasible =>
    members loose body (fun i s planned => feasible i s (.member planned)) backed.nested

theorem blockBody {w : World} (loose : w.Loose) {since : Moment} : ∀ b : Block,
    Tallies w since (Nodes.block b) [] (Resolve.blockBody b)
  | ⟨body, _⟩ => inScope loose (stmts loose body)

theorem blockBody? {w : World} (loose : w.Loose) {since : Moment} : ∀ b : Option Block,
    Tallies w since (Nodes.block? b) [] (Resolve.blockBody? b)
  | none => Tallies.pure _
  | some b => blockBody loose b

theorem stmts {w : World} (loose : w.Loose) {since : Moment} : ∀ ss : List Stmt,
    Tallies w since (Nodes.stmts ss) [] (Resolve.stmts ss)
  | [] => Tallies.pure _
  | s :: rest => (stmt loose s).seq fun _ _ => stmts loose rest

theorem stmt {w : World} (loose : w.Loose) {since : Moment} : ∀ s : Stmt,
    Tallies w since (Nodes.stmt s) [] (Resolve.stmt s)
  | .locals decl => varDecl loose none decl
  | .localType decl => Tallies.localType loose fun _ _ _ _ backed => typeDecl loose decl backed
  | .expr value => (denote loose value).discard
  | .block body => blockBody loose body
  | .ifThen condition thenBranch =>
    (denote loose condition).discard.seq fun _ _ => inScope loose (stmt loose thenBranch)
  | .ifElse condition thenBranch elseBranch =>
    (denote loose condition).discard.seq fun _ _ => (inScope loose (stmt loose thenBranch)).seq fun _ _ =>
      inScope loose (stmt loose elseBranch)
  | .whileLoop condition body =>
    (denote loose condition).discard.seq fun _ _ => inScope loose (stmt loose body)
  | .doLoop body condition =>
    (inScope loose (stmt loose body)).seq fun _ _ => (denote loose condition).discard
  | .forLoop init condition update body =>
    inScope loose ((stmts loose init).seq fun _ _ => (exprType? loose condition).discard.seq fun _ _ =>
      (exprs loose update).discard.seq fun _ _ => inScope loose (stmt loose body))
  | .forEach decl iterable body =>
    inScope loose ((denote loose iterable).typeOf.bind fun _ _ _ => (varDecl loose _ decl).seq fun _ _ =>
      inScope loose (stmt loose body))
  | .returning value => (exprType? loose value).discard
  | .throwing value => (denote loose value).discard
  | .yielding value => (denote loose value).discard
  | .breaking _ => Tallies.pure _
  | .continuing _ => Tallies.pure _
  | .trying resources body catches closing =>
    (inScope loose ((stmts loose resources).seq fun _ _ => blockBody loose body)).seq fun _ _ =>
      (catchClauses loose catches).seq fun _ _ => blockBody? loose closing
  | .switching selector cases _ =>
    (denote loose selector).typeOf.bind fun type _ _ => Tallies.switchScope loose (switchCases loose type _ cases)
  | .synchronized lock body => (denote loose lock).discard.seq fun _ _ => blockBody loose body
  | .labeled _ body => stmt loose body
  | .asserting condition message =>
    (denote loose condition).discard.seq fun _ _ => (exprType? loose message).discard
  | .empty => Tallies.pure _

theorem varDecl {w : World} (loose : w.Loose) {since : Moment} (element : Option JavaType) : ∀ d : VarDecl,
    Tallies w since (Nodes.varDecl d) [] (Resolve.varDecl element d)
  | ⟨mods, type, declarators⟩ =>
    (modifiers loose mods).seq fun _ _ => (typeRef loose type).bind fun _ _ _ =>
      varDeclarators loose mods type _ _ declarators

theorem varDeclarators {w : World} (loose : w.Loose) {since : Moment} (mods : Modifiers) (type : TypeRef)
    (given : Option JavaType) (inferred : Bool) : ∀ ds : List Declarator,
    Tallies w since (Nodes.varDeclarators ds) [] (Resolve.varDeclarators mods type given inferred ds)
  | [] => Tallies.pure _
  | ⟨name, _, init⟩ :: rest =>
    bind_nil Walks.readSetting fun _ _ _ _ => (declareVariable loose name _ _ (exprType? loose init)).seq fun _ _ =>
      varDeclarators loose mods type given inferred rest

theorem catchClauses {w : World} (loose : w.Loose) {since : Moment} : ∀ cs : List CatchClause,
    Tallies w since (Nodes.catchClauses cs) [] (Resolve.catchClauses cs)
  | [] => Tallies.pure _
  | ⟨mods, types, name, body⟩ :: rest =>
    (inScope loose ((modifiers loose mods).seq fun _ _ => (typeRefs loose types).bind fun _ _ _ =>
      (declareLocal loose name _ _ _).seq fun _ _ => blockBody loose body)).seq fun _ _ => catchClauses loose rest

theorem switchCases {w : World} (loose : w.Loose) {since : Moment} (selector : JavaType) (own : Bool) :
    ∀ cases : List SwitchCase,
    Tallies w since (Nodes.switchCases cases) [] (Resolve.switchCases selector own cases)
  | [] => Tallies.pure _
  | .group labels guard body :: rest =>
    (inScopeIf loose ((caseLabels loose selector labels).seq fun _ _ =>
      (exprType? loose guard).discard.seq fun _ _ => stmts loose body)).seq fun _ _ =>
        switchCases loose selector own rest
  | .rule labels guard body :: rest =>
    (inScopeIf loose ((caseLabels loose selector labels).seq fun _ _ =>
      (exprType? loose guard).discard.seq fun _ _ => stmt loose body)).seq fun _ _ =>
        switchCases loose selector own rest

theorem caseLabels {w : World} (loose : w.Loose) {since : Moment} (selector : JavaType) :
    ∀ labels : List CaseLabel,
    Tallies w since (Nodes.caseLabels labels) [] (Resolve.caseLabels selector labels)
  | [] => Tallies.pure _
  | .default :: rest => caseLabels loose selector rest
  | .expr value :: rest =>
    (Tallies.caseLabel loose selector value (denote loose value).discard).seq fun _ _ =>
      caseLabels loose selector rest
  | .pattern type name :: rest =>
    (typeRef loose type).bind fun _ _ _ => (declareLocal loose name _ _ _).seq fun _ _ =>
      caseLabels loose selector rest

theorem typeDecl {w : World} (loose : w.Loose) {since : Moment} {c : ClassInfo} {vars : List (String × Symbol)} :
    ∀ d : TypeDecl, Backed w since c vars (.declared d) →
    Tallies w since (Nodes.typeDecl d) [] (Resolve.typeDecl (Pure.pure (some (c, vars))) d)
  | ⟨kind, mods, name, params, extending, implementing, permitting, components, constants, body, doc, range⟩,
      backed => by
    let d : TypeDecl := ⟨kind, mods, name, params, extending, implementing, permitting, components, constants,
      body, doc, range⟩
    refine Tallies.assuming fun sorted => ?_
    have fine : ∀ n ∈ Nodes.typeDecl d, Fine w n := fun n hn => (sorted.fine n hn).of_strict
    have feasible := backed.strictly loose.grounded
      (sorted.fine (.ofPart (.ofClass _)) (List.mem_append_left _ (List.mem_singleton_self _)))
      (Nodes.callables_plain (Nodes.members_fine fine))
    rw [Resolve.typeDecl_known]
    refine Tallies.ofClass (b := .declared d) ?_
    refine (modifiers loose mods).seq fun t₁ le₁ => bind_nil Walks.readSetting fun _ t₂ le₂ _ => ?_
    replace feasible := feasible.mono (le₁.trans le₂)
    refine (Tallies.define loose name _ doc [] ((feasible name c.symbol (.name rfl)).1 trivial)).seq fun t₃ le₃ => ?_
    replace backed := backed.mono (le₁.trans (le₂.trans le₃))
    replace feasible := feasible.mono le₃
    refine (enclosedBy backed.housed (inClass loose ?_)).inside
    refine (typeParams loose params _ feasible.paramsBacked).seq fun t₄ le₄ => ?_
    refine (typeRefs loose extending).discard.seq fun t₅ le₅ =>
      (typeRefs loose implementing).discard.seq fun t₆ le₆ =>
        (typeRefs loose permitting).discard.seq fun t₇ le₇ => ?_
    have later := le₄.trans (le₅.trans (le₆.trans le₇))
    refine (enumConstants loose constants fun i s h => (feasible.mono later) i s (.constant h)).seq fun t₈ le₈ => ?_
    refine (recordComponents loose components fun i s h =>
      (feasible.mono (later.trans le₈)) i s (.component h)).seq fun t₉ le₉ => ?_
    have last := later.trans (le₈.trans le₉)
    exact members loose body (fun i s h => (feasible.mono last) i s (.member h)) fun inner hinner =>
      (backed.nested inner hinner).mono last

theorem typeParams {w : World} (loose : w.Loose) {since : Moment} :
    ∀ (ps : List TypeParam) (symbols : List (Option Symbol)), ParamsBacked w since ps symbols →
    Tallies w since (Nodes.typeParams ps) [] (Resolve.typeParams symbols ps)
  | [], [], _ => Tallies.pure _
  | [], _ :: _, backed => nomatch backed
  | _ :: _, [], backed => nomatch backed
  | ⟨as, name, bounds⟩ :: rest, none :: symbols, backed =>
    skipping (Nodes.hold_annotations as) (skipping (.declaration name) (skipping (Nodes.hold_typeRefs bounds)
      (typeParams loose rest symbols (List.forall₂_cons.mp backed).2)))
  | ⟨as, name, bounds⟩ :: rest, some symbol :: symbols, backed => by
    obtain ⟨given, later⟩ := List.forall₂_cons.mp backed
    refine (annotations loose as).seq fun t le => ?_
    refine (Tallies.define loose name _ none [] ((given symbol rfl).mono le.toKeeps)).seq fun u le₁ => ?_
    refine (typeRefs loose bounds).discard.seq fun v le₂ => ?_
    exact typeParams loose rest symbols (ParamsBacked.mono later ((le.trans le₁).trans le₂).toKeeps)

theorem enumConstants {w : World} (loose : w.Loose) {since : Moment} {c : ClassInfo} :
    ∀ ks : List EnumConstant, Feasible w.strict since (Plan.constants c ks) →
    Tallies w since (Nodes.enumConstants ks) (ks.map EnumConstant.created) (Resolve.enumConstants c ks)
  | [], _ => Tallies.pure _
  | ⟨as, name, args, body, doc⟩ :: rest, feasible => by
    refine (annotations loose as).seq fun t le => bind_nil (Walks.nameOrReport name _) fun symbol u le₁ ⟨made, _⟩ => ?_
    cases symbol with
    | none =>
      exact skipping ((Nodes.Hold.declaration name).append
        ((Nodes.hold_exprList? args).append (Nodes.hold_unnamedBody body)).self)
          (enumConstants loose rest (feasible.tail.mono (le.trans le₁)))
    | some symbol =>
      obtain ⟨given, anchored⟩ := feasible.head.mono (le.trans le₁) name symbol ⟨rfl, made symbol rfl⟩
      refine grouped ((Tallies.defineBody loose name _ doc [] (given trivial) anchored fun _ =>
        (exprList? loose args).discard.seq fun _ _ => (createdBody loose _ name.range body).discard).seq
          fun v le₂ => ?_)
      exact enumConstants loose rest (feasible.tail.mono ((le.trans le₁).trans le₂))

theorem recordComponents {w : World} (loose : w.Loose) {since : Moment} {c : ClassInfo} :
    ∀ ps : List Param, Feasible w.strict since (Plan.components c ps) →
    Tallies w since (Nodes.recordComponents ps) [] (Resolve.recordComponents c ps)
  | [], _ => Tallies.pure _
  | ⟨mods, type, varargs, name, range⟩ :: rest, feasible => by
    refine (modifiers loose mods).seq fun t le => bind_nil (Walks.nameOrReport name _) fun symbol u le₁ ⟨made, _⟩ => ?_
    cases symbol with
    | none =>
      refine skipping (.declaration name) ((typeRef loose type).discard.seq fun v le₂ => ?_)
      exact recordComponents loose rest (feasible.tail.mono ((le.trans le₁).trans le₂))
    | some symbol =>
      obtain ⟨given, -⟩ := feasible.head.mono (le.trans le₁) name symbol ⟨rfl, made symbol rfl⟩
      refine bind_nil Walks.readSetting fun _ v le₂ _ => ?_
      refine (Tallies.define loose name _ none [] ((given trivial).mono le₂.toKeeps)).seq fun v' le₃ => ?_
      refine (typeRef loose type).discard.seq fun u' le₄ => ?_
      exact recordComponents loose rest
        (feasible.tail.mono ((le.trans le₁).trans (le₂.trans (le₃.trans le₄))))

theorem members {w : World} (loose : w.Loose) {since : Moment} {names : MemberNames} :
    ∀ ms : List Member, Feasible w.strict since (Plan.members names ms) →
    (∀ inner ∈ ClassBody.typesOf ms, Known w since (names.info.qualifiedName ++ "." ++ inner.name.text) inner) →
    Tallies w since (Nodes.members ms) (ms.flatMap Member.bodies) (Resolve.members names ms)
  | [], _, _ => Tallies.pure _
  | m :: rest, feasible, known => by
    rw [ClassBody.typesOf_cons] at known
    refine (member loose m (fun i s h => feasible i s (.inl h)) fun inner hinner =>
      known inner (List.mem_append_left _ hinner)).seq fun t le => ?_
    refine members loose rest (fun i s h => (feasible.mono le) i s (.inr h)) fun inner hinner => ?_
    rw [MemberNames.after_info]
    exact (known inner (List.mem_append_right _ hinner)).mono le

theorem member {w : World} (loose : w.Loose) {since : Moment} {names : MemberNames} :
    ∀ m : Member, Feasible w.strict since (Plan.member names m) →
    (∀ inner ∈ ClassBody.typesOf [m], Known w since (names.info.qualifiedName ++ "." ++ inner.name.text) inner) →
    Tallies w since (Nodes.member m) m.bodies (Resolve.member names m)
  | .field ⟨mods, type, declarators⟩ doc _, feasible, _ =>
    (modifiers loose mods).seq fun _ le => (typeRef loose type).discard.seq fun _ le' =>
      fieldDeclarators loose names mods type doc declarators (feasible.mono (le.trans le'))
  | .method m, feasible, _ => methodDecl loose names.info (names.callable m) m feasible
  | .initializer _ body, _, _ => Tallies.initializer loose fun _ => blockBody loose body
  | .type d, _, known => by
    rw [Resolve.member, Resolve.typeDecl_found]
    refine bind_nil (Walks.knownClass (known d List.mem_cons_self)) fun r t _ h => ?_
    obtain ⟨c, vars, rfl, -, -, backed⟩ := h
    exact typeDecl loose d backed

theorem fieldDeclarators {w : World} (loose : w.Loose) {since : Moment} (names : MemberNames) (mods : Modifiers)
    (type : TypeRef) (doc : Option Comment) : ∀ ds : List Declarator,
    Feasible w.strict since (fun i s => ∃ v ∈ ds, i = v.name ∧ names.field v.name.text .field = .ok s) →
    Tallies w since (Nodes.varDeclarators ds) (Declarator.bodies ds)
      (Resolve.fieldDeclarators names mods type doc ds)
  | [], _ => Tallies.pure _
  | ⟨name, dims, init⟩ :: rest, feasible => by
    refine bind_nil (Walks.nameOrReport name _) fun symbol t le ⟨made, _⟩ => ?_
    cases symbol with
    | none =>
      exact skipping ((Nodes.Hold.declaration name).append (Nodes.hold_expr? init).self)
        (fieldDeclarators loose names mods type doc rest (feasible.tail.mono le))
    | some symbol =>
      refine bind_nil Walks.readSetting fun _ u le₁ _ => ?_
      have feasible' := feasible.mono (le.trans le₁)
      obtain ⟨given, anchored⟩ := feasible'.head name symbol ⟨rfl, made symbol rfl⟩
      refine grouped ((fieldInit loose name _ doc init (given trivial) anchored).seq fun v le₂ => ?_)
      exact fieldDeclarators loose names mods type doc rest (feasible'.tail.mono le₂)

theorem fieldInit {w : World} (loose : w.Loose) {since : Moment} (name : Ident) {symbol : Symbol}
    (signature : String) (doc : Option Comment) : ∀ init : Option Expr,
    Given w.strict since symbol.id name.range → Walks.Anchored since symbol →
    Tallies w since (Nodes.declaration name ++ Nodes.expr? init) [Nodes.expr? init]
      (Resolve.define name symbol signature doc [] >>= fun _ => Resolve.fieldInit symbol init)
  | none, given, _ => (Tallies.define loose name signature doc [] given).seq fun _ _ => idle Nodes.Hold.nil.self ()
  | some e, given, anchored => Tallies.defineBody loose name signature doc [] given anchored fun _ =>
    (denote loose e).discard

theorem methodDecl {w : World} (loose : w.Loose) {since : Moment} (c : ClassInfo)
    (symbol : Except NamingError Symbol) : ∀ m : MethodDecl,
    Feasible w.strict since (fun i s => ∃ method, symbol = .ok method ∧
      ((i = m.name ∧ s = method) ∨ Plan.methodTypeParam method m i s)) →
    Tallies w since (Nodes.methodDecl m) [m.inside] (Resolve.methodDecl c symbol m)
  | ⟨mods, params, returns, name, parameters, throwing, body, defaultValue, compact, doc, range⟩, feasible => by
    let m : MethodDecl := ⟨mods, params, returns, name, parameters, throwing, body, defaultValue, compact, doc,
      range⟩
    refine bind_nil (Walks.nameOrReport name _) fun named t le ⟨made, _⟩ => ?_
    cases named with
    | none => exact idle (Nodes.hold_methodDecl m) ()
    | some method =>
      refine (modifiers loose mods).seq fun t₁ le₁ => bind_nil (Walks.overriddenBy c method m) fun _ t₂ le₂ _ => ?_
      refine bind_nil Walks.readSetting fun _ t₃ le₃ _ => ?_
      have feasible' := feasible.mono (le.trans (le₁.trans (le₂.trans le₃)))
      obtain ⟨given, anchored⟩ := feasible' name method ⟨method, made method rfl, .inl ⟨rfl, rfl⟩⟩
      have params (i : Ident) (s : Symbol) (h : Plan.methodTypeParam method m i s) : Given w.strict t₃ s.id i.range :=
        (feasible' i s ⟨method, made method rfl, .inr h⟩).1 trivial
      refine Tallies.defineBody loose name _ doc _ (given trivial) anchored ?_
      refine Tallies.methodTypeParams (m := m) loose params fun t₄ symbols backed => ?_
      exact (typeParams loose m.typeParams symbols backed).seq fun _ _ =>
        (typeRef? loose returns).discard.seq fun _ _ => (methodParams loose parameters).seq fun _ _ =>
          (typeRefs loose throwing).discard.seq fun _ _ => (blockBody? loose body).seq fun _ _ =>
            (exprType? loose defaultValue).discard

theorem methodParams {w : World} (loose : w.Loose) {since : Moment} : ∀ ps : List Param,
    Tallies w since (Nodes.methodParams ps) [] (Resolve.methodParams ps)
  | [] => Tallies.pure _
  | ⟨mods, type, _, name, _⟩ :: rest =>
    (modifiers loose mods).seq fun _ _ => (typeRef loose type).bind fun _ _ _ =>
      bind_nil Walks.readSetting fun _ _ _ _ => (declareLocal loose name _ _ _).seq fun _ _ => methodParams loose rest

end

end LocalTraversal

/-! Whole files. -/

namespace Tallies

section

variable (loose : w.Loose)

include loose

theorem topTypes (package : String) {ds : List TypeDecl}
    (sites : ∀ d ∈ ds, ∃ site ∈ w.sites, site.name = Dotted.within package d.name.text ∧ site.decl = d) :
    Tallies w since (Nodes.topTypes ds) [] (Resolve.topTypes package ds) := by
  induction ds generalizing since with
  | nil => exact Tallies.pure _
  | cons d ds ih =>
    have walk : Tallies w since (Nodes.typeDecl d) []
        (Resolve.typeDecl (Resolve.knownClass d (Dotted.within package d.name.text)) d) := by
      rw [Resolve.typeDecl_found]
      have known := Known.ofSite loose.grounded since d (sites d List.mem_cons_self)
      refine bind_nil (Walks.knownClass known) fun r t _ h => ?_
      obtain ⟨c, vars, rfl, -, -, backed⟩ := h
      exact LocalTraversal.typeDecl loose d backed
    exact walk.seq fun _ _ => ih fun d' hd => sites d' (List.mem_cons_of_mem _ hd)

theorem importDecls : ∀ is : List ImportDecl,
    Tallies w since (Nodes.importDecls is) [] (Resolve.importDecls is)
  | [] => Tallies.pure _
  | i :: rest =>
    (mentioning (Walks.importDecl loose.grounded i)).bind fun _ _ le => (importDecls rest).from_later le

theorem unit (u : CompilationUnit)
    (sites : ∀ d ∈ u.types, ∃ site ∈ w.sites,
      site.name = Dotted.within u.packageName d.name.text ∧ site.decl = d) :
    Tallies w since (Nodes.unit u) [] (Resolve.unit u) := by
  refine bind_nil (Walks.environment loose.grounded) fun env t _ _ => withScopes loose ?_
  have inner (t : Moment) : Tallies w t (Nodes.importDecls u.imports ++ Nodes.topTypes u.types) []
      (Resolve.importDecls u.imports >>= fun _ => Resolve.topTypes u.packageName u.types) :=
    (importDecls loose u.imports).seq fun _ _ => topTypes loose _ sites
  cases package : u.package with
  | none =>
    simp only [Nodes.unit, package]
    exact inner t
  | some p =>
    simp only [Nodes.unit, package]
    exact (LocalTraversal.annotations loose p.annotations).seq fun _ _ => inner _

end

end Tallies

/-- A file tells apart what it defines. -/
theorem SourceUnit.tallied {u : SourceUnit} {source : String} {project : ProjectClasses} {external : ExternalTable}
    {config : Config} {distinct lax : Prop} (loose : (World.ofUnit u source project external config distinct lax).Loose)
    (sorted : Nodes.Sorted (.ofUnit u source project external config distinct lax) (Nodes.unit u.tree)) :
    Tallied (.ofUnit u source project external config distinct lax) (.ofUnit u source config)
      (.start project external config) (Nodes.unit u.tree) []
      (Resolve.unit u.tree (.ofUnit u source config) (.start project external config)).2 := by
  have plain : ∀ i ∈ u.tree.imports, ∀ n ∈ i.path, Plain n.text := fun i hi n hn =>
    sorted.fine (.ofPart (.mention n)) (List.mem_append_right _ (List.mem_append_left _
      (Nodes.mem_importDecls hi hn)))
  exact Tallies.unit loose u.tree (fun d hd => Site.mem_ofUnit hd) sorted _ _ (.start plain) (fun _ => rfl) (le_refl _)

end JavaIndex
