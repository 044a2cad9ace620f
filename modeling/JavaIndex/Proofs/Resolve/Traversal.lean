import JavaIndex.Proofs.Resolve.BodyClasses
import JavaIndex.Proofs.Tree.Idents

/-! The way through a whole tree, by induction on the tree: from any moment at which all is well, each part
of it is resolved, and all is well afterwards. -/
namespace JavaIndex

variable {w : World} {since t u : Moment} {ns ms : List Node}

/-! Plans for one part after the other. -/

section

variable {α : Type} {plan : α → Ident → Symbol → Prop} {first : α} {rest : List α}

theorem CarriedOut.nil : CarriedOut t fun i s => ∃ x ∈ ([] : List α), plan x i s := by
  rintro i s ⟨x, hx, -⟩
  cases hx

theorem CarriedOut.cons (head : CarriedOut t (plan first))
    (tail : CarriedOut t fun i s => ∃ x ∈ rest, plan x i s) :
    CarriedOut t fun i s => ∃ x ∈ first :: rest, plan x i s := by
  rintro i s ⟨x, hx, planned⟩
  obtain rfl | hx := List.mem_cons.mp hx
  · exact head i s planned
  · exact tail i s ⟨x, hx, planned⟩

theorem Feasible.head (h : Feasible w t fun i s => ∃ x ∈ first :: rest, plan x i s) :
    Feasible w t (plan first) :=
  fun i s planned => h i s ⟨first, List.mem_cons_self, planned⟩

theorem Feasible.tail (h : Feasible w t fun i s => ∃ x ∈ first :: rest, plan x i s) :
    Feasible w t fun i s => ∃ x ∈ rest, plan x i s :=
  fun i s ⟨x, hx, planned⟩ => h i s ⟨x, List.mem_cons_of_mem _ hx, planned⟩

end

theorem ClassBody.typesOf_cons (m : Member) (ms : List Member) :
    typesOf (m :: ms) = typesOf [m] ++ typesOf ms := by
  cases m <;> rfl

/-- A type is first found, then resolved. -/
theorem Resolve.typeDecl_found (find : Resolve (Option (ClassInfo × List (String × Symbol)))) (d : TypeDecl) :
    Resolve.typeDecl find d = find >>= fun found => Resolve.typeDecl (Pure.pure found) d := by
  cases d
  rfl

/-- What is done about a type that has been found. -/
theorem Resolve.typeDecl_known (c : ClassInfo) (vars : List (String × Symbol)) (d : TypeDecl) :
    Resolve.typeDecl (Pure.pure (some (c, vars))) d =
      Resolve.modifiers d.modifiers >>= fun _ => (read : Resolve Setting) >>= fun s =>
        Resolve.define d.name c.symbol (Signature.typeDecl s.source d) d.doc [] >>= fun _ =>
          Resolve.enclosedBy (some c.symbol) (Resolve.inClass c vars do
            Resolve.typeParams (Resolve.boundTypeParams vars d.typeParams) d.typeParams
            Functor.discard (Resolve.typeRefs d.extending)
            Functor.discard (Resolve.typeRefs d.implementing)
            Functor.discard (Resolve.typeRefs d.permitting)
            Resolve.enumConstants c d.constants
            Resolve.recordComponents c d.components
            Resolve.members (.start c) d.members) := by
  cases d
  rfl

/-- What a written type denotes may be used. -/
def TypeSafe (w : World) (type : JavaType) : Prop := ∀ name, type.className? = some name → Safe w name

namespace TypeSafe

theorem primitive (keyword : String) : TypeSafe w (.primitive keyword) := by
  intro name h
  simp [JavaType.className?] at h

theorem unknown : TypeSafe w .unknown := by
  intro name h
  simp [JavaType.className?] at h

theorem arrayOf {type : JavaType} (h : TypeSafe w type) (dims : Nat) :
    TypeSafe w (.arrayOf dims type) := by
  cases dims with
  | zero => exact h
  | succ n =>
    intro name h
    simp [JavaType.arrayOf, JavaType.className?] at h

end TypeSafe

namespace Walks

variable {α : Type}

theorem typeOf {x : Resolve Receiver} (h : Walks w since ns x fun r t => ReceiverSound w t r) :
    Resolves w since ns (Resolve.typeOf x) :=
  h.bind_pure fun _ _ _ _ _ _ => trivial

theorem valueOf {x : Resolve JavaType} (h : Resolves w since ns x) :
    Walks w since ns (Resolve.valueOf x) fun r t => ReceiverSound w t r :=
  h.bind_pure fun _ _ _ _ _ _ => .value _

/-- An answer made of two answers. -/
theorem both {β γ : Type} {x : Resolve α} {y : Resolve β} {f : α → β → γ} (first : Resolves w since ns x)
    (second : ∀ t, since ≤ t → Resolves w t ms y) :
    Resolves w since (ns ++ ms) (x >>= fun a => y >>= fun b => Pure.pure (f a b)) :=
  first.bind fun _ t le _ => (second t le).bind_pure fun _ _ _ _ _ _ => trivial

theorem switchScope {cases : List SwitchCase} {x : Resolve α} (h : Resolves w since ns x) :
    Resolves w since ns (Resolve.switchScope cases x) :=
  inScopeIf scopeless_trivial h

/-- A case of a `switch` may name a constant, which is then all that it holds. -/
theorem caseLabel (lawful : w.Lawful) (selector : JavaType) (label : Expr) {x : Resolve Unit}
    (h : Resolves w since (Nodes.expr label) x) :
    Resolves w since (Nodes.expr label) (Resolve.caseLabel selector label x) := by
  refine (enumConstant lawful selector label).bind_nil fun found t le named => ?_
  split
  · rename_i name symbol
    obtain ⟨sound, rfl⟩ := named _ rfl
    exact silently (mentions_silent [name]) fun _ => reference name.range sound
  · exact h.from_later le

theorem overriddenBy (c : ClassInfo) (symbol : Symbol) (m : MethodDecl) :
    Resolves w since [] (Resolve.overriddenBy c symbol m) := by
  unfold Resolve.overriddenBy
  split
  · exact Walks.pure fun _ _ => trivial
  · exact Walks.still (fun _ _ => rfl) fun _ _ _ _ => trivial

theorem ParamsGiven.mono {params : List TypeParam} {symbols : List (Option Symbol)}
    (h : ParamsGiven w t params symbols) (le : t ≤ u) : ParamsGiven w u params symbols :=
  h.imp fun _ _ ⟨given, missing⟩ =>
    ⟨fun s hs distinct => (given s hs distinct).mono le.toKeeps,
      fun hs clean => missing hs (le.clean clean)⟩

theorem ParamsDefined.mono {params : List TypeParam} {symbols : List (Option Symbol)}
    (h : ParamsDefined t params symbols) (le : t ≤ u) : ParamsDefined u params symbols :=
  h.imp fun _ _ defined s hs => (defined s hs).mono le.toKeeps

/-- The type variables of a class are defined with the symbols that they are bound to. -/
theorem paramsGiven {c : ClassInfo} {vars : List (String × Symbol)} {b : ClassSyntax} (lawful : w.Lawful)
    (matched : Matched w t c vars b) (feasible : Feasible w t (Plan.ofClass c vars b)) :
    ParamsGiven w t b.typeParams (Resolve.boundTypeParams vars b.typeParams) := by
  refine List.forall₂_map_right_iff.mpr (List.forall₂_same.mpr fun p hp => ⟨fun s bound => ?_, fun none => ?_⟩)
  · exact (feasible p.name s (.typeParam ⟨p, hp, rfl, bound⟩)).1
  · obtain ⟨s, bound⟩ := matched.bound lawful p hp
    rw [Plan.bound, none] at bound
    cases bound

theorem ParamsDefined.planned {vars : List (String × Symbol)} {params : List TypeParam}
    (h : ParamsDefined t params (Resolve.boundTypeParams vars params)) :
    CarriedOut t (Plan.typeParams vars params) := by
  rintro i s ⟨p, hp, rfl, bound⟩
  exact List.forall₂_same.mp (List.forall₂_map_right_iff.mp h) p hp s bound

/-- Two steps taken as one, before a third one. -/
theorem grouped {β γ : Type} {x : Resolve α} {f : α → Resolve β} {g : β → Resolve γ}
    {post : γ → Moment → Prop} (h : Walks w since ns ((x >>= f) >>= g) post) :
    Walks w since ns (x >>= fun a => f a >>= g) post := h

/-- A declaration that has been passed over, before what is resolved. -/
theorem passedBefore {x : Resolve α} {post : α → Moment → Prop} (unclean : ¬ since.Clean)
    (h : Walks w since ms x post) : Walks w since (ns ++ ms) x post := by
  have passed : Walks w since ns (Pure.pure ()) fun _ _ => True :=
    passedOver unclean (Walks.pure fun _ _ => trivial)
  exact passed.seq fun _ le => h.from_later le

end Walks

namespace Traversal

open Walks

mutual

theorem typeRef {w : World} (lawful : w.Lawful) {since : Moment} : ∀ type : TypeRef,
    Walks w since (Nodes.typeRef type) (Resolve.typeRef type) fun t _ => TypeSafe w t
  | .primitive keyword _ => Walks.pure fun _ _ => .primitive keyword
  | .array element dims _ =>
    (typeRef lawful element).bind_pure fun _ _ _ safe _ _ => safe.arrayOf dims
  | .named segments range => by
    unfold Resolve.typeRef Nodes.typeRef
    split
    · exact Walks.passed_pure fun _ _ => .unknown
    · exact (Walks.namedType lawful (segmentAnnotations lawful segments)
        (segmentArgs lawful segments)).bind_pure fun n _ _ sound _ _ => sound.safe

theorem typeRefs {w : World} (lawful : w.Lawful) {since : Moment} : ∀ types : List TypeRef,
    Resolves w since (Nodes.typeRefs types) (Resolve.typeRefs types)
  | [] => Walks.pure fun _ _ => trivial
  | t :: rest => (typeRef lawful t).trivially.both fun _ _ => typeRefs lawful rest

theorem typeRef? {w : World} (lawful : w.Lawful) {since : Moment} : ∀ type : Option TypeRef,
    Resolves w since (Nodes.typeRef? type) (Resolve.typeRef? type)
  | none => Walks.pure fun _ _ => trivial
  | some t => (typeRef lawful t).trivially

theorem segmentAnnotations {w : World} (lawful : w.Lawful) {since : Moment} :
    ∀ segments : List (TypeSegment Annotation),
    Resolves w since (Nodes.segmentAnnotations segments) (Resolve.segmentAnnotations segments)
  | [] => Walks.pure fun _ _ => trivial
  | ⟨as, _, _⟩ :: rest => (annotations lawful as).seq fun _ _ => segmentAnnotations lawful rest

theorem segmentArgs {w : World} (lawful : w.Lawful) {since : Moment} :
    ∀ segments : List (TypeSegment Annotation),
    Resolves w since (Nodes.segmentArgs segments) (Resolve.segmentArgs segments)
  | [] => Walks.pure fun _ _ => trivial
  | ⟨_, _, args⟩ :: rest => (typeArgList lawful args).both fun _ _ => segmentArgs lawful rest

theorem typeArgList {w : World} (lawful : w.Lawful) {since : Moment} :
    ∀ args : Option (List (TypeArg Annotation)),
    Resolves w since (Nodes.typeArgList args) (Resolve.typeArgList args)
  | none => Walks.pure fun _ _ => trivial
  | some args => typeArgs lawful args

theorem typeArgs {w : World} (lawful : w.Lawful) {since : Moment} : ∀ args : List (TypeArg Annotation),
    Resolves w since (Nodes.typeArgs args) (Resolve.typeArgs args)
  | [] => Walks.pure fun _ _ => trivial
  | arg :: rest => (typeArg lawful arg).both fun _ _ => typeArgs lawful rest

theorem typeArg {w : World} (lawful : w.Lawful) {since : Moment} : ∀ arg : TypeArg Annotation,
    Resolves w since (Nodes.typeArg arg) (Resolve.typeArg arg)
  | .type t => (typeRef lawful t).trivially
  | .wildcard _ => Walks.pure fun _ _ => trivial
  | .bounded _ t _ => (typeRef lawful t).bind_pure fun _ _ _ _ _ _ => trivial

theorem annotations {w : World} (lawful : w.Lawful) {since : Moment} : ∀ as : List Annotation,
    Resolves w since (Nodes.annotations as) (Resolve.annotations as)
  | [] => Walks.pure fun _ _ => trivial
  | a :: rest => (annotationUse lawful a).seq fun _ _ => annotations lawful rest

theorem annotationUse {w : World} (lawful : w.Lawful) {since : Moment} : ∀ a : Annotation,
    Resolves w since (Nodes.annotation a) (Resolve.annotationUse a)
  | ⟨name, args, _⟩ =>
    (Walks.annotationType lawful name).bind fun _ _ _ named => annotationArgs lawful args named

theorem annotationArgs {w : World} (lawful : w.Lawful) {since : Moment} {c : Option ClassInfo} :
    ∀ (args : List AnnotationArg), (∀ c', c = some c' → ClassNamed w since c') →
    Resolves w since (Nodes.annotationArgs args) (Resolve.annotationArgs c args)
  | [], _ => Walks.pure fun _ _ => trivial
  | ⟨name, value⟩ :: rest, named =>
    (mentioning fun _ => Walks.annotationElement name named).seq fun _ le =>
      (denote lawful value).trivially.discard.seq fun _ le' => annotationArgs lawful rest
        fun c' hc => (named c' hc).mono (le.trans le').toKeeps

theorem modifiers {w : World} (lawful : w.Lawful) {since : Moment} : ∀ mods : Modifiers,
    Resolves w since (Nodes.modifiers mods) (Resolve.modifiers mods)
  | ⟨_, as⟩ => annotations lawful as

theorem exprs {w : World} (lawful : w.Lawful) {since : Moment} : ∀ es : List Expr,
    Resolves w since (Nodes.exprs es) (Resolve.exprs es)
  | [] => Walks.pure fun _ _ => trivial
  | e :: rest => (denote lawful e).typeOf.both fun _ _ => exprs lawful rest

theorem exprList? {w : World} (lawful : w.Lawful) {since : Moment} : ∀ es : Option (List Expr),
    Resolves w since (Nodes.exprList? es) (Resolve.exprList? es)
  | none => Walks.pure fun _ _ => trivial
  | some es => exprs lawful es

theorem exprType? {w : World} (lawful : w.Lawful) {since : Moment} : ∀ e : Option Expr,
    Resolves w since (Nodes.expr? e) (Resolve.exprType? e)
  | none => Walks.pure fun _ _ => trivial
  | some e => (denote lawful e).typeOf

theorem denote? {w : World} (lawful : w.Lawful) {since : Moment} : ∀ e : Option Expr,
    Walks w since (Nodes.expr? e) (Resolve.denote? e)
      fun found t => ∀ r, found = some r → ReceiverSound w t r
  | none => Walks.pure fun _ _ => by simp
  | some e => (denote lawful e).bind_pure fun r _ _ sound _ le r' hr =>
    Option.some.inj hr ▸ sound.mono le.toKeeps

theorem denote {w : World} (lawful : w.Lawful) {since : Moment} : ∀ e : Expr,
    Walks w since (Nodes.expr e) (Resolve.denote e) fun r t => ReceiverSound w t r
  | .literal kind _ => Walks.pure fun _ _ => .value _
  | .name name => nameChain lawful [name]
  | .field target name range => by
    cases chain : target.nameChain? with
    | some names =>
      have whole : (Expr.field target name range).nameChain? = some (names ++ [name]) := by
        rw [Expr.nameChain?, chain]
        rfl
      rw [Nodes.expr_of_chain _ whole]
      simp only [Resolve.denote, chain]
      exact nameChain lawful (names ++ [name])
    | none =>
      simp only [Resolve.denote, chain]
      exact ((denote lawful target).bind fun r _ _ _ =>
        mentioning fun _ => selectMember lawful r name).valueOf
  | .call target types name args _ =>
    ((typeRefs lawful types).discard.seq fun _ _ => (denote? lawful target).bind fun r _ _ _ =>
      (calledMethods lawful r name.text).bind_nil fun _ _ _ sound =>
        (exprs lawful args).bind fun types _ le _ => mentioning fun _ =>
          callMethod name types fun c hc => (sound c hc).mono le.toKeeps).valueOf
  | .delegate kind keyword qualifier args _ =>
    ((denote? lawful qualifier).trivially.discard.seq fun _ _ =>
      (exprs lawful args).bind fun types _ _ _ => mentioning fun _ =>
        (callDelegate lawful kind keyword types).bind_pure fun _ _ _ _ _ _ => trivial).valueOf
  | .create qualifier (.primitive keyword typeRange) args body range =>
    ((exprs lawful args).bind fun _ _ _ _ => passing (Walks.pure fun _ _ => trivial)).valueOf
  | .create qualifier (.array element dims typeRange) args body range =>
    ((exprs lawful args).bind fun _ _ _ _ =>
      passing ((typeRef lawful element).bind_pure fun _ _ _ _ _ _ => trivial)).valueOf
  | .create none (.named [] typeRange) args body range =>
    ((exprs lawful args).bind fun _ _ _ _ => passed_pure fun _ _ => trivial).valueOf
  | .create (some outer) (.named [] typeRange) args body range =>
    ((exprs lawful args).bind fun _ _ _ _ => passed_pure fun _ _ => trivial).valueOf
  | .create none (.named (first :: rest) typeRange) args body range => by
    obtain ⟨name, last⟩ : ∃ name, ((first :: rest).map TypeSegment.name).getLast? = some name :=
      ⟨_, List.getLast?_eq_some_getLast (by simp)⟩
    simp only [Nodes.expr, Resolve.denote, last, List.isEmpty_cons, Bool.false_eq_true, if_false]
    refine ((exprs lawful args).bind fun types t _ _ => ?_).valueOf
    change Resolves w t _ (Resolve.namedType ((first :: rest).map TypeSegment.name) false
      (Resolve.segmentAnnotations (first :: rest)) (Resolve.segmentArgs (first :: rest)) >>= fun created =>
        Resolve.callConstructor name created types >>= fun _ => Resolve.createdBody created range body)
    exact (Walks.namedType lawful (segmentAnnotations lawful (first :: rest))
      (segmentArgs lawful (first :: rest))).bind fun created u _ sound =>
        (callConstructor name types sound.ofClass).seq_nil fun _ _ => createdBody lawful created range body
  | .create (some outer) (.named (first :: rest) typeRange) args body range => by
    obtain ⟨name, last⟩ : ∃ name, ((first :: rest).map TypeSegment.name).getLast? = some name :=
      ⟨_, List.getLast?_eq_some_getLast (by simp)⟩
    simp only [Nodes.expr, Resolve.denote, last, List.isEmpty_cons, Bool.false_eq_true, if_false]
    refine ((exprs lawful args).bind fun types t _ _ => ?_).valueOf
    change Resolves w t _ (Resolve.denote outer >>= fun r => Resolve.innerClass r name >>= fun created =>
      Resolve.callConstructor name created types >>= fun _ => Resolve.createdBody created range body)
    exact (denote lawful outer).bind fun r _ _ _ => ((mentioning fun _ => innerClass lawful r name).bind
      fun created _ _ named => (callConstructor name types named).seq_nil fun _ _ =>
        createdBody lawful created range body).skipping
  | .createArray element sizes init _ =>
    ((typeRef lawful element).trivially.bind fun _ _ _ _ => (exprs lawful sizes).discard.seq fun _ _ =>
      (exprList? lawful init).discard.bind_pure fun _ _ _ _ _ _ => trivial).valueOf
  | .arrayInit elements _ =>
    ((exprs lawful elements).discard.bind_pure fun _ _ _ _ _ _ => trivial).valueOf
  | .index array index _ =>
    ((denote lawful array).typeOf.bind fun _ _ _ _ =>
      (denote lawful index).trivially.discard.bind_pure fun _ _ _ _ _ _ => trivial).valueOf
  | .unary op operand _ =>
    ((denote lawful operand).typeOf.bind_pure fun _ _ _ _ _ _ => trivial).valueOf
  | .binary op left right _ =>
    ((denote lawful left).typeOf.both fun _ _ => (denote lawful right).typeOf).valueOf
  | .assign target value _ =>
    ((denote lawful target).typeOf.bind fun _ _ _ _ =>
      (denote lawful value).trivially.discard.bind_pure fun _ _ _ _ _ _ => trivial).valueOf
  | .conditional condition thenValue elseValue _ =>
    ((denote lawful condition).trivially.discard.seq fun _ _ =>
      (denote lawful thenValue).typeOf.both fun _ _ => (denote lawful elseValue).typeOf).valueOf
  | .cast type bounds value _ =>
    ((typeRef lawful type).bind fun _ _ _ _ => (typeRefs lawful bounds).discard.seq fun _ _ =>
      (denote lawful value).trivially.discard.bind_pure fun _ _ _ _ _ _ => trivial).valueOf
  | .instanceOf value type binding _ => by
    refine ((denote lawful value).trivially.discard.seq fun _ _ =>
      (typeRef lawful type).bind fun checked _ _ _ => ?_).valueOf
    cases binding with
    | none => exact Walks.pure fun _ _ => trivial
    | some name => exact (declareLocal name _ checked _).bind_pure fun _ _ _ _ _ _ => trivial
  | .lambda params body _ =>
    ((inScope scopeless_trivial ((lambdaParams lawful params).seq fun _ _ =>
      (denote lawful body).trivially.discard)).bind_pure fun _ _ _ _ _ _ => trivial).valueOf
  | .blockLambda params body _ =>
    ((inScope scopeless_trivial ((lambdaParams lawful params).seq fun _ _ =>
      blockBody lawful body)).bind_pure fun _ _ _ _ _ _ => trivial).valueOf
  | .methodRef target name _ =>
    ((denote lawful target).bind fun _ _ _ sound => mentioning fun _ =>
      (mentionMethod lawful name sound).bind_pure fun _ _ _ _ _ _ => trivial).valueOf
  | .typeMethodRef target name _ =>
    ((typeRef lawful target).bind fun _ _ _ safe => mentioning fun _ => (receiverOfType lawful safe).bind_nil
      fun _ _ _ sound => (mentionMethod lawful name sound).bind_pure fun _ _ _ _ _ _ => trivial).valueOf
  | .this qualifier _ => by
    refine ((denote? lawful qualifier).bind_last fun found _ _ _ => ?_).valueOf
    cases found with
    | none => exact thisType
    | some outer => exact Walks.pure fun _ _ => trivial
  | .super qualifier _ => (denote? lawful qualifier).bind_last fun found _ _ sound => superOf found sound
  | .classLiteral type _ =>
    ((typeRef lawful type).trivially.discard.bind_pure fun _ _ _ _ _ _ => trivial).valueOf
  | .paren inner _ => (denote lawful inner).typeOf.valueOf
  | .switching selector cases _ =>
    ((denote lawful selector).typeOf.bind fun type _ _ _ =>
      (Walks.switchScope (switchCases lawful type _ cases)).bind_pure fun _ _ _ _ _ _ => trivial).valueOf
  | .annotated a => ((annotationUse lawful a).bind_pure fun _ _ _ _ _ _ => trivial).valueOf

theorem lambdaParams {w : World} (lawful : w.Lawful) {since : Moment} : ∀ params : List LambdaParam,
    Resolves w since (Nodes.lambdaParams params) (Resolve.lambdaParams params)
  | [] => Walks.pure fun _ _ => trivial
  | ⟨mods, type, name⟩ :: rest =>
    (modifiers lawful mods).seq fun _ _ => (typeRef? lawful type).bind fun _ _ _ _ =>
      readSetting.bind_nil fun _ _ _ _ => (declareLocal name _ _ _).seq fun _ _ => lambdaParams lawful rest

theorem createdBody {w : World} (lawful : w.Lawful) {since : Moment} (created : NamedType)
    (span : Span) : ∀ body : Option (List Member),
    Resolves w since (Nodes.unnamedBody body) (Resolve.createdBody created span body)
  | none => Walks.pure fun _ _ => trivial
  | some body => Walks.createdBody lawful fun more t c _ backed feasible => by
    refine (members (lawful.expecting more) body
      (fun i s planned => feasible i s (.member planned)) backed.nested).weaken ?_
    intro _ u _ ⟨planned, nested⟩
    refine ⟨fun i s plan => ?_, nested⟩
    cases plan with
    | name named => cases named
    | typeParam h => obtain ⟨p, hp, -⟩ := h; cases hp
    | constant h => obtain ⟨k, hk, -⟩ := h; cases hk
    | component h => obtain ⟨p, hp, -⟩ := h; cases hp
    | member h => exact planned i s h

theorem blockBody {w : World} (lawful : w.Lawful) {since : Moment} : ∀ b : Block,
    Resolves w since (Nodes.block b) (Resolve.blockBody b)
  | ⟨body, _⟩ => inScope scopeless_trivial (stmts lawful body)

theorem blockBody? {w : World} (lawful : w.Lawful) {since : Moment} : ∀ b : Option Block,
    Resolves w since (Nodes.block? b) (Resolve.blockBody? b)
  | none => Walks.pure fun _ _ => trivial
  | some b => blockBody lawful b

theorem stmts {w : World} (lawful : w.Lawful) {since : Moment} : ∀ ss : List Stmt,
    Resolves w since (Nodes.stmts ss) (Resolve.stmts ss)
  | [] => Walks.pure fun _ _ => trivial
  | s :: rest => (stmt lawful s).seq fun _ _ => stmts lawful rest

theorem stmt {w : World} (lawful : w.Lawful) {since : Moment} : ∀ s : Stmt,
    Resolves w since (Nodes.stmt s) (Resolve.stmt s)
  | .locals decl => varDecl lawful none decl
  | .localType decl => Walks.localType fun more _ _ _ _ backed =>
    typeDecl (lawful.expecting more) decl backed
  | .expr value => (denote lawful value).trivially.discard
  | .block body => blockBody lawful body
  | .ifThen condition thenBranch =>
    (denote lawful condition).trivially.discard.seq fun _ _ =>
      inScope scopeless_trivial (stmt lawful thenBranch)
  | .ifElse condition thenBranch elseBranch =>
    (denote lawful condition).trivially.discard.seq fun _ _ =>
      (inScope scopeless_trivial (stmt lawful thenBranch)).seq fun _ _ =>
        inScope scopeless_trivial (stmt lawful elseBranch)
  | .whileLoop condition body =>
    (denote lawful condition).trivially.discard.seq fun _ _ =>
      inScope scopeless_trivial (stmt lawful body)
  | .doLoop body condition =>
    (inScope scopeless_trivial (stmt lawful body)).seq fun _ _ =>
      (denote lawful condition).trivially.discard
  | .forLoop init condition update body =>
    inScope scopeless_trivial ((stmts lawful init).seq fun _ _ =>
      (exprType? lawful condition).discard.seq fun _ _ => (exprs lawful update).discard.seq fun _ _ =>
        inScope scopeless_trivial (stmt lawful body))
  | .forEach decl iterable body =>
    inScope scopeless_trivial ((denote lawful iterable).typeOf.bind fun _ _ _ _ =>
      (varDecl lawful _ decl).seq fun _ _ => inScope scopeless_trivial (stmt lawful body))
  | .returning value => (exprType? lawful value).discard
  | .throwing value => (denote lawful value).trivially.discard
  | .yielding value => (denote lawful value).trivially.discard
  | .breaking _ => Walks.pure fun _ _ => trivial
  | .continuing _ => Walks.pure fun _ _ => trivial
  | .trying resources body catches closing =>
    (inScope scopeless_trivial ((stmts lawful resources).seq fun _ _ => blockBody lawful body)).seq
      fun _ _ => (catchClauses lawful catches).seq fun _ _ => blockBody? lawful closing
  | .switching selector cases _ =>
    (denote lawful selector).typeOf.bind fun type _ _ _ =>
      Walks.switchScope (switchCases lawful type _ cases)
  | .synchronized lock body =>
    (denote lawful lock).trivially.discard.seq fun _ _ => blockBody lawful body
  | .labeled _ body => stmt lawful body
  | .asserting condition message =>
    (denote lawful condition).trivially.discard.seq fun _ _ => (exprType? lawful message).discard
  | .empty => Walks.pure fun _ _ => trivial

theorem varDecl {w : World} (lawful : w.Lawful) {since : Moment} (element : Option JavaType) :
    ∀ d : VarDecl, Resolves w since (Nodes.varDecl d) (Resolve.varDecl element d)
  | ⟨mods, type, declarators⟩ =>
    (modifiers lawful mods).seq fun _ _ => (typeRef lawful type).bind fun _ _ _ _ =>
      varDeclarators lawful mods type _ _ declarators

theorem varDeclarators {w : World} (lawful : w.Lawful) {since : Moment} (mods : Modifiers)
    (type : TypeRef) (given : Option JavaType) (inferred : Bool) : ∀ ds : List Declarator,
    Resolves w since (Nodes.varDeclarators ds) (Resolve.varDeclarators mods type given inferred ds)
  | [] => Walks.pure fun _ _ => trivial
  | ⟨name, _, init⟩ :: rest =>
    readSetting.bind_nil fun _ _ _ _ => (declareVariable name _ _ (exprType? lawful init)).seq
      fun _ _ => varDeclarators lawful mods type given inferred rest

theorem catchClauses {w : World} (lawful : w.Lawful) {since : Moment} : ∀ cs : List CatchClause,
    Resolves w since (Nodes.catchClauses cs) (Resolve.catchClauses cs)
  | [] => Walks.pure fun _ _ => trivial
  | ⟨mods, types, name, body⟩ :: rest =>
    (inScope scopeless_trivial ((modifiers lawful mods).seq fun _ _ =>
      (typeRefs lawful types).bind fun _ _ _ _ => (declareLocal name _ _ _).seq fun _ _ =>
        blockBody lawful body)).seq fun _ _ => catchClauses lawful rest

theorem switchCases {w : World} (lawful : w.Lawful) {since : Moment} (selector : JavaType) (own : Bool) :
    ∀ cases : List SwitchCase,
    Resolves w since (Nodes.switchCases cases) (Resolve.switchCases selector own cases)
  | [] => Walks.pure fun _ _ => trivial
  | .group labels guard body :: rest =>
    (inScopeIf scopeless_trivial ((caseLabels lawful selector labels).seq fun _ _ =>
      (exprType? lawful guard).discard.seq fun _ _ => stmts lawful body)).seq
        fun _ _ => switchCases lawful selector own rest
  | .rule labels guard body :: rest =>
    (inScopeIf scopeless_trivial ((caseLabels lawful selector labels).seq fun _ _ =>
      (exprType? lawful guard).discard.seq fun _ _ => stmt lawful body)).seq
        fun _ _ => switchCases lawful selector own rest

theorem caseLabels {w : World} (lawful : w.Lawful) {since : Moment} (selector : JavaType) :
    ∀ labels : List CaseLabel,
    Resolves w since (Nodes.caseLabels labels) (Resolve.caseLabels selector labels)
  | [] => Walks.pure fun _ _ => trivial
  | .default :: rest => caseLabels lawful selector rest
  | .expr value :: rest =>
    (Walks.caseLabel lawful selector value (denote lawful value).trivially.discard).seq
      fun _ _ => caseLabels lawful selector rest
  | .pattern type name :: rest =>
    (typeRef lawful type).bind fun _ _ _ _ => (declareLocal name _ _ _).seq
      fun _ _ => caseLabels lawful selector rest

theorem typeDecl {w : World} (lawful : w.Lawful) {since : Moment} {c : ClassInfo}
    {vars : List (String × Symbol)} : ∀ d : TypeDecl, Backed w since c vars (.declared d) →
    Walks w since (Nodes.typeDecl d) (Resolve.typeDecl (Pure.pure (some (c, vars))) d)
      fun _ t => ClassDone w c vars (.declared d) t
  | ⟨kind, mods, name, params, extending, implementing, permitting, components, constants, body, doc,
      range⟩, backed => by
    refine Walks.assuming fun fine => ?_
    have feasible := backed.feasible lawful (Nodes.class_fine fine)
      (Nodes.callables_plain (Nodes.members_fine fine))
    rw [Resolve.typeDecl_known]
    refine beforehand (by simp [Nodes.classNode, Node.ofPart, Node.declared?]) ?_
    refine (modifiers lawful mods).seq fun t₁ le₁ => readSetting.bind_nil fun _ t₂ le₂ _ => ?_
    refine (define name _ doc [] ((feasible.mono (le₁.trans le₂)) name c.symbol (.name rfl)).1).bind
      fun _ t₃ le₃ named => ?_
    replace backed := backed.mono (le₁.trans (le₂.trans le₃))
    replace feasible := feasible.mono (le₁.trans (le₂.trans le₃))
    refine (enclosedBy (fun _ _ _ done le => done.mono le) backed.housed (inClass
      (scopeless_of_mono fun _ _ _ done le => done.mono le)
      backed.members backed.named backed.vars ?_)).inside fun _ _ le done =>
        backed.accounted (Nodes.class_fine fine) (Nodes.callables_plain (Nodes.members_fine fine)) le done
    refine (typeParams lawful params _ (paramsGiven lawful backed.matched feasible)).bind
      fun _ t₄ le₄ bound => ?_
    refine (typeRefs lawful extending).discard.seq fun t₅ le₅ =>
      (typeRefs lawful implementing).discard.seq fun t₆ le₆ =>
        (typeRefs lawful permitting).discard.seq fun t₇ le₇ => ?_
    replace bound := ParamsDefined.mono bound (le₅.trans (le₆.trans le₇))
    replace feasible := feasible.mono (le₄.trans (le₅.trans (le₆.trans le₇)))
    refine (enumConstants lawful constants fun i s h => feasible i s (.constant h)).bind
      fun _ t₈ le₈ constant => ?_
    refine (recordComponents lawful components fun i s h => (feasible.mono le₈) i s (.component h)).bind
      fun _ t₉ le₉ component => ?_
    have before : t₃ ≤ t₉ := le₄.trans (le₅.trans (le₆.trans (le₇.trans (le₈.trans le₉))))
    refine (members lawful body (fun i s h => (feasible.mono (le₈.trans le₉)) i s (.member h))
      fun inner hinner => (backed.nested inner hinner).mono before).weaken
        fun _ u le ⟨member, nested⟩ => ⟨fun i s plan => ?_, nested⟩
    cases plan with
    | name h =>
      cases h
      exact named.defines.mono (before.trans le).toKeeps
    | typeParam h => exact (ParamsDefined.planned bound i s h).mono (le₈.trans (le₉.trans le)).toKeeps
    | constant h => exact (constant i s h).mono (le₉.trans le).toKeeps
    | component h => exact (component i s h).mono le.toKeeps
    | member h => exact member i s h

theorem typeParams {w : World} (lawful : w.Lawful) {since : Moment} :
    ∀ (ps : List TypeParam) (symbols : List (Option Symbol)), ParamsGiven w since ps symbols →
    Walks w since (Nodes.typeParams ps) (Resolve.typeParams symbols ps)
      fun _ t => ParamsDefined t ps symbols
  | [], [], _ => Walks.pure fun _ _ => .nil
  | [], _ :: _, given => nomatch given
  | _ :: _, [], given => nomatch given
  | ⟨as, name, bounds⟩ :: rest, none :: symbols, given => by
    obtain ⟨⟨-, missing⟩, later⟩ := List.forall₂_cons.mp given
    have walked : Walks w since (Nodes.typeParams rest) (Resolve.typeParams symbols rest)
        fun _ t => ParamsDefined t (⟨as, name, bounds⟩ :: rest) (none :: symbols) :=
      (typeParams lawful rest symbols later).weaken fun _ _ _ all => .cons (fun _ h => nomatch h) all
    have unclean := missing rfl
    exact passedBefore unclean (passedBefore unclean (passedBefore unclean walked))
  | ⟨as, name, bounds⟩ :: rest, some symbol :: symbols, given => by
    obtain ⟨⟨given, -⟩, later⟩ := List.forall₂_cons.mp given
    refine (annotations lawful as).seq fun t le => ?_
    refine (define name _ none [] fun distinct =>
      (given symbol rfl distinct).mono le.toKeeps).bind fun _ u le₁ defined => ?_
    refine (typeRefs lawful bounds).discard.seq fun v le₂ => ?_
    refine (typeParams lawful rest symbols (ParamsGiven.mono later ((le.trans le₁).trans le₂))).weaken
      fun _ _ le₃ all => .cons (fun s hs => ?_) all
    rw [← Option.some.inj hs]
    exact defined.defines.mono (le₂.trans le₃).toKeeps

theorem enumConstants {w : World} (lawful : w.Lawful) {since : Moment} {c : ClassInfo} :
    ∀ ks : List EnumConstant, Feasible w since (Plan.constants c ks) →
    Walks w since (Nodes.enumConstants ks) (Resolve.enumConstants c ks)
      fun _ t => CarriedOut t (Plan.constants c ks)
  | [], _ => Walks.pure fun _ _ => .nil
  | ⟨as, name, args, body, doc⟩ :: rest, feasible => by
    refine (annotations lawful as).seq fun t le => (nameOrReport name _).bind_nil
      fun symbol u le₁ ⟨made, missing⟩ => ?_
    cases symbol with
    | none =>
      obtain ⟨unclean, unnamed⟩ := missing rfl
      exact passedBefore unclean ((enumConstants lawful rest (feasible.tail.mono (le.trans le₁))).weaken
        fun _ _ _ planned => .cons (fun _ s ⟨_, hs⟩ => absurd hs (unnamed s)) planned)
    | some symbol =>
      obtain ⟨given, anchored⟩ := feasible.head.mono (le.trans le₁) name symbol ⟨rfl, made symbol rfl⟩
      refine grouped ((defineBody name _ doc [] lasting_trivial given anchored fun _ _ _ =>
        (exprList? lawful args).discard.seq fun _ _ =>
          (createdBody lawful _ name.range body).discard).bind fun _ v le₂ ⟨defined, _⟩ => ?_)
      refine (enumConstants lawful rest (feasible.tail.mono ((le.trans le₁).trans le₂))).weaken
        fun _ _ le₃ planned => .cons ?_ planned
      rintro i s ⟨rfl, hs⟩
      rw [← Except.ok.inj ((made symbol rfl).symm.trans hs)]
      exact defined.mono le₃.toKeeps

theorem recordComponents {w : World} (lawful : w.Lawful) {since : Moment} {c : ClassInfo} :
    ∀ ps : List Param, Feasible w since (Plan.components c ps) →
    Walks w since (Nodes.recordComponents ps) (Resolve.recordComponents c ps)
      fun _ t => CarriedOut t (Plan.components c ps)
  | [], _ => Walks.pure fun _ _ => .nil
  | ⟨mods, type, varargs, name, range⟩ :: rest, feasible => by
    refine (modifiers lawful mods).seq fun t le => (nameOrReport name _).bind_nil
      fun symbol u le₁ ⟨made, missing⟩ => ?_
    cases symbol with
    | none =>
      obtain ⟨unclean, unnamed⟩ := missing rfl
      refine passedBefore unclean ((typeRef lawful type).trivially.discard.seq fun v le₂ => ?_)
      exact (recordComponents lawful rest (feasible.tail.mono ((le.trans le₁).trans le₂))).weaken
        fun _ _ _ planned => .cons (fun _ s ⟨_, hs⟩ => absurd hs (unnamed s)) planned
    | some symbol =>
      obtain ⟨given, -⟩ := feasible.head.mono (le.trans le₁) name symbol ⟨rfl, made symbol rfl⟩
      refine readSetting.bind_nil fun _ v le₂ _ => ?_
      refine (define name _ none [] fun distinct =>
        (given distinct).mono le₂.toKeeps).bind fun _ v' le₃ defined => ?_
      refine (typeRef lawful type).trivially.discard.seq fun u' le₄ => ?_
      refine (recordComponents lawful rest
        (feasible.tail.mono ((le.trans le₁).trans (le₂.trans (le₃.trans le₄))))).weaken
        fun _ _ le₅ planned => .cons ?_ planned
      rintro i s ⟨rfl, hs⟩
      rw [← Except.ok.inj ((made symbol rfl).symm.trans hs)]
      exact defined.defines.mono (le₄.trans le₅).toKeeps

theorem members {w : World} (lawful : w.Lawful) {since : Moment} {names : MemberNames} :
    ∀ ms : List Member, Feasible w since (Plan.members names ms) →
    (∀ inner ∈ ClassBody.typesOf ms,
      Known w since (names.info.qualifiedName ++ "." ++ inner.name.text) inner) →
    Walks w since (Nodes.members ms) (Resolve.members names ms) fun _ t =>
      CarriedOut t (Plan.members names ms) ∧ ∀ inner ∈ ClassBody.typesOf ms,
        Settled w t (names.info.qualifiedName ++ "." ++ inner.name.text) inner
  | [], _, _ => Walks.pure fun _ _ => ⟨nofun, by simp [ClassBody.typesOf]⟩
  | m :: rest, feasible, known => by
    rw [ClassBody.typesOf_cons] at known ⊢
    refine (member lawful m (fun i s h => feasible i s (.inl h)) fun inner hinner =>
      known inner (List.mem_append_left _ hinner)).bind fun _ t le ⟨first, settled⟩ => ?_
    have walked := members lawful rest (fun i s h => (feasible.mono le) i s (.inr h)) fun inner hinner => by
      rw [MemberNames.after_info]
      exact (known inner (List.mem_append_right _ hinner)).mono le
    rw [MemberNames.after_info] at walked
    refine walked.weaken fun _ u le' ⟨planned, later⟩ => ⟨?_, ?_⟩
    · rintro i s (h | h)
      · exact (first i s h).mono le'.toKeeps
      · exact planned i s h
    · intro inner hinner
      obtain hinner | hinner := List.mem_append.mp hinner
      · exact (settled inner hinner).mono le'
      · exact later inner hinner

theorem member {w : World} (lawful : w.Lawful) {since : Moment} {names : MemberNames} :
    ∀ m : Member, Feasible w since (Plan.member names m) →
    (∀ inner ∈ ClassBody.typesOf [m],
      Known w since (names.info.qualifiedName ++ "." ++ inner.name.text) inner) →
    Walks w since (Nodes.member m) (Resolve.member names m) fun _ t =>
      CarriedOut t (Plan.member names m) ∧ ∀ inner ∈ ClassBody.typesOf [m],
        Settled w t (names.info.qualifiedName ++ "." ++ inner.name.text) inner
  | .field ⟨mods, type, declarators⟩ doc _, feasible, _ =>
    (modifiers lawful mods).seq fun _ le => (typeRef lawful type).trivially.discard.seq fun _ le' =>
      (fieldDeclarators lawful names mods type doc declarators (feasible.mono (le.trans le'))).weaken
        fun _ _ _ planned => ⟨planned, by simp [ClassBody.typesOf]⟩
  | .method m, feasible, _ => (methodDecl lawful names.info (names.callable m) m feasible).weaken
    fun _ _ _ planned => ⟨planned, by simp [ClassBody.typesOf]⟩
  | .initializer _ body, _, _ => (Walks.initializer (blockBody lawful body)).weaken
    fun _ _ _ _ => ⟨nofun, by simp [ClassBody.typesOf]⟩
  | .type d, _, known => by
    rw [Resolve.member, Resolve.typeDecl_found]
    refine (Walks.knownClass (known d List.mem_cons_self)).bind_nil fun r t _ h => ?_
    obtain ⟨c, vars, rfl, found, named, backed⟩ := h
    refine (typeDecl lawful d backed).weaken fun _ u le done => ⟨nofun, fun inner hinner => ?_⟩
    rw [List.mem_singleton.mp hinner]
    exact done.settled (found.mono le) named

theorem fieldDeclarators {w : World} (lawful : w.Lawful) {since : Moment} (names : MemberNames)
    (mods : Modifiers) (type : TypeRef) (doc : Option Comment) : ∀ ds : List Declarator,
    Feasible w since (fun i s => ∃ v ∈ ds, i = v.name ∧ names.field v.name.text .field = .ok s) →
    Walks w since (Nodes.varDeclarators ds) (Resolve.fieldDeclarators names mods type doc ds)
      fun _ t => CarriedOut t fun i s => ∃ v ∈ ds, i = v.name ∧ names.field v.name.text .field = .ok s
  | [], _ => Walks.pure fun _ _ => .nil
  | ⟨name, dims, init⟩ :: rest, feasible => by
    refine (nameOrReport name _).bind_nil fun symbol t le ⟨made, missing⟩ => ?_
    cases symbol with
    | none =>
      obtain ⟨unclean, unnamed⟩ := missing rfl
      exact passedBefore unclean ((fieldDeclarators lawful names mods type doc rest
        (feasible.tail.mono le)).weaken
          fun _ _ _ planned => .cons (fun _ s ⟨_, hs⟩ => absurd hs (unnamed s)) planned)
    | some symbol =>
      refine readSetting.bind_nil fun _ u le₁ _ => ?_
      have feasible' := feasible.mono (le.trans le₁)
      refine grouped ((fieldInit lawful name _ doc init
        (feasible'.head name symbol ⟨rfl, made symbol rfl⟩)).bind fun _ v le₂ defined => ?_)
      refine (fieldDeclarators lawful names mods type doc rest (feasible'.tail.mono le₂)).weaken
        fun _ _ le₃ planned => .cons ?_ planned
      rintro i s ⟨rfl, hs⟩
      rw [← Except.ok.inj ((made symbol rfl).symm.trans hs)]
      exact defined.mono le₃.toKeeps

theorem fieldInit {w : World} (lawful : w.Lawful) {since : Moment} (name : Ident) {symbol : Symbol}
    (signature : String) (doc : Option Comment) : ∀ init : Option Expr,
    ((w.distinct → Given w since symbol.id name.range) ∧ Anchored since symbol) →
    Walks w since (Nodes.declaration name ++ Nodes.expr? init)
      (Resolve.define name symbol signature doc [] >>= fun _ => Resolve.fieldInit symbol init)
      fun _ t => t.Defines name symbol
  | none, ⟨given, _⟩ => (define name signature doc [] given).bind fun _ _ _ defined =>
    Walks.pure fun _ le => defined.defines.mono le.toKeeps
  | some e, ⟨given, anchored⟩ => (defineBody name signature doc [] lasting_trivial given anchored
    fun _ _ _ => (denote lawful e).trivially.discard).weaken fun _ _ _ h => h.1

theorem methodDecl {w : World} (lawful : w.Lawful) {since : Moment} (c : ClassInfo)
    (symbol : Except NamingError Symbol) : ∀ m : MethodDecl,
    Feasible w since (fun i s => ∃ method, symbol = .ok method ∧
      ((i = m.name ∧ s = method) ∨ Plan.methodTypeParam method m i s)) →
    Walks w since (Nodes.methodDecl m) (Resolve.methodDecl c symbol m)
      fun _ t => CarriedOut t fun i s => ∃ method, symbol = .ok method ∧
        ((i = m.name ∧ s = method) ∨ Plan.methodTypeParam method m i s)
  | ⟨mods, params, returns, name, parameters, throwing, body, defaultValue, compact, doc, range⟩,
      feasible => by
    let m : MethodDecl := ⟨mods, params, returns, name, parameters, throwing, body, defaultValue,
      compact, doc, range⟩
    refine (nameOrReport name _).bind_nil fun named t le ⟨made, missing⟩ => ?_
    cases named with
    | none =>
      obtain ⟨unclean, unnamed⟩ := missing rfl
      exact passedOver unclean (Walks.pure fun _ _ i s ⟨method, hm, _⟩ => absurd hm (unnamed method))
    | some method =>
      refine (modifiers lawful mods).seq fun t₁ le₁ => ?_
      refine (Walks.overriddenBy c method m).bind_nil fun _ t₂ le₂ _ => ?_
      refine readSetting.bind_nil fun _ t₃ le₃ _ => ?_
      have feasible' := feasible.mono (le.trans (le₁.trans (le₂.trans le₃)))
      obtain ⟨given, anchored⟩ := feasible' name method ⟨method, made method rfl, .inl ⟨rfl, rfl⟩⟩
      have lasting : Lasting fun u => ∀ i s, Plan.methodTypeParam method m i s → u.Defines i s :=
        fun _ _ keep planned i s h => (planned i s h).mono keep
      refine (defineBody name _ doc _ lasting given anchored fun t₄ le₄ _ => ?_).weaken
        fun _ _ _ ⟨defined, planned⟩ i s ⟨method', same, h⟩ => ?_
      · refine Walks.methodTypeParams (m := m) (fun i s h distinct => ?_) fun more t₅ symbols _ given => ?_
        · exact ((feasible' i s ⟨method, made method rfl, .inr h⟩).1 distinct).mono le₄.toKeeps
        have lawful := lawful.expecting more
        refine (typeParams lawful params symbols given).bind fun _ t₆ _ defined => ?_
        refine ((typeRef? lawful returns).discard.seq fun _ _ => (methodParams lawful parameters).seq
          fun _ _ => (typeRefs lawful throwing).discard.seq fun _ _ => (blockBody? lawful body).seq
            fun _ _ => (exprType? lawful defaultValue).discard).weaken fun _ _ le _ => ?_
        exact ParamsDefined.mono defined le
      · cases Except.ok.inj ((made method rfl).symm.trans same)
        obtain ⟨rfl, rfl⟩ | h := h
        · exact defined
        · exact planned i s h

theorem methodParams {w : World} (lawful : w.Lawful) {since : Moment} : ∀ ps : List Param,
    Resolves w since (Nodes.methodParams ps) (Resolve.methodParams ps)
  | [] => Walks.pure fun _ _ => trivial
  | ⟨mods, type, _, name, _⟩ :: rest =>
    (modifiers lawful mods).seq fun _ _ => (typeRef lawful type).bind fun _ _ _ _ =>
      readSetting.bind_nil fun _ _ _ _ => (declareLocal name _ _ _).seq fun _ _ => methodParams lawful rest

end

end Traversal
end JavaIndex
