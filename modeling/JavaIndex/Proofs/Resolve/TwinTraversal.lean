import JavaIndex.Proofs.Resolve.TwinClasses
import JavaIndex.Resolve.Walk

/-! Both runs through the whole tree, by induction on the tree: each part of it is resolved alike in both,
and over every word of that part at most one mention is noted. -/
namespace JavaIndex

namespace Twins

/-- Two steps that go the same way through some nodes, with related answers. -/
def Visits {α β : Type} (w : Twins) (ns : List Node) (x : Resolve α) (y : Resolve β) (R : α → β → Prop) : Prop :=
  Steps w (Nodes.idents ns) x y R

/-- The same of steps whose answers do not matter. -/
abbrev Passes {α β : Type} (w : Twins) (ns : List Node) (x : Resolve α) (y : Resolve β) : Prop :=
  Visits w ns x y fun _ _ => True

/-- What depends on the text alone is the same in one text. -/
theorem Set.alike {w : Twins} {s s' : Setting} (set : w.Set s s') {α : Type} (f : String → Layout → α)
    (alike : w.alike) : f s.source w.first = f s'.source w.second := by
  obtain ⟨layouts, sources⟩ := w.verbatim alike
  rw [set.source, set.source', layouts, sources]

end Twins

namespace Twins.Visits

variable {w : Twins} {ns ms : List Node} {α β γ δ : Type} {x : Resolve α} {y : Resolve β}
  {R : α → β → Prop} {f : α → Resolve γ} {g : β → Resolve δ} {Q : γ → δ → Prop}

theorem pure {a : α} {b : β} (related : R a b) : Visits w ns (Pure.pure a) (Pure.pure b) R :=
  Steps.pure related

theorem bind (first : Visits w ns x y R) (second : ∀ a b, R a b → Visits w ms (f a) (g b) Q) :
    Visits w (ns ++ ms) (x >>= f) (y >>= g) Q := by
  have both := Steps.bind first second
  rwa [← Nodes.idents_append] at both

theorem seq {x' : Resolve γ} {y' : Resolve δ} (first : Visits w ns x y R) (second : Visits w ms x' y' Q) :
    Visits w (ns ++ ms) (x >>= fun _ => x') (y >>= fun _ => y') Q :=
  first.bind fun _ _ _ => second

theorem bindPure {f : α → γ} {g : β → δ} (h : Visits w ns x y R) (related : ∀ a b, R a b → Q (f a) (g b)) :
    Visits w ns (x >>= fun a => Pure.pure (f a)) (y >>= fun b => Pure.pure (g b)) Q :=
  Steps.bindPure h related

/-- A step that mentions nothing, before the nodes are visited. -/
theorem after (first : Steps w [] x y R) (second : ∀ a b, R a b → Visits w ms (f a) (g b) Q) :
    Visits w ms (x >>= f) (y >>= g) Q :=
  Steps.bindNone first second

/-- A step that mentions nothing, after the nodes have been visited. -/
theorem before (first : Visits w ns x y R) (second : ∀ a b, R a b → Steps w [] (f a) (g b) Q) :
    Visits w ns (x >>= f) (y >>= g) Q :=
  Steps.bindLast first second

theorem both {α γ : Type} {x y : Resolve α} {x' y' : Resolve γ} {f : α → γ → δ} (first : Visits w ns x y Eq)
    (second : Visits w ms x' y' Eq) :
    Visits w (ns ++ ms) (x >>= fun a => x' >>= fun c => Pure.pure (f a c))
      (y >>= fun b => y' >>= fun d => Pure.pure (f b d)) Eq :=
  first.bind fun _ _ same => second.bindPure fun _ _ same' => by rw [same, same']

/-- Two steps taken as one, before a third one. -/
theorem grouped {α' β' : Type} {f : α → Resolve α'} {g : β → Resolve β'} {f' : α' → Resolve γ}
    {g' : β' → Resolve δ} (h : Visits w ns ((x >>= f) >>= f') ((y >>= g) >>= g') Q) :
    Visits w ns (x >>= fun a => f a >>= f') (y >>= fun b => g b >>= g') Q := h

theorem discard (h : Visits w ns x y R) : Passes w ns (Functor.discard x) (Functor.discard y) := Steps.discard h

theorem wider (h : Visits w ns x y R) (more : FewerWords (Nodes.idents ns) (Nodes.idents ms)) :
    Visits w ms x y R :=
  Steps.wider h more

theorem mentioning {names : List Ident} (h : Steps w names x y R) : Visits w (Nodes.mentions names) x y R :=
  h.wider (by rw [Nodes.idents_mentions]; exact FewerWords.refl names)

theorem declaring {name : Ident} (h : Steps w [name] x y R) : Visits w (Nodes.declaration name) x y R := h

theorem declaringWith {name : Ident} (h : Steps w (name :: Nodes.idents ns) x y R) :
    Visits w (Nodes.declaration name ++ ns) x y R := h

theorem inside {b : ClassSyntax} (h : Visits w ns x y R) : Visits w (Nodes.inside b ns) x y R :=
  h.wider (by rw [Nodes.idents_inside]; exact FewerWords.refl _)

/-- Nodes that are passed over. -/
theorem passing (h : Visits w ns x y R) : Visits w (ns ++ ms) x y R :=
  h.wider fun i => by rw [Nodes.idents_append, List.count_append]; exact Nat.le_add_right _ _

theorem skipping (h : Visits w ns x y R) : Visits w (ms ++ ns) x y R :=
  h.wider fun i => by rw [Nodes.idents_append, List.count_append]; exact Nat.le_add_left _ _

theorem inScope (kind : ScopeKind) (h : Visits w ns x y R) :
    Visits w ns (Resolve.inScope kind x) (Resolve.inScope kind y) R :=
  Steps.inScope kind h

theorem inScopeIf (own : Bool) (h : Visits w ns x y R) :
    Visits w ns (Resolve.inScopeIf own x) (Resolve.inScopeIf own y) R :=
  Steps.either Iff.rfl (Steps.inScope .block h) h

/-- What an expression denotes, and its type. -/
theorem typeOf {x y : Resolve Receiver} (h : Visits w ns x y fun a b => b = w.homes.receiver a) :
    Visits w ns (Resolve.typeOf x) (Resolve.typeOf y) Eq := by
  apply h.bindPure
  rintro r _ rfl
  exact (w.homes.receiver_type r).symm

theorem valueOf {x y : Resolve JavaType} (h : Visits w ns x y Eq) :
    Visits w ns (Resolve.valueOf x) (Resolve.valueOf y) fun a b => b = w.homes.receiver a := by
  apply h.bindPure
  rintro t _ rfl
  rfl

end Twins.Visits

namespace TwinTraversal

open Twins Twins.Visits

section

variable {w : Twins} {ns : List Node}

theorem arrows (l : Layout) (cases : List SwitchCase) :
    (l.switchCases cases).any Resolve.hasArrow = cases.any Resolve.hasArrow := by
  rw [l.switchCases_eq, List.any_map]
  congr 1
  funext c
  cases c <;> rfl

theorem switchScope {α β : Type} {x : Resolve α} {y : Resolve β} {R : α → β → Prop} (cases : List SwitchCase)
    (h : Visits w ns x y R) : Visits w ns (Resolve.switchScope (w.first.switchCases cases) x)
      (Resolve.switchScope (w.second.switchCases cases) y) R := by
  unfold Resolve.switchScope
  rw [arrows, arrows]
  exact h.inScopeIf _

/-- The name of a type with its annotations and type arguments. -/
theorem wholeType {annotated args : List Node} (names : List Ident) {as as' : Resolve Unit}
    {types types' : Resolve (List JavaType)} (annotations : Passes w annotated as as')
    (arguments : Visits w args types types' Eq) :
    Visits w (Nodes.mentions names ++ (annotated ++ args))
      (Resolve.namedType (names.map w.first.ident) true as types)
      (Resolve.namedType (names.map w.second.ident) true as' types') fun a b => b = Steps.namedType w.homes a := by
  have steps := Steps.wholeType names annotations arguments
  rw [Visits, Nodes.idents_append, Nodes.idents_append, Nodes.idents_mentions]
  exact steps

/-- The creation of an object, once its class has been found. -/
theorem construction {names others : List Ident} {name : Ident} {x y : Resolve NamedType}
    {f g : NamedType → Resolve JavaType} (last : names.getLast? = some name)
    (found : w.Leaves (fun n => (if n.info.isSome then names.dropLast else names) ++ others) x y
      fun a b => b = Steps.namedType w.homes a) (args : List JavaType)
    (body : ∀ created, Visits w ns (f created) (g (Steps.namedType w.homes created)) Eq) :
    Steps w (names ++ others ++ Nodes.idents ns)
      (x >>= fun created => Resolve.callConstructor (w.first.ident name) created args >>= fun _ => f created)
      (y >>= fun created => Resolve.callConstructor (w.second.ident name) created args >>= fun _ => g created)
      Eq := by
  apply Steps.bindLeaves (fun n => (if n.info.isSome then [name] else []) ++ Nodes.idents ns) found
  · rintro created _ rfl
    exact (Steps.callConstructor name created args).bind fun _ _ _ => body created
  · intro created i
    have whole := Nodes.split_path names
    rw [last] at whole
    have count := congrArg (List.count i) whole
    cases created.info.isSome with
    | true =>
      simp only [if_true, List.count_append, Option.toList_some] at count ⊢
      omega
    | false =>
      simp only [Bool.false_eq_true, if_false, List.count_append, List.count_nil]
      omega

end

mutual

theorem typeRef {w : Twins} : ∀ t : TypeRef,
    Visits w (Nodes.typeRef t) (Resolve.typeRef (w.first.typeRef t)) (Resolve.typeRef (w.second.typeRef t)) Eq
  | .primitive keyword _ => .pure rfl
  | .array element dims _ => (typeRef element).bindPure fun _ _ same => congrArg _ same
  | .named segments range => by
    have inferred (l : Layout) : (WrittenType.named (l.segments segments) (l.span range)).isVar =
        (WrittenType.named segments range).isVar := l.typeRef_isVar (.named segments range)
    rw [Layout.typeRef, Layout.typeRef, Resolve.typeRef, Resolve.typeRef, inferred, inferred, Nodes.typeRef]
    split
    · exact .pure rfl
    · have whole := wholeType (w := w) (segments.map TypeSegment.name) (segmentAnnotations segments)
        (segmentArgs segments)
      rw [← Layout.segments_names, ← Layout.segments_names, ← Layout.segments_eq, ← Layout.segments_eq] at whole
      apply whole.bindPure
      rintro n _ rfl
      rfl

theorem typeRefs {w : Twins} : ∀ ts : List TypeRef,
    Visits w (Nodes.typeRefs ts) (Resolve.typeRefs (w.first.typeRefs ts))
      (Resolve.typeRefs (w.second.typeRefs ts)) Eq
  | [] => .pure rfl
  | t :: rest => (typeRef t).both (typeRefs rest)

theorem typeRef? {w : Twins} : ∀ t : Option TypeRef,
    Visits w (Nodes.typeRef? t) (Resolve.typeRef? (w.first.typeRef? t))
      (Resolve.typeRef? (w.second.typeRef? t)) Eq
  | none => .pure rfl
  | some t => typeRef t

theorem segmentAnnotations {w : Twins} : ∀ segments : List (TypeSegment Annotation),
    Passes w (Nodes.segmentAnnotations segments) (Resolve.segmentAnnotations (w.first.segments segments))
      (Resolve.segmentAnnotations (w.second.segments segments))
  | [] => .pure trivial
  | ⟨as, _, _⟩ :: rest => (annotations as).seq (segmentAnnotations rest)

theorem segmentArgs {w : Twins} : ∀ segments : List (TypeSegment Annotation),
    Visits w (Nodes.segmentArgs segments) (Resolve.segmentArgs (w.first.segments segments))
      (Resolve.segmentArgs (w.second.segments segments)) Eq
  | [] => .pure rfl
  | ⟨_, _, args⟩ :: rest => by
    have last (l : Layout) : (l.segments rest).isEmpty = rest.isEmpty := by
      rw [l.segments_eq, List.isEmpty_map]
    rw [Layout.segments, Layout.segments, Resolve.segmentArgs, Resolve.segmentArgs, last, last]
    exact (typeArgList args).both (segmentArgs rest)

theorem typeArgList {w : Twins} : ∀ args : Option (List (TypeArg Annotation)),
    Visits w (Nodes.typeArgList args) (Resolve.typeArgList (w.first.typeArgList args))
      (Resolve.typeArgList (w.second.typeArgList args)) Eq
  | none => .pure rfl
  | some args => typeArgs args

theorem typeArgs {w : Twins} : ∀ args : List (TypeArg Annotation),
    Visits w (Nodes.typeArgs args) (Resolve.typeArgs (w.first.typeArgs args))
      (Resolve.typeArgs (w.second.typeArgs args)) Eq
  | [] => .pure rfl
  | arg :: rest => (typeArg arg).both (typeArgs rest)

theorem typeArg {w : Twins} : ∀ arg : TypeArg Annotation,
    Visits w (Nodes.typeArg arg) (Resolve.typeArg (w.first.typeArg arg))
      (Resolve.typeArg (w.second.typeArg arg)) Eq
  | .type t => typeRef t
  | .wildcard _ => .pure rfl
  | .bounded bound t _ => (typeRef t).bindPure fun _ _ same => by rw [same]

theorem annotations {w : Twins} : ∀ as : List Annotation,
    Passes w (Nodes.annotations as) (Resolve.annotations (w.first.annotations as))
      (Resolve.annotations (w.second.annotations as))
  | [] => .pure trivial
  | a :: rest => (annotationUse a).seq (annotations rest)

theorem annotationUse {w : Twins} : ∀ a : Annotation,
    Passes w (Nodes.annotation a) (Resolve.annotationUse (w.first.annotationUse a))
      (Resolve.annotationUse (w.second.annotationUse a))
  | ⟨name, args, _⟩ => (mentioning (Steps.annotationType name)).bind fun c _ same => by
    rw [same]
    exact annotationArgs c args

theorem annotationArgs {w : Twins} (c : Option ClassInfo) : ∀ args : List AnnotationArg,
    Passes w (Nodes.annotationArgs args) (Resolve.annotationArgs c (w.first.annotationArgs args))
      (Resolve.annotationArgs (c.map w.homes.classInfo) (w.second.annotationArgs args))
  | [] => .pure trivial
  | ⟨name, value⟩ :: rest =>
    (mentioning (Steps.annotationElement c name)).seq ((denote value).discard.seq (annotationArgs c rest))

theorem modifiers {w : Twins} : ∀ mods : Modifiers,
    Passes w (Nodes.modifiers mods) (Resolve.modifiers (w.first.modifiers mods))
      (Resolve.modifiers (w.second.modifiers mods))
  | ⟨_, as⟩ => annotations as

theorem exprs {w : Twins} : ∀ es : List Expr,
    Visits w (Nodes.exprs es) (Resolve.exprs (w.first.exprs es)) (Resolve.exprs (w.second.exprs es)) Eq
  | [] => .pure rfl
  | e :: rest => (denote e).typeOf.both (exprs rest)

theorem exprList? {w : Twins} : ∀ es : Option (List Expr),
    Visits w (Nodes.exprList? es) (Resolve.exprList? (w.first.exprList? es))
      (Resolve.exprList? (w.second.exprList? es)) Eq
  | none => .pure rfl
  | some es => exprs es

theorem exprType? {w : Twins} : ∀ e : Option Expr,
    Visits w (Nodes.expr? e) (Resolve.exprType? (w.first.expr? e)) (Resolve.exprType? (w.second.expr? e)) Eq
  | none => .pure rfl
  | some e => (denote e).typeOf

theorem denote? {w : Twins} : ∀ e : Option Expr,
    Visits w (Nodes.expr? e) (Resolve.denote? (w.first.expr? e)) (Resolve.denote? (w.second.expr? e))
      fun a b => b = a.map w.homes.receiver
  | none => .pure rfl
  | some e => (denote e).bindPure fun _ _ same => congrArg some same

theorem denote {w : Twins} : ∀ e : Expr,
    Visits w (Nodes.expr e) (Resolve.denote (w.first.expr e)) (Resolve.denote (w.second.expr e))
      fun a b => b = w.homes.receiver a
  | .literal kind _ => .pure rfl
  | .name name => mentioning (Steps.nameChain [name])
  | .field target name range => by
    have chains (l : Layout) := l.expr_nameChain? target
    cases chain : target.nameChain? with
    | some names =>
      have whole : (Expr.field target name range).nameChain? = some (names ++ [name]) := by
        rw [Expr.nameChain?, chain]
        rfl
      have named := mentioning (Steps.nameChain (w := w) (names ++ [name]))
      rw [Nodes.expr_of_chain _ whole]
      simp only [Layout.expr, Resolve.denote, chains, chain, Option.map_some]
      rw [List.map_append, List.map_append] at named
      exact named
    | none =>
      simp only [Layout.expr, Resolve.denote, chains, chain, Option.map_none]
      refine ((denote target).bind fun r _ same => ?_).valueOf
      rw [same]
      exact mentioning (Steps.selectMember r name)
  | .call target types name args _ =>
    ((typeRefs types).discard.seq ((denote? target).bind fun r _ same => by
      subst same
      refine after (Steps.calledMethods r name.text) fun candidates _ same => ?_
      subst same
      refine (exprs args).bind fun given _ same => ?_
      subst same
      exact mentioning (Steps.callMethod name candidates given))).valueOf
  | .delegate kind keyword qualifier args _ =>
    ((denote? qualifier).discard.seq ((exprs args).bind fun given _ same => by
      subst same
      exact (mentioning (Steps.callDelegate kind keyword given)).bindPure fun _ _ _ => rfl)).valueOf
  | .create qualifier (.primitive keyword typeRange) args body range =>
    ((exprs args).bind fun _ _ _ => passing (Visits.pure rfl)).valueOf
  | .create qualifier (.array element dims typeRange) args body range =>
    ((exprs args).bind fun _ _ _ => passing ((typeRef element).bindPure fun _ _ same => congrArg _ same)).valueOf
  | .create none (.named [] typeRange) args body range =>
    ((exprs args).bind fun _ _ _ => Visits.pure rfl).valueOf
  | .create (some outer) (.named [] typeRange) args body range =>
    ((exprs args).bind fun _ _ _ => Visits.pure rfl).valueOf
  | .create none (.named (first :: rest) typeRange) args body range => by
    obtain ⟨name, last⟩ : ∃ name, ((first :: rest).map TypeSegment.name).getLast? = some name :=
      ⟨_, List.getLast?_eq_some_getLast (by simp)⟩
    have names (l : Layout) : (l.segments (first :: rest)).map TypeSegment.name =
        ((first :: rest).map TypeSegment.name).map l.ident := by rw [l.segments_eq, l.segments_names]
    have laid (l : Layout) : (((first :: rest).map TypeSegment.name).map l.ident).getLast? =
        some (l.ident name) := by rw [List.getLast?_map, last]; rfl
    simp only [Nodes.expr, Layout.expr, Layout.expr?, Layout.typeRef, Resolve.denote, names, laid,
      List.isEmpty_cons, Bool.false_eq_true, if_false]
    refine ((exprs args).bind fun given _ same => ?_).valueOf
    subst same
    change Visits w _
      (Resolve.namedType (((first :: rest).map TypeSegment.name).map w.first.ident) false
        (Resolve.segmentAnnotations (w.first.segments (first :: rest)))
        (Resolve.segmentArgs (w.first.segments (first :: rest))) >>= fun created =>
          Resolve.callConstructor (w.first.ident name) created given >>= fun _ =>
            Resolve.createdBody created (w.first.mark range) (w.first.unnamedBody body))
      (Resolve.namedType (((first :: rest).map TypeSegment.name).map w.second.ident) false
        (Resolve.segmentAnnotations (w.second.segments (first :: rest)))
        (Resolve.segmentArgs (w.second.segments (first :: rest))) >>= fun created =>
          Resolve.callConstructor (w.second.ident name) created given >>= fun _ =>
            Resolve.createdBody created (w.second.mark range) (w.second.unnamedBody body)) Eq
    have found := Steps.createdType (w := w) ((first :: rest).map TypeSegment.name)
      (segmentAnnotations (first :: rest)) (segmentArgs (first :: rest))
    refine Steps.regroup (construction last found given fun created => createdBody created range body) fun i => ?_
    simp only [Nodes.idents_append, Nodes.idents_mentions, List.count_append]
  | .create (some outer) (.named (first :: rest) typeRange) args body range => by
    obtain ⟨name, last⟩ : ∃ name, ((first :: rest).map TypeSegment.name).getLast? = some name :=
      ⟨_, List.getLast?_eq_some_getLast (by simp)⟩
    have laid (l : Layout) : ((l.segments (first :: rest)).map TypeSegment.name).getLast? =
        some (l.ident name) := by
      rw [l.segments_eq, l.segments_names, List.getLast?_map, last]
      rfl
    simp only [Nodes.expr, Layout.expr, Layout.expr?, Layout.typeRef, Resolve.denote, laid, last,
      List.isEmpty_cons, Bool.false_eq_true, if_false]
    refine ((exprs args).bind fun given _ same => ?_).valueOf
    subst same
    change Visits w _ (Resolve.denote (w.first.expr outer) >>= fun r =>
        Resolve.innerClass r (w.first.ident name) >>= fun created =>
          Resolve.callConstructor (w.first.ident name) created given >>= fun _ =>
            Resolve.createdBody created (w.first.mark range) (w.first.unnamedBody body))
      (Resolve.denote (w.second.expr outer) >>= fun r =>
        Resolve.innerClass r (w.second.ident name) >>= fun created =>
          Resolve.callConstructor (w.second.ident name) created given >>= fun _ =>
            Resolve.createdBody created (w.second.mark range) (w.second.unnamedBody body)) Eq
    refine (denote outer).bind fun r _ same => skipping ?_
    subst same
    have found : w.Leaves (fun n => (if n.info.isSome then [name].dropLast else [name]) ++ [])
        (Resolve.innerClass r (w.first.ident name))
        (Resolve.innerClass (w.homes.receiver r) (w.second.ident name))
        fun a b => b = Steps.namedType w.homes a := by
      simp only [List.append_nil]
      exact Steps.innerClass r name
    exact construction rfl found given fun created => createdBody created range body
  | .createArray element sizes init _ => by
    have dims (l : Layout) : (l.exprs sizes).length = sizes.length := by rw [l.exprs_eq, List.length_map]
    simp only [Layout.expr, Resolve.denote, dims]
    refine ((typeRef element).bind fun type _ same => ?_).valueOf
    subst same
    exact (exprs sizes).discard.seq ((exprList? init).discard.bindPure fun _ _ _ => rfl)
  | .arrayInit elements _ => ((exprs elements).discard.bindPure fun _ _ _ => rfl).valueOf
  | .index array index _ => by
    refine ((denote array).typeOf.bind fun type _ same => ?_).valueOf
    subst same
    exact (denote index).discard.bindPure fun _ _ _ => rfl
  | .unary op operand _ => ((denote operand).typeOf.bindPure fun _ _ same => congrArg _ same).valueOf
  | .binary op left right _ => ((denote left).typeOf.both (denote right).typeOf).valueOf
  | .assign target value _ =>
    ((denote target).typeOf.bind fun _ _ same => (denote value).discard.bindPure fun _ _ _ => same).valueOf
  | .conditional condition thenValue elseValue _ =>
    ((denote condition).discard.seq ((denote thenValue).typeOf.both (denote elseValue).typeOf)).valueOf
  | .cast type bounds value _ =>
    ((typeRef type).bind fun _ _ same => (typeRefs bounds).discard.seq
      ((denote value).discard.bindPure fun _ _ _ => same)).valueOf
  | .instanceOf value type binding _ => by
    refine ((denote value).discard.seq ((typeRef type).bind fun checked _ same => ?_)).valueOf
    subst same
    cases binding with
    | none => exact .pure rfl
    | some name =>
      have signed : w.alike → Signature.pattern (w.first.typeRef type) (w.first.ident name) =
          Signature.pattern (w.second.typeRef type) (w.second.ident name) :=
        fun alike => by rw [(w.verbatim alike).1]
      exact (declaring (Steps.declareLocal name .localVariable checked signed)).bindPure fun _ _ _ => rfl
  | .lambda params body _ =>
    ((((lambdaParams params).seq (denote body).discard).inScope .block).bindPure fun _ _ _ => rfl).valueOf
  | .blockLambda params body _ =>
    ((((lambdaParams params).seq (blockBody body)).inScope .block).bindPure fun _ _ _ => rfl).valueOf
  | .methodRef target name _ =>
    ((denote target).bind fun r _ same => by
      subst same
      exact (mentioning (Steps.mentionMethod r name)).bindPure fun _ _ _ => rfl).valueOf
  | .typeMethodRef target name _ =>
    ((typeRef target).bind fun t _ same => by
      subst same
      refine after (Steps.receiverOfType t) fun r _ same => ?_
      subst same
      exact (mentioning (Steps.mentionMethod r name)).bindPure fun _ _ _ => rfl).valueOf
  | .this qualifier _ => by
    refine ((denote? qualifier).before fun found _ same => ?_).valueOf
    subst same
    cases found with
    | none => exact Steps.thisType
    | some outer => exact .pure (w.homes.receiver_type outer).symm
  | .super qualifier _ => by
    refine (denote? qualifier).before fun found _ same => ?_
    subst same
    exact Steps.superOf found
  | .classLiteral type _ => ((typeRef type).discard.bindPure fun _ _ _ => rfl).valueOf
  | .paren inner _ => (denote inner).typeOf.valueOf
  | .switching selector cases _ => by
    simp only [Layout.expr, Resolve.denote, arrows]
    refine ((denote selector).typeOf.bind fun type _ same => ?_).valueOf
    subst same
    exact (switchScope cases (switchCases type _ cases)).bindPure fun _ _ _ => rfl
  | .annotated a => ((annotationUse a).bindPure fun _ _ _ => rfl).valueOf

theorem lambdaParams {w : Twins} : ∀ params : List LambdaParam,
    Passes w (Nodes.lambdaParams params) (Resolve.lambdaParams (w.first.lambdaParams params))
      (Resolve.lambdaParams (w.second.lambdaParams params))
  | [] => .pure trivial
  | ⟨mods, type, name⟩ :: rest => by
    refine (modifiers mods).seq ((typeRef? type).bind fun t _ same => after Steps.setting fun s s' set => ?_)
    subst same
    have signed := set.alike fun source l => Signature.lambdaParam source (l.lambdaParam ⟨mods, type, name⟩)
    exact (declaring (Steps.declareLocal name .parameter t signed)).seq (lambdaParams rest)

theorem createdBody {w : Twins} (created : NamedType) (span : Span) : ∀ body : Option (List Member),
    Visits w (Nodes.unnamedBody body)
      (Resolve.createdBody created (w.first.mark span) (w.first.unnamedBody body))
      (Resolve.createdBody (Steps.namedType w.homes created) (w.second.mark span) (w.second.unnamedBody body)) Eq
  | none => .pure rfl
  | some body => by
    refine after (Steps.unnamedClass created.info created.type body span) fun found _ same => ?_
    subst same
    cases found with
    | none => exact .pure rfl
    | some c =>
      have inner := Steps.inClass (w := w) c [] (members (.start c) body)
      exact skipping (inside (Visits.bindPure (Steps.enclosedBy (some c.symbol) inner) fun _ _ _ => rfl))

theorem blockBody {w : Twins} : ∀ b : Block,
    Passes w (Nodes.block b) (Resolve.blockBody (w.first.block b)) (Resolve.blockBody (w.second.block b))
  | ⟨body, _⟩ => (stmts body).inScope .block

theorem blockBody? {w : Twins} : ∀ b : Option Block,
    Passes w (Nodes.block? b) (Resolve.blockBody? (w.first.block? b)) (Resolve.blockBody? (w.second.block? b))
  | none => .pure trivial
  | some b => blockBody b

theorem stmts {w : Twins} : ∀ ss : List Stmt,
    Passes w (Nodes.stmts ss) (Resolve.stmts (w.first.stmts ss)) (Resolve.stmts (w.second.stmts ss))
  | [] => .pure trivial
  | s :: rest => (stmt s).seq (stmts rest)

theorem stmt {w : Twins} : ∀ s : Stmt,
    Passes w (Nodes.stmt s) (Resolve.stmt (w.first.stmt s)) (Resolve.stmt (w.second.stmt s))
  | .locals decl => varDecl none decl
  | .localType decl => typeDecl (Steps.localClass decl) decl
  | .expr value => (denote value).discard
  | .block body => blockBody body
  | .ifThen condition thenBranch => (denote condition).discard.seq ((stmt thenBranch).inScope .block)
  | .ifElse condition thenBranch elseBranch =>
    (denote condition).discard.seq
      (((stmt thenBranch).inScope .block).seq ((stmt elseBranch).inScope .block))
  | .whileLoop condition body => (denote condition).discard.seq ((stmt body).inScope .block)
  | .doLoop body condition => ((stmt body).inScope .block).seq (denote condition).discard
  | .forLoop init condition update body =>
    ((stmts init).seq ((exprType? condition).discard.seq
      ((exprs update).discard.seq ((stmt body).inScope .block)))).inScope .block
  | .forEach decl iterable body =>
    ((denote iterable).typeOf.bind fun _ _ same => by
      subst same
      exact (varDecl _ decl).seq ((stmt body).inScope .block)).inScope .block
  | .returning value => (exprType? value).discard
  | .throwing value => (denote value).discard
  | .yielding value => (denote value).discard
  | .breaking _ => .pure trivial
  | .continuing _ => .pure trivial
  | .trying resources body catches closing =>
    (((stmts resources).seq (blockBody body)).inScope .block).seq
      ((catchClauses catches).seq (blockBody? closing))
  | .switching selector cases _ => by
    simp only [Layout.stmt, Resolve.stmt, arrows]
    refine (denote selector).typeOf.bind fun type _ same => ?_
    subst same
    exact switchScope cases (switchCases type _ cases)
  | .synchronized lock body => (denote lock).discard.seq (blockBody body)
  | .labeled _ body => stmt body
  | .asserting condition message => (denote condition).discard.seq (exprType? message).discard
  | .empty => .pure trivial

theorem varDecl {w : Twins} (element : Option JavaType) : ∀ d : VarDecl,
    Passes w (Nodes.varDecl d) (Resolve.varDecl element (w.first.varDecl d))
      (Resolve.varDecl element (w.second.varDecl d))
  | ⟨mods, type, declarators⟩ => by
    simp only [Layout.varDecl, Resolve.varDecl, Layout.typeRef_isVar]
    refine (modifiers mods).seq ((typeRef type).bind fun _ _ same => ?_)
    subst same
    exact varDeclarators mods type _ _ declarators

theorem varDeclarators {w : Twins} (mods : Modifiers) (type : TypeRef) (given : Option JavaType)
    (inferred : Bool) : ∀ ds : List Declarator,
    Passes w (Nodes.varDeclarators ds)
      (Resolve.varDeclarators (w.first.modifiers mods) (w.first.typeRef type) given inferred
        (w.first.declarators ds))
      (Resolve.varDeclarators (w.second.modifiers mods) (w.second.typeRef type) given inferred
        (w.second.declarators ds))
  | [] => .pure trivial
  | ⟨name, dims, init⟩ :: rest => by
    refine after Steps.setting fun s s' set => ?_
    have signed := set.alike fun source l =>
      Signature.declarator source (l.modifiers mods) (l.typeRef type) (l.declarator ⟨name, dims, init⟩)
    have declared := Steps.declareVariable name
      (given.map (JavaType.arrayOf (if inferred then 0 else dims))) signed (exprType? init)
    exact (declaringWith declared).seq (varDeclarators mods type given inferred rest)

theorem catchClauses {w : Twins} : ∀ cs : List CatchClause,
    Passes w (Nodes.catchClauses cs) (Resolve.catchClauses (w.first.catchClauses cs))
      (Resolve.catchClauses (w.second.catchClauses cs))
  | [] => .pure trivial
  | ⟨mods, types, name, body⟩ :: rest => by
    refine Visits.seq (R := fun _ _ => True) (Visits.inScope .block ((modifiers mods).seq
      ((typeRefs types).bind fun caught _ same => ?_))) (catchClauses rest)
    subst same
    have signed : w.alike → Signature.caught (w.first.typeRefs types) (w.first.ident name) =
        Signature.caught (w.second.typeRefs types) (w.second.ident name) :=
      fun alike => by rw [(w.verbatim alike).1]
    exact (declaring (Steps.declareLocal name .localVariable _ signed)).seq (blockBody body)

theorem switchCases {w : Twins} (selector : JavaType) (own : Bool) : ∀ cases : List SwitchCase,
    Passes w (Nodes.switchCases cases) (Resolve.switchCases selector own (w.first.switchCases cases))
      (Resolve.switchCases selector own (w.second.switchCases cases))
  | [] => .pure trivial
  | .group labels guard body :: rest =>
    (((caseLabels selector labels).seq ((exprType? guard).discard.seq (stmts body))).inScopeIf own).seq
      (switchCases selector own rest)
  | .rule labels guard body :: rest =>
    (((caseLabels selector labels).seq ((exprType? guard).discard.seq (stmt body))).inScopeIf own).seq
      (switchCases selector own rest)

theorem caseLabels {w : Twins} (selector : JavaType) : ∀ labels : List CaseLabel,
    Passes w (Nodes.caseLabels labels) (Resolve.caseLabels selector (w.first.caseLabels labels))
      (Resolve.caseLabels selector (w.second.caseLabels labels))
  | [] => .pure trivial
  | .default :: rest => caseLabels selector rest
  | .expr value :: rest =>
    Visits.seq (Steps.caseLabel selector value (denote value).discard) (caseLabels selector rest)
  | .pattern type name :: rest => by
    refine (typeRef type).bind fun checked _ same => ?_
    subst same
    have signed : w.alike → Signature.pattern (w.first.typeRef type) (w.first.ident name) =
        Signature.pattern (w.second.typeRef type) (w.second.ident name) :=
      fun alike => by rw [(w.verbatim alike).1]
    exact (declaring (Steps.declareLocal name .localVariable checked signed)).seq (caseLabels selector rest)

theorem typeDecl {w : Twins} {find find' : Resolve (Option (ClassInfo × List (String × Symbol)))}
    (found : Steps w [] find find' fun a b => b = a.map (Steps.withVars w.homes)) : ∀ d : TypeDecl,
    Passes w (Nodes.typeDecl d) (Resolve.typeDecl find (w.first.typeDecl d))
      (Resolve.typeDecl find' (w.second.typeDecl d))
  | ⟨kind, mods, name, params, extending, implementing, permitting, components, constants, body, doc,
      range⟩ => by
    let d : TypeDecl := ⟨kind, mods, name, params, extending, implementing, permitting, components,
      constants, body, doc, range⟩
    refine after found fun r _ same => ?_
    subst same
    cases r with
    | none => exact .pure trivial
    | some r =>
      obtain ⟨c, vars⟩ := r
      have bound (l : Layout) : Resolve.boundTypeParams vars (l.typeParams params) =
          Resolve.boundTypeParams vars params := by rw [l.typeParams_eq, Steps.boundTypeParams]
      refine skipping ((modifiers mods).seq (after Steps.setting fun s s' set => ?_))
      have signed := set.alike fun source l => Signature.typeDecl source (l.typeDecl d)
      refine (declaring (Steps.define name c.symbol [] signed)).seq (inside ?_)
      refine Steps.enclosedBy (some c.symbol) (Steps.inClass c vars ?_)
      rw [bound, bound]
      exact (typeParams _ params).seq ((typeRefs extending).discard.seq ((typeRefs implementing).discard.seq
        ((typeRefs permitting).discard.seq ((enumConstants c constants).seq
          ((recordComponents c components).seq (members (.start c) body))))))

theorem typeParams {w : Twins} : ∀ (symbols : List (Option Symbol)) (ps : List TypeParam),
    Passes w (Nodes.typeParams ps) (Resolve.typeParams symbols (w.first.typeParams ps))
      (Resolve.typeParams symbols (w.second.typeParams ps))
  | [], [] => .pure trivial
  | _ :: _, [] => .pure trivial
  | [], ⟨_, _, _⟩ :: _ => .pure trivial
  | none :: symbols, ⟨as, name, bounds⟩ :: rest =>
    skipping (skipping (skipping (typeParams symbols rest)))
  | some symbol :: symbols, ⟨as, name, bounds⟩ :: rest => by
    have signed : w.alike → Signature.typeParam (w.first.typeParam ⟨as, name, bounds⟩) =
        Signature.typeParam (w.second.typeParam ⟨as, name, bounds⟩) := fun alike => by rw [(w.verbatim alike).1]
    exact (annotations as).seq ((declaring (Steps.defineUndocumented name symbol signed)).seq
      ((typeRefs bounds).discard.seq (typeParams symbols rest)))

theorem enumConstants {w : Twins} (c : ClassInfo) : ∀ ks : List EnumConstant,
    Passes w (Nodes.enumConstants ks) (Resolve.enumConstants c (w.first.enumConstants ks))
      (Resolve.enumConstants (w.homes.classInfo c) (w.second.enumConstants ks))
  | [] => .pure trivial
  | ⟨as, name, args, body, doc⟩ :: rest => by
    refine (annotations as).seq (after (Steps.nameOrReport name _) fun symbol _ same => ?_)
    subst same
    cases symbol with
    | none => exact skipping (enumConstants c rest)
    | some symbol =>
      have signed : w.alike → Signature.constant (w.first.enumConstant ⟨as, name, args, body, doc⟩) =
          Signature.constant (w.second.enumConstant ⟨as, name, args, body, doc⟩) :=
        fun alike => by rw [(w.verbatim alike).1]
      have inner := (exprList? (w := w) args).discard.seq (createdBody ⟨c.selfType, some c⟩ name.range body).discard
      have defined : Passes w (Nodes.declaration name)
          (Resolve.define (w.first.ident name) symbol _ (w.first.doc doc) [])
          (Resolve.define (w.second.ident name) symbol _ (w.second.doc doc) []) :=
        declaring (Steps.define name symbol [] signed)
      exact grouped ((defined.seq (Steps.inBody (some symbol) inner)).seq (enumConstants c rest))

theorem recordComponents {w : Twins} (c : ClassInfo) : ∀ ps : List Param,
    Passes w (Nodes.recordComponents ps) (Resolve.recordComponents c (w.first.params ps))
      (Resolve.recordComponents (w.homes.classInfo c) (w.second.params ps))
  | [] => .pure trivial
  | ⟨mods, type, varargs, name, range⟩ :: rest => by
    refine (modifiers mods).seq (after (Steps.nameOrReport name _) fun symbol _ same => ?_)
    subst same
    have later := (typeRef (w := w) type).discard.seq (recordComponents c rest)
    cases symbol with
    | none => exact skipping later
    | some symbol =>
      refine after Steps.setting fun s s' set => ?_
      have signed := set.alike fun source l => Signature.param source (l.param ⟨mods, type, varargs, name, range⟩)
      exact (declaring (Steps.defineUndocumented name symbol signed)).seq later

theorem members {w : Twins} (names : MemberNames) : ∀ ms : List Member,
    Passes w (Nodes.members ms) (Resolve.members names (w.first.members ms))
      (Resolve.members (Steps.memberNames w.homes names) (w.second.members ms))
  | [] => .pure trivial
  | m :: rest => by
    have met : names.after (w.first.member m) = names.after m := Steps.after_member w.first names m
    have met' : (Steps.memberNames w.homes names).after (w.second.member m) =
        Steps.memberNames w.homes (names.after m) := by
      rw [Steps.after_member, Steps.after_memberNames]
    simp only [Layout.members, Resolve.members, met, met']
    exact (member names m).seq (members (names.after m) rest)

theorem member {w : Twins} (names : MemberNames) : ∀ m : Member,
    Passes w (Nodes.member m) (Resolve.member names (w.first.member m))
      (Resolve.member (Steps.memberNames w.homes names) (w.second.member m))
  | .field ⟨mods, type, declarators⟩ doc _ =>
    (modifiers mods).seq ((typeRef type).discard.seq (fieldDeclarators names mods type doc declarators))
  | .method m => by
    have symbols := Steps.callable w.homes w.first w.second names m
    simp only [Layout.member, Resolve.member, symbols]
    exact methodDecl names.info _ m
  | .initializer _ body => Steps.inBody none (blockBody body)
  | .type d => by
    have named (l : Layout) : (l.typeDecl d).name.text = d.name.text := by rw [l.typeDecl_eq]; rfl
    simp only [Layout.member, Resolve.member, named]
    exact typeDecl (Steps.knownClass d (names.info.qualifiedName ++ "." ++ d.name.text)) d

theorem fieldDeclarators {w : Twins} (names : MemberNames) (mods : Modifiers) (type : TypeRef)
    (doc : Option Comment) : ∀ ds : List Declarator,
    Passes w (Nodes.varDeclarators ds)
      (Resolve.fieldDeclarators names (w.first.modifiers mods) (w.first.typeRef type) (w.first.doc doc)
        (w.first.declarators ds))
      (Resolve.fieldDeclarators (Steps.memberNames w.homes names) (w.second.modifiers mods)
        (w.second.typeRef type) (w.second.doc doc) (w.second.declarators ds))
  | [] => .pure trivial
  | ⟨name, dims, init⟩ :: rest => by
    refine after (Steps.nameOrReport name _) fun symbol _ same => ?_
    subst same
    cases symbol with
    | none => exact skipping (fieldDeclarators names mods type doc rest)
    | some symbol =>
      refine after Steps.setting fun s s' set => ?_
      have signed := set.alike fun source l =>
        Signature.declarator source (l.modifiers mods) (l.typeRef type) (l.declarator ⟨name, dims, init⟩)
      have defined : Passes w (Nodes.declaration name)
          (Resolve.define (w.first.ident name) symbol _ (w.first.doc doc) [])
          (Resolve.define (w.second.ident name) symbol _ (w.second.doc doc) []) :=
        declaring (Steps.define name symbol [] signed)
      exact grouped ((defined.seq (fieldInit symbol init)).seq (fieldDeclarators names mods type doc rest))

theorem fieldInit {w : Twins} (symbol : Symbol) : ∀ init : Option Expr,
    Passes w (Nodes.expr? init) (Resolve.fieldInit symbol (w.first.expr? init))
      (Resolve.fieldInit symbol (w.second.expr? init))
  | none => .pure trivial
  | some e => Steps.inBody (some symbol) (denote e).discard

theorem methodDecl {w : Twins} (c : ClassInfo) (symbol : Except NamingError Symbol) : ∀ m : MethodDecl,
    Passes w (Nodes.methodDecl m) (Resolve.methodDecl c symbol (w.first.methodDecl m))
      (Resolve.methodDecl (w.homes.classInfo c) symbol (w.second.methodDecl m))
  | ⟨mods, params, returns, name, parameters, throwing, body, defaultValue, compact, doc, range⟩ => by
    let m : MethodDecl := ⟨mods, params, returns, name, parameters, throwing, body, defaultValue,
      compact, doc, range⟩
    refine after (Steps.nameOrReport name symbol) fun symbol _ same => ?_
    subst same
    cases symbol with
    | none => exact .pure trivial
    | some symbol =>
      refine (modifiers mods).seq (after (Steps.overriddenBy c symbol m) fun overrides _ same => ?_)
      subst same
      refine after Steps.setting fun s s' set => ?_
      have signed := set.alike fun source l => Signature.method source (l.methodDecl m)
      refine (declaring (Steps.define name symbol overrides signed)).seq ?_
      have made := Steps.methodTypeParams (w := w) symbol params
      rw [← Layout.typeParams_eq, ← Layout.typeParams_eq] at made
      refine Steps.inBody (some symbol) (after made fun symbols _ same => ?_)
      subst same
      exact (typeParams symbols params).seq ((typeRef? returns).discard.seq ((methodParams parameters).seq
        ((typeRefs throwing).discard.seq ((blockBody? body).seq (exprType? defaultValue).discard))))

theorem methodParams {w : Twins} : ∀ ps : List Param,
    Passes w (Nodes.methodParams ps) (Resolve.methodParams (w.first.params ps))
      (Resolve.methodParams (w.second.params ps))
  | [] => .pure trivial
  | ⟨mods, type, varargs, name, range⟩ :: rest => by
    refine (modifiers mods).seq ((typeRef type).bind fun t _ same => after Steps.setting fun s s' set => ?_)
    subst same
    have signed := set.alike fun source l => Signature.param source (l.param ⟨mods, type, varargs, name, range⟩)
    exact (declaring (Steps.declareLocal name .parameter _ signed)).seq (methodParams rest)

end

theorem topTypes {w : Twins} (package : String) (ds : List TypeDecl) :
    Passes w (Nodes.topTypes ds) (Resolve.topTypes package (w.first.typeDecls ds))
      (Resolve.topTypes package (w.second.typeDecls ds)) := by
  induction ds with
  | nil => exact .pure trivial
  | cons d rest ih =>
    have named (l : Layout) : (l.typeDecl d).name.text = d.name.text := by rw [l.typeDecl_eq]; rfl
    simp only [Layout.typeDecls, Resolve.topTypes, named]
    exact (typeDecl (Steps.knownClass d (Dotted.within package d.name.text)) d).seq ih

theorem importDecls {w : Twins} (is : List ImportDecl) :
    Passes w (Nodes.importDecls is) (Resolve.importDecls (is.map w.first.importDecl))
      (Resolve.importDecls (is.map w.second.importDecl)) := by
  induction is with
  | nil => exact .pure trivial
  | cons i rest ih => exact (mentioning (Steps.importDecl i)).seq ih

theorem unit {w : Twins} (u : CompilationUnit) :
    Passes w (Nodes.unit u) (Resolve.unit (w.first.unit u)) (Resolve.unit (w.second.unit u)) := by
  obtain ⟨package, imports, types⟩ := u
  have rest := (importDecls (w := w) imports).seq
    (topTypes (CompilationUnit.packageName ⟨package, imports, types⟩) types)
  unfold Resolve.unit
  rw [Layout.packageName_unit, Layout.packageName_unit]
  refine after Steps.environment fun env env' moves => ?_
  rw [moves.packageSymbol]
  refine Steps.withScopes ?_ fun _ => rfl
  cases package with
  | none => exact rest
  | some p => exact (annotations p.annotations).seq rest

end TwinTraversal

/-! From one end of a file to the other. -/

namespace Twins

variable {w : Twins}

/-- Nothing noted. -/
def nothing : Log := ⟨[], [], []⟩

theorem Set.ofUnit (lines : w.lines = .ofText w.source) (lines' : w.lines' = .ofText w.source')
    (u : CompilationUnit) (config : Config) :
    w.Set (.ofUnit ⟨w.file, w.first.unit u⟩ w.source config) (.ofUnit ⟨w.file', w.second.unit u⟩ w.source' config) where
  file := rfl
  file' := rfl
  lines := lines.symm
  lines' := lines'.symm
  source := rfl
  source' := rfl
  config := rfl
  imports := by
    change Imports.ofUnit (w.second.unit u) _ = Imports.ofUnit (w.first.unit u) _
    rw [Layout.imports_unit, Layout.imports_unit]

theorem Meet.start {project project' : ProjectClasses} {external external' : ExternalTable}
    (moves : w.homes.Moves (.start project external) (.start project' external')) (config : Config) :
    w.Meet nothing (.start project external config) (.start project' external' config) where
  scopes := rfl
  enclosing := rfl
  moves := moves
  typeParams := rfl
  classCount := rfl
  ids := rfl
  notes := rfl
  notes' := rfl
  facts := rfl
  facts' := rfl
  problems := rfl
  problems' := rfl
  documented := fun _ _ h => by cases h
  signed := fun _ _ h => by cases h
  told := fun _ h => by cases h
  found := fun _ h => by cases h

/-- What both runs have noted in the end. -/
structure Tells (w : Twins) (words : List Ident) (log : Log) (index index' : UnitIndex) : Prop where
  fewer : FewerWords (log.notes.map Note.name) words
  index : index = .ofEmission w.file ⟨log.notes.map w.occurrence, log.facts.map info⟩
    (log.problems.map w.diagnostic).reverse
  index' : index' = .ofEmission w.file' ⟨log.notes.map w.occurrence', log.facts.map info'⟩
    (log.problems.map w.diagnostic').reverse
  documented : w.alike → ∀ n ∈ log.notes, n.documentation = n.documentation'
  signed : w.alike → ∀ f ∈ log.facts, f.signature = f.signature'
  told : ∀ f ∈ log.facts, f.signature.isSome = true ∧ f.signature'.isSome = true
  found : ∀ p ∈ log.problems, p.2.code ≠ .overlappingOccurrence

/-- The indexes of a tree in two texts, told by one log. -/
theorem index {project project' : ProjectClasses} {external external' : ExternalTable}
    (lines : w.lines = .ofText w.source) (lines' : w.lines' = .ofText w.source')
    (moves : w.homes.Moves (.start project external) (.start project' external')) (u : CompilationUnit)
    (config : Config) : ∃ log, w.Tells (Nodes.idents (Nodes.unit u)) log
      (SourceUnit.index ⟨w.file, w.first.unit u⟩ w.source project external config)
      (SourceUnit.index ⟨w.file', w.second.unit u⟩ w.source' project' external' config) := by
  have set := Set.ofUnit lines lines' u config
  obtain ⟨-, log, ⟨more, grown, fewer⟩, meet⟩ := TwinTraversal.unit (w := w) u _ _ _ _ _ set
    (.start moves config)
  refine ⟨log, ?_, ?_, ?_, meet.documented, meet.signed, meet.told, meet.found⟩
  · rw [grown, nothing, List.append_nil]
    exact fewer
  · rw [← meet.notes, ← meet.facts, ← meet.problems]
    rfl
  · rw [← meet.notes', ← meet.facts', ← meet.problems']
    rfl

end Twins
end JavaIndex
