import JavaIndex.Proofs.Resolve.TypeSegments
import JavaIndex.Proofs.Resolve.Twins

/-! The single steps of both runs: local declarations, names, calls, descriptions of classes in bodies. Each
notes at most one mention over each name that it is given. -/
namespace JavaIndex

namespace Twins

/-- Two steps that go the same way, over words that depend on the answer. -/
def Leaves {α β : Type} (w : Twins) (words : α → List Ident) (x : Resolve α) (y : Resolve β)
    (R : α → β → Prop) : Prop :=
  ∀ s s' p p' log, w.Set s s' → w.Meet log p p' →
    R (x s p).1 (y s' p').1 ∧
      ∃ log', Longer (words (x s p).1) log log' ∧ w.Meet log' (x s p).2 (y s' p').2

theorem Leaves.within {α β : Type} {w : Twins} {ws : α → List Ident} {vs : List Ident} {x : Resolve α}
    {y : Resolve β} {R : α → β → Prop} (h : w.Leaves ws x y R) (fewer : ∀ a, FewerWords (ws a) vs) :
    Steps w vs x y R := by
  intro s s' p p' log set meet
  obtain ⟨related, log', longer, meet'⟩ := h s s' p p' log set meet
  exact ⟨related, log', longer.wider (fewer _), meet'⟩

theorem Leaves.pure {α β : Type} {w : Twins} {ws : α → List Ident} {a : α} {b : β} {R : α → β → Prop}
    (related : R a b) : w.Leaves ws (Pure.pure a) (Pure.pure b) R :=
  fun _ _ _ _ log _ meet => ⟨related, log, .refl _ log, meet⟩

end Twins

theorem FewerWords.spared (used : Bool) (ws : List Ident) : FewerWords (if used then ws else []) ws := by
  intro i
  cases used with
  | true => exact Nat.le_refl _
  | false => exact Nat.zero_le _

namespace Twins.Steps

variable {w : Twins} {ws vs : List Ident} {α β γ δ : Type} {x : Resolve α} {y : Resolve β}
  {R : α → β → Prop} {f : α → Resolve γ} {g : β → Resolve δ} {Q : γ → δ → Prop}

theorem leaves {R' : α → β → Prop} {ws : α → List Ident} (h : Steps w vs x y R)
    (words : ∀ a b, R a b → R' a b ∧ FewerWords vs (ws a)) : w.Leaves ws x y R' := by
  intro s s' p p' log set meet
  obtain ⟨related, log', longer, meet'⟩ := h s s' p p' log set meet
  obtain ⟨related', fewer⟩ := words _ _ related
  exact ⟨related', log', longer.wider fewer, meet'⟩

/-- What the first step leaves for the second one depends on its answer. -/
theorem bindLeaves {ws : α → List Ident} {all : List Ident} (left : α → List Ident)
    (first : w.Leaves ws x y R) (second : ∀ a b, R a b → Steps w (left a) (f a) (g b) Q)
    (together : ∀ a, FewerWords (ws a ++ left a) all) : Steps w all (x >>= f) (y >>= g) Q := by
  intro s s' p p' log set meet
  obtain ⟨related, log₁, longer₁, meet₁⟩ := first s s' p p' log set meet
  obtain ⟨related₂, log₂, longer₂, meet₂⟩ := second _ _ related s s' _ _ log₁ set meet₁
  exact ⟨related₂, log₂, (longer₁.trans longer₂).wider (together _), meet₂⟩

theorem leavesAfter {ws : γ → List Ident} (first : Steps w [] x y R)
    (second : ∀ a b, R a b → w.Leaves ws (f a) (g b) Q) : w.Leaves ws (x >>= f) (y >>= g) Q := by
  intro s s' p p' log set meet
  obtain ⟨related, log₁, longer₁, meet₁⟩ := first s s' p p' log set meet
  obtain ⟨related₂, log₂, longer₂, meet₂⟩ := second _ _ related s s' _ _ log₁ set meet₁
  exact ⟨related₂, log₂, longer₁.trans longer₂, meet₂⟩

/-! Local declarations. -/

theorem freshNumber : Steps w [] Resolve.freshNumber Resolve.freshNumber Eq := by
  apply quiet
  intro s s' p p' log set meet
  refine ⟨?_, { meet with ids := ?_ }⟩
  · change p.ids.fresh.1 = p'.ids.fresh.1
    rw [meet.ids]
  · change p'.ids.fresh.2 = p.ids.fresh.2
    rw [meet.ids]

theorem localSymbolIn (owner : Option Symbol) (kind : SymbolKind) (span : Span) :
    Steps w [] (Resolve.localSymbolIn owner kind (w.first.mark span))
      (Resolve.localSymbolIn owner kind (w.second.mark span)) Eq := by
  refine freshNumber.bindNone fun number _ same => ?_
  subst same
  cases Symbol.ofDeclaration (.local number kind) owner with
  | ok symbol => exact .pure rfl
  | error e => exact (report span (by simp [Problem.code])).bindPure fun _ _ _ => rfl

theorem localSymbol (kind : SymbolKind) (span : Span) :
    Steps w [] (Resolve.localSymbol kind (w.first.mark span))
      (Resolve.localSymbol kind (w.second.mark span)) Eq := by
  refine progress.bindNone fun p p' ⟨_, meet⟩ => ?_
  rw [meet.enclosing]
  exact localSymbolIn p.enclosing.head? kind span

theorem declareLocal (name : Ident) (kind : SymbolKind) (type : JavaType) {signature signature' : String}
    (signed : w.alike → signature = signature') :
    Goes w [name] (Resolve.declareLocal (w.first.ident name) kind type signature)
      (Resolve.declareLocal (w.second.ident name) kind type signature') := by
  refine (localSymbol kind name.range).bindNone fun symbol _ same => ?_
  subst same
  cases symbol with
  | none => exact .pure trivial
  | some symbol =>
    exact (defineUndocumented name symbol signed).seq (bindValue name.text ⟨symbol, type⟩)

theorem declareVariable (name : Ident) (type : Option JavaType) {signature signature' : String}
    (signed : w.alike → signature = signature') {init init' : Resolve JavaType}
    (h : Steps w ws init init' Eq) :
    Goes w (name :: ws) (Resolve.declareVariable (w.first.ident name) type signature init)
      (Resolve.declareVariable (w.second.ident name) type signature' init') := by
  refine (localSymbol .localVariable name.range).bindNone fun symbol _ same => ?_
  subst same
  cases symbol with
  | none => exact h.discard.wider fun i => List.count_le_count_cons
  | some symbol =>
    apply (defineUndocumented name symbol signed).seq
    cases type with
    | some type => exact (bindValue name.text ⟨symbol, type⟩).bindNone fun _ _ _ => h.discard
    | none =>
      have bound : Goes w (ws ++ []) (init >>= fun t => Resolve.bindValue name.text ⟨symbol, t⟩)
          (init' >>= fun t => Resolve.bindValue name.text ⟨symbol, t⟩) := by
        apply h.bind
        rintro t _ rfl
        exact bindValue name.text ⟨symbol, t⟩
      rwa [List.append_nil] at bound

/-! Names. -/

/-- The answer about the name of a type. -/
def namedType (h : Homes) (n : NamedType) : NamedType := { n with info := n.info.map h.classInfo }

theorem typePath (names : List Ident) : Steps w [] (Resolve.typePath (names.map w.first.ident))
    (Resolve.typePath (names.map w.second.ident))
    fun a b => b = a.map w.homes.segment ∧ a.length = names.length := by
  refine environment.bindNone fun env env' moves => place.bindNone fun here _ same => ?_
  subst same
  apply Steps.pure
  rw [w.first.texts, w.second.texts]
  exact ⟨moves.typePath here _, by rw [Environment.length_typePath, List.length_map]⟩

theorem mentionPath (names : List Ident) (path : List Segment) :
    Goes w names (Resolve.mentionPath (names.map w.first.ident) path)
      (Resolve.mentionPath (names.map w.second.ident) (path.map w.homes.segment)) := by
  have known : (path.map w.homes.segment).takeWhile (·.symbol?.isSome) =
      (path.takeWhile (·.symbol?.isSome)).map w.homes.segment := by
    rw [List.takeWhile_map]
    congr 2
    funext g
    simp
  have same : Segment.symbol? ∘ w.homes.segment = Segment.symbol? := by
    funext g
    simp
  simp only [Resolve.mentionPath, known, List.map_map, List.length_map, ← List.map_drop, same]
  have marked := mentionAll (w := w) names ((path.takeWhile (·.symbol?.isSome)).map Segment.symbol?)
  rw [List.length_map] at marked
  have all := marked.seq (unresolved (names.drop (path.takeWhile (·.symbol?.isSome)).length) false)
  rwa [List.take_append_drop] at all

theorem withoutClass (h : Homes) (path : List Segment) :
    Resolve.withoutClass (path.map h.segment) = (Resolve.withoutClass path).map h.segment := by
  unfold Resolve.withoutClass
  rw [List.getLast?_map]
  cases path.getLast? with
  | none => rfl
  | some g => cases g <;> simp [Homes.segment]

theorem pathClass? (h : Homes) (path : List Segment) :
    Resolve.pathClass? (path.map h.segment) = (Resolve.pathClass? path).map h.classInfo := by
  unfold Resolve.pathClass?
  rw [List.getLast?_map]
  cases path.getLast? with
  | none => rfl
  | some g => exact h.segment_class? g

/-- The name of a type, the class at its end among the names mentioned. -/
theorem wholeType (names : List Ident) {as as' : Resolve Unit} {args args' : Resolve (List JavaType)}
    (annotations : Goes w ws as as') (arguments : Steps w vs args args' Eq) :
    Steps w (names ++ (ws ++ vs)) (Resolve.namedType (names.map w.first.ident) true as args)
      (Resolve.namedType (names.map w.second.ident) true as' args')
      fun a b => b = namedType w.homes a := by
  have steps : Steps w (ws ++ (names ++ vs)) (Resolve.namedType (names.map w.first.ident) true as args)
      (Resolve.namedType (names.map w.second.ident) true as' args')
      fun a b => b = namedType w.homes a := by
    rw [Resolve.namedType_eq, Resolve.namedType_eq]
    apply (typePath names).bindNone
    rintro path _ ⟨rfl, -⟩
    refine annotations.seq ((mentionPath names path).seq (arguments.bindPure ?_))
    rintro types _ rfl
    rw [w.first.texts, w.second.texts, Homes.Moves.typeOfPath, pathClass?]
    rfl
  apply steps.regroup
  intro i
  simp only [List.count_append]
  omega

/-- A class at the end of a path is not among the names shown. -/
theorem count_shown (names : List Ident) (path : List Segment) (length : path.length = names.length)
    (i : Ident) : (names.take (Resolve.withoutClass path).length).count i ≤
      (if (Resolve.pathClass? path).isSome then names.dropLast else names).count i := by
  unfold Resolve.withoutClass Resolve.pathClass?
  cases path.getLast? with
  | none => exact (List.take_sublist _ _).count_le i
  | some g =>
    cases g with
    | ofClass c =>
      rw [List.length_dropLast, length, ← List.dropLast_eq_take]
      exact Nat.le_refl _
    | package symbol => exact (List.take_sublist _ _).count_le i
    | typeParam name symbol => exact (List.take_sublist _ _).count_le i
    | unresolved => exact (List.take_sublist _ _).count_le i

/-- The name of a type that is created. If it is a class, its own name is still to be mentioned. -/
theorem createdType (names : List Ident) {as as' : Resolve Unit} {args args' : Resolve (List JavaType)}
    (annotations : Goes w ws as as') (arguments : Steps w vs args args' Eq) :
    w.Leaves (fun n => (if n.info.isSome then names.dropLast else names) ++ (ws ++ vs))
      (Resolve.namedType (names.map w.first.ident) false as args)
      (Resolve.namedType (names.map w.second.ident) false as' args')
      fun a b => b = namedType w.homes a := by
  rw [Resolve.namedType_eq, Resolve.namedType_eq]
  apply (typePath names).leavesAfter
  rintro path _ ⟨rfl, length⟩
  have steps : Steps w (ws ++ (names.take (Resolve.withoutClass path).length ++ vs))
      (as >>= fun _ => Resolve.mentionPath ((names.map w.first.ident).take (Resolve.withoutClass path).length)
        (Resolve.withoutClass path) >>= fun _ => args >>= fun types => Pure.pure (⟨Environment.typeOfPath path
          ((names.map w.first.ident).map Ident.text) types, Resolve.pathClass? path⟩ : NamedType))
      (as' >>= fun _ => Resolve.mentionPath
        ((names.map w.second.ident).take (Resolve.withoutClass (path.map w.homes.segment)).length)
        (Resolve.withoutClass (path.map w.homes.segment)) >>= fun _ => args' >>= fun types =>
          Pure.pure (⟨Environment.typeOfPath (path.map w.homes.segment)
            ((names.map w.second.ident).map Ident.text) types,
              Resolve.pathClass? (path.map w.homes.segment)⟩ : NamedType))
      fun a b => b = namedType w.homes a ∧ a.info = Resolve.pathClass? path := by
    rw [withoutClass, List.length_map, ← List.map_take, ← List.map_take]
    refine annotations.seq ((mentionPath _ (Resolve.withoutClass path)).seq (arguments.bindPure ?_))
    rintro types _ rfl
    rw [w.first.texts, w.second.texts, Homes.Moves.typeOfPath, pathClass?]
    exact ⟨rfl, rfl⟩
  apply steps.leaves
  rintro a _ ⟨rfl, info⟩
  refine ⟨rfl, fun i => ?_⟩
  have shown := count_shown names path length i
  rw [← info] at shown
  simp only [List.count_append] at shown ⊢
  omega

/-- The name of an annotation type. -/
theorem annotationType (names : List Ident) :
    Steps w names (Resolve.annotationType (names.map w.first.ident))
      (Resolve.annotationType (names.map w.second.ident)) fun a b => b = a.map w.homes.classInfo := by
  apply (typePath names).bindNone
  rintro path _ ⟨rfl, -⟩
  apply (mentionPath names path).bindPure
  rintro - - -
  exact pathClass? w.homes path

theorem annotationElement (c : Option ClassInfo) (name : Option Ident) :
    Goes w name.toList (Resolve.annotationElement c (name.map w.first.ident))
      (Resolve.annotationElement (c.map w.homes.classInfo) (name.map w.second.ident)) := by
  cases c with
  | none => exact .pure trivial
  | some c =>
    cases name with
    | none => exact .pure trivial
    | some name => exact mention name ((c.methodsNamed name.text).head?.map MethodInfo.symbol)

theorem selected_receiver (h : Homes) (found : Option Selected) :
    ((found.map h.selected).map Selected.receiver).getD .unknown =
      h.receiver ((found.map Selected.receiver).getD .unknown) := by
  cases found <;> rfl

/-- A chain of names in an expression. -/
theorem nameChain (names : List Ident) :
    Steps w names (Resolve.nameChain (names.map w.first.ident)) (Resolve.nameChain (names.map w.second.ident))
      fun a b => b = w.homes.receiver a := by
  refine environment.bindNone fun env env' moves => place.bindNone fun here _ same => ?_
  subst same
  rw [w.first.texts, w.second.texts, moves.chain]
  generalize env.chain here (names.map Ident.text) = selected
  have same : Selected.symbol ∘ w.homes.selected = Selected.symbol := rfl
  simp only [List.map_map, List.length_map, ← List.map_drop, same]
  have marked := mentionAll (w := w) names (selected.map Selected.symbol)
  have reported := unresolved (w := w) (names.drop selected.length) true
  rw [List.length_map] at marked
  refine Steps.wider (?_ : Steps w (names.take selected.length ++ names.drop selected.length) _ _ _) ?_
  · apply marked.seq
    cases rest : names.drop selected.length with
    | nil =>
      apply Steps.pure
      rw [List.getLast?_map]
      exact selected_receiver w.homes _
    | cons name names =>
      rw [rest] at reported
      exact reported.bindPure fun _ _ _ => rfl
  · rw [List.take_append_drop]
    exact FewerWords.refl names

/-- A member selected from the value of an expression. -/
theorem selectMember (r : Receiver) (name : Ident) :
    Steps w [name] (Resolve.selectMember r (w.first.ident name))
      (Resolve.selectMember (w.homes.receiver r) (w.second.ident name)) Eq := by
  refine environment.bindNone fun env env' moves => ?_
  rw [w.first.ident_text, w.second.ident_text, moves.member?]
  cases env.member? r name.text with
  | none => exact (unresolved [name] true).bindPure fun _ _ _ => rfl
  | some s =>
    apply (mention name s.symbol).bindPure
    rintro - - -
    exact (w.homes.receiver_type s.receiver).symm

/-! Calls. -/

/-- A class with its type arguments, as the second run knows it. -/
def delegateClass? (h : Homes) (found : Option (ClassInfo × List JavaType)) :
    Option (ClassInfo × List JavaType) :=
  found.map fun c => (h.classInfo c.1, c.2)

theorem mentionSelected (name : Ident) (text : String) (candidates : List Candidate) (args : List JavaType) :
    w.Leaves (fun found => if found.isSome then [name] else [])
      (Resolve.mentionSelected (w.first.ident name).range text candidates args)
      (Resolve.mentionSelected (w.second.ident name).range text candidates args) Eq := by
  unfold Resolve.mentionSelected
  cases Selection.select candidates args with
  | unique c =>
    apply ((reference name c.symbol).bindPure (Q := fun a b => a = b ∧ a = some c) fun _ _ _ => ⟨rfl, rfl⟩).leaves
    rintro _ _ ⟨rfl, rfl⟩
    exact ⟨rfl, FewerWords.refl _⟩
  | ambiguous c survivors =>
    have found : (Problem.ambiguous text c.symbol survivors).code ≠ .overlappingOccurrence := by simp [Problem.code]
    have reported := (report (w := w) name.range found).bindPure
      (f := fun _ => some c) (g := fun _ => some c) (Q := fun a b => a = b ∧ a = some c)
      fun _ _ _ => ⟨rfl, rfl⟩
    apply ((reference name c.symbol).seq reported).leaves
    rintro _ _ ⟨rfl, rfl⟩
    exact ⟨rfl, FewerWords.refl _⟩
  | notFound =>
    exact .pure rfl

theorem calledMethods (r : Option Receiver) (name : String) :
    Steps w [] (Resolve.calledMethods r name) (Resolve.calledMethods (r.map w.homes.receiver) name) Eq := by
  cases r with
  | none =>
    refine environment.bindNone fun env env' moves => place.bindPure ?_
    rintro here _ rfl
    exact (moves.callables here name).symm
  | some r =>
    apply environment.bindPure
    intro env env' moves
    rw [w.homes.receiver_type]
    exact (moves.methods r.type name).symm

theorem callMethod (name : Ident) (candidates : List Candidate) (args : List JavaType) :
    Steps w [name] (Resolve.callMethod (w.first.ident name) candidates args)
      (Resolve.callMethod (w.second.ident name) candidates args) Eq := by
  apply bindLeaves (fun found => if found.isSome then [] else [name])
    (mentionSelected name name.text candidates args)
  · rintro found _ rfl
    cases found with
    | none => exact (unresolved [name] true).bindPure fun _ _ _ => rfl
    | some c => exact .pure rfl
  · intro found
    cases found <;> exact FewerWords.refl _

theorem delegateClass (kind : Delegate) : Steps w [] (Resolve.delegateClass kind) (Resolve.delegateClass kind)
    fun a b => b = delegateClass? w.homes a := by
  apply progress.bindNone
  rintro p p' ⟨log, meet⟩
  rw [meet.scopes, w.homes.scopes_enclosingClass?]
  cases p.scopes.enclosingClass? with
  | none => exact .pure rfl
  | some c =>
    cases kind with
    | this => exact .pure rfl
    | super =>
      simp only [Option.map_some, w.homes.classInfo_superclass]
      cases c.superclass with
      | none => exact .pure rfl
      | some t =>
        cases t with
        | named name args =>
          apply environment.bindPure
          intro env env' moves
          rw [moves.class?]
          cases env.class? name <;> rfl
        | _ => exact .pure rfl

theorem callDelegate (kind : Delegate) (keyword : Span) (args : List JavaType) :
    Goes w [⟨kind.word, keyword⟩] (Resolve.callDelegate kind (w.first.mark keyword) args)
      (Resolve.callDelegate kind (w.second.mark keyword) args) := by
  apply (delegateClass kind).bindNone
  rintro found _ rfl
  cases found with
  | none => exact .pure trivial
  | some c =>
    obtain ⟨c, typeArgs⟩ := c
    have chosen := mentionSelected (w := w) ⟨kind.word, keyword⟩ kind.word
      (Environment.constructors c typeArgs) args
    exact (chosen.within fun found => FewerWords.spared found.isSome _).discard

/-- The inner class that is created inside a given object. If it is known, its name is still to be
mentioned. -/
theorem innerClass (outer : Receiver) (name : Ident) :
    w.Leaves (fun n => if n.info.isSome then [] else [name]) (Resolve.innerClass outer (w.first.ident name))
      (Resolve.innerClass (w.homes.receiver outer) (w.second.ident name))
      fun a b => b = namedType w.homes a := by
  apply environment.leavesAfter
  intro env env' moves
  have same : ((w.homes.receiver outer).type.className?.bind env'.class?).bind
      (fun c => env'.memberType? c name.text) =
        ((outer.type.className?.bind env.class?).bind fun c => env.memberType? c name.text).map
          w.homes.classInfo := by
    rw [w.homes.receiver_type]
    cases outer.type.className? with
    | none => rfl
    | some n =>
      rw [Option.bind_some, Option.bind_some, moves.class?]
      cases env.class? n with
      | none => rfl
      | some c => exact moves.memberType? c name.text
  rw [w.first.ident_text, w.second.ident_text, same]
  cases (outer.type.className?.bind env.class?).bind fun c => env.memberType? c name.text with
  | none =>
    apply ((unresolved [name] false).bindPure
      (Q := fun a b => b = namedType w.homes a ∧ a.info = none) fun _ _ _ => ⟨rfl, rfl⟩).leaves
    rintro a _ ⟨rfl, unknown⟩
    rw [unknown]
    exact ⟨rfl, FewerWords.refl _⟩
  | some c =>
    exact .pure rfl

/-- The creation of an object. -/
theorem callConstructor (name : Ident) (created : NamedType) (args : List JavaType) :
    Goes w (if created.info.isSome then [name] else []) (Resolve.callConstructor (w.first.ident name) created args)
      (Resolve.callConstructor (w.second.ident name) (namedType w.homes created) args) := by
  obtain ⟨type, info⟩ := created
  cases info with
  | none => exact .pure trivial
  | some c =>
    apply bindLeaves (fun found => if found.isSome then [] else [name])
      (mentionSelected name name.text (Environment.constructors c (Resolve.typeArgsOf type)) args)
    · rintro found _ rfl
      cases found with
      | none => exact reference name c.symbol
      | some m => exact .pure trivial
    · intro found
      cases found <;> exact FewerWords.refl _

/-- A method that is named without arguments. -/
theorem mentionFirst (name : Ident) (candidates : List Candidate) :
    w.Leaves (fun found => if found then [name] else []) (Resolve.mentionFirst (w.first.ident name) candidates)
      (Resolve.mentionFirst (w.second.ident name) candidates) Eq := by
  cases candidates with
  | nil =>
    exact .pure rfl
  | cons c rest =>
    have steps : Steps w [name] (Resolve.mentionFirst (w.first.ident name) (c :: rest))
        (Resolve.mentionFirst (w.second.ident name) (c :: rest)) fun a b => a = b ∧ a = true := by
      unfold Resolve.mentionFirst
      refine (reference name c.symbol).bindLast fun _ _ _ => ?_
      dsimp only
      split
      · exact .pure ⟨rfl, rfl⟩
      · exact (report name.range (by simp [Problem.code])).bindPure fun _ _ _ => ⟨rfl, rfl⟩
    apply steps.leaves
    rintro _ _ ⟨rfl, rfl⟩
    exact ⟨rfl, FewerWords.refl _⟩

/-- A reference to a method or a constructor. -/
theorem mentionMethod (r : Receiver) (name : Ident) :
    Goes w [name] (Resolve.mentionMethod r (w.first.ident name))
      (Resolve.mentionMethod (w.homes.receiver r) (w.second.ident name)) := by
  have orElse {candidates : List Candidate} {x y : Resolve Unit} (h : Goes w [name] x y) :
      Goes w [name]
        (do unless ← Resolve.mentionFirst (w.first.ident name) candidates do x)
        (do unless ← Resolve.mentionFirst (w.second.ident name) candidates do y) := by
    apply bindLeaves (fun found => if found then [] else [name]) (mentionFirst name candidates)
    · rintro found _ rfl
      cases found with
      | true => exact .pure trivial
      | false => exact h
    · intro found
      cases found <;> exact FewerWords.refl _
  unfold Resolve.mentionMethod
  rw [w.first.ident_text, w.second.ident_text]
  split
  · cases r with
    | ofClass c => exact orElse (reference name c.symbol)
    | _ => exact .pure trivial
  · apply environment.bindNone
    intro env env' moves
    rw [w.homes.receiver_type, moves.methods]
    exact orElse (unresolved [name] true)

theorem receiverOfType (t : JavaType) : Steps w [] (Resolve.receiverOfType t) (Resolve.receiverOfType t)
    fun a b => b = w.homes.receiver a := by
  apply environment.bindNone
  intro env env' moves
  cases t.className? with
  | none => exact .pure rfl
  | some name =>
    rw [Option.bind_some, Option.bind_some, moves.class?]
    cases env.class? name with
    | none => exact .pure rfl
    | some c => exact .pure rfl

theorem thisType : Steps w [] Resolve.thisType Resolve.thisType Eq := by
  apply progress.bindPure
  rintro p p' ⟨log, meet⟩
  rw [meet.scopes, w.homes.scopes_enclosingClass?]
  cases p.scopes.enclosingClass? <;> rfl

theorem superOf (qualifier : Option Receiver) :
    Steps w [] (Resolve.superOf qualifier) (Resolve.superOf (qualifier.map w.homes.receiver))
      fun a b => b = w.homes.receiver a := by
  cases qualifier with
  | some r => cases r <;> exact .pure rfl
  | none =>
    apply progress.bindPure
    rintro p p' ⟨log, meet⟩
    rw [meet.scopes, w.homes.scopes_enclosingClass?]
    cases p.scopes.enclosingClass? with
    | none => rfl
    | some c =>
      rw [Option.map_some, Option.bind_some, Option.bind_some, w.homes.classInfo_superclass]
      cases c.superclass <;> rfl

/-- The constant that a case names stands as it is in both texts. -/
def namedConstant (found : Option (Ident × Symbol)) (found' : Option (Ident × Symbol)) (label : Expr)
    (l l' : Layout) : Prop :=
  (found = none ∧ found' = none) ∨
    ∃ name symbol, label = .name name ∧ found = some (l.ident name, symbol) ∧
      found' = some (l'.ident name, symbol)

theorem enumConstant (selector : JavaType) (label : Expr) :
    Steps w [] (Resolve.enumConstant? selector (w.first.expr label))
      (Resolve.enumConstant? selector (w.second.expr label))
      fun a b => namedConstant a b label w.first w.second := by
  refine environment.bindNone fun env env' moves => ?_
  have known : selector.className?.bind env'.class? =
      (selector.className?.bind env.class?).map w.homes.classInfo := by
    cases selector.className? with
    | none => rfl
    | some name => exact moves.class? name
  rw [known]
  cases label with
  | name name =>
    rw [Layout.expr, Layout.expr]
    cases selector.className?.bind env.class? with
    | none => exact .pure (.inl ⟨rfl, rfl⟩)
    | some c =>
      dsimp only [Option.map_some]
      by_cases isEnum : c.kind = .enumType
      · rw [if_pos isEnum, if_pos (show (w.homes.classInfo c).kind = .enumType from isEnum),
          w.homes.classInfo_selfType, w.first.ident_text, w.second.ident_text, moves.field?]
        apply Steps.pure
        cases env.field? c.selfType name.text with
        | none => exact .inl ⟨rfl, rfl⟩
        | some f => exact .inr ⟨name, f.symbol, rfl, rfl, rfl⟩
      · rw [if_neg isEnum, if_neg (show (w.homes.classInfo c).kind ≠ .enumType from isEnum)]
        exact .pure (.inl ⟨rfl, rfl⟩)
  | _ => exact .pure (.inl ⟨rfl, rfl⟩)

/-- A case that names a constant of an enum, or else an expression. -/
theorem caseLabel (selector : JavaType) (label : Expr) {x y : Resolve Unit}
    (h : Goes w (Nodes.words Nodes.expr label) x y) :
    Goes w (Nodes.words Nodes.expr label) (Resolve.caseLabel selector (w.first.expr label) x)
      (Resolve.caseLabel selector (w.second.expr label) y) := by
  apply (enumConstant selector label).bindNone
  rintro _ _ (⟨rfl, rfl⟩ | ⟨name, symbol, rfl, rfl, rfl⟩)
  · exact h
  · exact reference name symbol

/-! Imports. -/

/-- A fully qualified name. -/
theorem qualifiedName (names : List Ident) :
    Steps w names (Resolve.qualifiedName (names.map w.first.ident))
      (Resolve.qualifiedName (names.map w.second.ident)) fun a b => b = a.map w.homes.classInfo := by
  apply environment.bindNone
  intro env env' moves
  rw [w.first.texts, w.second.texts, moves.qualified]
  apply (mentionPath names (env.qualified (names.map Ident.text))).bindPure
  rintro - - -
  exact pathClass? w.homes _

theorem importable? {env env' : Environment} (moves : w.homes.Moves env env') (c : ClassInfo) (name : String) :
    Resolve.importable? env' (w.homes.classInfo c) name = Resolve.importable? env c name := by
  unfold Resolve.importable?
  rw [w.homes.classInfo_selfType, moves.field?, moves.methods, moves.memberType?, Option.map_map]
  rfl

theorem importedMember (c : ClassInfo) (name : Ident) :
    Goes w [name] (Resolve.importedMember c (w.first.ident name))
      (Resolve.importedMember (w.homes.classInfo c) (w.second.ident name)) := by
  apply environment.bindNone
  intro env env' moves
  rw [w.first.ident_text, w.second.ident_text, importable? moves]
  cases Resolve.importable? env c name.text with
  | none => exact unresolved [name] true
  | some symbol => exact reference name symbol

theorem importDecl (i : ImportDecl) :
    Goes w i.path (Resolve.importDecl (w.first.importDecl i)) (Resolve.importDecl (w.second.importDecl i)) := by
  obtain ⟨isStatic, path, onDemand, range⟩ := i
  have onlyClasses : Goes w path (Functor.discard (Resolve.qualifiedName (path.map w.first.ident)))
      (Functor.discard (Resolve.qualifiedName (path.map w.second.ident))) := (qualifiedName path).discard
  cases isStatic with
  | false => exact onlyClasses
  | true =>
    cases onDemand with
    | true => exact onlyClasses
    | false =>
      have whole := Nodes.split_path path
      simp only [Resolve.importDecl, Layout.importDecl, Bool.not_false, Bool.and_self, if_true,
        List.getLast?_map]
      cases last : path.getLast? with
      | none => exact .pure trivial
      | some member =>
        rw [last] at whole
        refine Steps.wider (?_ : Steps w (path.dropLast ++ [member]) _ _ _) fun i =>
          Nat.le_of_eq (congrArg (List.count i) whole)
        dsimp only [Option.map_some]
        rw [← List.map_dropLast, ← List.map_dropLast]
        apply (qualifiedName path.dropLast).bind
        rintro c _ rfl
        cases c with
        | none => exact .pure trivial
        | some c => exact importedMember c member

end Twins.Steps
end JavaIndex
