import JavaIndex.Proofs.Resolve.Definitions

/-! Bodies: of methods, of initializers, and the initial values of fields. An outermost body begins a new
epoch if every method has its own numbers. Nothing that is known is lost when a body is entered or left. -/
namespace JavaIndex

variable {w : World} {since t u : Moment} {ns ms : List Node}

namespace Moment

/-- The same moment inside one more body, which belongs to a declaration if one is given. -/
def entered (t : Moment) (owner : Option Symbol) : Moment :=
  ⟨{ t.progress with enclosing := owner.toList ++ t.progress.enclosing, ids := t.progress.ids.enter },
    { t.ledger with epoch := t.bodyEpoch }⟩

/-- The same moment outside the innermost body, with the declarations around that were there before. -/
def left (t : Moment) (enclosing : List Symbol) : Moment :=
  { t with progress := { t.progress with enclosing, ids := t.progress.ids.leave } }

theorem bodyEpoch_of_inside (inside : 0 < t.depth) : t.bodyEpoch = t.ledger.epoch := by
  unfold bodyEpoch
  rw [if_neg (by omega)]

theorem epoch_le_bodyEpoch (t : Moment) : t.ledger.epoch ≤ t.bodyEpoch := by
  unfold bodyEpoch
  split <;> omega

theorem le_entered (t : Moment) (owner : Option Symbol) : t ≤ t.entered owner where
  grants _ h := h
  entries _ h := h
  locals _ _ h := h
  typeParams _ _ h := h
  classCount := le_refl _
  depth := Nat.le_succ _
  epoch inside := bodyEpoch_of_inside inside
  clean := id

end Moment

/-- What is before a body is before its end. -/
theorem Moment.Before.left {owner : Option Symbol} (le : t.entered owner ≤ u) (around : (t.entered owner).Around u) :
    t ≤ u.left t.progress.enclosing := by
  have before := (t.le_entered owner).trans le
  have depth : u.progress.ids.depth = t.depth + 1 := around.depth
  exact {
    grants := before.grants
    entries := before.entries
    locals := before.locals
    typeParams := before.typeParams
    classCount := before.classCount
    depth := by
      change t.depth ≤ u.progress.ids.depth - 1
      omega
    epoch := before.epoch
    clean := before.clean }

theorem Moment.Around.left {owner : Option Symbol} (around : (t.entered owner).Around u) :
    t.Around (u.left t.progress.enclosing) := by
  refine ⟨?_, rfl⟩
  have depth : u.progress.ids.depth = t.depth + 1 := around.depth
  change u.progress.ids.depth - 1 = t.depth
  omega

theorem Numbered.entered (numbered : Numbered t) (owner : Option Symbol) :
    Numbered (t.entered owner) where
  epochs := by
    intro g hg
    obtain ⟨before, less⟩ := numbered.epochs g hg
    refine ⟨before.trans t.epoch_le_bodyEpoch, fun same => ?_⟩
    change g.epoch = t.bodyEpoch at same
    change g.number < if t.progress.ids.policy = .perMethod ∧ t.depth = 0 then 0
      else t.progress.ids.next
    unfold Moment.bodyEpoch at same
    split at same
    · omega
    · rename_i goesOn
      rw [if_neg goesOn]
      exact less same
  numbers := numbered.numbers
  homes g hg := (numbered.homes g hg).mono ⟨fun _ h => h, fun _ h => h⟩

theorem Ready.entered {s : Setting} {owner : Option Symbol} (ready : Ready w s t)
    (admitted : ∀ o, owner = some o → HousedAt t t.bodyEpoch o.path) :
    Ready w s (t.entered owner) := by
  have keep : t.Keeps (t.entered owner) := ⟨fun _ h => h, fun _ h => h⟩
  refine ready.carry keep (ready.toNumbered.entered owner) rfl rfl (le_refl _) rfl rfl rfl
    (fun sc hsc => (ready.scopes sc hsc).mono keep) ⟨rfl, rfl⟩ ?_ ?_
  · intro o ho
    obtain ho | ho := List.mem_append.mp ho
    · obtain inType | h := admitted o (Option.mem_toList.mp ho)
      · exact .inl inType
      · exact .inr ⟨Nat.succ_pos _, .inr h⟩
    · exact (ready.enclosing o ho).mono (t.le_entered owner)
  · intro policy
    change t.bodyEpoch = 0
    unfold Moment.bodyEpoch
    rw [ready.policy, policy, if_neg (by simp)]
    exact ready.oneEpoch policy

theorem Numbered.left (numbered : Numbered u) (enclosing : List Symbol) : Numbered (u.left enclosing) :=
  ⟨numbered.epochs, numbered.numbers, fun g hg => (numbered.homes g hg).mono (.of_eq rfl)⟩

theorem Ready.left {s : Setting} (ready : Ready w s u) (le : t ≤ u.left t.progress.enclosing)
    (outer : Ready w s t) : Ready w s (u.left t.progress.enclosing) :=
  ready.carry (.of_eq rfl) (ready.toNumbered.left _) rfl rfl (le_refl _) rfl rfl rfl
    (fun sc hsc => (ready.scopes sc hsc).mono (.of_eq rfl)) ⟨rfl, rfl⟩
    (fun o ho => (outer.enclosing o ho).mono le) ready.oneEpoch

theorem Covers.left (h : Covers w ns t u) (enclosing : List Symbol) : Covers w ns t (u.left enclosing) := by
  obtain ⟨visited, added, sub, all, grown, names, classes⟩ := h
  exact ⟨visited, added, sub, all, grown, names, fun n hn b hb => (classes n hn b hb).mono (.of_eq rfl) fun _ _ h => h⟩

/-- A body comes to where its content comes to, and is left there. -/
theorem Resolve.inBody_run {owner : Option Symbol} {x : Resolve Unit} {s : Setting}
    (run : (withScopes (·.push .methodBody owner) x s (t.entered owner).progress).2 = u.progress)
    (enclosing : u.progress.enclosing = owner.toList ++ t.progress.enclosing) :
    (inBody owner x s t.progress).2 = (u.left t.progress.enclosing).progress := by
  have steps : (inBody owner x s t.progress).2 =
      let p := (withScopes (·.push .methodBody owner) x s (t.entered owner).progress).2
      { p with enclosing := p.enclosing.drop owner.toList.length, ids := p.ids.leave } := by
    cases owner
    · rfl
    · simp only [Option.toList_some, List.length_singleton, List.drop_one]
      rfl
  have outer : u.progress.enclosing.drop owner.toList.length = t.progress.enclosing := by
    rw [enclosing, List.drop_left]
  rw [steps, run, ← outer]
  rfl

namespace Walks

/-- What holds of the ledger alone holds outside the body too. -/
def Lasting (post : Moment → Prop) : Prop := ∀ t u, t.Keeps u → post t → post u

theorem lasting_trivial : Lasting fun _ => True := fun _ _ _ _ => trivial

theorem inBody_run {owner : Option Symbol} {x : Resolve Unit} {post : Moment → Prop} {s : Setting}
    (lasting : Lasting post) (ready : Ready w s t)
    (admitted : ∀ o, owner = some o → HousedAt t t.bodyEpoch o.path)
    (fine : ∀ n ∈ ns, Fine w n) (h : Walks w t ns x fun _ => post) :
    Leads w s t ns (Resolve.inBody owner x s t.progress) fun _ => post := by
  have pushed : Walks w t ns (Resolve.withScopes (·.push .methodBody owner) x) fun _ => post :=
    withScopes (fun _ t _ h => lasting t _ (.of_eq rfl) h)
      (fun _ _ ready _ => pushed_sound ready .methodBody owner) h
  obtain ⟨u, hu, le, around, ready', covers, hpost⟩ :=
    pushed fine s (t.entered owner) (ready.entered admitted) (t.le_entered owner)
  refine ⟨u.left t.progress.enclosing, Resolve.inBody_run hu around.enclosing, ?_, around.left, ?_,
    covers.left _, lasting u _ (.of_eq rfl) hpost⟩
  · exact le.left around
  · exact ready'.left (le.left around) ready

/-- A body that belongs to no declaration of its own. -/
theorem initializer {x : Resolve Unit} (h : Walks w since ns x fun _ _ => True) :
    Walks w since ns (Resolve.inBody none x) fun _ _ => True := by
  intro fine s t ready le
  exact inBody_run lasting_trivial ready (fun o ho => by cases ho) fine (h.from_later le)

/-- The symbol of a member outlives its class, or it belongs where its class does. -/
def Anchored (t : Moment) (symbol : Symbol) : Prop :=
  (symbol.scheme = .project ∧ house symbol.path = symbol.path) ∨ Housed t symbol.path

theorem Anchored.mono {symbol : Symbol} (h : Anchored t symbol) (le : t ≤ u) : Anchored u symbol := by
  obtain h | h := h
  · exact .inl h
  · exact .inr (h.mono le)

/-- The body of a declaration that has just been defined. -/
theorem admitted {name : Ident} {symbol : Symbol} (anchored : Anchored t symbol)
    (defined : DefinedNow name symbol t) : HousedAt t t.bodyEpoch symbol.path := by
  obtain ⟨scheme, whole⟩ | housed := anchored
  · obtain ⟨e, he, -, same, epoch⟩ := defined
    refine .inr ⟨e, he, ?_, epoch⟩
    rw [same, whole, ← scheme]
    rfl
  · exact housed.at_bodyEpoch

/-- A declaration with a body, which is resolved right after the definition. -/
theorem defineBody (name : Ident) {symbol : Symbol} (signature : String) (doc : Option Comment)
    (overrides : List Symbol) {x : Resolve Unit} {post : Moment → Prop} (lasting : Lasting post)
    (given : w.distinct → Given w since symbol.id name.range) (anchored : Anchored since symbol)
    (h : ∀ t, since ≤ t → t.Defines name symbol → Walks w t ns x fun _ => post) :
    Walks w since (Nodes.declaration name ++ ns)
      (Resolve.define name symbol signature doc overrides >>= fun _ => Resolve.inBody (some symbol) x)
      fun _ t => t.Defines name symbol ∧ post t := by
  refine (define name signature doc overrides given).bind_now fun _ t le defined fine s ready => ?_
  have body : Walks w t ns x fun _ u => u.Defines name symbol ∧ post u :=
    (h t le defined.defines).weaken fun _ _ le' hpost => ⟨defined.defines.mono le'.toKeeps, hpost⟩
  refine inBody_run (fun t u keep h => ⟨h.1.mono keep, lasting t u keep h.2⟩) ready ?_ fine body
  intro o ho
  cases Option.some.inj ho
  exact admitted (anchored.mono le) defined

/-! The type variables of a method. All of them are visible before the first is defined. -/

/-- What is known of the symbol of a type variable of a method. -/
structure ParamDrawn (method : Symbol) (p : TypeParam) (symbol : Option Symbol) (t : Moment) : Prop where
  made : ∀ s, symbol = some s →
    Symbol.ofDeclaration (.typeParameter p.name.text) (some method) = .ok s ∨
      ∃ o, t.Granted o s p.name.range
  planned : ∀ s, Symbol.ofDeclaration (.typeParameter p.name.text) (some method) = .ok s →
    symbol = some s
  missing : symbol = none → ¬ t.Clean

theorem ParamDrawn.mono {method : Symbol} {p : TypeParam} {symbol : Option Symbol}
    (h : ParamDrawn method p symbol t) (le : t ≤ u) : ParamDrawn method p symbol u where
  made s hs := (h.made s hs).imp_right fun ⟨o, granted⟩ => ⟨o, granted.mono le.toKeeps⟩
  planned := h.planned
  missing hs clean := h.missing hs (le.clean clean)

/-- What is declared in a body has no name that the project knows. -/
theorem ofDeclaration_inside_local {owner : Symbol} (inside : owner.isLocal = true) (name : String) :
    ∀ s, Symbol.ofDeclaration (.typeParameter name) (some owner) ≠ .ok s := by
  intro s h
  simp [Symbol.ofDeclaration, Symbol.named, inside] at h

theorem methodTypeParam (method : Symbol) (p : TypeParam) :
    Walks w since [] (Resolve.methodTypeParam method p) (ParamDrawn method p) := by
  unfold Resolve.methodTypeParam
  split
  · rename_i inside
    refine (localSymbol .typeParameter p.name.range).weaken fun symbol t _ drawn => ?_
    refine ⟨fun s hs => .inr ?_, fun s hs => ?_, drawn.missing⟩
    · obtain ⟨-, -, o, -, granted⟩ := drawn.made s hs
      exact ⟨o, granted⟩
    · exact absurd hs (ofDeclaration_inside_local inside _ s)
  · refine (nameOrReport p.name _).weaken fun symbol t _ ⟨made, missing⟩ => ?_
    refine ⟨fun s hs => .inl (made s hs), fun s hs => ?_, fun none => (missing none).1⟩
    cases symbol with
    | none => exact absurd hs ((missing rfl).2 s)
    | some s' => exact congrArg some (Except.ok.inj ((made s' rfl).symm.trans hs))

/-- A type variable of a method is bound if it has a symbol. -/
def bindParam (p : TypeParam) : Option Symbol → Resolve Unit
  | some x => Resolve.bindType p.name.text (.typeParam p.name.text x)
  | none => Pure.pure ()

theorem methodTypeParams_run {s : Setting} (method : Symbol) {params : List TypeParam} {t : Moment}
    (ready : Ready w s t)
    (usable : ∀ x, some x ∈ (Resolve.methodTypeParams method params s t.progress).1 → ∀ u, Sound w u x) :
    Leads w s t [] (Resolve.methodTypeParams method params s t.progress) fun symbols u =>
      List.Forall₂ (fun p symbol => ParamDrawn method p symbol u) params symbols := by
  induction params generalizing t with
  | nil => exact ⟨t, rfl, le_refl t, .refl t, ready, .nil rfl, .nil⟩
  | cons p rest ih =>
    let first := Resolve.methodTypeParam method p s t.progress
    let bound := (bindParam p first.1 s first.2).2
    have run : Resolve.methodTypeParams method (p :: rest) s t.progress =
        (first.1 :: (Resolve.methodTypeParams method rest s bound).1,
          (Resolve.methodTypeParams method rest s bound).2) := by
      have steps : Resolve.methodTypeParams method (p :: rest) =
          Resolve.methodTypeParam method p >>= fun symbol => bindParam p symbol >>= fun _ =>
            Resolve.methodTypeParams method rest >>= fun symbols => Pure.pure (symbol :: symbols) := by
        rw [Resolve.methodTypeParams]
        congr 1
        funext symbol
        cases symbol <;> rfl
      rw [steps]
      rfl
    rw [run] at usable ⊢
    obtain ⟨t₁, h₁, le₁, around₁, ready₁, covers₁, drawn⟩ :=
      methodTypeParam method p (by simp) s t ready (le_refl t)
    have bindNext : Walks w t₁ [] (bindParam p first.1) fun _ _ => True := by
      cases hx : first.1 with
      | none => exact Walks.pure fun _ _ => trivial
      | some x => exact bindType _ (usable x (by simp [hx]) _)
    obtain ⟨t₂, h₂, le₂, around₂, ready₂, covers₂, -⟩ := bindNext (by simp) s t₁ ready₁ (le_refl t₁)
    have next : bound = t₂.progress := by
      rw [← h₂, ← h₁]
    rw [next] at usable ⊢
    obtain ⟨u, hu, le, around, ready', covers, all⟩ :=
      ih ready₂ fun x hx => usable x (List.mem_cons_of_mem _ hx)
    refine ⟨u, hu, (le₁.trans le₂).trans le, (around₁.trans around₂).trans around, ready', ?_, ?_⟩
    · exact .nil (by rw [covers.entries_eq, covers₂.entries_eq, covers₁.entries_eq])
    · exact .cons (drawn.mono (le₂.trans le)) all

/-- What the type variables of a declaration need to be defined. -/
def ParamsGiven (w : World) (t : Moment) (params : List TypeParam) (symbols : List (Option Symbol)) :
    Prop :=
  List.Forall₂ (fun p symbol =>
    (∀ s : Symbol, symbol = some s → w.distinct → Given w t s.id p.name.range) ∧
      (symbol = none → ¬ t.Clean)) params symbols

/-- Type variables are defined as far as they have symbols. -/
def ParamsDefined (t : Moment) (params : List TypeParam) (symbols : List (Option Symbol)) : Prop :=
  List.Forall₂ (fun p symbol => ∀ s, symbol = some s → t.Defines p.name s) params symbols

theorem methodTypeParams {method : Symbol} {m : MethodDecl}
    {x : List (Option Symbol) → Resolve Unit}
    (given : ∀ i s, Plan.methodTypeParam method m i s → w.distinct → Given w since s.id i.range)
    (h : ∀ more t symbols, since ≤ t → ParamsGiven (w.expecting more) t m.typeParams symbols →
      Walks (w.expecting more) t ns (x symbols) fun _ u => ParamsDefined u m.typeParams symbols) :
    Walks w since ns (Resolve.methodTypeParams method m.typeParams >>= x) fun _ t =>
      ∀ i s, Plan.methodTypeParam method m i s → t.Defines i s := by
  intro fine s t ready le
  let symbols := (Resolve.methodTypeParams method m.typeParams s t.progress).1
  let more : SymbolId → Prop := fun id => ∃ y, some y ∈ symbols ∧ y.id = id
  obtain ⟨t₁, h₁, le₁, around₁, ready₁, covers₁, drawn⟩ :=
    methodTypeParams_run (w := w.expecting more) method (ready.expecting more)
      fun y hy _ => .expected (.inr ⟨y, hy, rfl⟩)
  have begun : ParamsGiven (w.expecting more) t₁ m.typeParams symbols := by
    refine (List.forall₂_iff_get.mpr ⟨drawn.length_eq, fun i h h' => ?_⟩)
    have at_i := (List.forall₂_iff_get.mp drawn).2 i h h'
    refine ⟨fun y hy distinct => ?_, at_i.missing⟩
    obtain planned | ⟨o, granted⟩ := at_i.made y hy
    · have := given _ y ⟨m.typeParams.get ⟨i, h⟩, List.get_mem _ _, rfl, planned⟩ distinct
      exact (this.mono (Moment.keeps_of_le (le.trans le₁))).meet
    · exact given_of_granted granted
  obtain ⟨u, hu, le₂, around₂, ready₂, covers₂, defined⟩ :=
    h more t₁ symbols (le.trans le₁) begun fine s t₁ ready₁ (le_refl t₁)
  have run : (Resolve.methodTypeParams method m.typeParams >>= x) s t.progress =
      x symbols s t₁.progress := by
    rw [← h₁]
    rfl
  rw [run]
  refine ⟨u, hu, le₁.trans le₂, around₁.trans around₂, ready₂.discharge ?_, ?_, ?_⟩
  · rintro y ⟨y', hy, same⟩
    obtain ⟨p, -, hp⟩ : ∃ p ∈ m.typeParams, ∀ s, some y' = some s → u.Defines p.name s := by
      obtain ⟨i, hi, at_i⟩ := List.getElem_of_mem hy
      have long : i < m.typeParams.length := by rw [defined.length_eq]; exact hi
      exact ⟨_, List.getElem_mem long, at_i ▸ (List.forall₂_iff_get.mp defined).2 i long hi⟩
    obtain ⟨e, he, name, symbol⟩ := hp y' rfl
    exact .defined ⟨e, he, name, symbol.trans same⟩
  · exact (covers₁.append covers₂ le₂).discharge
  · rintro i y ⟨p, hp, rfl, planned⟩
    obtain ⟨k, hk, rfl⟩ := List.getElem_of_mem hp
    have hk' : k < symbols.length := by rw [← drawn.length_eq]; exact hk
    have drawn_k := (List.forall₂_iff_get.mp drawn).2 k hk hk'
    exact (List.forall₂_iff_get.mp defined).2 k hk hk' y (drawn_k.planned y planned)

end Walks
end JavaIndex
