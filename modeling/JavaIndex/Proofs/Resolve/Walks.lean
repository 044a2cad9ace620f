import JavaIndex.Proofs.Resolve.Later
import JavaIndex.Proofs.Tree.Bodies

/-! The rules by which steps are put together. A step that resolves some nodes, and after it a step that
resolves others, resolve all of them; a scope or an owner that a step sets up is gone after it. -/
namespace JavaIndex

variable {w : World} {since later t u v : Moment} {ns ms : List Node}

namespace Nodes

theorem reached_append (ns ms : List Node) : reached (ns ++ ms) = reached ns ++ reached ms :=
  List.filter_append ..

theorem reached_hide (ns : List Node) : reached (hide ns) = [] := by
  simp [reached, hide, Node.passed, List.filter_eq_nil_iff]

end Nodes

/-! What has been defined in between. -/

/-- Nothing to be defined, and nothing defined. -/
theorem Covers.silent (none : ∀ n ∈ ns, n.declared? = none ∧ n.around = [])
    (same : u.ledger.entries = t.ledger.entries) : Covers w ns t u := by
  have reached : ∀ n ∈ Nodes.reached ns, n ∈ ns := fun n hn => List.mem_of_mem_filter hn
  refine ⟨Nodes.reached ns, [], List.Sublist.refl _, fun _ => rfl, by simp [same], ?_, ?_⟩
  · symm
    exact List.filterMap_eq_nil_iff.mpr fun n hn => (none n (reached n hn)).1
  · intro n hn b hb
    rw [(none n (reached n hn)).2] at hb
    simp at hb

theorem Covers.nil (same : u.ledger.entries = t.ledger.entries) : Covers w [] t u :=
  .silent (by simp) same

theorem Covers.entries_eq (h : Covers w [] t u) : u.ledger.entries = t.ledger.entries := by
  obtain ⟨visited, added, sub, -, grown, names, -⟩ := h
  have : visited = [] := by simpa [Nodes.reached] using sub
  subst this
  have : added = [] := by simpa [Nodes.declared] using names
  subst this
  simpa using grown

/-- After a declaration has been passed over, nothing need be defined. -/
theorem Covers.passed (unclean : ¬ u.Clean) (same : u.ledger.entries = t.ledger.entries) :
    Covers w ns t u :=
  ⟨[], [], List.nil_sublist _, fun clean => absurd clean unclean, by simp [same], rfl, by simp⟩

theorem Covers.hidden (same : u.ledger.entries = t.ledger.entries) : Covers w (Nodes.hide ns) t u := by
  refine ⟨[], [], List.nil_sublist _, fun _ => (Nodes.reached_hide ns).symm, by simp [same], rfl, by simp⟩

theorem Covers.append (first : Covers w ns t u) (second : Covers w ms u v) (le : u ≤ v) :
    Covers w (ns ++ ms) t v := by
  obtain ⟨vs, added, sub, all, grown, names, classes⟩ := first
  obtain ⟨vs', added', sub', all', grown', names', classes'⟩ := second
  refine ⟨vs ++ vs', added ++ added', ?_, ?_, ?_, ?_, ?_⟩
  · rw [Nodes.reached_append]
    exact sub.append sub'
  · intro clean
    rw [Nodes.reached_append, all (le.clean clean), all' clean]
  · rw [grown', grown, List.append_assoc]
  · rw [List.map_append, names, names', Nodes.declared_append]
  · intro n hn b hb
    obtain hn | hn := List.mem_append.mp hn
    · exact (classes n hn b hb).mono le.toKeeps le.locals
    · exact classes' n hn b hb

theorem Covers.inside {b : ClassSyntax} (h : Covers w ns t u) (accounted : Accounted w u b) :
    Covers w (Nodes.inside b ns) t u := by
  obtain ⟨vs, added, sub, all, grown, names, classes⟩ := h
  have reached : Nodes.reached (Nodes.inside b ns) = (Nodes.reached ns).map (Node.within b) := by
    rw [Nodes.reached, Nodes.inside, List.filter_map]
    rfl
  refine ⟨vs.map (Node.within b), added, ?_, ?_, grown, ?_, ?_⟩
  · rw [reached]
    exact sub.map _
  · intro clean
    rw [reached, all clean]
  · rw [names, Nodes.declared_map_within]
  · intro n hn b' hb
    obtain ⟨m, hm, rfl⟩ := List.mem_map.mp hn
    obtain rfl | hb := List.mem_cons.mp hb
    · exact accounted
    · exact classes m hm b' hb

/-! Rules. -/

namespace Walks

variable {α β : Type} {x : Resolve α} {post : α → Moment → Prop}

theorem pure {a : α} (h : ∀ t, since ≤ t → post a t) : Walks w since [] (pure a) post := by
  intro _ s t ready le
  exact ⟨t, rfl, le_refl t, .refl t, ready, .nil rfl, h t le⟩

/-- The second step is taken at once after the first one. -/
theorem bind_now {f : α → Resolve β} {post' : β → Moment → Prop} (first : Walks w since ns x post)
    (second : ∀ a t, since ≤ t → post a t → (∀ n ∈ ms, Fine w n) → ∀ s, Ready w s t →
      Leads w s t ms (f a s t.progress) post') :
    Walks w since (ns ++ ms) (x >>= f) post' := by
  intro fine s t ready le
  obtain ⟨u, hu, le₁, around₁, ready₁, covers₁, h₁⟩ :=
    first (fun n hn => fine n (List.mem_append_left _ hn)) s t ready le
  obtain ⟨v, hv, le₂, around₂, ready₂, covers₂, h₂⟩ :=
    second _ u (le.trans le₁) h₁ (fun n hn => fine n (List.mem_append_right _ hn)) s ready₁
  have run : (x >>= f) s t.progress = f (x s t.progress).1 s u.progress := by
    rw [← hu]
    rfl
  rw [run]
  exact ⟨v, hv, le₁.trans le₂, around₁.trans around₂, ready₂, covers₁.append covers₂ le₂, h₂⟩

theorem bind {f : α → Resolve β} {post' : β → Moment → Prop} (first : Walks w since ns x post)
    (second : ∀ a t, since ≤ t → post a t → Walks w t ms (f a) post') :
    Walks w since (ns ++ ms) (x >>= f) post' :=
  first.bind_now fun a t le h fine s ready => second a t le h fine s t ready (le_refl t)

theorem weaken {post' : α → Moment → Prop} (h : Walks w since ns x post)
    (imp : ∀ a t, since ≤ t → post a t → post' a t) : Walks w since ns x post' := by
  intro fine s t ready le
  obtain ⟨u, hu, le₁, around₁, ready₁, covers, hpost⟩ := h fine s t ready le
  exact ⟨u, hu, le₁, around₁, ready₁, covers, imp _ u (le.trans le₁) hpost⟩

theorem from_later (h : Walks w since ns x post) (le : since ≤ later) : Walks w later ns x post :=
  fun fine s t ready le' => h fine s t ready (le.trans le')

theorem trivially (h : Walks w since ns x post) : Walks w since ns x fun _ _ => True :=
  h.weaken fun _ _ _ _ => trivial

/-- The second step does not depend on what the first one answers. -/
theorem seq {y : Resolve β} {post' : β → Moment → Prop} (first : Walks w since ns x fun _ _ => True)
    (second : ∀ t, since ≤ t → Walks w t ms y post') :
    Walks w since (ns ++ ms) (x >>= fun _ => y) post' :=
  first.bind fun _ t le _ => second t le

/-- A step that resolves nothing, before another one. -/
theorem seq_nil {y : Resolve β} {post' : β → Moment → Prop}
    (first : Walks w since [] x fun _ _ => True) (second : ∀ t, since ≤ t → Walks w t ms y post') :
    Walks w since ms (x >>= fun _ => y) post' :=
  first.seq second

/-- A step whose answer decides how to go on, but that resolves nothing itself. -/
theorem bind_nil {f : α → Resolve β} {post' : β → Moment → Prop} (first : Walks w since [] x post)
    (second : ∀ a t, since ≤ t → post a t → Walks w t ms (f a) post') :
    Walks w since ms (x >>= f) post' :=
  first.bind second

/-- A step whose answer is used by another one that resolves nothing itself. -/
theorem bind_last {f : α → Resolve β} {post' : β → Moment → Prop} (first : Walks w since ns x post)
    (second : ∀ a t, since ≤ t → post a t → Walks w t [] (f a) post') :
    Walks w since ns (x >>= f) post' := by
  simpa using first.bind second

/-- A step after which only an answer is made. -/
theorem bind_pure {f : α → β} {post' : β → Moment → Prop} (h : Walks w since ns x post)
    (imp : ∀ a t, since ≤ t → post a t → ∀ u, t ≤ u → post' (f a) u) :
    Walks w since ns (x >>= fun a => Pure.pure (f a)) post' :=
  h.bind_last fun a t le ha => Walks.pure (imp a t le ha)

theorem discard (h : Walks w since ns x fun _ _ => True) :
    Walks w since ns (Functor.discard x) fun _ _ => True :=
  h.bind_pure (f := fun _ => ()) fun _ _ _ _ _ _ => trivial

theorem passing (h : Walks w since ns x post) : Walks w since (ns ++ Nodes.hide ms) x post := by
  intro fine s t ready le
  obtain ⟨u, hu, le₁, around₁, ready₁, covers, hpost⟩ :=
    h (fun n hn => fine n (List.mem_append_left _ hn)) s t ready le
  exact ⟨u, hu, le₁, around₁, ready₁, covers.append (.hidden rfl) (le_refl u), hpost⟩

theorem skipping (h : Walks w since ns x post) : Walks w since (Nodes.hide ms ++ ns) x post := by
  intro fine s t ready le
  obtain ⟨u, hu, le₁, around₁, ready₁, covers, hpost⟩ :=
    h (fun n hn => fine n (List.mem_append_right _ hn)) s t ready le
  have hidden : Covers w (Nodes.hide ms) t t := .hidden rfl
  exact ⟨u, hu, le₁, around₁, ready₁, hidden.append covers le₁, hpost⟩

theorem passed_pure {a : α} (h : ∀ t, since ≤ t → post a t) :
    Walks w since (Nodes.hide ns) (Pure.pure a) post := by
  intro _ s t ready le
  exact ⟨t, rfl, le_refl t, .refl t, ready, .hidden rfl, h t le⟩

/-- What is asked of the nodes may be taken for granted. -/
theorem assuming (h : (∀ n ∈ ns, Fine w n) → Walks w since ns x post) : Walks w since ns x post :=
  fun fine => h fine fine

/-- A step that changes nothing. -/
theorem still (unchanged : ∀ s p, (x s p).2 = p)
    (h : ∀ s t, Ready w s t → since ≤ t → post (x s t.progress).1 t) : Walks w since [] x post := by
  intro _ s t ready le
  exact ⟨t, unchanged s t.progress, le_refl t, .refl t, ready, .nil rfl, h s t ready le⟩

/-- Nodes that declare nothing, before those that a step resolves. -/
theorem beforehand (none : ∀ n ∈ ms, n.declared? = none ∧ n.around = [])
    (h : Walks w since ns x post) : Walks w since (ms ++ ns) x post := by
  intro fine s t ready le
  obtain ⟨u, hu, le₁, around₁, ready₁, covers, hpost⟩ :=
    h (fun n hn => fine n (List.mem_append_right _ hn)) s t ready le
  have before : Covers w ms t t := .silent none rfl
  exact ⟨u, hu, le₁, around₁, ready₁, before.append covers le₁, hpost⟩

/-- A step of which everything is known that is to be defined in a class. -/
theorem inside {b : ClassSyntax} (h : Walks w since ns x post)
    (accounted : ∀ a t, since ≤ t → post a t → Accounted w t b) :
    Walks w since (Nodes.inside b ns) x post := by
  intro fine s t ready le
  have fine' : ∀ n ∈ ns, Fine w n := fun n hn => fine (n.within b) (List.mem_map_of_mem hn)
  obtain ⟨u, hu, le₁, around₁, ready₁, covers, hpost⟩ := h fine' s t ready le
  exact ⟨u, hu, le₁, around₁, ready₁, covers.inside (accounted _ u (le.trans le₁) hpost), hpost⟩

end Walks

/-! Scopes and owners. -/

namespace Moment

/-- The same moment with other scopes. -/
def withScopes (t : Moment) (scopes : Scopes) : Moment :=
  { t with progress := { t.progress with scopes } }

theorem le_withScopes (t : Moment) (scopes : Scopes) : t ≤ t.withScopes scopes :=
  ⟨.of_eq rfl, fun _ _ h => h, fun _ _ h => h, le_refl _, le_refl _, fun _ => rfl, id⟩

end Moment

theorem Resolve.withScopes_run {α : Type} {opened : Scopes → Scopes} {x : Resolve α} {s : Setting}
    (run : (x s (t.withScopes (opened t.progress.scopes)).progress).2 = u.progress) :
    (withScopes opened x s t.progress).2 = (u.withScopes u.progress.scopes.tail).progress := by
  let inner := (x s (t.withScopes (opened t.progress.scopes)).progress).2
  change { inner with scopes := inner.scopes.tail } = _
  rw [show inner = u.progress from run]
  rfl

theorem Ready.withScopes {s : Setting} {scopes : Scopes} (ready : Ready w s t)
    (sound : ∀ sc ∈ scopes, ScopeSound w t sc) : Ready w s (t.withScopes scopes) :=
  ready.carry (.of_eq rfl) (ready.toNumbered.of_eq rfl rfl) rfl rfl (le_refl _) rfl rfl rfl
    (fun sc hsc => (sound sc hsc).mono (.of_eq rfl)) ⟨rfl, rfl⟩
    (fun o ho => (ready.enclosing o ho).mono (t.le_withScopes scopes)) ready.oneEpoch

namespace Walks

variable {α : Type} {x : Resolve α} {post : α → Moment → Prop}

/-- The answer of a step says something that does not depend on the scopes. -/
def Scopeless (post : α → Moment → Prop) : Prop := ∀ a t scopes, post a t → post a (t.withScopes scopes)

theorem scopeless_trivial : Scopeless fun (_ : α) (_ : Moment) => True := fun _ _ _ _ => trivial

/-- What stays true is scopeless. -/
theorem scopeless_of_mono (mono : ∀ a t u, post a t → t ≤ u → post a u) : Scopeless post :=
  fun a t scopes h => mono a t _ h (t.le_withScopes scopes)

theorem withScopes {opened : Scopes → Scopes} (scopeless : Scopeless post)
    (sound : ∀ s t, Ready w s t → since ≤ t → ∀ sc ∈ opened t.progress.scopes, ScopeSound w t sc)
    (h : Walks w since ns x post) : Walks w since ns (Resolve.withScopes opened x) post := by
  intro fine s t ready le
  have ready₁ := ready.withScopes (sound s t ready le)
  obtain ⟨u, hu, le₂, around₂, ready₂, covers, hpost⟩ :=
    h fine s _ ready₁ (le.trans (t.le_withScopes (opened t.progress.scopes)))
  have le₃ := ((t.le_withScopes _).trans le₂).trans (u.le_withScopes u.progress.scopes.tail)
  refine ⟨u.withScopes u.progress.scopes.tail, Resolve.withScopes_run hu, le₃,
    ⟨around₂.depth, around₂.enclosing⟩, ?_, ?_, scopeless _ _ _ hpost⟩
  · exact ready₂.withScopes fun sc hsc => ready₂.scopes sc (List.mem_of_mem_tail hsc)
  · have after : Covers w [] u (u.withScopes u.progress.scopes.tail) := .nil rfl
    have covers : Covers w ns t u := covers
    simpa using covers.append after (u.le_withScopes u.progress.scopes.tail)

theorem opened_sound (kind : ScopeKind) (owner : Option Symbol) :
    ScopeSound w t (Scope.opened kind owner) :=
  ⟨by simp [Scope.opened], by simp [Scope.opened], by simp [Scope.opened], by simp [Scope.opened]⟩

theorem pushed_sound {s : Setting} (ready : Ready w s t) (kind : ScopeKind) (owner : Option Symbol) :
    ∀ sc ∈ t.progress.scopes.push kind owner, ScopeSound w t sc := by
  intro sc hsc
  obtain rfl | hsc := List.mem_cons.mp hsc
  · exact opened_sound kind owner
  · exact ready.scopes sc hsc

theorem inScope {kind : ScopeKind} (scopeless : Scopeless post) (h : Walks w since ns x post) :
    Walks w since ns (Resolve.inScope kind x) post :=
  withScopes scopeless (fun _ _ ready _ => pushed_sound ready kind none) h

theorem inScopeIf {own : Bool} (scopeless : Scopeless post) (h : Walks w since ns x post) :
    Walks w since ns (Resolve.inScopeIf own x) post := by
  unfold Resolve.inScopeIf
  split
  · exact inScope scopeless h
  · exact h

/-- The class and its type variables may be used in the body of the class. -/
theorem classScope_sound {c : ClassInfo} {vars : List (String × Symbol)} (members : ClassSound w t c)
    (ofClass : Environment.isWritable c = true → ClassNamed w t c)
    (params : ∀ v ∈ vars, Sound w t v.2) : ScopeSound w t (Scope.ofClass c vars) where
  values := by simp [Scope.ofClass, Scope.opened]
  types b hb := by
    simp only [Scope.ofClass, List.mem_reverse, List.mem_map] at hb
    obtain ⟨v, hv, rfl⟩ := hb
    exact params v hv
  members c' hc := by
    cases Option.some.inj hc
    exact members
  ofClass c' hc writable := by
    cases Option.some.inj hc
    exact ofClass writable

theorem inClass {c : ClassInfo} {vars : List (String × Symbol)} (scopeless : Scopeless post)
    (members : ClassSound w since c) (ofClass : Environment.isWritable c = true → ClassNamed w since c)
    (params : ∀ v ∈ vars, Sound w since v.2) (h : Walks w since ns x post) :
    Walks w since ns (Resolve.inClass c vars x) post := by
  refine withScopes scopeless (fun s t ready le sc hsc => ?_) h
  obtain rfl | hsc := List.mem_cons.mp hsc
  · exact (classScope_sound members ofClass params).mono le.toKeeps
  · exact ready.scopes sc hsc

end Walks

namespace Moment

/-- The same moment with other declarations around. -/
def within (t : Moment) (enclosing : List Symbol) : Moment :=
  { t with progress := { t.progress with enclosing } }

theorem le_within (t : Moment) (enclosing : List Symbol) : t ≤ t.within enclosing :=
  ⟨.of_eq rfl, fun _ _ h => h, fun _ _ h => h, le_refl _, le_refl _, fun _ => rfl, id⟩

end Moment

theorem Ready.within {s : Setting} {enclosing : List Symbol} (ready : Ready w s t)
    (housed : ∀ o ∈ enclosing, Housed t o.path) : Ready w s (t.within enclosing) :=
  ready.carry (.of_eq rfl) (ready.toNumbered.of_eq rfl rfl) rfl rfl (le_refl _) rfl rfl rfl
    (fun sc hsc => (ready.scopes sc hsc).mono (.of_eq rfl)) ⟨rfl, rfl⟩
    (fun o ho => (housed o ho).mono (t.le_within enclosing)) ready.oneEpoch

/-- One more declaration around. -/
theorem Ready.housed_cons {s : Setting} {owner : Symbol} (ready : Ready w s t) (housed : Housed t owner.path) :
    ∀ o ∈ owner :: t.progress.enclosing, Housed t o.path := by
  intro o ho
  obtain rfl | ho := List.mem_cons.mp ho
  · exact housed
  · exact ready.enclosing o ho

theorem Resolve.enclosedBy_run {α : Type} {x : Resolve α} {owner : Symbol} {s : Setting}
    (run : (x s (t.within (owner :: t.progress.enclosing)).progress).2 = u.progress) :
    (enclosedBy (some owner) x s t.progress).2 = (u.within u.progress.enclosing.tail).progress := by
  let inner := (x s (t.within (owner :: t.progress.enclosing)).progress).2
  change { inner with enclosing := inner.enclosing.tail } = _
  rw [show inner = u.progress from run]
  rfl

theorem Walks.enclosedBy {α : Type} {x : Resolve α} {post : α → Moment → Prop} {owner : Symbol}
    (mono : ∀ a t u, post a t → t ≤ u → post a u)
    (housed : Housed since owner.path) (h : Walks w since ns x post) :
    Walks w since ns (Resolve.enclosedBy (some owner) x) post := by
  intro fine s t ready le
  have ready₁ := ready.within (ready.housed_cons (housed.mono le))
  have le₁ := t.le_within (owner :: t.progress.enclosing)
  obtain ⟨u, hu, le₂, around, ready₂, covers, hpost⟩ := h fine s _ ready₁ (le.trans le₁)
  have outer : u.progress.enclosing.tail = t.progress.enclosing := congrArg List.tail around.enclosing
  have le₃ := u.le_within u.progress.enclosing.tail
  refine ⟨u.within u.progress.enclosing.tail, Resolve.enclosedBy_run hu, (le₁.trans le₂).trans le₃,
    ⟨around.depth, outer⟩, ?_, ?_, mono _ _ _ hpost le₃⟩
  · exact ready₂.within fun o ho => ready₂.enclosing o (List.mem_of_mem_tail ho)
  · have covers : Covers w ns t u := covers
    have after : Covers w [] u (u.within u.progress.enclosing.tail) := .nil rfl
    simpa using covers.append after le₃

end JavaIndex
