import JavaIndex.Proofs.Resolve.Traversal
import JavaIndex.Proofs.Symbol.Text

/-! The numbers of local declarations. As long as numbers go on, no two places get one number. They start again
with every outermost body, if every method has its own, and then what is defined in the body is told apart.
Nothing is asked of the names of the types: two types of one name are described as one. -/
namespace JavaIndex

/-! Definitions that are told apart. -/

/-- Of these definitions, two local ones with one text stand at one place, if their names are among these. -/
def Apart (entries : List Entry) (names : List Ident) : Prop :=
  ∀ e ∈ entries, ∀ e' ∈ entries, e.name ∈ names → e'.name ∈ names → e.symbol.scheme = .local →
    e'.symbol.scheme = .local → e.symbol.text = e'.symbol.text → e.name.range = e'.name.range

theorem Descriptor.localText_injective {n m : Nat} (same : localText n = localText m) : n = m := by
  refine Nat.repr_inj.mp ?_
  have letters : "local".toList ++ (toString n).toList = "local".toList ++ (toString m).toList := by
    rw [← String.toList_append, ← String.toList_append]
    exact congrArg String.toList same
  exact String.toList_inj.mp (List.append_cancel_left letters)

theorem Grant.text (g : Grant) : g.symbol.text = Descriptor.localText g.number := by
  simp [Grant.symbol, SymbolId.text]

namespace Apart

variable {es ds : List Entry} {is : List Ident}

theorem nil : Apart [] is := nofun

/-- Definitions of other names do not matter. -/
theorem append_other (h : Apart es is) (other : ∀ e ∈ ds, e.name ∉ is) : Apart (es ++ ds) is := by
  intro e he e' he' named named'
  obtain he | he := List.mem_append.mp he
  · obtain he' | he' := List.mem_append.mp he'
    · exact h e he e' he' named named'
    · exact absurd named' (other e' he')
  · exact absurd named (other e he)

theorem other_append (h : Apart ds is) (other : ∀ e ∈ es, e.name ∉ is) : Apart (es ++ ds) is := by
  intro e he e' he' named named'
  obtain he | he := List.mem_append.mp he
  · exact absurd named (other e he)
  · obtain he' | he' := List.mem_append.mp he'
    · exact absurd named' (other e' he')
    · exact h e he e' he' named named'

end Apart

/-- The same where every identifier is to be defined with a symbol of its own. -/
def World.strict (w : World) : World := { w with distinct := True }

/-- Nothing is asked of what is used, and of what is defined only as much as is shown here. -/
structure World.Loose (w : World) : Prop where
  lax : w.lax
  plain : ¬ w.distinct
  grounded : w.Grounded

variable {w : World} {since later t u v : Moment} {ns ms : List Node} {bs cs : List (List Node)}

theorem Fine.of_strict {n : Node} (fine : Fine w.strict n) : Fine w n := by
  obtain ⟨part, reached, around⟩ := n
  cases part with
  | mention name => exact fine
  | declaration name => exact fine
  | ofClass b => exact ⟨fine.1, fine.2.1, fun _ => fine.2.2 trivial⟩

theorem Given.of_granted {owner s : Symbol} {span : Span} (h : t.Granted owner s span) : Given w t s.id span :=
  Walks.given_of_granted h

/-- A local symbol stands for something because its number was given out for it. -/
theorem Given.granted_of_local (grounded : w.Grounded) {s : SymbolId} {span : Span} (h : Given w.strict t s span)
    (inBody : s.scheme = .local) : ∃ g ∈ t.ledger.grants, g.symbol = s ∧ g.span = span := by
  cases h with
  | granted hg => exact ⟨_, hg, rfl, rfl⟩
  | @planned site c i s hs known plan =>
    obtain ⟨c', known', -, planned⟩ := grounded.sites site hs
    have same : c = c' := Option.some.inj (known.symm.trans known')
    have outside : s.id.scheme = .project := (planned i s (same ▸ plan)).1
    rw [inBody] at outside
    cases outside

/-- In the first epoch every number belongs to one place. -/
theorem Apart.of_given (grounded : w.Grounded) (numbered : Numbered t) (first : t.ledger.epoch = 0)
    {es : List Entry} (given : ∀ e ∈ es, Given w.strict t e.symbol e.name.range) (is : List Ident) : Apart es is := by
  intro e he e' he' _ _ inBody inBody' text
  obtain ⟨g, hg, symbol, span⟩ := (given e he).granted_of_local grounded inBody
  obtain ⟨g', hg', symbol', span'⟩ := (given e' he').granted_of_local grounded inBody'
  rw [← symbol, ← symbol', g.text, g'.text] at text
  have epoch := (numbered.epochs g hg).1
  have epoch' := (numbered.epochs g' hg').1
  have same : g = g' := numbered.numbers g hg g' hg' (by omega) (Descriptor.localText_injective text)
  rw [← span, ← span', same]

namespace Moment

/-- Numbers go on: in the whole file, or in the body around. -/
def GoesOn (t : Moment) : Prop := t.progress.ids.policy = .perUnit ∨ 0 < t.depth

/-- As long as numbers go on, there has been no epoch but the first. -/
def Level (t : Moment) : Prop := t.GoesOn → t.ledger.epoch = 0

theorem GoesOn.mono {s : Setting} (h : t.GoesOn) (le : t ≤ u) (ready : Ready w s t) (ready' : Ready w s u) :
    u.GoesOn := by
  obtain h | h := h
  · exact .inl (ready'.policy.trans (ready.policy.symm.trans h))
  · exact .inr (h.trans_le le.depth)

theorem Level.mono {s : Setting} (level : t.Level) (le : t ≤ u) (around : t.Around u) (ready : Ready w s u) :
    u.Level := by
  rintro (policy | inside)
  · exact ready.oneEpoch (ready.policy.symm.trans policy)
  · have inside : 0 < t.depth := around.depth ▸ inside
    rw [le.epoch inside]
    exact level (.inr inside)

/-- A body begins a new epoch only where numbers do not go on. -/
theorem GoesOn.bodyEpoch (h : t.GoesOn) : t.bodyEpoch = t.ledger.epoch := by
  unfold Moment.bodyEpoch
  rw [if_neg]
  rintro ⟨policy, outside⟩
  obtain h | h := h
  · rw [policy] at h
    cases h
  · omega

end Moment

/-- A local symbol shows a number. -/
def Entry.Numbered (e : Entry) : Prop := e.symbol.scheme = .local → ∃ n, e.symbol.text = Descriptor.localText n

/-- What has been defined between two moments is named among the nodes. As long as numbers go on, each symbol was
made for its place; and in each of the bodies all is told apart. -/
structure Adds (w : World) (ns : List Node) (bodies : List (List Node)) (t u : Moment) (added : List Entry) :
    Prop where
  grown : u.ledger.entries = t.ledger.entries ++ added
  names : ∀ e ∈ added, e.name ∈ Nodes.declared ns
  numbers : ∀ e ∈ added, e.Numbered
  given : t.GoesOn → ∀ e ∈ added, Given w.strict u e.symbol e.name.range
  hold : Nodes.Hold ns bodies
  apart : ∀ body ∈ bodies ++ Nodes.bodies ns, Apart added (Nodes.declared body)

namespace Adds

variable {es ds : List Entry}

theorem nothing (hold : Nodes.Hold ns bs) (same : u.ledger.entries = t.ledger.entries) : Adds w ns bs t u [] :=
  ⟨by rw [same, List.append_nil], nofun, nofun, fun _ => nofun, hold, fun _ _ => .nil⟩

/-- The definitions of one part do not meet those of another one. -/
theorem append (first : Adds w ns bs t u es) (second : Adds w ms cs u v ds)
    (distinct : (Nodes.declared (ns ++ ms)).Nodup) (le : u.Keeps v) (goesOn : t.GoesOn → u.GoesOn) :
    Adds w (ns ++ ms) (bs ++ cs) t v (es ++ ds) := by
  rw [Nodes.declared_append] at distinct
  have disjoint := (List.nodup_append'.mp distinct).2.2
  refine ⟨?_, fun e he => ?_, fun e he => ?_, fun on e he => ?_, first.hold.append second.hold, fun body hbody => ?_⟩
  · rw [second.grown, first.grown, List.append_assoc]
  · rw [Nodes.declared_append]
    obtain he | he := List.mem_append.mp he
    · exact List.mem_append_left _ (first.names e he)
    · exact List.mem_append_right _ (second.names e he)
  · obtain he | he := List.mem_append.mp he
    · exact first.numbers e he
    · exact second.numbers e he
  · obtain he | he := List.mem_append.mp he
    · exact (first.given on e he).mono le
    · exact second.given (goesOn on) e he
  · have here (h : body ∈ bs ++ Nodes.bodies ns) : Apart (es ++ ds) (Nodes.declared body) :=
      (first.apart body h).append_other fun e he named => disjoint (first.hold body h named) (second.names e he)
    have there (h : body ∈ cs ++ Nodes.bodies ms) : Apart (es ++ ds) (Nodes.declared body) :=
      (second.apart body h).other_append fun e he named =>
        disjoint (first.names e he) (second.hold body h named)
    rw [Nodes.bodies_append, List.mem_append, List.mem_append, List.mem_append] at hbody
    rcases hbody with (h | h) | (h | h)
    · exact here (List.mem_append_left _ h)
    · exact there (List.mem_append_left _ h)
    · exact here (List.mem_append_right _ h)
    · exact there (List.mem_append_right _ h)

/-- The same between two moments at which as much is defined. -/
theorem between {t' u' : Moment} (h : Adds w ns bs t u es) (before : t'.ledger.entries = t.ledger.entries)
    (after : u'.ledger.entries = u.ledger.entries) (goesOn : t'.GoesOn → t.GoesOn) (le : u.Keeps u') :
    Adds w ns bs t' u' es :=
  ⟨by rw [before, after, h.grown], h.names, h.numbers, fun on e he => (h.given (goesOn on) e he).mono le, h.hold,
    h.apart⟩

theorem inside {b : ClassSyntax} (h : Adds w ns bs t u es) : Adds w (Nodes.inside b ns) bs t u es := by
  refine ⟨h.grown, ?_, h.numbers, h.given, h.hold.inside b, ?_⟩
  · rw [Nodes.inside, Nodes.declared_map_within]
    exact h.names
  · rw [Nodes.bodies_inside]
    exact h.apart

theorem ofClass {b : ClassSyntax} (h : Adds w ns b.bodies t u es) : Adds w (Nodes.classNode b ++ ns) [] t u es := by
  refine ⟨h.grown, h.names, h.numbers, h.given, h.hold.ofClass, ?_⟩
  rw [List.nil_append, Nodes.bodies_classNode]
  exact h.apart

end Adds

/-- What is asked of the nodes to be resolved. -/
structure Nodes.Sorted (w : World) (ns : List Node) : Prop where
  fine : ∀ n ∈ ns, Fine w.strict n
  distinct : (declared ns).Nodup

namespace Nodes.Sorted

theorem left (h : Sorted w (ns ++ ms)) : Sorted w ns := by
  refine ⟨fun n hn => h.fine n (List.mem_append_left _ hn), ?_⟩
  have distinct := h.distinct
  rw [declared_append] at distinct
  exact distinct.of_append_left

theorem right (h : Sorted w (ns ++ ms)) : Sorted w ms := by
  refine ⟨fun n hn => h.fine n (List.mem_append_right _ hn), ?_⟩
  have distinct := h.distinct
  rw [declared_append] at distinct
  exact distinct.of_append_right

theorem inside {b : ClassSyntax} (h : Sorted w (Nodes.inside b ns)) : Sorted w ns := by
  refine ⟨fun n hn => h.fine (n.within b) (List.mem_map_of_mem hn), ?_⟩
  have distinct := h.distinct
  rwa [Nodes.inside, declared_map_within] at distinct

end Nodes.Sorted

/-- A step has come from a moment to another one at which all is well, and has told apart what it defined. -/
def Tallied (w : World) (s : Setting) (t : Moment) (ns : List Node) (bodies : List (List Node)) (p : Progress) :
    Prop :=
  ∃ u added, p = u.progress ∧ t ≤ u ∧ t.Around u ∧ Ready w s u ∧ Adds w ns bodies t u added

/-- What comes after a step. -/
theorem Tallied.after {s : Setting} {es : List Entry} {p : Progress} (ready : Ready w s t) (le : t ≤ u)
    (around : t.Around u) (ready₁ : Ready w s u) (adds : Adds w ns bs t u es)
    (distinct : (Nodes.declared (ns ++ ms)).Nodup) (second : Tallied w s u ms cs p) :
    Tallied w s t (ns ++ ms) (bs ++ cs) p := by
  obtain ⟨v, ds, hv, le₂, around₂, ready₂, adds₂⟩ := second
  exact ⟨v, es ++ ds, hv, le.trans le₂, around.trans around₂, ready₂,
    adds.append adds₂ distinct le₂.toKeeps fun on => on.mono le ready ready₁⟩

/-- The step tells apart what it defines among the nodes, whenever it is taken from a moment on. Beside the bodies
of the classes among the nodes there may be others, of members whose class is further out. -/
def Tallies {α : Type} (w : World) (since : Moment) (ns : List Node) (bodies : List (List Node)) (x : Resolve α) :
    Prop :=
  Nodes.Sorted w ns → ∀ s t, Ready w s t → t.Level → since ≤ t → Tallied w s t ns bodies (x s t.progress).2

theorem Covers.entries_of_silent (silent : Nodes.Silent ns) (h : Covers w ns t u) :
    u.ledger.entries = t.ledger.entries := by
  obtain ⟨visited, added, sub, -, grown, names, -⟩ := h
  have none : Nodes.declared visited = [] := by
    refine Nodes.declared_of_silent fun n hn => silent n ?_
    exact List.mem_of_mem_filter (sub.mem hn)
  rw [none, List.map_eq_nil_iff] at names
  rw [grown, names, List.append_nil]

/-- A step that defines nothing, before another one. -/
theorem Leads.before {α β : Type} {x : Resolve α} {f : α → Resolve β} {s : Setting} {post : α → Moment → Prop}
    (first : Leads w s t ns (x s t.progress) post) (silent : Nodes.Silent ns) (ready : Ready w s t) (level : t.Level)
    (distinct : (Nodes.declared (ns ++ ms)).Nodup)
    (second : ∀ a u, t ≤ u → Ready w s u → u.Level → post a u → Tallied w s u ms bs (f a s u.progress).2) :
    Tallied w s t (ns ++ ms) bs ((x >>= f) s t.progress).2 := by
  obtain ⟨u, hu, le, around, ready₁, covers, hpost⟩ := first
  have run : (x >>= f) s t.progress = f (x s t.progress).1 s u.progress := by
    rw [← hu]
    rfl
  have adds : Adds w ns [] t u [] := .nothing (.silent silent) (covers.entries_of_silent silent)
  rw [run]
  exact .after ready le around ready₁ adds distinct (second _ u le ready₁ (level.mono le around ready₁) hpost)

/-! Rules. -/

namespace Tallies

variable {α β γ : Type} {x : Resolve α} {y : Resolve β}

/-- Where nothing is resolved, nothing is defined. -/
theorem idle (hold : Nodes.Hold ns bs) (a : α) : Tallies w since ns bs (Pure.pure a : Resolve α) :=
  fun _ _ t ready _ _ => ⟨t, [], rfl, le_refl t, .refl t, ready, .nothing hold rfl⟩

theorem pure (a : α) : Tallies w since [] [] (Pure.pure a : Resolve α) := idle .nil a

theorem from_later (h : Tallies w since ns bs x) (le : since ≤ later) : Tallies w later ns bs x :=
  fun sorted s t ready level le' => h sorted s t ready level (le.trans le')

/-- What is asked of the nodes may be taken for granted. -/
theorem assuming (h : Nodes.Sorted w ns → Tallies w since ns bs x) : Tallies w since ns bs x :=
  fun sorted => h sorted sorted

/-- A part of what is said of the first step is that of the second one. -/
theorem bind {f : α → Resolve β} (first : Tallies w since ns bs x)
    (second : ∀ a t, since ≤ t → Tallies w t ms cs (f a)) : Tallies w since (ns ++ ms) (bs ++ cs) (x >>= f) := by
  intro sorted s t ready level le
  obtain ⟨u, es, hu, le₁, around₁, ready₁, adds₁⟩ := first sorted.left s t ready level le
  have run : (x >>= f) s t.progress = f (x s t.progress).1 s u.progress := by
    rw [← hu]
    rfl
  rw [run]
  exact .after ready le₁ around₁ ready₁ adds₁ sorted.distinct
    (second _ u (le.trans le₁) sorted.right s u ready₁ (level.mono le₁ around₁ ready₁) (le_refl u))

theorem seq (first : Tallies w since ns bs x) (second : ∀ t, since ≤ t → Tallies w t ms cs y) :
    Tallies w since (ns ++ ms) (bs ++ cs) (x >>= fun _ => y) :=
  first.bind fun _ => second

/-- A step after which only an answer is made. -/
theorem answering {f : α → β} (h : Tallies w since ns bs x) :
    Tallies w since ns bs (x >>= fun a => Pure.pure (f a)) :=
  fun sorted s t ready level le => h sorted s t ready level le

theorem discard (h : Tallies w since ns bs x) : Tallies w since ns bs (Functor.discard x) := h.answering

/-- An answer made of two answers. -/
theorem both {f : α → β → γ} (first : Tallies w since ns bs x) (second : ∀ t, since ≤ t → Tallies w t ms cs y) :
    Tallies w since (ns ++ ms) (bs ++ cs) (x >>= fun a => y >>= fun b => Pure.pure (f a b)) :=
  first.bind fun _ t le => (second t le).answering

/-- Two steps taken as one, before a third one. -/
theorem grouped {f : α → Resolve β} {g : β → Resolve γ} (h : Tallies w since ns bs ((x >>= f) >>= g)) :
    Tallies w since ns bs (x >>= fun a => f a >>= g) := h

/-- Nodes that are passed over, before those that are resolved. -/
theorem skipping (hold : Nodes.Hold ms cs) (h : Tallies w since ns bs x) :
    Tallies w since (ms ++ ns) (cs ++ bs) x := by
  have passed : Tallies w since ms cs (Pure.pure () : Resolve Unit) := idle hold ()
  exact passed.seq fun _ le => h.from_later le

/-- Nodes that are passed over, after those that are resolved. -/
theorem passing (hold : Nodes.Hold ms cs) (h : Tallies w since ns bs x) :
    Tallies w since (ns ++ ms) (bs ++ cs) x := by
  intro sorted s t ready level le
  obtain ⟨u, es, hu, le₁, around, ready₁, adds⟩ := h sorted.left s t ready level le
  have walk : Tallied w s t (ns ++ ms) (bs ++ cs) u.progress := .after ready le₁ around ready₁ adds sorted.distinct
    ⟨u, [], rfl, le_refl u, .refl u, ready₁, .nothing hold rfl⟩
  rw [← hu] at walk
  exact walk

/-! Steps of which more is known. -/

/-- A step that defines nothing, with what is known of its answer. -/
theorem after {post : α → Moment → Prop} {f : α → Resolve β} (silent : Nodes.Silent ns)
    (first : Walks w since ns x post) (second : ∀ a t, since ≤ t → post a t → Tallies w t ms bs (f a)) :
    Tallies w since (ns ++ ms) bs (x >>= f) := by
  intro sorted s t ready level le
  have fine : ∀ n ∈ ns, Fine w n := fun n hn => (sorted.left.fine n hn).of_strict
  exact (first fine s t ready le).before silent ready level sorted.distinct fun a u le₁ ready₁ level₁ hpost =>
    second a u (le.trans le₁) hpost sorted.right s u ready₁ level₁ (le_refl u)

/-- A step whose answer decides how to go on, but that resolves nothing itself. -/
theorem bind_nil {post : α → Moment → Prop} {f : α → Resolve β} (first : Walks w since [] x post)
    (second : ∀ a t, since ≤ t → post a t → Tallies w t ms bs (f a)) : Tallies w since ms bs (x >>= f) :=
  after Nodes.silent_nil first second

/-- A step that defines nothing. -/
theorem quiet {post : α → Moment → Prop} (silent : Nodes.Silent ns) (h : Walks w since ns x post) :
    Tallies w since ns [] x := by
  have walk := after silent h fun a _ _ _ => pure a
  rw [List.append_nil] at walk
  exact walk

/-- A step that resolves nothing. -/
theorem still {post : α → Moment → Prop} (h : Walks w since [] x post) : Tallies w since [] [] x := quiet Nodes.silent_nil h

/-- A step that only mentions names. -/
theorem mentioning {post : α → Moment → Prop} {names : List Ident} (h : Walks w since (Nodes.mentions names) x post) :
    Tallies w since (Nodes.mentions names) [] x :=
  quiet (Nodes.silent_mentions names) h

end Tallies
end JavaIndex
