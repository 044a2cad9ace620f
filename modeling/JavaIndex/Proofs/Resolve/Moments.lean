import JavaIndex.Proofs.Resolve.ClassNames
import JavaIndex.Proofs.Resolve.Plan
import JavaIndex.Resolve.Unit
import Mathlib.Data.List.Forall2
import Mathlib.Order.Defs.PartialOrder

/-! Moments of the way through a file. Beside the state of the resolver a moment has a ledger, which no
program needs: it remembers for which identifier each number was given out, and what was defined over each
identifier. Numbers start again with each epoch. Whatever is said of a moment here stays true afterwards. -/
namespace JavaIndex

/-- A number given out for something at a stretch of the text, inside an owner. -/
structure Grant where
  owner : List Descriptor
  number : Nat
  epoch : Nat
  span : Span

/-- The symbol that a number makes. -/
def Grant.symbol (g : Grant) : SymbolId := ⟨.local, g.owner ++ [.local g.number]⟩

/-- A definition. Its epoch is that of the body which begins with it. -/
structure Entry where
  name : Ident
  symbol : SymbolId
  epoch : Nat

structure Ledger where
  grants : List Grant
  entries : List Entry
  epoch : Nat

structure Moment where
  progress : Progress
  ledger : Ledger

namespace Moment

def locals (t : Moment) : Std.TreeMap String ClassInfo := t.progress.environment.locals

def depth (t : Moment) : Nat := t.progress.ids.depth

/-- No declaration has been passed over for want of a name. -/
def Clean (t : Moment) : Prop :=
  ∀ d ∈ t.progress.problems, d.problem.code ≠ .malformedContext

/-- The epoch of a body that begins now. -/
def bodyEpoch (t : Moment) : Nat :=
  if t.progress.ids.policy = .perMethod ∧ t.depth = 0 then t.ledger.epoch + 1 else t.ledger.epoch

/-- What the ledger of one moment says, that of another says too. -/
structure Keeps (t u : Moment) : Prop where
  grants : ∀ g ∈ t.ledger.grants, g ∈ u.ledger.grants
  entries : ∀ e ∈ t.ledger.entries, e ∈ u.ledger.entries

/-- One moment comes before another, and the bodies open at the first are still open at the second. -/
structure Before (t u : Moment) : Prop extends Keeps t u where
  locals : ∀ (name : String) (c : ClassInfo), t.locals[name]? = some c → u.locals[name]? = some c
  typeParams : ∀ (name : String) (vars : List (String × Symbol)),
    t.progress.typeParams[name]? = some vars → u.progress.typeParams[name]? = some vars
  classCount : t.progress.classCount ≤ u.progress.classCount
  depth : t.depth ≤ u.depth
  epoch : 0 < t.depth → u.ledger.epoch = t.ledger.epoch
  clean : u.Clean → t.Clean

/-- The declarations and the bodies around are the same at both moments. -/
structure Around (t u : Moment) : Prop where
  depth : u.depth = t.depth
  enclosing : u.progress.enclosing = t.progress.enclosing

theorem Around.refl (t : Moment) : Around t t := ⟨rfl, rfl⟩

theorem Around.trans {t u v : Moment} (first : Around t u) (second : Around u v) : Around t v :=
  ⟨second.depth.trans first.depth, second.enclosing.trans first.enclosing⟩

theorem Keeps.of_eq {t u : Moment} (same : u.ledger = t.ledger) : Keeps t u :=
  ⟨fun _ h => same ▸ h, fun _ h => same ▸ h⟩

theorem Keeps.trans {t u v : Moment} (first : Keeps t u) (second : Keeps u v) : Keeps t v :=
  ⟨fun g h => second.grants g (first.grants g h), fun e h => second.entries e (first.entries e h)⟩

theorem Before.refl (t : Moment) : Before t t :=
  ⟨.of_eq rfl, fun _ _ h => h, fun _ _ h => h, le_refl _, le_refl _, fun _ => rfl, id⟩

theorem Before.trans {t u v : Moment} (first : Before t u) (second : Before u v) : Before t v where
  toKeeps := first.toKeeps.trans second.toKeeps
  locals name c h := second.locals name c (first.locals name c h)
  typeParams name vars h := second.typeParams name vars (first.typeParams name vars h)
  classCount := first.classCount.trans second.classCount
  depth := first.depth.trans second.depth
  epoch h := (second.epoch (h.trans_le first.depth)).trans (first.epoch h)
  clean h := first.clean (second.clean h)

instance : Preorder Moment where
  le := Before
  le_refl := Before.refl
  le_trans _ _ _ := Before.trans

theorem keeps_of_le {t u : Moment} (le : t ≤ u) : Keeps t u := le.toKeeps

/-- A symbol of the universe has been defined over an identifier. -/
def Defines (t : Moment) (i : Ident) (s : Symbol) : Prop :=
  ∃ e ∈ t.ledger.entries, e.name = i ∧ e.symbol = s.id

/-- A symbol was made for a stretch of the text, inside an owner. -/
def Granted (t : Moment) (owner s : Symbol) (span : Span) : Prop :=
  ∃ g ∈ t.ledger.grants, s.id = g.symbol ∧ g.owner = owner.path ∧ g.span = span

theorem Defines.mono {t u : Moment} {i : Ident} {s : Symbol} (h : t.Defines i s) (le : t.Keeps u) :
    u.Defines i s := by
  obtain ⟨e, he, rest⟩ := h
  exact ⟨e, le.entries e he, rest⟩

theorem Granted.mono {t u : Moment} {owner s : Symbol} {span : Span} (h : t.Granted owner s span)
    (le : t.Keeps u) : u.Granted owner s span := by
  obtain ⟨g, hg, rest⟩ := h
  exact ⟨g, le.grants g hg, rest⟩

end Moment

/-! Where a local declaration belongs. -/

namespace Descriptor

/-- The step is a number. -/
def isLocal : Descriptor → Bool
  | .local _ => true
  | .package _ | .type _ | .term _ | .method _ _ | .typeParameter _ => false

end Descriptor

/-- The declaration outside all bodies that a path leads to or into. -/
def house (path : List Descriptor) : List Descriptor := path.takeWhile (!·.isLocal)

/-- That declaration is a type: an initializer is around, or an annotation, but no method and no field. -/
def InType (path : List Descriptor) : Prop := ∃ name, (house path).getLast? = some (.type name)

/-- What belongs to a method or a field is met in the epoch of its body. -/
def HousedAt (t : Moment) (epoch : Nat) (path : List Descriptor) : Prop :=
  InType path ∨ ∃ e ∈ t.ledger.entries, e.symbol = ⟨.project, house path⟩ ∧ e.epoch = epoch

/-- What belongs to a method or a field is met in its body. -/
def Housed (t : Moment) (path : List Descriptor) : Prop :=
  InType path ∨ (0 < t.depth ∧ HousedAt t t.ledger.epoch path)

theorem house_append_local (path : List Descriptor) (number : Nat) :
    house (path ++ [.local number]) = house path := by
  induction path with
  | nil => rfl
  | cons step path ih =>
    cases h : step.isLocal <;> simp_all [house]

theorem HousedAt.mono {t u : Moment} {epoch : Nat} {path : List Descriptor}
    (h : HousedAt t epoch path) (le : t.Keeps u) : HousedAt u epoch path := by
  obtain h | ⟨e, he, rest⟩ := h
  · exact .inl h
  · exact .inr ⟨e, le.entries e he, rest⟩

theorem Housed.mono {t u : Moment} {path : List Descriptor} (h : Housed t path) (le : t ≤ u) :
    Housed u path := by
  obtain h | ⟨inside, h⟩ := h
  · exact .inl h
  · refine .inr ⟨inside.trans_le le.depth, ?_⟩
    rw [le.epoch inside]
    exact h.mono le.toKeeps

theorem Housed.append_local {t : Moment} {path : List Descriptor} (h : Housed t path) (number : Nat) :
    Housed t (path ++ [.local number]) := by
  simpa [Housed, HousedAt, InType, house_append_local] using h

theorem Housed.at_epoch {t : Moment} {path : List Descriptor} (h : Housed t path) :
    HousedAt t t.ledger.epoch path := by
  obtain h | ⟨-, h⟩ := h
  · exact .inl h
  · exact h

/-- A body does not begin a new epoch inside another one. -/
theorem Housed.at_bodyEpoch {t : Moment} {path : List Descriptor} (h : Housed t path) :
    HousedAt t t.bodyEpoch path := by
  obtain h | ⟨inside, h⟩ := h
  · exact .inl h
  · have : t.bodyEpoch = t.ledger.epoch := by
      unfold Moment.bodyEpoch
      rw [if_neg (by omega)]
    rw [this]
    exact h

/-! What is known of the classes in bodies. -/

/-- The symbol of a local declaration that belongs to an owner. -/
def Symbol.NumberedIn (owner s : Symbol) : Prop := ∃ number, s.id = ⟨.local, owner.path ++ [.local number]⟩

theorem Moment.Granted.numberedIn {t : Moment} {owner s : Symbol} {span : Span} (h : t.Granted owner s span) :
    owner.NumberedIn s := by
  obtain ⟨g, -, same, owned, -⟩ := h
  exact ⟨g.number, by rw [same, Grant.symbol, owned]⟩

/-- A method that a class has without declaring it. -/
def ImpliedIn (b : ClassSyntax) (m : MethodInfo) : Prop :=
  (b.body.kind = .enumType ∧ m.name ∈ ["values", "valueOf"]) ∨
    ∃ p ∈ b.body.components, m.name = p.name.text ∧ m.params = []

/-- The place inside a method where the types of its head are read when a class in a body is described. -/
def headPlace (place : Place) (m : MethodDecl) : Place :=
  let scopes := place.scopes.pushTypeParams m.typeParams fun p =>
    some (Symbol.placeholder [p.name.text] false)
  { place with scopes }

/-- The description of a method of a class in a body. -/
structure DescribedMethod (t : Moment) (owner : Symbol) (env : Environment) (place : Place)
    (b : ClassSyntax) (m : MethodDecl) (info : MethodInfo) : Prop where
  granted : t.Granted owner info.symbol m.name.range
  name : info.name = MemberNames.counted m
  params : info.params =
    (env.callableTypes (headPlace place m) (env.componentTypes place b.body.components) m).params

/-- The description of a class in a body: its members in their order, each with a number of its own. -/
structure LocalBody (t : Moment) (c : ClassInfo) (vars : List (String × Symbol)) (b : ClassSyntax) :
    Prop where
  origin : c.origin = .local
  symbol : ∀ i, b.name? = some i → ∃ o, t.Granted o c.symbol i.range
  fields : List.Forall₂ (fun i (f : FieldInfo) =>
    f.name = i.text ∧ t.Granted c.symbol f.symbol i.range) b.body.fieldNames c.fields
  callables : ∃ env place, (∃ implied, (∀ m ∈ implied, ImpliedIn b m ∧ c.symbol.NumberedIn m.symbol) ∧ ∃ own,
      c.methods = own ++ implied ∧
        List.Forall₂ (DescribedMethod t c.symbol env place b) b.body.methods own) ∧
    List.Forall₂ (DescribedMethod t c.symbol env place b) b.body.constructors c.constructors
  typeParams : List.Forall₂ (fun p v =>
    v.1 = p.name.text ∧ t.Granted c.symbol v.2 p.name.range) b.typeParams vars

theorem DescribedMethod.mono {t u : Moment} {owner : Symbol} {env : Environment} {place : Place}
    {b : ClassSyntax} {m : MethodDecl} {info : MethodInfo}
    (h : DescribedMethod t owner env place b m info) (le : t.Keeps u) :
    DescribedMethod u owner env place b m info :=
  ⟨h.granted.mono le, h.name, h.params⟩

theorem LocalBody.mono {t u : Moment} {c : ClassInfo} {vars : List (String × Symbol)} {b : ClassSyntax}
    (h : LocalBody t c vars b) (le : t.Keeps u) : LocalBody u c vars b where
  origin := h.origin
  symbol i named :=
    let ⟨o, granted⟩ := h.symbol i named
    ⟨o, granted.mono le⟩
  fields := h.fields.imp fun _ _ f => ⟨f.1, f.2.mono le⟩
  callables := by
    obtain ⟨env, place, ⟨implied, free, own, split, methods⟩, constructors⟩ := h.callables
    exact ⟨env, place, ⟨implied, free, own, split, methods.imp fun _ _ m => m.mono le⟩,
      constructors.imp fun _ _ m => m.mono le⟩
  typeParams := h.typeParams.imp fun _ _ v => ⟨v.1, v.2.mono le⟩

end JavaIndex
