import JavaIndex.Proofs.Environment.Homes
import JavaIndex.Proofs.Project.Sites

/-! The classes of a project found twice. None of the steps asks where the classes known so far are
declared. -/
namespace JavaIndex

namespace Homes

/-- A class in its new place, described so far. -/
def builder (h : Homes) (b : ClassBuilder) : ClassBuilder := { b with info := h.classInfo b.info }

end Homes

namespace Site

variable {h : Homes} {env env' : Environment} (moves : h.Moves env env') (s : Site)

include moves

theorem scopes_moved : s.scopes env' = h.scopes (s.scopes env) := by
  have outermost : Scopes.push [] .package (some (env'.packageSymbol s.package)) =
      h.scopes (Scopes.push [] .package (some (env.packageSymbol s.package))) := by
    rw [moves.packageSymbol]
    rfl
  unfold scopes
  rw [outermost]
  generalize Scopes.push [] .package _ = outside
  induction (s.name :: s.outer).reverse generalizing outside with
  | nil => rfl
  | cons name names ih =>
    rw [List.foldl_cons, List.foldl_cons, ← ih, moves.class?]
    cases env.class? name with
    | none => rfl
    | some c =>
      simp only [Option.map_some]
      rw [h.scopes_pushClass, h.classInfo_typeParamSymbols]

theorem place_moved (config : Config) : s.place env' config = h.place (s.place env config) := by
  rw [place, place, scopes_moved moves, Homes.place]

end Site

namespace Build

/-- Two steps of a description that do the same, in whichever place the class is declared. -/
def Alike {α : Type} (h : Homes) (x y : Build α) : Prop :=
  ∀ b, y (h.builder b) = ((x b).1, h.builder (x b).2)

namespace Alike

variable {h : Homes} {α β γ : Type} {x y : Build α}

theorem pure (a : α) : Alike h (Pure.pure a) (Pure.pure a) := fun _ => rfl

theorem bind {f g : α → Build β} (first : Alike h x y) (second : ∀ a, Alike h (f a) (g a)) :
    Alike h (x >>= f) (y >>= g) := by
  intro b
  rcases run : x b with ⟨result, after⟩
  have moved : y (h.builder b) = (result, h.builder after) := by rw [first b, run]
  cases result with
  | ok a => rw [run_bind run, run_bind moved, second a after]
  | error e => rw [run_failed run, run_failed moved]

theorem get {f g : ClassBuilder → Build α} (each : ∀ b, Alike h (f b) (g (h.builder b))) :
    Alike h (MonadState.get >>= f) (MonadState.get >>= g) :=
  fun b => each b b

theorem set (b : ClassBuilder) : Alike h (MonadStateOf.set b) (MonadStateOf.set (h.builder b)) :=
  fun _ => rfl

theorem modified {f : ClassBuilder → ClassBuilder} (each : ∀ b, f (h.builder b) = h.builder (f b)) :
    Alike h (modify f) (modify f) := by
  intro b
  change (Except.ok PUnit.unit, f (h.builder b)) = _
  rw [each]
  rfl

theorem attempt {x y : Build Symbol} (step : Alike h x y) : Alike h (Build.attempt x) (Build.attempt y) := by
  intro b
  rw [attempt_run (x := y) (step b), attempt_run (x := x) rfl]

theorem forM {f g : γ → Build Unit} (xs : List γ) (each : ∀ a ∈ xs, Alike h (f a) (g a)) :
    Alike h (xs.forM f) (xs.forM g) := by
  induction xs with
  | nil => exact pure _
  | cons a xs ih =>
    exact (each a List.mem_cons_self).bind fun _ => ih fun b hb => each b (List.mem_cons_of_mem a hb)

theorem name (decl : Declaration) : Alike h (Build.name decl) (Build.name decl) := by
  intro b
  rw [name_run, name_run]
  rfl

theorem field (name : String) (type : JavaType) (isStatic : Bool) (kind : SymbolKind) :
    Alike h (Build.field name type isStatic kind) (Build.field name type isStatic kind) :=
  (Alike.name _).bind fun _ => .bind (.modified fun _ => rfl) fun _ => pure _

theorem method (name : String) (params : List JavaType) (varargs : Bool) (returns : JavaType)
    (isStatic : Bool) : Alike h (Build.method name params varargs returns isStatic)
      (Build.method name params varargs returns isStatic) :=
  get fun b => (set { b with seen := b.seen.add name }).bind fun _ =>
    (Alike.name _).bind fun _ => .bind (.modified fun _ => rfl) fun _ => pure _

theorem constructor (params : List JavaType) (varargs : Bool) :
    Alike h (Build.constructor params varargs) (Build.constructor params varargs) :=
  get fun b => (set { b with seen := b.seen.add Symbol.constructorName }).bind fun _ =>
    (Alike.name _).bind fun _ => .bind (.modified fun _ => rfl) fun _ => pure _

end Alike

section

variable {h : Homes} {env env' : Environment} (moves : h.Moves env env') (place : Place)

theorem methodScopes_moved (b : ClassBuilder) (ss : Scopes) (m : MethodDecl) :
    methodScopes (h.builder b) (h.scopes ss) m = h.scopes (methodScopes b ss m) := by
  unfold methodScopes
  rw [h.scopes_pushTypeParams]
  rfl

theorem implied_alike (m : ImpliedMethod) : Alike h (implied m) (implied m) := (Alike.method _ _ _ _ _).attempt

theorem accessor_alike (component : Ident × JavaType) : Alike h (accessor component) (accessor component) := by
  apply Alike.get
  intro b
  change Alike h (if b.hasMethod component.1.text 0 then _ else _) (if b.hasMethod component.1.text 0 then _ else _)
  split
  · exact .pure _
  · exact implied_alike (.accessor component)

theorem heads_alike (body : ClassBody) (components : List (Ident × JavaType)) (self : JavaType) :
    Alike h (heads body components self) (heads body components self) := by
  refine .bind (.forM _ fun _ _ => (Alike.field _ _ _ _).attempt) fun _ => ?_
  exact .forM _ fun _ _ => (Alike.field _ _ _ _).attempt

include moves

theorem member_alike (body : ClassBody) (components : List (Ident × JavaType)) (m : Member) :
    Alike h (member env place body components m) (member env' (h.place place) body components m) := by
  cases m with
  | field d doc range =>
    rw [member, member]
    simp only [moves.convert]
    exact .forM _ fun v _ => (Alike.field _ _ _ _).attempt
  | method m =>
    apply Alike.get
    intro b
    have types : env'.callableTypes { h.place place with
        scopes := methodScopes (h.builder b) (h.place place).scopes m } components m =
        env.callableTypes { place with scopes := methodScopes b place.scopes m } components m := by
      rw [← moves.callableTypes, show (h.place place).scopes = h.scopes place.scopes from rfl, methodScopes_moved]
      rfl
    simp only [types]
    split
    · exact (Alike.constructor _ _).attempt
    · exact (Alike.method _ _ _ _ _).attempt
  | initializer isStatic body => exact .pure _
  | type d => exact .pure _

theorem members_alike (body : ClassBody) : Alike h (members env place body) (members env' (h.place place) body) := by
  apply Alike.get
  intro b
  simp only [moves.componentTypes, show (h.builder b).info.selfType = b.info.selfType from rfl]
  generalize env.componentTypes place body.components = components
  refine (heads_alike body components b.info.selfType).bind fun _ => ?_
  refine (Alike.forM _ fun m _ => member_alike moves place body components m).bind fun _ => ?_
  refine (Alike.forM _ fun c _ => accessor_alike c).bind fun _ => ?_
  split
  · exact .forM _ fun m _ => implied_alike m
  · exact .pure _

end

end Build

namespace ProjectClasses

variable {h : Homes} {env env' : Environment} (moves : h.Moves env env') (config : Config) (s : Site) (c : ClassInfo)

include moves

theorem withSupertypes_moved : withSupertypes env' config s (h.classInfo c) =
    h.classInfo (withSupertypes env config s c) := by
  unfold withSupertypes
  rw [s.place_moved moves, moves.supertypesOf]
  rfl

theorem withMembers_moved : withMembers env' config s (h.classInfo c) =
    h.classInfo (withMembers env config s c) := by
  unfold withMembers
  rw [s.place_moved moves]
  exact congrArg (fun p : Except NamingError Unit × ClassBuilder => p.2.info)
    (Build.members_alike moves (s.place env config) (.ofDecl s.decl) (.ofHeader c))

end ProjectClasses
end JavaIndex
