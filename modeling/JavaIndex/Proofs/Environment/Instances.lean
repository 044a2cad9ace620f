import JavaIndex.Proofs.Environment.Hierarchy
import JavaIndex.Proofs.JavaType.Substitution

/-! A generic class and its instances. Where classes are declared as they should be, what an instance inherits
is what the class itself inherits, with the type arguments of the instance in place of its type variables: the
types that are put in on the way up make no difference to the way. -/
namespace JavaIndex

namespace ClassInfo

variable {c : ClassInfo} {args : List JavaType}

/-- What the class gives to its type variables, given other types in turn. -/
theorem bindings_followedBy (c : ClassInfo) (args : List JavaType) (later : JavaType.Bindings) :
    c.bindings (args.map (·.substitute later)) = (c.bindings args).followedBy later := by
  unfold bindings
  rw [List.length_map]
  split
  · rw [JavaType.Bindings.ofLists_followedBy]
  · rfl

theorem bindings_complete (distinct : c.typeParams.Nodup) (length : args.length = c.typeParams.length) :
    ∀ n ∈ c.typeParams, (c.bindings args).Binds n := by
  intro n hn
  rw [bindings, if_pos length]
  exact JavaType.Bindings.binds_ofLists distinct length hn

/-- The class as it sees itself, given types for its type variables. -/
theorem bindings_variables (distinct : c.typeParams.Nodup) (length : args.length = c.typeParams.length) :
    (c.bindings (c.typeParams.map .variable)).followedBy (c.bindings args) = c.bindings args := by
  rw [← bindings_followedBy]
  congr 1
  rw [bindings, if_pos length]
  exact JavaType.substitute_variables distinct length

end ClassInfo

/-- The field as it is seen with types for type variables. -/
def FieldInfo.substitute (f : FieldInfo) (b : JavaType.Bindings) : FieldInfo :=
  { f with type := f.type.substitute b }

namespace Ancestor

/-- The class as it is seen once further type variables have been given types. -/
def followedBy (a : Ancestor) (later : JavaType.Bindings) : Ancestor := ⟨a.info, a.bindings.followedBy later⟩

/-- All type variables of the class are given types. -/
def Complete (a : Ancestor) : Prop := ∀ n ∈ a.info.typeParams, a.bindings.Binds n

end Ancestor

namespace Environment

variable {env : Environment} {later : JavaType.Bindings}

/-- The classes are declared as they should be: with different type variables, and what they extend are classes
that are given all their type arguments. Fields and supertypes mention no type variables but those of their class. -/
structure WellApplied (env : Environment) : Prop where
  distinct : ∀ c, env.Holds c → c.typeParams.Nodup
  applied : ∀ c, env.Holds c → ∀ s ∈ c.supertypes, ∃ name args, s = .named name args ∧
    ∀ d, env.class? name = some d → args.length = d.typeParams.length
  supertypes : ∀ c, env.Holds c → ∀ s ∈ c.supertypes, s.mentions ⊆ c.typeParams
  fields : ∀ c, env.Holds c → ∀ f ∈ c.fields, f.type.mentions ⊆ c.typeParams

/-- A use of a class with types put into its arguments. -/
theorem instance?_substitute (env : Environment) (name : String) (args : List JavaType)
    (later : JavaType.Bindings) :
    env.instance? (JavaType.substitute later (.named name args)) =
      (env.instance? (.named name args)).map (·.followedBy later) := by
  rw [JavaType.substitute, JavaType.substituteAll_eq, instance?, instance?, Option.map_map]
  congr 1
  funext c
  rw [c.bindings_followedBy]
  rfl

namespace WellApplied

variable (applied : env.WellApplied)

include applied

theorem parents_followedBy {a : Ancestor} (held : env.Holds a.info) (complete : a.Complete) :
    env.parents (a.followedBy later) = (env.parents a).map (·.followedBy later) := by
  unfold parents
  rw [List.map_filterMap]
  refine List.filterMap_congr fun s hs => ?_
  have bound : ∀ n ∈ s.mentions, a.bindings.Binds n := fun n hn =>
    complete n (applied.supertypes _ held s hs hn)
  obtain ⟨name, args, rfl, -⟩ := applied.applied _ held s hs
  calc env.instance? (JavaType.substitute (a.bindings.followedBy later) (.named name args))
      = env.instance? ((JavaType.substitute a.bindings (.named name args)).substitute later) := by
        rw [JavaType.substitute_substitute later bound]
    _ = (env.instance? (JavaType.substitute a.bindings (.named name args))).map (·.followedBy later) := by
        rw [JavaType.substitute, instance?_substitute]

theorem parents_complete {a p : Ancestor} (held : env.Holds a.info) (hp : p ∈ env.parents a) : p.Complete := by
  obtain ⟨s, hs, found⟩ := List.mem_filterMap.mp hp
  obtain ⟨name, args, rfl, length⟩ := applied.applied _ held s hs
  rw [JavaType.substitute, JavaType.substituteAll_eq] at found
  obtain ⟨d, known, rfl⟩ := Option.map_eq_some_iff.mp found
  have length : (args.map (JavaType.substitute a.bindings)).length = d.typeParams.length := by
    rw [List.length_map, length d known]
  exact ClassInfo.bindings_complete (applied.distinct d ⟨name, known⟩) length

end WellApplied

theorem origin?_class {c : ClassInfo} (known : env.class? c.qualifiedName = some c) (types : List JavaType) :
    env.origin? (.named c.qualifiedName types) = some ⟨c, c.bindings types⟩ := by
  show (env.class? c.qualifiedName).map (fun d => (⟨d, d.bindings types⟩ : Ancestor)) = _
  rw [known, Option.map_some]

/-- The class above all others is appended without types for its type variables, and stays so. -/
theorem root_followedBy (env : Environment) (later : JavaType.Bindings) :
    env.root?.toList.map (·.followedBy later) = env.root?.toList := by
  unfold root?
  cases env.class? objectName <;> rfl

/-- A field that a class declares, seen once further type variables have been given types. -/
theorem declaredField_followedBy {a : Ancestor} {name : String}
    (bound : ∀ f, a.info.field? name = some f → ∀ n ∈ f.type.mentions, a.bindings.Binds n) :
    env.declaredField? (a.followedBy later) name = (env.declaredField? a name).map (·.substitute later) := by
  unfold declaredField?
  rw [show (a.followedBy later).info = a.info from rfl]
  cases declared : a.info.field? name with
  | some f =>
    simp only [Option.map_some, FieldInfo.substitute, JavaType.substitute_substitute later (bound f declared)]
    rfl
  | none =>
    cases made : env.external.constant? a.info name with
    | none => rfl
    | some f =>
      have int : f.type = .int := (env.external.constant?_generated made).1
      simp only [Option.map_some, FieldInfo.substitute, int]
      rw [JavaType.int, JavaType.substitute, ← JavaType.int, ← int]

theorem findSome?_congr {α β : Type} {l : List α} {f g : α → Option β} (same : ∀ a ∈ l, f a = g a) :
    l.findSome? f = l.findSome? g := by
  induction l with
  | nil => rfl
  | cons a l ih =>
    obtain ⟨here, later⟩ := List.forall_mem_cons.mp same
    rw [List.findSome?_cons, List.findSome?_cons, here, ih later]

namespace WellApplied

variable (applied : env.WellApplied) {c : ClassInfo} {args : List JavaType}

include applied

/-- The classes above an instance are those above the class, seen with the type arguments of the instance. All but
one that is appended have types for all their type variables. -/
theorem hierarchy_instance (known : env.class? c.qualifiedName = some c)
    (length : args.length = c.typeParams.length) :
    env.hierarchy (.named c.qualifiedName args) =
        (env.hierarchy c.selfType).map (·.followedBy (c.bindings args)) ∧
      ∀ a ∈ env.hierarchy c.selfType, env.Holds a.info ∧ (a.Complete ∨ env.root? = some a) := by
  let own := c.typeParams.map JavaType.variable
  have distinct := applied.distinct c ⟨_, known⟩
  have complete : Ancestor.Complete ⟨c, c.bindings own⟩ :=
    ClassInfo.bindings_complete distinct (List.length_map _)
  obtain ⟨above, search, whole⟩ := hierarchy_searched (origin?_class known own)
  obtain ⟨seen, search', whole'⟩ := hierarchy_searched (origin?_class known args)
  obtain ⟨mapped, good⟩ := search.map (f := (·.followedBy (c.bindings args)))
    (P := fun a => env.Holds a.info ∧ a.Complete) (fun _ => rfl)
    (fun a good => ⟨applied.parents_followedBy good.1 good.2, fun p hp =>
      ⟨parents_hold hp, applied.parents_complete good.1 hp⟩⟩)
    (by simpa using ⟨⟨_, known⟩, complete⟩)
  have here : Ancestor.followedBy ⟨c, c.bindings own⟩ (c.bindings args) = ⟨c, c.bindings args⟩ :=
    congrArg (Ancestor.mk c) (ClassInfo.bindings_variables distinct length)
  rw [List.map_singleton, here] at mapped
  have same : seen = above.map (·.followedBy (c.bindings args)) := search'.unique mapped
  have names : seen.map Ancestor.name = above.map Ancestor.name := by rw [same, List.map_map]; rfl
  refine ⟨?_, fun a ha => ?_⟩
  · rw [whole', ClassInfo.selfType, whole, List.map_append, names, ← same]
    split
    · rfl
    · rw [root_followedBy]
  · rw [ClassInfo.selfType, whole] at ha
    obtain ha | ha := List.mem_append.mp ha
    · exact ⟨(good a ha).1, .inl (good a ha).2⟩
    · split at ha
      · cases ha
      · have isRoot := Option.mem_toList.mp ha
        exact ⟨root_holds isRoot, .inr isRoot⟩

/-- The fields of an instance are those of the class, with the type arguments of the instance in place of its type
variables. The class above all others may be appended without types for its type variables, so that no field
that mentions them is asked for there. -/
theorem field_instance (known : env.class? c.qualifiedName = some c) (length : args.length = c.typeParams.length)
    (name : String)
    (plain : ∀ o f, env.class? objectName = some o → o.field? name = some f → f.type.mentions = []) :
    env.field? (.named c.qualifiedName args) name =
      (env.field? c.selfType name).map fun f => { f with type := f.type.substitute (c.bindings args) } := by
  obtain ⟨same, above⟩ := applied.hierarchy_instance known length
  unfold field?
  rw [same, List.findSome?_map, List.map_findSome?]
  refine findSome?_congr fun a ha => declaredField_followedBy fun f declared n hn => ?_
  obtain ⟨held, complete | root⟩ := above a ha
  · exact complete n (applied.fields _ held f (List.mem_of_find?_eq_some declared) hn)
  · obtain ⟨o, found, rfl⟩ := Option.map_eq_some_iff.mp root
    simp [plain o f found declared] at hn

end WellApplied

/-- A class with one type variable, which is the type of its only field. -/
def holder (package simple : String) : ClassInfo :=
  let field := (Symbol.package package .external).child (.term "value") .field
  .ofLibrary package simple ["T"] none [] [⟨"value", .variable "T", false, field⟩]

/-- A class that extends a holder of holders. -/
def pair : ClassInfo :=
  .ofLibrary "p" "Pair" ["S", "T"] (some (.named "p.Box" [.named "p.Box" [.variable "T"]])) [] []

/-- The class and what it extends. -/
def pairs : Environment := ofLibrary [holder "p" "Box", pair]

theorem pairs_wellApplied : pairs.WellApplied := by
  have held : ∀ c, pairs.Holds c → c = holder "p" "Box" ∨ c = pair := by
    rintro c ⟨name, found⟩
    simpa using mem_of_ofLibrary found
  refine ⟨fun c hc => ?_, fun c hc s hs => ?_, fun c hc s hs => ?_, fun c hc f hf => ?_⟩
  · obtain rfl | rfl := held c hc <;> decide
  · obtain rfl | rfl := held c hc
    · cases hs
    · obtain rfl := List.mem_singleton.mp hs
      have known : pairs.class? "p.Box" = some (holder "p" "Box") := by rfl
      refine ⟨_, _, rfl, fun d found => ?_⟩
      cases known.symm.trans found
      rfl
  · obtain rfl | rfl := held c hc
    · cases hs
    · obtain rfl := List.mem_singleton.mp hs
      decide
  · obtain rfl | rfl := held c hc
    · obtain rfl := List.mem_singleton.mp hf
      decide
    · cases hf

theorem field_instance_pair :
    pairs.field? (.named pair.qualifiedName [.string, .object]) "value" =
        ((pairs.field? pair.selfType "value").map fun f =>
          { f with type := f.type.substitute (pair.bindings [.string, .object]) }) ∧
      (pairs.field? pair.selfType "value").map (·.type.text) = some "p.Box<T>" := by
  have known : pairs.class? pair.qualifiedName = some pair := by rfl
  have noObject : pairs.class? objectName = none := by rfl
  refine ⟨pairs_wellApplied.field_instance known rfl "value" fun o f found => ?_, by decide +kernel⟩
  cases noObject.symm.trans found

/-- A class with a type variable that extends nothing. -/
def alone : ClassInfo := .ofLibrary "a" "I" ["T"] none [] []

/-- The class, and a class above all others that has a type variable. -/
def genericRoot : Environment := ofLibrary [holder "java.lang" "Object", alone]

theorem genericRoot_wellApplied : genericRoot.WellApplied := by
  have plain : ∀ c, genericRoot.Holds c →
      c.supertypes = [] ∧ c.typeParams = ["T"] ∧ ∀ f ∈ c.fields, f.type.mentions = ["T"] := by
    rintro c ⟨name, found⟩
    have among := mem_of_ofLibrary found
    simp only [List.mem_cons, List.not_mem_nil, or_false] at among
    obtain rfl | rfl := among
    · exact ⟨rfl, rfl, by simp [holder, ClassInfo.ofLibrary, JavaType.mentions]⟩
    · exact ⟨rfl, rfl, nofun⟩
  refine ⟨fun c hc => ?_, fun c hc s hs => ?_, fun c hc s hs => ?_, fun c hc f hf => ?_⟩
  · simp [(plain c hc).2.1]
  · simp [(plain c hc).1] at hs
  · simp [(plain c hc).1] at hs
  · rw [(plain c hc).2.1, (plain c hc).2.2 f hf]
    exact fun _ h => h

/-- Where the class above all others is appended, its fields are seen without types for its type variables. -/
theorem field_appended_bare :
    ¬ ∀ (env : Environment) (c : ClassInfo) (args : List JavaType) (name : String), env.WellApplied →
      env.class? c.qualifiedName = some c → args.length = c.typeParams.length →
      env.field? (.named c.qualifiedName args) name =
        (env.field? c.selfType name).map fun f => { f with type := f.type.substitute (c.bindings args) } := by
  intro natural
  have seen : (genericRoot.field? (.named alone.qualifiedName [.string]) "value").map (·.type.text) = some "T" := by
    decide +kernel
  rw [natural genericRoot alone [.string] "value" genericRoot_wellApplied (by rfl) rfl] at seen
  exact absurd seen (by decide +kernel)

end Environment
end JavaIndex
